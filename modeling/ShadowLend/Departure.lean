import ShadowLend.Exits
import ShadowLend.Interference
import ShadowLend.Wealth

/-! A wallet that can pay its debts can leave. It repays them and takes its deposits out,
in whatever order of the markets, and ends with all it had in its own accounts. -/

namespace ShadowLend

open Outcome Devnet

/-- A repayment of everything owed: `repay` takes the debt where it is asked for more. -/
def payOff (rt : Runtime) (user : Signer) (s : State) (mint : Pubkey) : Except ProgramError State :=
  repay rt s user mint ⟨2 ^ 64 - 1, by decide⟩

def takeOut (rt : Runtime) (user : Signer) (s : State) (place : Pubkey × Pubkey) :
    Except ProgramError State :=
  leave rt place.1 place.2 s user

def Priced (rt : Runtime) (s : State) (mint priceUpdate : Pubkey) : Prop :=
  ∃ market price, s.markets.lookup mint = some market ∧
    Quotes rt s priceUpdate market.feedId price ∧ price.converts mintDecimals

section Frame

variable {rt : Runtime} {s s' : State} {a : Action} {kind : MarketActionKind} {user : Signer}
variable {mint : Pubkey}

/-- Of the token accounts the four instructions of a user change its own one of the mint,
which they open where it is missing, and the vault. -/
theorem touch_tokens (acts : a.touch = some (kind, user, mint)) (step : Step rt s a s') :
    ∃ prepared, initAssociatedToken s.tokens user.pubkey mint = .ok prepared ∧
      (∀ key, s'.tokens.identityAt key = prepared.identityAt key) ∧
      ∀ key, key ≠ .vault mint → key ≠ .associatedToken user.pubkey mint →
        s'.tokens.amountAt key = s.tokens.amountAt key := by
  obtain ⟨move⟩ := step_move acts step
  have moved := move.paid
  rw [move.result]
  refine ⟨_, move.ready, fun key => transferTokens_identity moved key, ?_⟩
  intro key vault wallet
  have kept := (transferTokens_moves moved (payment_apart kind user mint)).2.2 key
  have before := initAssociatedToken_amountAt move.ready key
  cases kind with
  | supply | repay => exact (kept wallet vault).trans before
  | withdraw | borrow => exact (kept vault wallet).trans before

/-- What a wallet's own instruction in one market leaves of its others. -/
structure Elsewise (rt : Runtime) (user : Signer) (mint : Pubkey) (s s' : State) : Prop where
  owed : ∀ other, other ≠ mint → s'.owed (user.pubkey, other) = s.owed (user.pubkey, other)
  deposited : ∀ other, other ≠ mint →
    s'.deposited (user.pubkey, other) = s.deposited (user.pubkey, other)
  cash : ∀ other, other ≠ mint → s'.cash other = s.cash other
  funds : ∀ other, other ≠ mint → ∀ amount, Funds s user other amount → Funds s' user other amount
  wallets : ∀ other, WalletUsable s user other → WalletUsable s' user other
  priced : ∀ other priceUpdate, Priced rt s other priceUpdate → Priced rt s' other priceUpdate

theorem touch_elsewise (linked : Linked rt s) (acts : a.touch = some (kind, user, mint))
    (step : Step rt s a s') : Elsewise rt user mint s s' := by
  have touches : a.touch.isSome := by rw [acts]; rfl
  have clock := touch_clock touches step
  obtain ⟨touch⟩ := step_touch linked acts step
  obtain ⟨prepared, ready, identities, amounts⟩ := touch_tokens acts step
  have positions (other : Pubkey) (distinct : other ≠ mint) :
      s'.positions.lookup (user.pubkey, other) = s.positions.lookup (user.pubkey, other) :=
    touch.lookup_other fun same => distinct (Prod.mk.inj same).2
  have identity (other : Pubkey) (distinct : other ≠ mint) :
      s'.tokens.identityAt (.associatedToken user.pubkey other) =
        s.tokens.identityAt (.associatedToken user.pubkey other) :=
    (identities _).trans (initAssociatedToken_identity ready (by simpa using distinct))
  refine ⟨?_, ?_, touch.elsewhere, ?_, ?_, ?_⟩
  · exact fun other distinct => step_owed linked step clock (positions other distinct)
  · intro other distinct
    rw [State.deposited, positions other distinct, State.deposited]
  · intro other distinct amount funds
    refine ⟨(identity other distinct).trans funds.wallet, ?_⟩
    rw [amounts _ (by simp) (by simpa using distinct)]
    exact funds.enough
  · intro other usable
    by_cases same : other = mint
    · subst other
      intro held found
      rw [identities, initAssociatedToken_own ready, Option.some.injEq] at found
      exact found.symm
    · intro held found
      exact usable held ((identity other same).symm.trans found)
  · rintro other priceUpdate ⟨market, price, found, quotes, converts⟩
    obtain ⟨market', found', advanced⟩ := step_market linked step found
    obtain ⟨update, owned, data, priced⟩ := quotes
    obtain ⟨id, account, rfl, held⟩ := heldForeign_of_priced owned
    have instant : a.passesTime = false := by
      cases a with
      | environment clock foreign => cases acts
      | _ => rfl
    have same : s'.accountInfo (.key id) = s.accountInfo (.key id) := by
      rw [held.accountInfo, (step_heldForeign step instant held).accountInfo]
    have feed : market'.feedId = market.feedId := congrArg MarketTerms.feedId advanced.terms
    exact ⟨market', price, found', ⟨update, same ▸ owned, same ▸ data, by rw [clock, feed, priced]⟩,
      converts⟩

end Frame

/-- On its way out a wallet has what it had, and can go on from where it is. -/
structure Leaving (rt : Runtime) (user : Signer) (s t : State) : Prop where
  reached : Reachable rt t
  wealth : ∀ mint, t.wealth user mint = s.wealth user mint
  wallets : ∀ mint, WalletUsable s user mint → WalletUsable t user mint
  priced : ∀ mint priceUpdate, Priced rt s mint priceUpdate → Priced rt t mint priceUpdate

/-- While it pays, its deposits stay and its debts go into the vaults. -/
structure Paying (rt : Runtime) (user : Signer) (s t : State) : Prop extends
    Leaving rt user s t where
  deposited : ∀ mint, t.deposited (user.pubkey, mint) = s.deposited (user.pubkey, mint)
  cash : ∀ mint, t.cash mint + t.owed (user.pubkey, mint) =
    s.cash mint + s.owed (user.pubkey, mint)

/-- While it takes its deposits out, it owes nothing. -/
structure Taking (rt : Runtime) (user : Signer) (s t : State) : Prop extends
    Leaving rt user s t where
  clear : ∀ mint, t.owed (user.pubkey, mint) = 0

structure Debtor (s : State) (user : Signer) (mint : Pubkey) : Prop where
  owes : 0 < s.owed (user.pubkey, mint)
  funds : Funds s user mint (s.owed (user.pubkey, mint))

structure Creditor (rt : Runtime) (s : State) (user : Signer) (place : Pubkey × Pubkey) :
    Prop where
  lender : Lender s place.1 user
  liquid : s.deposited (user.pubkey, place.1) ≤ s.cash place.1
  priced : Priced rt s place.1 place.2

section Rounds

variable {rt : Runtime} {s t t' : State} {a : Action} {kind : MarketActionKind} {user : Signer}
variable {mint : Pubkey} {place : Pubkey × Pubkey}

theorem Leaving.step (leaving : Leaving rt user s t) (acts : a.touch = some (kind, user, mint))
    (step : Step rt t a t') : Leaving rt user s t' := by
  have linked := leaving.reached.linked
  have elsewise := touch_elsewise linked acts step
  have touches : a.touch.isSome := by rw [acts]; rfl
  exact ⟨.next leaving.reached trivial step,
    fun mint => (step_wealth linked touches step user mint).trans (leaving.wealth mint),
    fun mint usable => elsewise.wallets mint (leaving.wallets mint usable),
    fun mint priceUpdate priced => elsewise.priced mint _ (leaving.priced mint _ priced)⟩

theorem payOff_ok (ran : payOff rt user t mint = .ok t') :
    t'.owed (user.pubkey, mint) = 0 ∧
      t'.deposited (user.pubkey, mint) = t.deposited (user.pubkey, mint) ∧
      t'.cash mint = t.cash mint + t.owed (user.pubkey, mint) := by
  obtain ⟨run⟩ := repay_ok ran
  obtain ⟨touch⟩ := repay_touch ran
  have step : Step rt t (.repay user mint ⟨2 ^ 64 - 1, by decide⟩) t' := ran
  have clock := touch_clock rfl step
  have written : t'.positions.lookup (user.pubkey, mint) =
      some { run.position with borrowed := run.position.borrowed.saturatingSub run.pay } :=
    (congrArg (fun t : State => t.positions.lookup (user.pubkey, mint)) run.result).trans
      (Finmap.lookup_insert _)
  have same := Table.lookup_unique touch.lookup_self written
  have left : touch.balances.borrowed = run.position.borrowed.saturatingSub run.pay :=
    congrArg Position.borrowed same
  have capped := run.capped
  have most := run.position.borrowed.isLt
  have nothing : t'.owed (user.pubkey, mint) = 0 := by
    rw [touch.owed_self clock, left, Uint.val_saturatingSub, capped]
    change _ - min (2 ^ 64 - 1) _ = 0
    omega
  have kept : t'.deposited (user.pubkey, mint) = t.deposited (user.pubkey, mint) := by
    rw [touch.deposited_self, touch.books.1, touch.accrued.deposited (user.pubkey, mint)]
  have moved := touch.position_moves clock
  exact ⟨nothing, kept, by omega⟩

theorem paying_round : Round (payOff rt user) (· ≠ ·) (Paying rt user s) (Debtor · user)
    fun t mint => t.owed (user.pubkey, mint) = 0 where
  symm := Ne.symm
  goes := by
    intro t mint paying debtor
    refine repay_exists paying.reached ⟨by decide, debtor.owes, debtor.funds.wallet, ?_⟩
    exact (min_le_right _ _).trans debtor.funds.enough
  inv := by
    intro t mint t' paying _ ran
    have step : Step rt t (.repay user mint ⟨2 ^ 64 - 1, by decide⟩) t' := ran
    obtain ⟨owed, deposited, cash⟩ := payOff_ok ran
    have elsewise := touch_elsewise paying.reached.linked rfl step
    refine ⟨paying.toLeaving.step rfl step, ?_, ?_⟩
    · intro other
      rw [← paying.deposited other]
      by_cases same : other = mint
      · rw [same, deposited]
      · exact elsewise.deposited other same
    · intro other
      rw [← paying.cash other]
      by_cases same : other = mint
      · rw [same, owed, cash, Nat.add_zero]
      · rw [elsewise.cash other same, elsewise.owed other same]
  settles _ _ ran := (payOff_ok ran).1
  spares := by
    intro t mint t' paying _ ran other distinct
    have step : Step rt t (.repay user mint ⟨2 ^ 64 - 1, by decide⟩) t' := ran
    have elsewise := touch_elsewise paying.reached.linked rfl step
    have owed := elsewise.owed other distinct.symm
    refine ⟨fun debtor => ⟨owed ▸ debtor.owes, ?_⟩, owed.trans⟩
    rw [owed]
    exact elsewise.funds other distinct.symm _ debtor.funds

theorem taking_round : Round (takeOut rt user) (fun p q => p.1 ≠ q.1) (Taking rt user s)
    (Creditor rt · user) fun t place => t.deposited (user.pubkey, place.1) = 0 where
  symm := Ne.symm
  goes := by
    intro t place taking creditor
    obtain ⟨market, price, found, quotes, converts⟩ := creditor.priced
    exact leave_goes taking.reached creditor.lender (taking.clear _) creditor.liquid found quotes
      converts
  inv := by
    intro t place t' taking _ ran
    have step : Step rt t (.withdraw user place.1 place.2 [] (t.depositOf user place.1)) t' := ran
    obtain ⟨touch⟩ := withdraw_touch ran
    have clock := touch_clock rfl step
    have elsewise := touch_elsewise taking.reached.linked rfl step
    refine ⟨taking.toLeaving.step rfl step, ?_⟩
    intro other
    rw [← taking.clear other]
    by_cases same : other = place.1
    · rw [same, touch.owed_self clock, touch.books.2.1,
        touch.accrued.owed (user.pubkey, place.1)]
    · exact elsewise.owed other same
  settles _ _ ran := leave_empties ran
  spares := by
    intro t place t' taking _ ran other distinct
    have step : Step rt t (.withdraw user place.1 place.2 [] (t.depositOf user place.1)) t' := ran
    have elsewise := touch_elsewise taking.reached.linked rfl step
    have deposited := elsewise.deposited other.1 distinct.symm
    refine ⟨fun creditor => ⟨⟨?_, ?_⟩, ?_, ?_⟩, deposited.trans⟩
    · rw [deposited]
      exact creditor.lender.lends
    · exact elsewise.wallets other.1 creditor.lender.wallet
    · rw [deposited, elsewise.cash other.1 distinct.symm]
      exact creditor.liquid
    · exact elsewise.priced other.1 _ creditor.priced

end Rounds

/-- The markets a wallet owes in, all of them, and those it has deposits in, each with
its price account. It can pay, and with what it pays so can the vaults. -/
structure CanLeave (rt : Runtime) (s : State) (user : Signer) (debts : List Pubkey)
    (places : List (Pubkey × Pubkey)) : Prop where
  debtsOnce : debts.Nodup
  placesOnce : places.Pairwise fun p q => p.1 ≠ q.1
  allDebts : ∀ mint, 0 < s.owed (user.pubkey, mint) → mint ∈ debts
  allDeposits : ∀ mint, 0 < s.deposited (user.pubkey, mint) → ∃ place ∈ places, place.1 = mint
  owes : ∀ mint ∈ debts, Debtor s user mint
  lends : ∀ place ∈ places, Lender s place.1 user
  liquid : ∀ place ∈ places, s.deposited (user.pubkey, place.1) ≤
    s.cash place.1 + s.owed (user.pubkey, place.1)
  priced : ∀ place ∈ places, Priced rt s place.1 place.2

/-- A wallet that can pay leaves: it ends with no position, and with all it had in its
own accounts. -/
theorem wallet_leaves {rt : Runtime} {s : State} {user : Signer} {debts : List Pubkey}
    {places : List (Pubkey × Pubkey)} (reached : Reachable rt s)
    (can : CanLeave rt s user debts places) :
    ∃ paid s', debts.foldlM (payOff rt user) s = .ok paid ∧
      places.foldlM (takeOut rt user) paid = .ok s' ∧
      ∀ mint, s'.owed (user.pubkey, mint) = 0 ∧ s'.deposited (user.pubkey, mint) = 0 ∧
        (s'.balance user mint : ℤ) = s.wealth user mint := by
  have start : Paying rt user s s :=
    ⟨⟨reached, fun _ => rfl, fun _ => id, fun _ _ => id⟩, fun _ => rfl, fun _ => rfl⟩
  obtain ⟨paid, ran, paying, cleared, kept⟩ := paying_round.runs can.debtsOnce start can.owes
  have clear (mint : Pubkey) : paid.owed (user.pubkey, mint) = 0 := by
    by_cases listed : mint ∈ debts
    · exact cleared mint listed
    · refine kept mint (fun other member same => listed (same ▸ member)) ?_
      exact Nat.eq_zero_of_not_pos fun owes => listed (can.allDebts mint owes)
  have creditor (place : Pubkey × Pubkey) (member : place ∈ places) : Creditor rt paid user place := by
    have deposited := paying.deposited place.1
    have cash := paying.cash place.1
    have liquid := can.liquid place member
    have lender := can.lends place member
    rw [clear] at cash
    exact ⟨⟨by rw [deposited]; exact lender.lends, paying.wallets _ lender.wallet⟩, by omega,
      paying.priced _ _ (can.priced place member)⟩
  obtain ⟨s', ran', taking, taken, still⟩ :=
    taking_round.runs can.placesOnce ⟨paying.toLeaving, clear⟩ creditor
  refine ⟨paid, s', ran, ran', ?_⟩
  intro mint
  have empty : s'.deposited (user.pubkey, mint) = 0 := by
    by_cases listed : ∃ place ∈ places, place.1 = mint
    · obtain ⟨place, member, rfl⟩ := listed
      exact taken place member
    · refine still (mint, mint) (fun place member same => listed ⟨place, member, same⟩) ?_
      rw [paying.deposited]
      exact Nat.eq_zero_of_not_pos fun lends => listed (can.allDeposits mint lends)
  have wealth := taking.wealth mint
  rw [State.wealth, taking.clear, empty] at wealth
  exact ⟨taking.clear mint, empty, by omega⟩

def inFunds : State := ledger (indebted 4000000000000 ++ [.claimFaucet alice usdc.pubkey])

theorem position_of_debt {s : State} {key : Pubkey × Pubkey} (owes : 0 < s.owed key) :
    ∃ position, s.positions.lookup key = some position := by
  cases held : s.positions.lookup key with
  | none =>
      rw [State.owed, held] at owes
      exact absurd owes (lt_irrefl 0)
  | some position => exact ⟨position, rfl⟩

theorem wallet_leaves_alice :
    ∃ paid s', [usdc.pubkey].foldlM (payOff devnet alice) inFunds = .ok paid ∧
      [(sol.pubkey, solPrice)].foldlM (takeOut devnet alice) paid = .ok s' ∧
      ∀ mint, s'.owed (alice.pubkey, mint) = 0 ∧ s'.deposited (alice.pubkey, mint) = 0 ∧
        (s'.balance alice mint : ℤ) = inFunds.wealth alice mint := by
  have debts : ∀ key position, inFunds.positions.lookup key = some position →
      key.1 = alice.pubkey → 0 < inFunds.owed key → key.2 = usdc.pubkey := by decide +kernel
  have deposits : ∀ key position, inFunds.positions.lookup key = some position →
      key.1 = alice.pubkey → 0 < inFunds.deposited key → sol.pubkey = key.2 := by decide +kernel
  have funds : Funds inFunds alice usdc.pubkey (inFunds.owed (alice.pubkey, usdc.pubkey)) :=
    ⟨by decide +kernel, by decide +kernel⟩
  have wallet : inFunds.tokens.identityAt (.associatedToken alice.pubkey sol.pubkey) =
      some (sol.pubkey, alice.pubkey) := by decide +kernel
  have quotes : Quotes devnet inFunds solPrice solFeed (dollars 10000000000) :=
    quotes_of_read (by decide +kernel)
  have listed : ∃ market, inFunds.markets.lookup sol.pubkey = some market ∧
      market.feedId = solFeed := some_where (by decide +kernel)
  obtain ⟨market, found, feed⟩ := listed
  have priced : Priced devnet inFunds sol.pubkey solPrice :=
    ⟨market, _, found, feed ▸ quotes, _, rfl, by decide⟩
  apply wallet_leaves (ledger_reachable _)
  refine ⟨List.nodup_singleton _, List.pairwise_singleton _ _, ?_, ?_, ?_, ?_, ?_, ?_⟩
  · intro mint owes
    obtain ⟨position, held⟩ := position_of_debt owes
    exact List.mem_singleton.mpr (debts _ position held rfl owes)
  · intro mint lends
    obtain ⟨position, held⟩ := position_of_deposit lends
    exact ⟨_, List.mem_singleton_self _, deposits _ position held rfl lends⟩
  · intro mint member
    obtain rfl := List.mem_singleton.mp member
    exact ⟨by decide +kernel, funds⟩
  · intro place member
    obtain rfl := List.mem_singleton.mp member
    exact ⟨by decide +kernel, fun identity held => Option.some.inj (held.symm.trans wallet)⟩
  · intro place member
    obtain rfl := List.mem_singleton.mp member
    decide +kernel
  · intro place member
    obtain rfl := List.mem_singleton.mp member
    exact priced

end ShadowLend
