import ShadowLend.Ownership
import ShadowLend.Preconditions

/-! What others can do to an instruction while it waits to be carried out. Within the
slot they can empty a vault and fill a counter. Nothing else the instruction needs can be
taken from under it, neither its accounts nor its prices nor its health. -/

namespace ShadowLend

open Outcome Devnet

def Action.passesTime : Action → Bool
  | .environment _ _ => true
  | _ => false

/-- An instruction of others, in the slot the wallet's own one waits in. -/
def Meanwhile (user : Signer) (s : State) (a : Action) : Prop :=
  Bystander user s a ∧ a.passesTime = false

instance (user : Signer) (s : State) (a : Action) : Decidable (Meanwhile user s a) := by
  unfold Meanwhile
  infer_instance

/-- An account of another program, at an address without a mint or a token account. -/
structure HeldForeign (s : State) (id : ℕ) (account : ForeignAccount) : Prop where
  stored : s.foreign id = some account
  unminted : s.mints.lookup (.key id) = none
  unopened : s.tokens.identityAt (.key id) = none

inductive Opened (s s' : State) (key : Pubkey) : Prop
  | absent (still : s'.tokens.identityAt key = none)
  | vault (mint : Pubkey) (named : key = .vault mint)
      (listed : (s'.markets.lookup mint).isSome)
  | associated (owner mint : Pubkey) (named : key = .associatedToken owner mint)
      (owned : s'.tokens.identityAt key = some (mint, owner))
  | vacant (address : Signer) (named : key = address.pubkey) (unused : s.isVacant address = true)

/-- A market that others have used in the meantime prices and charges as before. -/
structure InStep (s s' : State) (market market' : Market) : Prop where
  feedId : market'.feedId = market.feedId
  index : (accrueMarket market' s'.clock).borrowIndexE18 =
    (accrueMarket market s.clock).borrowIndexE18

/-- What a wallet's instructions read of a ledger, and what of it others cannot change. -/
structure Undisturbed (user : Signer) (s s' : State) : Prop where
  clock : s'.clock = s.clock
  foreign : ∀ id account, HeldForeign s id account → HeldForeign s' id account
  positions : ∀ mint, s'.positions.lookup (user.pubkey, mint) = s.positions.lookup (user.pubkey, mint)
  owed : ∀ mint, s'.owed (user.pubkey, mint) = s.owed (user.pubkey, mint)
  wallets : ∀ mint, WalletUsable s user mint → WalletUsable s' user mint
  markets : ∀ mint market, s.markets.lookup mint = some market →
    ∃ market', s'.markets.lookup mint = some market' ∧ InStep s s' market market'
  tokens : KeepsTokens user.pubkey s.tokens s'.tokens

section Steps

variable {rt : Runtime} {s s' : State} {a : Action} {user : Signer}

theorem opened_of_same {key : Pubkey} (absent : s.tokens.identityAt key = none)
    (same : s'.tokens.identityAt key = s.tokens.identityAt key) : Opened s s' key :=
  .absent (same.trans absent)

theorem opened_of_prepared {owner mint key : Pubkey} {prepared after : Tokens}
    (absent : s.tokens.identityAt key = none)
    (ready : initAssociatedToken s.tokens owner mint = .ok prepared) (result : s'.tokens = after)
    (moved : after.identityAt key = prepared.identityAt key) : Opened s s' key := by
  rw [← result] at moved
  by_cases own : key = .associatedToken owner mint
  · subst own
    exact .associated owner mint rfl (moved.trans (initAssociatedToken_own ready))
  · exact opened_of_same absent (moved.trans (initAssociatedToken_identity ready own))

theorem opened_of_insert {key written : Pubkey} {account : TokenAccount}
    (absent : s.tokens.identityAt key = none)
    (after : s'.tokens = s.tokens.insert written account)
    (here : key = written → Opened s s' key) : Opened s s' key := by
  by_cases same : key = written
  · exact here same
  · apply opened_of_same absent
    rw [after, identityAt_insert_other _ same]

theorem holderInstruction_opens {holder : Signer} {instruction : HolderInstruction} {key : Pubkey}
    (absent : s.tokens.identityAt key = none)
    (ran : holderInstruction s holder instruction = .ok s') : Opened s s' key := by
  cases instruction with
  | transfer source destination amount =>
      simp only [holderInstruction, bind_ok, pure_ok] at ran
      obtain ⟨tokens, moved, rfl⟩ := ran
      exact opened_of_same absent (transferTokens_identity moved key)
  | burn account amount =>
      simp only [holderInstruction, bind_ok, okOr_ok, require_ok, pure_ok] at ran
      obtain ⟨held, found, _, _, _, _, _, _, _, _, rfl⟩ := ran
      refine opened_of_insert absent rfl ?_
      rintro rfl
      rw [identityAt_of_lookup found] at absent
      cases absent
  | setOwner account newOwner =>
      simp only [holderInstruction, bind_ok, okOr_ok, require_ok, pure_ok] at ran
      obtain ⟨held, found, _, _, rfl⟩ := ran
      refine opened_of_insert absent rfl ?_
      rintro rfl
      rw [identityAt_of_lookup found] at absent
      cases absent
  | createAccount address owner mint =>
      simp only [holderInstruction, bind_ok, require_ok, pure_ok] at ran
      obtain ⟨_, unused, _, _, rfl⟩ := ran
      exact opened_of_insert absent rfl fun here => .vacant address here unused
  | createAssociated owner mint =>
      simp only [holderInstruction, bind_ok, require_ok, pure_ok] at ran
      obtain ⟨_, _, _, _, rfl⟩ := ran
      refine opened_of_insert absent rfl ?_
      rintro rfl
      exact .associated owner mint rfl (identityAt_insert_self _ _)

/-- No token account comes to be but as a vault, as the associated account of its owner,
or where nothing has been. -/
theorem step_opens (step : Step rt s a s') {key : Pubkey}
    (absent : s.tokens.identityAt key = none) : Opened s s' key := by
  cases step_writes step with
  | opened _ mint _ _ _ _ _ run =>
      refine opened_of_insert absent (congrArg State.tokens run.result) fun here => .vault _ here ?_
      rw [run.result, Finmap.lookup_insert]
      rfl
  | decreed _ _ _ _ _ _ result =>
      subst result
      exact opened_of_same absent rfl
  | claimed user mint _ run =>
      refine opened_of_prepared absent run.ready (congrArg State.tokens run.result) ?_
      by_cases own : key = .associatedToken user.pubkey mint
      · rw [own, identityAt_of_lookup run.walletFound]
        exact identityAt_insert_self _ _
      · exact identityAt_insert_other _ own
  | moved _ _ _ _ move =>
      exact opened_of_prepared absent move.ready (congrArg State.tokens move.result)
        (transferTokens_identity move.paid key)
  | liquidated _ _ _ _ run =>
      have paid := congrArg (fun s : State => s.tokens.identityAt key) run.result
      apply opened_of_same absent
      exact paid.trans <|
        (transferTokens_identity run.paidOut key).trans (transferTokens_identity run.paidIn key)
  | counted _ _ _ _ _ _ result =>
      subst result
      exact opened_of_same absent rfl
  | held _ _ _ ran => exact holderInstruction_opens absent ran
  | passed _ _ _ _ result =>
      subst result
      exact opened_of_same absent rfl

theorem lookup_insert_absent {ν : Type} {table : Table Pubkey ν} {key written : Pubkey}
    (absent : table.lookup key = none) (value : ν) {old : ν}
    (found : table.lookup written = some old) : (table.insert written value).lookup key = none := by
  have elsewhere : key ≠ written := by
    rintro rfl
    rw [absent] at found
    cases found
  rw [Finmap.lookup_insert_of_ne _ elsewhere, absent]

theorem holderInstruction_unminted {holder : Signer} {instruction : HolderInstruction}
    (ran : holderInstruction s holder instruction = .ok s') {key : Pubkey}
    (absent : s.mints.lookup key = none) : s'.mints.lookup key = none := by
  cases instruction with
  | transfer source destination amount =>
      simp only [holderInstruction, bind_ok, pure_ok] at ran
      obtain ⟨_, _, rfl⟩ := ran
      exact absent
  | burn account amount =>
      simp only [holderInstruction, bind_ok, okOr_ok, require_ok, pure_ok] at ran
      obtain ⟨_, _, minted, found, _, _, _, _, _, _, rfl⟩ := ran
      exact lookup_insert_absent absent _ found
  | setOwner account newOwner =>
      simp only [holderInstruction, bind_ok, okOr_ok, require_ok, pure_ok] at ran
      obtain ⟨_, _, _, _, rfl⟩ := ran
      exact absent
  | createAccount address owner mint =>
      simp only [holderInstruction, bind_ok, require_ok, pure_ok] at ran
      obtain ⟨_, _, _, _, rfl⟩ := ran
      exact absent
  | createAssociated owner mint =>
      simp only [holderInstruction, bind_ok, require_ok, pure_ok] at ran
      obtain ⟨_, _, _, _, rfl⟩ := ran
      exact absent

/-- A step that passes no time leaves the accounts of other programs as they were, and
no mint comes to be at their addresses. -/
theorem step_surroundings (step : Step rt s a s') (instant : a.passesTime = false) :
    s'.clock = s.clock ∧ s'.foreign = s.foreign ∧ ∀ id account, s.foreign id = some account →
      s.mints.lookup (.key id) = none → s'.mints.lookup (.key id) = none := by
  cases step_writes step with
  | opened _ mint _ _ _ _ _ run =>
      have vacant := (isVacant_iff.mp run.newMint).2.2
      rw [run.result]
      refine ⟨rfl, rfl, ?_⟩
      intro id account stored absent
      have elsewhere : Pubkey.key id ≠ mint.pubkey := by
        intro here
        have same : mint.id = id := (Pubkey.key.inj here).symm
        rw [same, stored] at vacant
        cases vacant
      rw [Finmap.lookup_insert_of_ne _ elsewhere, absent]
  | decreed _ _ _ _ _ _ result =>
      subst result
      exact ⟨rfl, rfl, fun _ _ _ => id⟩
  | claimed _ _ _ run =>
      have found := run.mintFound
      rw [run.result]
      exact ⟨rfl, rfl, fun _ _ _ absent => lookup_insert_absent absent _ found⟩
  | moved _ _ _ _ move =>
      rw [move.result]
      exact ⟨rfl, rfl, fun _ _ _ => id⟩
  | liquidated _ _ _ _ run =>
      rw [run.result]
      exact ⟨rfl, rfl, fun _ _ _ => id⟩
  | counted _ _ _ _ _ _ result =>
      subst result
      exact ⟨rfl, rfl, fun _ _ _ => id⟩
  | held _ _ _ ran =>
      have mints := @holderInstruction_unminted _ _ _ _ ran
      obtain ⟨_, _, rfl⟩ := holderInstruction_frame ran
      exact ⟨rfl, rfl, fun _ _ _ absent => mints absent⟩
  | passed _ _ acts _ _ =>
      subst acts
      cases instant

theorem step_heldForeign (step : Step rt s a s') (instant : a.passesTime = false) {id : ℕ}
    {account : ForeignAccount} (held : HeldForeign s id account) : HeldForeign s' id account where
  stored := by rw [(step_surroundings step instant).2.1, held.stored]
  unminted := (step_surroundings step instant).2.2 id account held.stored held.unminted
  unopened := by
    cases step_opens step held.unopened with
    | absent still => exact still
    | vault mint named => cases named
    | associated owner mint named => cases named
    | vacant address named unused =>
        have here : address.id = id := (Pubkey.key.inj named).symm
        simp only [State.isVacant, here, held.stored, Option.isNone_some, Bool.and_false,
          Bool.false_eq_true] at unused

theorem step_wallet (step : Step rt s a s') (unsigned : user ∉ a.signers)
    (spared : a.borrower ≠ some user.pubkey) {mint : Pubkey} (usable : WalletUsable s user mint) :
    WalletUsable s' user mint := by
  have kept := (step_keepsAccounts ⟨unsigned, spared⟩ step).tokens
  intro identity after
  cases before : s.tokens.identityAt (.associatedToken user.pubkey mint) with
  | some owned =>
      rw [usable _ before] at before
      have still := (kept _ _ before).1
      rw [after, Option.some.injEq] at still
      exact still
  | none =>
      cases step_opens step before with
      | absent still =>
          rw [still] at after
          cases after
      | vault mint named => cases named
      | associated owner kind named owned =>
          obtain ⟨rfl, rfl⟩ := Pubkey.associatedToken.inj named
          rw [owned, Option.some.injEq] at after
          exact after.symm
      | vacant address named => cases named

theorem Undisturbed.refl (user : Signer) (s : State) : Undisturbed user s s :=
  ⟨rfl, fun _ _ => id, fun _ => rfl, fun _ => rfl, fun _ => id,
    fun _ market found => ⟨market, found, rfl, rfl⟩, .refl _ _⟩

theorem Undisturbed.trans {s'' : State} (first : Undisturbed user s s')
    (second : Undisturbed user s' s'') : Undisturbed user s s'' where
  clock := second.clock.trans first.clock
  foreign id account held := second.foreign id account (first.foreign id account held)
  positions mint := (second.positions mint).trans (first.positions mint)
  owed mint := (second.owed mint).trans (first.owed mint)
  wallets mint usable := second.wallets mint (first.wallets mint usable)
  markets mint market found := by
    obtain ⟨market', found', feed', index'⟩ := first.markets mint market found
    obtain ⟨market'', found'', feed'', index''⟩ := second.markets mint market' found'
    exact ⟨market'', found'', feed''.trans feed', index''.trans index'⟩
  tokens := first.tokens.trans second.tokens

theorem step_undisturbed (linked : Linked rt s) (meanwhile : Meanwhile user s a)
    (step : Step rt s a s') : Undisturbed user s s' := by
  obtain ⟨bystander, instant⟩ := meanwhile
  have kept := step_keepsAccounts bystander step
  have clock := (step_surroundings step instant).1
  refine ⟨clock, fun _ _ => step_heldForeign step instant, kept.positions, ?_, ?_, ?_, kept.tokens⟩
  · exact fun mint => step_owed linked step clock (kept.positions mint)
  · exact fun mint => step_wallet step bystander.1 bystander.2
  · intro mint market found
    obtain ⟨market', found', advanced⟩ := step_market linked step found
    refine ⟨market', found', congrArg MarketTerms.feedId advanced.terms, ?_⟩
    rw [clock]
    exact advanced.index_now

theorem Leads.undisturbed (reached : Reachable rt s) (later : Leads rt (Meanwhile user) s s') :
    Undisturbed user s s' := by
  apply Runs.Reaches.invariant_under (fun _ onward => (reached.leads onward).linked) ?_ ?_ later
  · rintro _ rfl
    exact .refl _ _
  · intro before a after linked carried meanwhile step
    exact carried.trans (step_undisturbed linked meanwhile step)

end Steps

section Reads

variable {rt : Runtime} {s s' : State} {user : Signer}

theorem HeldForeign.accountInfo {id : ℕ} {account : ForeignAccount}
    (held : HeldForeign s id account) :
    s.accountInfo (.key id) = ⟨.key id, account.owner, account.data⟩ := by
  have unopened : s.tokens.lookup (.key id) = none := Option.map_eq_none_iff.mp held.unopened
  simp [State.accountInfo, held.stored, held.unminted, unopened]

theorem heldForeign_of_priced {key : Pubkey} (owned : (s.accountInfo key).owner = .pythReceiver) :
    ∃ id account, key = .key id ∧ HeldForeign s id account := by
  cases key with
  | key id =>
      simp only [State.accountInfo] at owned
      split at owned
      · cases owned
      · rename_i vacant
        simp only [Bool.or_eq_true, not_or, Bool.not_eq_true, Option.isSome_eq_false_iff,
          Option.isNone_iff_eq_none] at vacant
        split at owned
        · rename_i account stored
          exact ⟨id, account, rfl, stored, vacant.1, identityAt_of_absent vacant.2⟩
        · cases owned
  | position owner mint =>
      simp only [State.accountInfo] at owned
      split at owned <;> cases owned
  | _ =>
      simp only [State.accountInfo] at owned
      try split at owned
      all_goals cases owned

theorem Undisturbed.priceInfo (undisturbed : Undisturbed user s s') {key : Pubkey}
    (owned : (s.accountInfo key).owner = .pythReceiver) : s'.accountInfo key = s.accountInfo key := by
  obtain ⟨id, account, rfl, held⟩ := heldForeign_of_priced owned
  rw [held.accountInfo, (undisturbed.foreign id account held).accountInfo]

theorem Undisturbed.positionInfo (undisturbed : Undisturbed user s s') (mint : Pubkey) :
    s'.accountInfo (.position user.pubkey mint) = s.accountInfo (.position user.pubkey mint) := by
  simp only [State.accountInfo, undisturbed.positions mint]

theorem Undisturbed.quotes (undisturbed : Undisturbed user s s') {address : Pubkey}
    {feedId : FeedId} {price : Price} (quotes : Quotes rt s address feedId price) :
    Quotes rt s' address feedId price := by
  obtain ⟨update, owned, data, priced⟩ := quotes
  have same := undisturbed.priceInfo owned
  exact ⟨update, same ▸ owned, same ▸ data, undisturbed.clock ▸ priced⟩

/-- A pair the wallet's own check can read, it can still read, and reads the same. -/
theorem Undisturbed.readKeys (undisturbed : Undisturbed user s s') (linked : Linked rt s)
    {skip : Pubkey → Bool} {keys : Pubkey × Pubkey} {counted : Option Contribution}
    (read : s.readKeys rt skip user.pubkey keys = .ok counted) :
    s'.readKeys rt skip user.pubkey keys = .ok counted := by
  obtain ⟨position, price⟩ := keys
  simp only [State.readKeys, readPair, Prod.map, accountInfo_key] at read ⊢
  split
  · rename_i skipped
    rwa [if_pos skipped] at read
  · rename_i counts
    rw [if_neg counts] at read
    simp only [bind_ok, require_ok, okOr_ok] at read ⊢
    obtain ⟨_, owned, pos, data, _, mine, read⟩ := read
    obtain ⟨owner, mint, rfl, stored⟩ := accountInfo_position owned data
    obtain rfl := (linked.position_user stored).symm.trans mine
    rw [undisturbed.positionInfo mint]
    refine ⟨(), owned, pos, data, (), mine, ?_⟩
    split
    · rename_i empty
      rwa [if_pos empty] at read
    · rename_i holds
      rw [if_neg holds] at read
      simp only [bind_ok, require_ok, okOr_ok] at read ⊢
      obtain ⟨_, priced, update, priceData, quoted⟩ := read
      rw [undisturbed.priceInfo priced, undisturbed.clock]
      exact ⟨(), priced, update, priceData, quoted⟩

theorem Undisturbed.contributions (undisturbed : Undisturbed user s s') (linked : Linked rt s)
    {skip : Pubkey → Bool} {remaining : List Pubkey} {listed : List Contribution}
    (walked : contributions rt (remaining.map s.accountInfo) user.pubkey skip s.clock = .ok listed) :
    contributions rt (remaining.map s'.accountInfo) user.pubkey skip s'.clock = .ok listed := by
  simp only [ShadowLend.contributions, bind_ok, require_ok, pure_ok, List.length_map, pairs_map,
    List.mapM_map] at walked ⊢
  obtain ⟨_, even, reads, ran, rfl⟩ := walked
  refine ⟨(), even, reads, ?_, rfl⟩
  rw [mapM_ok] at ran ⊢
  exact ran.imp fun _ _ read => undisturbed.readKeys linked read

theorem Undisturbed.healthyAt (undisturbed : Undisturbed user s s') (linked : Linked rt s)
    {mint priceUpdate : Pubkey} {remaining : List Pubkey} {supplied borrowed : U64}
    (healthy : HealthyAt rt s user mint priceUpdate remaining supplied borrowed) :
    HealthyAt rt s' user mint priceUpdate remaining supplied borrowed := by
  obtain ⟨position, price, totals, held, quotes, passes, healthy⟩ := healthy
  simp only [ownerTotals, accumulateRemaining, bind_ok, walkRemaining_ok] at passes
  obtain ⟨first, start, listed, walked, summed⟩ := passes
  refine ⟨position, price, totals, by rw [undisturbed.positions, held],
    undisturbed.quotes quotes, ?_, healthy⟩
  simp only [ownerTotals, accumulateRemaining, bind_ok, walkRemaining_ok]
  exact ⟨first, start, listed, undisturbed.contributions linked walked, summed⟩

theorem Undisturbed.deposited (undisturbed : Undisturbed user s s') (mint : Pubkey) :
    s'.deposited (user.pubkey, mint) = s.deposited (user.pubkey, mint) := by
  rw [State.deposited, undisturbed.positions, State.deposited]

theorem Undisturbed.listed (undisturbed : Undisturbed user s s') {mint : Pubkey}
    (listed : (s.markets.lookup mint).isSome) : (s'.markets.lookup mint).isSome := by
  obtain ⟨market, found⟩ := Option.isSome_iff_exists.mp listed
  obtain ⟨market', found', _⟩ := undisturbed.markets mint market found
  rw [found']
  rfl

theorem Undisturbed.funds (undisturbed : Undisturbed user s s') {mint : Pubkey} {amount : ℕ}
    (funds : Funds s user mint amount) : Funds s' user mint amount := by
  obtain ⟨wallet, grown⟩ := undisturbed.tokens _ _ funds.wallet
  exact ⟨wallet, funds.enough.trans grown⟩

end Reads

section Instructions

variable {rt : Runtime} {s s' : State} {user : Signer} {mint priceUpdate : Pubkey}
variable {remaining : List Pubkey} {amount : U64}

theorem Undisturbed.canSupply (undisturbed : Undisturbed user s s')
    (can : CanSupply s user mint amount) (room : s'.suppliedIn mint + amount.val < 2 ^ 64) :
    CanSupply s' user mint amount :=
  ⟨can.positive, undisturbed.listed can.listed, undisturbed.funds can.funds, room⟩

theorem Undisturbed.canRepay (undisturbed : Undisturbed user s s')
    (can : CanRepay s user mint amount) : CanRepay s' user mint amount := by
  obtain ⟨positive, owes, funds⟩ := can
  rw [← undisturbed.owed] at owes funds
  exact ⟨positive, owes, undisturbed.funds funds⟩

theorem Undisturbed.canWithdraw (undisturbed : Undisturbed user s s') (linked : Linked rt s)
    (can : CanWithdraw rt s user mint priceUpdate remaining amount)
    (liquid : amount.val ≤ s'.cash mint) :
    CanWithdraw rt s' user mint priceUpdate remaining amount := by
  obtain ⟨positive, wallet, _, supplied, borrowed, taken, owes, healthy⟩ := can
  rw [← undisturbed.deposited] at taken
  rw [← undisturbed.owed] at owes
  exact ⟨positive, undisturbed.wallets mint wallet, liquid, supplied, borrowed, taken, owes,
    undisturbed.healthyAt linked healthy⟩

theorem Undisturbed.canBorrow (undisturbed : Undisturbed user s s') (linked : Linked rt s)
    (can : CanBorrow rt s user mint priceUpdate remaining amount)
    (liquid : amount.val ≤ s'.cash mint)
    (room : s'.totalBorrowed mint + amount.val < 2 ^ 64) :
    CanBorrow rt s' user mint priceUpdate remaining amount := by
  obtain ⟨positive, wallet, _, _, unsupplied, borrowed, grown, healthy⟩ := can
  rw [← undisturbed.deposited] at unsupplied
  rw [← undisturbed.owed] at grown
  exact ⟨positive, undisturbed.wallets mint wallet, liquid, room, unsupplied, borrowed, grown,
    undisturbed.healthyAt linked healthy⟩

end Instructions

def crowded : State :=
  replay devnet (Meanwhile bob) (ledger lenders)
    [borrowUsdc 8000000000000, .claimFaucet mallory usdc.pubkey,
      .supply mallory usdc.pubkey 1000000]

end ShadowLend
