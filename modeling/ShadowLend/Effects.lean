import ShadowLend.Links

/-! What a step can do to the markets, the positions and the vaults. Everything a
run preserves about amounts is read off these few effects. -/

namespace ShadowLend

open Outcome

def State.cash (s : State) (mint : Pubkey) : ℕ := s.tokens.amountAt (.vault mint)

/-- The copies of a market and of a position in it after accrual. A position which
is not stored is one its own instruction allocates. -/
structure Accrued (s : State) (user mint : Pubkey) (market : Market) (position : Position) :
    Prop where
  ofMarket : ∃ stored, s.markets.lookup mint = some stored ∧ market = accrueMarket stored s.clock
  ofPosition :
    (∃ stored, s.positions.lookup (user, mint) = some stored ∧
        position = accruePosition stored market) ∨
      (s.positions.lookup (user, mint) = none ∧ position.supplied.val = 0 ∧
        position.borrowed.val = 0 ∧
        position.borrowIndexSnapshotE18 = market.borrowIndexE18)

/-- The amounts after an instruction moved some tokens of a market. -/
structure Balances where
  supplied : U64
  borrowed : U64
  totalSupplied : U64
  totalBorrowed : U64

def Market.rebalance (market : Market) (b : Balances) : Market :=
  { market with totalSupplied := b.totalSupplied, totalBorrowed := b.totalBorrowed }

def Position.rebalance (position : Position) (b : Balances) : Position :=
  { position with supplied := b.supplied, borrowed := b.borrowed }

/-- How each kind of instruction books an amount which enters or leaves the vault. -/
def Books (kind : MarketActionKind) (amount : ℕ) (market : Market) (position : Position)
    (cash : ℕ) (b : Balances) (cash' : ℕ) : Prop :=
  match kind with
  | .supply =>
      b.supplied.val = position.supplied.val + amount ∧ b.borrowed = position.borrowed ∧
        b.totalSupplied.val = market.totalSupplied.val + amount ∧
        b.totalBorrowed = market.totalBorrowed ∧ cash' = cash + amount
  | .withdraw =>
      b.supplied.val + amount = position.supplied.val ∧ b.borrowed = position.borrowed ∧
        b.totalSupplied.val + amount = market.totalSupplied.val ∧
        b.totalBorrowed = market.totalBorrowed ∧ cash' + amount = cash
  | .borrow =>
      position.supplied.val = 0 ∧ b.supplied = position.supplied ∧
        b.borrowed.val = position.borrowed.val + amount ∧
        b.totalSupplied = market.totalSupplied ∧
        b.totalBorrowed.val = market.totalBorrowed.val + amount ∧ cash' + amount = cash
  | .repay =>
      b.supplied = position.supplied ∧ b.borrowed.val + amount = position.borrowed.val ∧
        b.totalSupplied = market.totalSupplied ∧
        b.totalBorrowed.val = market.totalBorrowed.val - amount ∧ cash' = cash + amount

/-- `supply`, `withdraw`, `borrow` and `repay` write one market and one position. -/
structure Touch (s : State) (kind : MarketActionKind) (user : Signer) (mint : Pubkey)
    (s' : State) where
  amount : ℕ
  market : Market
  position : Position
  balances : Balances
  accrued : Accrued s user.pubkey mint market position
  books : Books kind amount market position (s.cash mint) balances (s'.cash mint)
  elsewhere : ∀ other, other ≠ mint → s'.cash other = s.cash other
  markets : s'.markets = s.markets.insert mint (market.rebalance balances)
  positions : s'.positions =
    s.positions.insert (user.pubkey, mint) (position.rebalance balances)

inductive Effect (rt : Runtime) (s : State) (a : Action) (s' : State) : Prop
  | quiet (markets : s'.markets = s.markets) (positions : s'.positions = s.positions)
      (cash : ∀ mint, s.cash mint ≤ s'.cash mint)
  | opened (mint : Pubkey) (market : Market) (fresh : s.markets.lookup mint = none)
      (index : market.borrowIndexE18 = rateScaleE18)
      (empty : market.totalSupplied = 0 ∧ market.totalBorrowed = 0)
      (markets : s'.markets = s.markets.insert mint market)
      (positions : s'.positions = s.positions)
      (cash : ∀ other, s'.cash other = s.cash other)
  | adjusted (mint : Pubkey) (market : Market) (amountPerClaim claimCount : U64)
      (found : s.markets.lookup mint = some market)
      (markets : s'.markets = s.markets.insert mint
        { market with amountPerClaim := amountPerClaim, claimCount := claimCount })
      (positions : s'.positions = s.positions)
      (cash : ∀ other, s'.cash other = s.cash other)
  | touched (kind : MarketActionKind) (user : Signer) (mint : Pubkey)
      (acts : a.touch = some (kind, user, mint)) (touch : Touch s kind user mint s')
  | liquidated (accounts : LiquidateAccounts) (remaining : List Pubkey) (repayAmount : U64)
      (acts : a = .liquidate accounts remaining repayAmount)
      (run : LiquidateRun rt s accounts remaining repayAmount s')

section Steps

variable {rt : Runtime} {s s' : State}

theorem signer_source_ne_vault (linked : Linked rt s) {tokens after : Tokens}
    {source destination : Pubkey} {signer : Signer} {amount : U64}
    (vaults : SameVaults s.tokens tokens)
    (ran : transferTokens tokens source destination signer.pubkey amount = .ok after)
    (mint : Pubkey) : source ≠ .vault mint := by
  rcases transferTokens_authorised ran with ⟨kind, held⟩
  rintro rfl
  rw [vaults mint] at held
  exact linked.vault_ne held mint rfl

/-- Holders put tokens into vaults and never take any out. -/
theorem holderInstruction_cash (linked : Linked rt s) {holder : Signer}
    {instruction : HolderInstruction}
    (ran : holderInstruction s holder instruction = .ok s') (mint : Pubkey) :
    s.cash mint ≤ s'.cash mint := by
  cases instruction with
  | transfer source destination amount =>
      simp only [holderInstruction, bind_ok, pure_ok] at ran
      rcases ran with ⟨tokens, moved, rfl⟩
      apply transferTokens_le moved
      exact (signer_source_ne_vault linked (fun _ => rfl) moved mint).symm
  | burn account amount =>
      simp only [holderInstruction, bind_ok, okOr_ok, require_ok, pure_ok] at ran
      rcases ran with ⟨held, found, _, _, _, owned, _, _, _, _, rfl⟩
      apply le_of_eq
      have elsewhere := linked.vault_ne (by rw [identityAt_of_lookup found, owned]) mint
      exact (amountAt_insert_other _ elsewhere.symm).symm
  | setOwner account newOwner =>
      simp only [holderInstruction, bind_ok, okOr_ok, require_ok, pure_ok] at ran
      rcases ran with ⟨held, found, _, owned, rfl⟩
      apply le_of_eq
      have elsewhere := linked.vault_ne (by rw [identityAt_of_lookup found, owned]) mint
      exact (amountAt_insert_other _ elsewhere.symm).symm
  | createAccount address owner kind =>
      simp only [holderInstruction, bind_ok, require_ok, pure_ok] at ran
      rcases ran with ⟨_, _, _, _, rfl⟩
      exact (amountAt_insert_other _ (by simp [Signer.pubkey])).ge
  | createAssociated owner kind =>
      simp only [holderInstruction, bind_ok, require_ok, pure_ok] at ran
      rcases ran with ⟨_, _, _, _, rfl⟩
      exact (amountAt_insert_other _ (by simp)).ge

theorem paidIn_cash {user : Signer} {mint : Pubkey} {prepared after : Tokens} {amount : U64}
    (ready : initAssociatedToken s.tokens user.pubkey mint = .ok prepared)
    (paid : transferTokens prepared (.associatedToken user.pubkey mint) (.vault mint)
      user.pubkey amount = .ok after) (other : Pubkey) :
    after.amountAt (.vault other) =
      s.cash other + if other = mint then amount.val else 0 := by
  rcases transferTokens_moves paid (by simp) with ⟨_, gained, others⟩
  have before := initAssociatedToken_amountAt ready
  split
  · subst other
    rw [gained, before]
    rfl
  · rename_i distinct
    rw [others _ (by simp) (by simpa using distinct), before]
    rfl

theorem paidOut_cash {user : Signer} {mint : Pubkey} {prepared after : Tokens} {amount : U64}
    (ready : initAssociatedToken s.tokens user.pubkey mint = .ok prepared)
    (paid : transferTokens prepared (.vault mint) (.associatedToken user.pubkey mint)
      (.authority mint) amount = .ok after) (other : Pubkey) :
    after.amountAt (.vault other) + (if other = mint then amount.val else 0) =
      s.cash other := by
  rcases transferTokens_moves paid (by simp) with ⟨spent, _, others⟩
  have before := initAssociatedToken_amountAt ready
  split
  · subst other
    rw [spent, before]
    rfl
  · rename_i distinct
    rw [others _ (by simpa using distinct) (by simp), before]
    rfl

theorem supply_touch (linked : Linked rt s) {user : Signer} {mint : Pubkey} {amount : U64}
    (ran : supply rt s user mint amount = .ok s') : Nonempty (Touch s .supply user mint s') := by
  rcases supply_ok ran with ⟨run⟩
  rcases ModifyPosition.load_ok run.loaded with ⟨found, _, origin, ready⟩
  have cash := paidIn_cash ready run.paid
  have position : Accrued s user.pubkey mint run.market run.position := by
    refine ⟨⟨run.ctx.market, found, run.accruedMarket⟩, ?_⟩
    rcases supply_terms run with ⟨old, stored, _, same⟩ | ⟨unclaimed, _, snapshot⟩
    · exact Or.inl ⟨old, stored, same⟩
    · right
      cases stored : s.positions.lookup (user.pubkey, mint) with
      | some old =>
          obtain ⟨⟨signer, signed⟩, _, _, shape⟩ :=
            linked.position _ _ _ (positionTerms_of_lookup stored)
          have claimed : old.user = user.pubkey := congrArg PositionTerms.user shape
          rw [unclaimed old stored] at claimed
          exact absurd claimed.symm user.pubkey_ne_default
      | none =>
          rw [stored, Option.getD_none] at origin
          refine ⟨rfl, ?_, ?_, snapshot⟩ <;>
            · rw [run.accruedPosition, origin]
              rfl
  have after (other : Pubkey) : s'.cash other = run.tokens.amountAt (.vault other) :=
    congrArg (State.cash · other) run.result
  refine ⟨⟨amount.val, run.market, run.position,
    ⟨run.supplied, run.position.borrowed, run.totalSupplied, run.market.totalBorrowed⟩,
    position, ⟨run.grown, rfl, run.booked, rfl, ?_⟩, ?_, congrArg State.markets run.result,
    congrArg State.positions run.result⟩⟩
  · rw [after, cash, if_pos rfl]
  · intro other distinct
    rw [after, cash, if_neg distinct, Nat.add_zero]

theorem repay_touch {user : Signer} {mint : Pubkey} {amount : U64}
    (ran : repay rt s user mint amount = .ok s') : Nonempty (Touch s .repay user mint s') := by
  rcases repay_ok ran with ⟨run⟩
  rcases ModifyPosition.load_ok run.loaded with ⟨found, _, _, ready⟩
  have cash := paidIn_cash ready run.paid
  have after (other : Pubkey) : s'.cash other = run.tokens.amountAt (.vault other) :=
    congrArg (State.cash · other) run.result
  have capped := run.capped
  refine ⟨⟨run.pay.val, run.market, run.position,
    ⟨run.position.supplied, run.position.borrowed.saturatingSub run.pay,
      run.market.totalSupplied, run.market.totalBorrowed.saturatingSub run.pay⟩,
    ⟨⟨_, found, run.accruedMarket⟩, Or.inl ⟨_, repay_position_stored run, run.accruedPosition⟩⟩,
    ⟨rfl, ?_, rfl, Uint.val_saturatingSub _ _, ?_⟩, ?_, congrArg State.markets run.result,
    congrArg State.positions run.result⟩⟩
  · rw [Uint.val_saturatingSub]
    omega
  · rw [after, cash, if_pos rfl]
  · intro other distinct
    rw [after, cash, if_neg distinct, Nat.add_zero]

section Checked

variable {user : Signer} {mint priceUpdate : Pubkey} {remaining : List Pubkey} {amount : U64}

theorem withdraw_touch (ran : withdraw rt s user mint priceUpdate remaining amount = .ok s') :
    Nonempty (Touch s .withdraw user mint s') := by
  rcases withdraw_ok ran with ⟨run⟩
  rcases ModifyPositionWithPrice.load_ok run.loaded with ⟨found, _, held, _, _, ready, _⟩
  have cash := paidOut_cash ready run.paid
  have after (other : Pubkey) : s'.cash other = run.tokens.amountAt (.vault other) :=
    congrArg (State.cash · other) run.result
  refine ⟨⟨amount.val, run.market, run.position,
    ⟨run.newSupplied, run.position.borrowed, run.totalSupplied, run.market.totalBorrowed⟩,
    ⟨⟨_, found, run.accruedMarket⟩, Or.inl ⟨_, held, run.accruedPosition⟩⟩,
    ⟨run.taken, rfl, run.booked, rfl, ?_⟩, ?_, congrArg State.markets run.result,
    congrArg State.positions run.result⟩⟩
  · rw [after, ← cash mint, if_pos rfl]
  · intro other distinct
    rw [after, ← cash other, if_neg distinct, Nat.add_zero]

theorem borrow_touch (ran : borrow rt s user mint priceUpdate remaining amount = .ok s') :
    Nonempty (Touch s .borrow user mint s') := by
  rcases borrow_ok ran with ⟨run⟩
  rcases ModifyPositionWithPrice.load_ok run.loaded with ⟨found, _, held, _, _, ready, _⟩
  have cash := paidOut_cash ready run.paid
  have after (other : Pubkey) : s'.cash other = run.tokens.amountAt (.vault other) :=
    congrArg (State.cash · other) run.result
  refine ⟨⟨amount.val, run.market, run.position,
    ⟨run.position.supplied, run.newBorrowed, run.market.totalSupplied, run.totalBorrowed⟩,
    ⟨⟨_, found, run.accruedMarket⟩, Or.inl ⟨_, held, run.accruedPosition⟩⟩,
    ⟨run.unsupplied, rfl, run.grown, rfl, run.booked, ?_⟩, ?_,
    congrArg State.markets run.result, congrArg State.positions run.result⟩⟩
  · rw [after, ← cash mint, if_pos rfl]
  · intro other distinct
    rw [after, ← cash other, if_neg distinct, Nat.add_zero]

end Checked

theorem step_touch (linked : Linked rt s) {a : Action} {kind : MarketActionKind} {user : Signer}
    {mint : Pubkey} (acts : a.touch = some (kind, user, mint)) (step : Step rt s a s') :
    Nonempty (Touch s kind user mint s') := by
  cases a with
  | supply _ _ _ =>
      cases acts
      exact supply_touch linked step
  | withdraw _ _ _ _ _ =>
      cases acts
      exact withdraw_touch step
  | borrow _ _ _ _ _ =>
      cases acts
      exact borrow_touch step
  | repay _ _ _ =>
      cases acts
      exact repay_touch step
  | _ => cases acts

theorem step_effect (linked : Linked rt s) {a : Action} (step : Step rt s a s') :
    Effect rt s a s' := by
  cases step_writes step with
  | opened admin mint amountPerClaim maxLtvBps feedId rate _ run =>
      refine .opened mint.pubkey run.market run.newMarket ?_ ?_ (congrArg State.markets run.result)
        (by rw [run.result]) ?_
      · rw [run.created]
      · rw [run.created]
        exact ⟨rfl, rfl⟩
      · intro other
        refine (congrArg (State.cash · other) run.result).trans ?_
        by_cases here : other = mint.pubkey
        · subst other
          have before : s.cash mint.pubkey = 0 := by
            simp [State.cash, Tokens.amountAt, run.newVault]
          rw [before]
          exact amountAt_insert_self _ _
        · exact amountAt_insert_other _ (by simpa using here)
  | decreed admin mint amount market _ found result =>
      subst result
      exact .adjusted mint market amount market.claimCount found rfl rfl fun _ => rfl
  | claimed user mint _ run =>
      refine .adjusted mint run.market run.market.amountPerClaim run.claimCount run.found
        (congrArg State.markets run.result) (by rw [run.result]) ?_
      intro other
      calc
        s'.cash other = _ := congrArg (State.cash · other) run.result
        _ = run.prepared.amountAt (.vault other) := amountAt_insert_other _ (by simp)
        _ = s.cash other := initAssociatedToken_amountAt run.ready _
  | moved kind user mint acts _ =>
      rcases step_touch linked acts step with ⟨touch⟩
      exact .touched kind user mint acts touch
  | liquidated accounts remaining repayAmount acts run =>
      exact .liquidated accounts remaining repayAmount acts run
  | counted user stats events _ _ _ result =>
      subst result
      exact .quiet rfl rfl fun _ => le_rfl
  | held holder instruction _ ran =>
      have cash := holderInstruction_cash linked ran
      rcases holderInstruction_frame ran with ⟨tokens, mints, rfl⟩
      exact .quiet rfl rfl cash
  | passed clock foreign _ _ result =>
      subst result
      exact .quiet rfl rfl fun _ => le_rfl

section Liquidations

variable {accounts : LiquidateAccounts} {remaining : List Pubkey} {repayAmount : U64}
variable (run : LiquidateRun rt s accounts remaining repayAmount s')
include run

def LiquidateRun.debtBalances : Balances where
  supplied := run.debtPosition.supplied
  borrowed := run.debtPosition.borrowed.saturatingSub run.actualRepay
  totalSupplied := run.debtMarket.totalSupplied
  totalBorrowed := run.debtMarket.totalBorrowed.saturatingSub run.actualRepay

def LiquidateRun.collateralBalances : Balances where
  supplied := run.collateralPosition.supplied.saturatingSub run.seize
  borrowed := run.collateralPosition.borrowed
  totalSupplied := run.collateralMarket.totalSupplied.saturatingSub run.seize
  totalBorrowed := run.collateralMarket.totalBorrowed

theorem LiquidateRun.markets :
    s'.markets =
      (s.markets.insert accounts.debtMint (run.debtMarket.rebalance run.debtBalances)).insert
        accounts.collateralMint (run.collateralMarket.rebalance run.collateralBalances) :=
  congrArg State.markets run.result

theorem LiquidateRun.positions :
    s'.positions =
      (s.positions.insert (accounts.borrower, accounts.debtMint)
        (run.debtPosition.rebalance run.debtBalances)).insert
        (accounts.borrower, accounts.collateralMint)
        (run.collateralPosition.rebalance run.collateralBalances) :=
  congrArg State.positions run.result

theorem LiquidateRun.clock : s'.clock = s.clock := by
  rw [run.result]
  rfl

theorem LiquidateRun.accruedDebt :
    Accrued s accounts.borrower accounts.debtMint run.debtMarket run.debtPosition := by
  have loaded := Liquidate.load_ok run.loaded
  exact ⟨⟨_, loaded.debtMarket, run.accruedDebtMarket⟩,
    Or.inl ⟨_, loaded.debtPosition, run.accruedDebtPosition⟩⟩

theorem LiquidateRun.accruedCollateral :
    Accrued s accounts.borrower accounts.collateralMint run.collateralMarket
      run.collateralPosition := by
  have loaded := Liquidate.load_ok run.loaded
  exact ⟨⟨_, loaded.collateralMarket, run.accruedCollateralMarket⟩,
    Or.inl ⟨_, loaded.collateralPosition, run.accruedCollateralPosition⟩⟩

/-- The repayment goes into one vault and the seizure comes out of the other,
which may be the same one. -/
theorem LiquidateRun.cash (linked : Linked rt s) (mint : Pubkey) :
    s'.cash mint + (if mint = accounts.collateralMint then run.seize.val else 0) =
      s.cash mint + (if mint = accounts.debtMint then run.actualRepay.val else 0) := by
  have loaded := Liquidate.load_ok run.loaded
  have after : s'.cash mint = run.tokens.amountAt (.vault mint) :=
    congrArg (State.cash · mint) run.result
  obtain ⟨_, gained, others⟩ :=
    transferTokens_moves run.paidIn (linked.vault_ne loaded.debtAta accounts.debtMint)
  obtain ⟨spent, _, others'⟩ :=
    transferTokens_moves run.paidOut
      (linked.vault_ne loaded.collateralAta accounts.collateralMint).symm
  have middle : run.repaid.amountAt (.vault mint) =
      s.cash mint + if mint = accounts.debtMint then run.actualRepay.val else 0 := by
    split
    · subst mint
      exact gained
    · rename_i distinct
      rw [others _ (linked.vault_ne loaded.debtAta mint).symm (by simpa using distinct)]
      rfl
  rw [after, ← middle]
  split
  · subst mint
    exact spent
  · rename_i distinct
    have apart := (linked.vault_ne loaded.collateralAta mint).symm
    rw [others' _ (by simpa using distinct) apart, Nat.add_zero]

end Liquidations

end Steps

end ShadowLend
