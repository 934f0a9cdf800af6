import ShadowLend.Effects

/-! The health check of an action as one list of `accumulate_position` calls: the
main positions first, then those the caller listed. -/

namespace ShadowLend

open Outcome

/-- The calls of `accumulate_position` an action makes, in the order it makes them. -/
def Action.counted (rt : Runtime) (s : State) : Action → Except ProgramError (List Contribution)
  | .withdraw user mint priceUpdate remaining amount => do
      let ctx ← ModifyPositionWithPrice.load rt s user mint priceUpdate
      let market := accrueMarket ctx.market s.clock
      let position := accruePosition ctx.position market
      let supplied ← okOr (position.supplied.checkedSub amount) (.market .insufficientCollateral)
      let price ← okOr
        (rt.getPriceNoOlderThan ctx.priceUpdate s.clock maxPriceAgeSec market.feedId)
        (.market .stalePrice)
      let listed ← contributions rt (remaining.map s.accountInfo) user.pubkey
        (fun key => key = .position user.pubkey mint) s.clock
      pure (({ position with supplied := supplied } : Position).contribution
        (.position user.pubkey mint) price market.feedId :: listed)
  | .borrow user mint priceUpdate remaining amount => do
      let ctx ← ModifyPositionWithPrice.load rt s user mint priceUpdate
      let market := accrueMarket ctx.market s.clock
      let position := accruePosition ctx.position market
      let borrowed ← okOr (position.borrowed.checkedAdd amount) (.market .overflow)
      let price ← okOr
        (rt.getPriceNoOlderThan ctx.priceUpdate s.clock maxPriceAgeSec market.feedId)
        (.market .stalePrice)
      let listed ← contributions rt (remaining.map s.accountInfo) user.pubkey
        (fun key => key = .position user.pubkey mint) s.clock
      pure (({ position with borrowed := borrowed } : Position).contribution
        (.position user.pubkey mint) price market.feedId :: listed)
  | .liquidate accounts remaining _ => do
      let ctx ← Liquidate.load rt s accounts
      let debtMarket := accrueMarket ctx.debtMarket s.clock
      let collateralMarket := accrueMarket ctx.collateralMarket s.clock
      let debtPrice ← okOr
        (rt.getPriceNoOlderThan ctx.debtPriceUpdate s.clock maxPriceAgeSec debtMarket.feedId)
        (.market .stalePrice)
      let collatPrice ← okOr
        (rt.getPriceNoOlderThan ctx.collateralPriceUpdate s.clock maxPriceAgeSec
          collateralMarket.feedId)
        (.market .stalePrice)
      let listed ← contributions rt (remaining.map s.accountInfo) accounts.borrower
        (fun key => accounts.skipKeys.any (· = key)) s.clock
      pure ((accruePosition ctx.debtPosition debtMarket).contribution
          (.position accounts.borrower accounts.debtMint) debtPrice debtMarket.feedId ::
        (accruePosition ctx.collateralPosition collateralMarket).contribution
          (.position accounts.borrower accounts.collateralMint) collatPrice
          collateralMarket.feedId :: listed)
  | _ => pure []

/-- What an action goes on to do with the totals: an owner must be covered, a
borrower to be liquidated must not be. -/
def Action.passes (a : Action) (totals : Totals) : Prop :=
  match a with
  | .withdraw .. | .borrow .. => totals.debt.val ≤ totals.collatAtLtv.val
  | .liquidate .. => totals.collatAtLtv.val < totals.debt.val
  | _ => True

def Action.remaining : Action → List Pubkey
  | .withdraw _ _ _ remaining _ | .borrow _ _ _ remaining _ | .liquidate _ remaining _ => remaining
  | _ => []

def Action.mainKeys : Action → List (Pubkey × Pubkey)
  | .withdraw user mint _ _ _ | .borrow user mint _ _ _ => [(user.pubkey, mint)]
  | .liquidate accounts _ _ =>
      [(accounts.borrower, accounts.debtMint), (accounts.borrower, accounts.collateralMint)]
  | _ => []

def Action.mainPositions (a : Action) : List Pubkey :=
  a.mainKeys.map fun key => .position key.1 key.2

def Action.lent : Action → ℕ
  | .borrow _ _ _ _ amount => amount.val
  | _ => 0

/-- A main position enters the check restated to the current slot. -/
def MainEntry (s : State) (a : Action) (key : Pubkey × Pubkey) (e : Contribution) : Prop :=
  e.account = .position key.1 key.2 ∧
    ∃ position market, s.positions.lookup key = some position ∧
      s.markets.lookup key.2 = some market ∧
      e.borrowed.val = (accruePosition position (accrueMarket market s.clock)).borrowed.val + a.lent

/-- The list is the main positions and then the walk, which skips them. -/
theorem counted_shape {rt : Runtime} {s : State} {a : Action} {log : List Contribution}
    (counted : a.counted rt s = .ok log) :
    ∃ user mains listed, log = mains ++ listed ∧ List.Forall₂ (MainEntry s a) a.mainKeys mains ∧
      contributions rt (a.remaining.map s.accountInfo) user
        (fun key => decide (key ∈ a.mainPositions)) s.clock = .ok listed := by
  cases a with
  | withdraw user mint priceUpdate remaining amount =>
      simp only [Action.counted, bind_ok, okOr_ok, pure_ok, Uint.checkedSub_eq_some] at counted
      rcases counted with ⟨ctx, loaded, supplied, _, price, _, listed, walked, rfl⟩
      rcases ModifyPositionWithPrice.load_ok loaded with ⟨found, _, held, _⟩
      refine ⟨user.pubkey, [_], listed, rfl, .cons ⟨rfl, _, _, held, found, rfl⟩ .nil, ?_⟩
      simpa [Action.mainPositions, Action.mainKeys, Action.remaining] using walked
  | borrow user mint priceUpdate remaining amount =>
      simp only [Action.counted, bind_ok, okOr_ok, pure_ok, Uint.checkedAdd_eq_some] at counted
      rcases counted with ⟨ctx, loaded, borrowed, grown, price, _, listed, walked, rfl⟩
      rcases ModifyPositionWithPrice.load_ok loaded with ⟨found, _, held, _⟩
      refine ⟨user.pubkey, [_], listed, rfl, .cons ⟨rfl, _, _, held, found, grown⟩ .nil, ?_⟩
      simpa [Action.mainPositions, Action.mainKeys, Action.remaining] using walked
  | liquidate accounts remaining repayAmount =>
      simp only [Action.counted, bind_ok, okOr_ok, pure_ok] at counted
      rcases counted with ⟨ctx, loaded, _, _, _, _, listed, walked, rfl⟩
      have stored := Liquidate.load_ok loaded
      refine ⟨accounts.borrower, [_, _], listed, rfl,
        .cons ⟨rfl, _, _, stored.debtPosition, stored.debtMarket, rfl⟩
          (.cons ⟨rfl, _, _, stored.collateralPosition, stored.collateralMarket, rfl⟩ .nil), ?_⟩
      have skips : (fun key => decide
          (key ∈ (Action.liquidate accounts remaining repayAmount).mainPositions)) =
          fun key => accounts.skipKeys.any (· = key) := by
        funext key
        simp [Action.mainPositions, Action.mainKeys, LiquidateAccounts.skipKeys, eq_comm]
      rw [skips]
      exact walked
  | _ =>
      simp only [Action.counted, pure_ok] at counted
      subst log
      exact ⟨.default, [], [], rfl, .nil, rfl⟩

/-- What the health check of `withdraw` or `borrow` has seen: the main position as
the instruction will leave it, then the listed ones as they are stored. -/
structure OwnerCheck (rt : Runtime) (s : State) (user : Signer) (mint : Pubkey)
    (remaining : List Pubkey) (log : List Contribution) (s' : State) where
  market : Market
  position : Position
  balances : Balances
  price : Price
  listed : List Contribution
  totals : Totals
  accrued : Accrued s user.pubkey mint market position
  log_eq : log = (position.rebalance balances).contribution (.position user.pubkey mint) price
    market.feedId :: listed
  walked : contributions rt (remaining.map s.accountInfo) user.pubkey
    (fun key => key = .position user.pubkey mint) s.clock = .ok listed
  summed : accumulateAll log .zero = .ok totals
  healthy : totals.debt.val ≤ totals.collatAtLtv.val
  clock : s'.clock = s.clock
  markets : s'.markets = s.markets.insert mint (market.rebalance balances)
  positions : s'.positions =
    s.positions.insert (user.pubkey, mint) (position.rebalance balances)

section Checks

variable {rt : Runtime} {s s' : State}

section Owners

variable {user : Signer} {mint priceUpdate : Pubkey} {remaining : List Pubkey} {amount : U64}

theorem withdraw_check (ran : withdraw rt s user mint priceUpdate remaining amount = .ok s') :
    ∃ log, (Action.withdraw user mint priceUpdate remaining amount).counted rt s = .ok log ∧
      Nonempty (OwnerCheck rt s user mint remaining log s') := by
  obtain ⟨⟨ctx, market, position, price, tokens, newSupplied, totalSupplied, loaded, _,
    accruedMarket, accruedPosition, taken, priced, health, _, _, result⟩⟩ := withdraw_ok ran
  rcases ModifyPositionWithPrice.load_ok loaded with ⟨found, _, held, _⟩
  refine ⟨_, ?_, ⟨⟨market, position,
    ⟨newSupplied, position.borrowed, totalSupplied, market.totalBorrowed⟩, price, health.listed,
    health.totals, ⟨⟨_, found, accruedMarket⟩, Or.inl ⟨_, held, accruedPosition⟩⟩, rfl,
    health.counted, health.summed, health.healthy, by rw [result]; rfl,
    congrArg State.markets result, congrArg State.positions result⟩⟩⟩
  subst accruedPosition accruedMarket
  simp only [Action.counted, bind_ok, okOr_ok, pure_ok, Uint.checkedSub_eq_some]
  exact ⟨ctx, loaded, newSupplied, taken, price, priced, _, health.counted, rfl⟩

theorem borrow_check (ran : borrow rt s user mint priceUpdate remaining amount = .ok s') :
    ∃ log, (Action.borrow user mint priceUpdate remaining amount).counted rt s = .ok log ∧
      Nonempty (OwnerCheck rt s user mint remaining log s') := by
  obtain ⟨⟨ctx, market, position, price, tokens, newBorrowed, totalBorrowed, loaded, _,
    accruedMarket, accruedPosition, _, grown, _, priced, health, _, _, result⟩⟩ := borrow_ok ran
  rcases ModifyPositionWithPrice.load_ok loaded with ⟨found, _, held, _⟩
  refine ⟨_, ?_, ⟨⟨market, position,
    ⟨position.supplied, newBorrowed, market.totalSupplied, totalBorrowed⟩, price, health.listed,
    health.totals, ⟨⟨_, found, accruedMarket⟩, Or.inl ⟨_, held, accruedPosition⟩⟩, rfl,
    health.counted, health.summed, health.healthy, by rw [result]; rfl,
    congrArg State.markets result, congrArg State.positions result⟩⟩⟩
  subst accruedPosition accruedMarket
  simp only [Action.counted, bind_ok, okOr_ok, pure_ok, Uint.checkedAdd_eq_some]
  exact ⟨ctx, loaded, newBorrowed, grown, price, priced, _, health.counted, rfl⟩

end Owners

theorem owner_check {a : Action} {kind : MarketActionKind} {user : Signer} {mint : Pubkey}
    (acts : a.touch = some (kind, user, mint)) (checked : kind = .withdraw ∨ kind = .borrow)
    (step : Step rt s a s') :
    ∃ log, a.counted rt s = .ok log ∧
      Nonempty (OwnerCheck rt s user mint a.remaining log s') := by
  cases a with
  | withdraw user' mint' priceUpdate remaining amount =>
      cases acts
      exact withdraw_check step
  | borrow user' mint' priceUpdate remaining amount =>
      cases acts
      exact borrow_check step
  | supply user' mint' amount =>
      cases acts
      rcases checked with absurdity | absurdity <;> cases absurdity
  | repay user' mint' amount =>
      cases acts
      rcases checked with absurdity | absurdity <;> cases absurdity
  | _ => cases acts

def LiquidateRun.entries {accounts : LiquidateAccounts} {remaining : List Pubkey}
    {repayAmount : U64} (run : LiquidateRun rt s accounts remaining repayAmount s') :
    List Contribution :=
  run.debtPosition.contribution (.position accounts.borrower accounts.debtMint) run.debtPrice
      run.debtMarket.feedId ::
    run.collateralPosition.contribution (.position accounts.borrower accounts.collateralMint)
      run.collatPrice run.collateralMarket.feedId :: run.listed

theorem LiquidateRun.log {accounts : LiquidateAccounts} {remaining : List Pubkey}
    {repayAmount : U64} (run : LiquidateRun rt s accounts remaining repayAmount s') :
    (Action.liquidate accounts remaining repayAmount).counted rt s = .ok run.entries := by
  have debtPriced := run.debtPriced
  have collatPriced := run.collatPriced
  rw [LiquidateRun.entries, run.accruedDebtPosition, run.accruedCollateralPosition]
  rw [run.accruedDebtMarket] at debtPriced ⊢
  rw [run.accruedCollateralMarket] at collatPriced ⊢
  simp only [Action.counted, bind_ok, okOr_ok, pure_ok]
  exact ⟨run.ctx, run.loaded, run.debtPrice, debtPriced, run.collatPrice, collatPriced, _,
    run.counted, rfl⟩

/-- A successful action has such a list, and what it compared are its totals. -/
theorem step_counted {a : Action} (step : Step rt s a s') :
    ∃ log totals, a.counted rt s = .ok log ∧ accumulateAll log .zero = .ok totals ∧
      a.passes totals := by
  cases a with
  | withdraw user mint priceUpdate remaining amount =>
      rcases withdraw_check step with ⟨log, counted, ⟨check⟩⟩
      exact ⟨log, check.totals, counted, check.summed, check.healthy⟩
  | borrow user mint priceUpdate remaining amount =>
      rcases borrow_check step with ⟨log, counted, ⟨check⟩⟩
      exact ⟨log, check.totals, counted, check.summed, check.healthy⟩
  | liquidate accounts remaining repayAmount =>
      rcases liquidate_ok step with ⟨run⟩
      exact ⟨run.entries, run.totals, run.log, run.summed, run.unhealthy⟩
  | _ => exact ⟨[], .zero, rfl, rfl, trivial⟩

end Checks

end ShadowLend
