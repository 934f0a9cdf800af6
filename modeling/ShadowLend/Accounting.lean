import ShadowLend.Effects
import ShadowLend.Foundation.Pool

/-! Each market is a lending pool: its vault is the cash, its two counters are the
loans and the deposits, and the sums over its positions are what is owed. Every
step of the ledger is a sequence of pool moves of every market. -/

namespace ShadowLend

def inMarket (amount : Position → ℕ) (mint : Pubkey) (key : Pubkey × Pubkey)
    (position : Position) : ℕ := if key.2 = mint then amount position else 0

def State.suppliedIn (s : State) (mint : Pubkey) : ℕ :=
  s.positions.total (inMarket (fun position => position.supplied.val) mint)

def State.borrowedIn (s : State) (mint : Pubkey) : ℕ :=
  s.positions.total (inMarket (fun position => position.borrowed.val) mint)

def State.totalSupplied (s : State) (mint : Pubkey) : ℕ :=
  (s.markets.lookup mint).elim 0 fun market => market.totalSupplied.val

def State.totalBorrowed (s : State) (mint : Pubkey) : ℕ :=
  (s.markets.lookup mint).elim 0 fun market => market.totalBorrowed.val

theorem totalSupplied_of_lookup {s : State} {mint : Pubkey} {market : Market}
    (found : s.markets.lookup mint = some market) :
    s.totalSupplied mint = market.totalSupplied.val := by
  rw [State.totalSupplied, found]
  rfl

theorem totalBorrowed_of_lookup {s : State} {mint : Pubkey} {market : Market}
    (found : s.markets.lookup mint = some market) :
    s.totalBorrowed mint = market.totalBorrowed.val := by
  rw [State.totalBorrowed, found]
  rfl

def State.pool (s : State) (mint : Pubkey) : Pool ℕ where
  cash := s.cash mint
  lent := s.totalBorrowed mint
  booked := s.totalSupplied mint
  owed := s.suppliedIn mint
  debt := s.borrowedIn mint

section Sums

variable {positions : Table (Pubkey × Pubkey) Position} {user mint : Pubkey}

theorem total_inMarket_self (amount : Position → ℕ) (position : Position) :
    Table.total (positions.insert (user, mint) position) (inMarket amount mint) +
        positions.share (inMarket amount mint) (user, mint) =
      positions.total (inMarket amount mint) + amount position := by
  rw [Table.total_insert, inMarket, if_pos rfl]

theorem total_inMarket_other (amount : Position → ℕ) (position : Position) {other : Pubkey}
    (distinct : mint ≠ other) :
    Table.total (positions.insert (user, mint) position) (inMarket amount other) =
      positions.total (inMarket amount other) := by
  apply Table.total_insert_same
  rw [inMarket, if_neg distinct]
  cases found : positions.lookup (user, mint) with
  | none => exact (Table.share_of_absent found).symm
  | some old => rw [Table.share_of_lookup found, inMarket, if_neg distinct]

theorem inMarket_le_total (amount : Position → ℕ) {position : Position}
    (found : positions.lookup (user, mint) = some position) :
    amount position ≤ positions.total (inMarket amount mint) := by
  have share := positions.share_le_total (inMarket amount mint) (user, mint)
  rwa [Table.share_of_lookup found, inMarket, if_pos rfl] at share

end Sums

section Restatements

variable {s : State} {user mint : Pubkey} {market : Market} {position : Position}

theorem Accrued.share_supplied (accrued : Accrued s user mint market position) :
    s.positions.share (inMarket (fun p => p.supplied.val) mint) (user, mint) =
      position.supplied.val := by
  rcases accrued.ofPosition with ⟨old, found, rfl⟩ | ⟨absent, nothing, _, _⟩
  · rw [Table.share_of_lookup found, inMarket, if_pos rfl, accruePosition_supplied]
  · rw [Table.share_of_absent absent, nothing]

theorem Accrued.totalSupplied (accrued : Accrued s user mint market position) :
    s.totalSupplied mint = market.totalSupplied.val := by
  rcases accrued.ofMarket with ⟨stored, found, rfl⟩
  rw [totalSupplied_of_lookup found, accrueMarket_totalSupplied]

theorem Accrued.totalBorrowed (accrued : Accrued s user mint market position) :
    s.totalBorrowed mint = market.totalBorrowed.val := by
  rcases accrued.ofMarket with ⟨stored, found, rfl⟩
  rw [totalBorrowed_of_lookup found, accrueMarket_totalBorrowed]

theorem Accrued.supplied_le (accrued : Accrued s user mint market position) :
    position.supplied.val ≤ s.suppliedIn mint := by
  rw [← accrued.share_supplied]
  exact s.positions.share_le_total _ _

end Restatements

/-- The positions an action brings up to the current index. -/
def Action.restated (a : Action) : List (Pubkey × Pubkey) :=
  match a with
  | .supply user mint _ | .repay user mint _ => [(user.pubkey, mint)]
  | .withdraw user mint _ _ _ | .borrow user mint _ _ _ => [(user.pubkey, mint)]
  | .liquidate accounts _ _ =>
      [(accounts.borrower, accounts.debtMint), (accounts.borrower, accounts.collateralMint)]
  | _ => []

/-- No interest has accrued on the positions an action restates. -/
def InterestFree (s : State) (a : Action) : Prop :=
  ∀ key ∈ a.restated, ∀ position, s.positions.lookup key = some position →
    ∀ market, s.markets.lookup key.2 = some market →
      (accruePosition position (accrueMarket market s.clock)).borrowed = position.borrowed

instance (s : State) (a : Action) : Decidable (InterestFree s a) := by
  unfold InterestFree
  infer_instance

theorem Action.restated_of_touch {a : Action} {kind : MarketActionKind} {user : Signer}
    {mint : Pubkey} (acts : a.touch = some (kind, user, mint)) :
    (user.pubkey, mint) ∈ a.restated := by
  cases a <;> simp_all [Action.touch, Action.restated]

theorem Accrued.share_borrowed {s : State} {user mint : Pubkey} {market : Market}
    {position : Position} (accrued : Accrued s user mint market position) {a : Action}
    (restated : (user, mint) ∈ a.restated) (free : InterestFree s a) :
    s.positions.share (inMarket (fun p => p.borrowed.val) mint) (user, mint) =
      position.borrowed.val := by
  rcases accrued.ofPosition with ⟨old, found, same⟩ | ⟨absent, _, nothing, _⟩
  · rcases accrued.ofMarket with ⟨stored, present, current⟩
    have unchanged := free _ restated old found stored present
    rw [← current, ← same] at unchanged
    rw [Table.share_of_lookup found, inMarket, if_pos rfl, unchanged]
  · rw [Table.share_of_absent absent, nothing]

/-- The pool move that each kind of instruction is. -/
def MarketActionKind.move (kind : MarketActionKind) (amount : ℕ) : Pool.Move ℕ :=
  match kind with
  | .supply => .deposit amount
  | .withdraw => .redeem amount
  | .borrow => .lend amount
  | .repay => .collect amount

section Refinement

variable {rt : Runtime} {s s' : State}

def State.poolRestated (s : State) (mint : Pubkey) (before after : ℕ) : Pool ℕ :=
  { s.pool mint with debt := s.borrowedIn mint + after - before }

theorem restate_takes {mint : Pubkey} {before after : ℕ} (part : before ≤ s.borrowedIn mint) :
    (Pool.Move.restate before after).Takes (s.pool mint) (s.poolRestated mint before after) := by
  refine ⟨rfl, rfl, rfl, rfl, ?_⟩
  simp only [State.poolRestated, State.pool]
  omega

theorem Touch.move {kind : MarketActionKind} {user : Signer} {mint : Pubkey}
    (touch : Touch s kind user mint s') :
    (kind.move touch.amount).Takes
      (s.poolRestated mint
        (s.positions.share (inMarket (fun p => p.borrowed.val) mint) (user.pubkey, mint))
        touch.position.borrowed.val)
      (s'.pool mint) := by
  have lent : s'.totalBorrowed mint = touch.balances.totalBorrowed.val := by
    rw [State.totalBorrowed, touch.markets, Finmap.lookup_insert]
    rfl
  have booked : s'.totalSupplied mint = touch.balances.totalSupplied.val := by
    rw [State.totalSupplied, touch.markets, Finmap.lookup_insert]
    rfl
  have owed : s'.suppliedIn mint + touch.position.supplied.val =
      s.suppliedIn mint + touch.balances.supplied.val := by
    rw [State.suppliedIn, touch.positions, ← touch.accrued.share_supplied]
    exact total_inMarket_self _ _
  have debt : s'.borrowedIn mint +
        s.positions.share (inMarket (fun p => p.borrowed.val) mint) (user.pubkey, mint) =
      s.borrowedIn mint + touch.balances.borrowed.val := by
    rw [State.borrowedIn, touch.positions]
    exact total_inMarket_self _ _
  have part : s.positions.share (inMarket (fun p => p.borrowed.val) mint) (user.pubkey, mint) ≤
      s.borrowedIn mint := s.positions.share_le_total _ _
  have lentBefore := touch.accrued.totalBorrowed
  have bookedBefore := touch.accrued.totalSupplied
  have books := touch.books
  cases kind with
  | supply =>
      rcases books with ⟨supplied, borrowed, total, same, cash⟩
      rw [borrowed] at debt
      rw [same] at lent
      apply Pool.ext <;> simp only [State.pool, State.poolRestated] <;> omega
  | withdraw =>
      rcases books with ⟨supplied, borrowed, total, same, cash⟩
      rw [borrowed] at debt
      rw [same] at lent
      apply Pool.ext <;> simp only [State.pool, State.poolRestated] <;> omega
  | borrow =>
      rcases books with ⟨_, supplied, borrowed, same, total, cash⟩
      rw [supplied] at owed
      rw [same] at booked
      refine ⟨cash.symm, ?_, ?_, ?_, ?_⟩ <;>
        simp only [State.pool, State.poolRestated] <;> omega
  | repay =>
      rcases books with ⟨supplied, borrowed, same, total, cash⟩
      rw [supplied] at owed
      rw [same] at booked
      refine ⟨cash, ?_, ?_, ?_, ?_⟩ <;>
        simp only [State.pool, State.poolRestated] <;> omega

theorem pool_congr {mint : Pubkey} (cash : s'.cash mint = s.cash mint)
    (lent : s'.totalBorrowed mint = s.totalBorrowed mint)
    (booked : s'.totalSupplied mint = s.totalSupplied mint)
    (positions : ∀ amount, s'.positions.total (inMarket amount mint) =
      s.positions.total (inMarket amount mint)) : s'.pool mint = s.pool mint := by
  simp only [State.pool, State.suppliedIn, State.borrowedIn, cash, lent, booked, positions]

theorem totals_congr {mint : Pubkey} (same : s'.markets.lookup mint = s.markets.lookup mint) :
    s'.totalBorrowed mint = s.totalBorrowed mint ∧
      s'.totalSupplied mint = s.totalSupplied mint := by
  simp only [State.totalBorrowed, State.totalSupplied, same, and_self]

theorem totals_insert {mint : Pubkey} {market : Market}
    (markets : s'.markets = s.markets.insert mint market)
    (lent : market.totalBorrowed.val = s.totalBorrowed mint)
    (booked : market.totalSupplied.val = s.totalSupplied mint) (other : Pubkey) :
    s'.totalBorrowed other = s.totalBorrowed other ∧
      s'.totalSupplied other = s.totalSupplied other := by
  by_cases here : other = mint
  · subst other
    rw [← lent, ← booked, State.totalBorrowed, State.totalSupplied, markets,
      Finmap.lookup_insert]
    exact ⟨rfl, rfl⟩
  · apply totals_congr
    rw [markets, Finmap.lookup_insert_of_ne _ here]

theorem Touch.elsewhere_pool {kind : MarketActionKind} {user : Signer} {mint other : Pubkey}
    (touch : Touch s kind user mint s') (distinct : other ≠ mint) :
    s'.pool other = s.pool other := by
  obtain ⟨lent, booked⟩ : s'.totalBorrowed other = s.totalBorrowed other ∧
      s'.totalSupplied other = s.totalSupplied other := by
    apply totals_congr
    rw [touch.markets, Finmap.lookup_insert_of_ne _ distinct]
  apply pool_congr (touch.elsewhere other distinct) lent booked
  intro amount
  rw [touch.positions, total_inMarket_other amount _ distinct.symm]

section Liquidations

variable {accounts : LiquidateAccounts} {remaining : List Pubkey} {repayAmount : U64}
variable (run : LiquidateRun rt s accounts remaining repayAmount s')
include run

theorem LiquidateRun.elsewhere_pool (linked : Linked rt s) {other : Pubkey}
    (notDebt : other ≠ accounts.debtMint) (notCollateral : other ≠ accounts.collateralMint) :
    s'.pool other = s.pool other := by
  obtain ⟨lent, booked⟩ : s'.totalBorrowed other = s.totalBorrowed other ∧
      s'.totalSupplied other = s.totalSupplied other := by
    apply totals_congr
    rw [run.markets, Finmap.lookup_insert_of_ne _ notCollateral,
      Finmap.lookup_insert_of_ne _ notDebt]
  have cash := run.cash linked other
  rw [if_neg notCollateral, if_neg notDebt] at cash
  apply pool_congr cash lent booked
  intro amount
  rw [run.positions, total_inMarket_other amount _ notCollateral.symm,
    total_inMarket_other amount _ notDebt.symm]

/-- The collateral copies are written last, so what they hold is what stays. -/
theorem LiquidateRun.collateral_total (amount : Position → ℕ) :
    s'.positions.total (inMarket amount accounts.collateralMint) +
        s.positions.share (inMarket amount accounts.collateralMint)
          (accounts.borrower, accounts.collateralMint) =
      s.positions.total (inMarket amount accounts.collateralMint) +
        amount (run.collateralPosition.rebalance run.collateralBalances) := by
  rw [run.positions]
  by_cases same : accounts.debtMint = accounts.collateralMint
  · rw [same, Finmap.insert_insert]
    exact total_inMarket_self amount _
  · have apart : (accounts.borrower, accounts.debtMint) ≠
        (accounts.borrower, accounts.collateralMint) := by simpa using same
    rw [Finmap.insert_insert_of_ne _ apart, total_inMarket_other amount _ same]
    exact total_inMarket_self amount _

theorem LiquidateRun.debt_total (distinct : accounts.debtMint ≠ accounts.collateralMint)
    (amount : Position → ℕ) :
    s'.positions.total (inMarket amount accounts.debtMint) +
        s.positions.share (inMarket amount accounts.debtMint)
          (accounts.borrower, accounts.debtMint) =
      s.positions.total (inMarket amount accounts.debtMint) +
        amount (run.debtPosition.rebalance run.debtBalances) := by
  rw [run.positions, total_inMarket_other amount _ distinct.symm]
  exact total_inMarket_self amount _

theorem LiquidateRun.seize_le : run.seize.val ≤ run.collateralPosition.supplied.val :=
  seizeAmount_le run.seized

theorem LiquidateRun.repay_le : run.actualRepay.val ≤ run.debtPosition.borrowed.val := by
  rw [run.capped, Uint.val_least]
  exact min_le_right _ _

/-- The seizure side of a liquidation: what the repayment adds to the same vault
is a gift as far as the pool can tell, since the debt copies are overwritten. -/
theorem LiquidateRun.collateral_moves (linked : Linked rt s)
    (balanced : (s.pool accounts.collateralMint).Balanced) {allowed : Pool.Move ℕ → Prop}
    (fits : ∀ move, (∀ before after, move ≠ .restate before after) → allowed move)
    (restates : allowed (.restate
      (s.positions.share (inMarket (fun p => p.borrowed.val) accounts.collateralMint)
        (accounts.borrower, accounts.collateralMint))
      run.collateralPosition.borrowed.val)) :
    Pool.Moves allowed (s.pool accounts.collateralMint) (s'.pool accounts.collateralMint) := by
  have cash := run.cash linked accounts.collateralMint
  have owed := run.collateral_total fun p => p.supplied.val
  have debt := run.collateral_total fun p => p.borrowed.val
  have part := s.positions.share_le_total
    (inMarket (fun p => p.borrowed.val) accounts.collateralMint)
    (accounts.borrower, accounts.collateralMint)
  have supplied := run.accruedCollateral.supplied_le
  have lentBefore := run.accruedCollateral.totalBorrowed
  have bookedBefore := run.accruedCollateral.totalSupplied
  have seize := run.seize_le
  have lent : s'.totalBorrowed accounts.collateralMint =
      run.collateralMarket.totalBorrowed.val := by
    rw [State.totalBorrowed, run.markets, Finmap.lookup_insert]
    rfl
  have booked : s'.totalSupplied accounts.collateralMint =
      run.collateralMarket.totalSupplied.val - run.seize.val := by
    rw [State.totalSupplied, run.markets, Finmap.lookup_insert]
    exact Uint.val_saturatingSub _ _
  have seized : (run.collateralPosition.rebalance run.collateralBalances).supplied.val =
      run.collateralPosition.supplied.val - run.seize.val := Uint.val_saturatingSub _ _
  have kept : (run.collateralPosition.rebalance run.collateralBalances).borrowed.val =
      run.collateralPosition.borrowed.val := rfl
  rw [run.accruedCollateral.share_supplied, seized] at owed
  rw [if_pos rfl] at cash
  rw [kept] at debt
  generalize (if accounts.collateralMint = accounts.debtMint then run.actualRepay.val else 0) =
    gift at cash
  refine (Pool.Moves.step _ restates (restate_takes part)).trans ?_
  refine (Pool.Moves.step (.donate gift) (fits _ (by simp)) rfl).trans ?_
  refine Pool.Moves.step (.redeem run.seize.val) (fits _ (by simp)) ?_
  simp only [Pool.Balanced, State.pool, State.suppliedIn] at balanced supplied
  apply Pool.ext <;> simp only [State.pool, State.poolRestated, State.suppliedIn,
    State.borrowedIn] <;> omega

theorem LiquidateRun.debt_moves (linked : Linked rt s)
    (distinct : accounts.debtMint ≠ accounts.collateralMint) {allowed : Pool.Move ℕ → Prop}
    (fits : ∀ move, (∀ before after, move ≠ .restate before after) → allowed move)
    (restates : allowed (.restate
      (s.positions.share (inMarket (fun p => p.borrowed.val) accounts.debtMint)
        (accounts.borrower, accounts.debtMint))
      run.debtPosition.borrowed.val)) :
    Pool.Moves allowed (s.pool accounts.debtMint) (s'.pool accounts.debtMint) := by
  have cash := run.cash linked accounts.debtMint
  have owed := run.debt_total distinct fun p => p.supplied.val
  have debt := run.debt_total distinct fun p => p.borrowed.val
  have part := s.positions.share_le_total
    (inMarket (fun p => p.borrowed.val) accounts.debtMint)
    (accounts.borrower, accounts.debtMint)
  have lentBefore := run.accruedDebt.totalBorrowed
  have bookedBefore := run.accruedDebt.totalSupplied
  have repaid := run.repay_le
  have stored : s'.markets.lookup accounts.debtMint =
      some (run.debtMarket.rebalance run.debtBalances) := by
    rw [run.markets, Finmap.lookup_insert_of_ne _ distinct, Finmap.lookup_insert]
  have lent : s'.totalBorrowed accounts.debtMint =
      run.debtMarket.totalBorrowed.val - run.actualRepay.val := by
    rw [State.totalBorrowed, stored]
    exact Uint.val_saturatingSub _ _
  have booked : s'.totalSupplied accounts.debtMint = run.debtMarket.totalSupplied.val := by
    rw [State.totalSupplied, stored]
    rfl
  have kept : (run.debtPosition.rebalance run.debtBalances).supplied.val =
      run.debtPosition.supplied.val := rfl
  have less : (run.debtPosition.rebalance run.debtBalances).borrowed.val =
      run.debtPosition.borrowed.val - run.actualRepay.val := Uint.val_saturatingSub _ _
  rw [run.accruedDebt.share_supplied, kept] at owed
  rw [if_pos rfl, if_neg distinct] at cash
  rw [less] at debt
  refine (Pool.Moves.step _ restates (restate_takes part)).trans ?_
  refine Pool.Moves.step (.collect run.actualRepay.val) (fits _ (by simp)) ?_
  refine ⟨?_, ?_, ?_, ?_, ?_⟩ <;> simp only [State.pool, State.poolRestated, State.suppliedIn,
    State.borrowedIn] <;> omega

end Liquidations

/-- The ledger refines the pool: a step of the one is a sequence of moves of the
other, and a step without interest is a sequence of moves without interest. -/
theorem step_pool (linked : Linked rt s) (balanced : ∀ mint, (s.pool mint).Balanced)
    {a : Action} (step : Step rt s a s') (mint : Pubkey) :
    Pool.Moves (fun move => InterestFree s a → move.InterestFree) (s.pool mint)
      (s'.pool mint) := by
  have free (move : Pool.Move ℕ) (other : ∀ before after, move ≠ .restate before after) :
      InterestFree s a → move.InterestFree := by
    intro _ before after same
    exact absurd same (other before after)
  have restates {user kind : Pubkey} {market : Market} {position : Position}
      (accrued : Accrued s user kind market position) (restated : (user, kind) ∈ a.restated) :
      InterestFree s a → (Pool.Move.restate
        (s.positions.share (inMarket (fun p => p.borrowed.val) kind) (user, kind))
        position.borrowed.val).InterestFree := by
    intro guard before after same
    cases same
    exact accrued.share_borrowed restated guard
  rcases step_effect linked step with ⟨markets, positions, cash⟩ |
    ⟨opened, market, fresh, _, empty, markets, positions, cash⟩ |
    ⟨adjusted, market, _, _, found, markets, positions, cash⟩ | ⟨kind, user, touched, acts, touch⟩ |
    ⟨accounts, remaining, repayAmount, rfl, run⟩
  · rcases Nat.exists_eq_add_of_le (cash mint) with ⟨gift, grown⟩
    refine Pool.Moves.step (.donate gift) (free _ (by simp)) ?_
    apply Pool.ext <;> simp only [State.pool, State.totalBorrowed, State.totalSupplied,
      State.suppliedIn, State.borrowedIn, markets, positions, grown]
  · obtain ⟨lent, booked⟩ := totals_insert markets
      (by rw [empty.2, State.totalBorrowed, fresh]; rfl)
      (by rw [empty.1, State.totalSupplied, fresh]; rfl) mint
    rw [pool_congr (cash mint) lent booked fun _ => by rw [positions]]
    exact .refl _
  · obtain ⟨lent, booked⟩ := totals_insert markets
      (totalBorrowed_of_lookup found).symm (totalSupplied_of_lookup found).symm mint
    rw [pool_congr (cash mint) lent booked fun _ => by rw [positions]]
    exact .refl _
  · by_cases here : mint = touched
    · subst mint
      refine (Pool.Moves.step _ (restates touch.accrued (Action.restated_of_touch acts))
        (restate_takes (s.positions.share_le_total _ _))).trans ?_
      refine Pool.Moves.step (kind.move touch.amount) (free _ ?_) touch.move
      cases kind <;> simp [MarketActionKind.move]
    · rw [touch.elsewhere_pool here]
      exact .refl _
  · by_cases atCollateral : mint = accounts.collateralMint
    · subst mint
      exact run.collateral_moves linked (balanced _) free
        (restates run.accruedCollateral (by simp [Action.restated]))
    · by_cases atDebt : mint = accounts.debtMint
      · subst mint
        exact run.debt_moves linked atCollateral free
          (restates run.accruedDebt (by simp [Action.restated]))
      · rw [run.elsewhere_pool linked atDebt atCollateral]
        exact .refl _

theorem pool_empty (mint : Pubkey) : State.empty.pool mint = ⟨0, 0, 0, 0, 0⟩ := by
  simp [State.pool, State.cash, State.totalBorrowed, State.totalSupplied, State.suppliedIn,
    State.borrowedIn, State.empty, Tokens.amountAt]

theorem Reachable.balanced (reached : Reachable rt s) (mint : Pubkey) :
    (s.pool mint).Balanced := by
  revert mint
  apply reached.invariant_under (fun _ earlier => Reachable.linked earlier)
  · rintro _ rfl mint
    rw [pool_empty]
    rfl
  · intro _ _ _ linked balanced _ step mint
    exact (step_pool linked balanced step mint).preserve
      (fun _ _ _ _ taken law => taken.balanced law) (balanced mint)

theorem Reachable.solvent (reached : Reachable rt s) (mint : Pubkey) :
    (s.pool mint).Solvent := by
  revert mint
  apply reached.invariant_under fun _ earlier =>
    And.intro (Reachable.linked earlier) (Reachable.balanced earlier)
  · rintro _ rfl mint
    rw [pool_empty]
    exact le_rfl
  · rintro _ _ _ ⟨linked, balanced⟩ solvent _ step mint
    exact (step_pool linked balanced step mint).preserve
      (fun _ _ _ _ taken law => taken.solvent law) (solvent mint)

/-- In runs which restate no debt to another amount, the counters are exact. -/
theorem ReachableBy.recorded (reached : ReachableBy rt InterestFree s) (mint : Pubkey) :
    (s.pool mint).Recorded := by
  revert mint
  apply reached.invariant_under fun _ earlier =>
    And.intro (Reachable.linked (ReachableBy.reachable earlier))
      (Reachable.balanced (ReachableBy.reachable earlier))
  · rintro _ rfl mint
    rw [pool_empty]
    rfl
  · rintro _ _ _ ⟨linked, balanced⟩ recorded free step mint
    exact (step_pool linked balanced step mint).preserve
      (fun _ _ _ charges taken law => taken.recorded (charges free) law) (recorded mint)

end Refinement

end ShadowLend
