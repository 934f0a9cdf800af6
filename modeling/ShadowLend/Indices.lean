import ShadowLend.Effects

/-! Borrow indices only grow, and no snapshot is ahead of its market's index or
behind the index a market starts from. So a restatement divides by a positive
number and, away from the ends of the two widths, is the exact quotient. -/

namespace ShadowLend

structure Indexed (markets : Table Pubkey Market) (positions : Table (Pubkey × Pubkey) Position) :
    Prop where
  market : ∀ mint market, markets.lookup mint = some market →
    rateScaleE18.val ≤ market.borrowIndexE18.val
  position : ∀ user mint position market, positions.lookup (user, mint) = some position →
    markets.lookup mint = some market →
    rateScaleE18.val ≤ position.borrowIndexSnapshotE18.val ∧
      position.borrowIndexSnapshotE18.val ≤ market.borrowIndexE18.val

section Writes

variable {markets : Table Pubkey Market} {positions : Table (Pubkey × Pubkey) Position}

theorem Indexed.write_market (indexed : Indexed markets positions) {mint : Pubkey}
    {market : Market} (scaled : rateScaleE18.val ≤ market.borrowIndexE18.val)
    (advances : ∀ user position, positions.lookup (user, mint) = some position →
      ∃ old, markets.lookup mint = some old ∧
        old.borrowIndexE18.val ≤ market.borrowIndexE18.val) :
    Indexed (markets.insert mint market) positions := by
  constructor
  · intro other found present
    by_cases here : other = mint
    · subst other
      rw [Finmap.lookup_insert, Option.some.injEq] at present
      subst found
      exact scaled
    · rw [Finmap.lookup_insert_of_ne _ here] at present
      exact indexed.market other found present
  · intro user other position found held present
    by_cases here : other = mint
    · subst other
      rw [Finmap.lookup_insert, Option.some.injEq] at present
      subst found
      rcases advances user position held with ⟨old, stored, grown⟩
      rcases indexed.position user mint position old held stored with ⟨low, high⟩
      exact ⟨low, high.trans grown⟩
    · rw [Finmap.lookup_insert_of_ne _ here] at present
      exact indexed.position user other position found held present

/-- Writing a market at a later index together with a position restated to it. -/
theorem Indexed.write_both (indexed : Indexed markets positions) {user mint : Pubkey}
    {market : Market} {position : Position}
    (scaled : rateScaleE18.val ≤ market.borrowIndexE18.val)
    (advances : ∃ old, markets.lookup mint = some old ∧
      old.borrowIndexE18.val ≤ market.borrowIndexE18.val)
    (restated : position.borrowIndexSnapshotE18 = market.borrowIndexE18) :
    Indexed (markets.insert mint market) (positions.insert (user, mint) position) := by
  have first := indexed.write_market scaled fun _ _ _ => advances
  refine ⟨first.market, ?_⟩
  intro owner other found stored held present
  by_cases here : (owner, other) = (user, mint)
  · rcases Prod.mk.inj here with ⟨rfl, rfl⟩
    rw [Finmap.lookup_insert, Option.some.injEq] at held present
    subst found stored
    rw [restated]
    exact ⟨scaled, le_rfl⟩
  · rw [Finmap.lookup_insert_of_ne _ here] at held
    exact first.position owner other found stored held present

end Writes

section Steps

variable {rt : Runtime} {s s' : State}

abbrev State.Indexed (s : State) : Prop := ShadowLend.Indexed s.markets s.positions

theorem Accrued.advances {user mint : Pubkey} {market : Market} {position : Position}
    (accrued : Accrued s user mint market position) :
    ∃ old, s.markets.lookup mint = some old ∧
      old.borrowIndexE18.val ≤ market.borrowIndexE18.val := by
  rcases accrued.ofMarket with ⟨stored, found, rfl⟩
  exact ⟨stored, found, accrueMarket_index_le _ _⟩

theorem Accrued.scaled (indexed : s.Indexed) {user mint : Pubkey} {market : Market}
    {position : Position} (accrued : Accrued s user mint market position) :
    rateScaleE18.val ≤ market.borrowIndexE18.val := by
  rcases accrued.advances with ⟨old, found, grown⟩
  exact (indexed.market mint old found).trans grown

theorem Accrued.restated {user mint : Pubkey} {market : Market} {position : Position}
    (accrued : Accrued s user mint market position) :
    position.borrowIndexSnapshotE18 = market.borrowIndexE18 := by
  rcases accrued.ofPosition with ⟨old, _, rfl⟩ | ⟨_, _, _, fresh⟩
  · exact accruePosition_snapshot old market
  · exact fresh

/-- Two copies of one market made in one instruction are at one index. -/
theorem Accrued.same_index {user other mint : Pubkey} {market market' : Market}
    {position position' : Position} (accrued : Accrued s user mint market position)
    (accrued' : Accrued s other mint market' position') : market = market' := by
  rcases accrued.ofMarket with ⟨stored, found, rfl⟩
  rcases accrued'.ofMarket with ⟨stored', found', rfl⟩
  rw [found, Option.some.injEq] at found'
  rw [found']

theorem State.Indexed.step (linked : Linked rt s) (indexed : s.Indexed) {a : Action}
    (step : Step rt s a s') : s'.Indexed := by
  unfold State.Indexed
  rcases step_effect linked step with ⟨markets, positions, _⟩ |
    ⟨mint, market, fresh, index, _, markets, positions, _⟩ |
    ⟨mint, market, _, _, found, markets, positions, _⟩ | ⟨kind, user, mint, _, touch⟩ |
    ⟨accounts, remaining, repayAmount, _, run⟩
  · rw [markets, positions]
    exact indexed
  · rw [markets, positions]
    apply indexed.write_market
    · rw [index]
    · intro user position held
      rcases linked.position _ _ _ (positionTerms_of_lookup held) with ⟨_, opening, present, _⟩
      rw [State.marketTerms, fresh] at present
      cases present
  · rw [markets, positions]
    exact indexed.write_market (indexed.market mint market found) fun _ _ _ =>
      ⟨market, found, le_rfl⟩
  · rw [touch.markets, touch.positions]
    exact indexed.write_both (touch.accrued.scaled indexed) touch.accrued.advances
      touch.accrued.restated
  · have debt := run.accruedDebt
    have collateral := run.accruedCollateral
    have first : ShadowLend.Indexed
        (s.markets.insert accounts.debtMint (run.debtMarket.rebalance run.debtBalances))
        (s.positions.insert (accounts.borrower, accounts.debtMint)
          (run.debtPosition.rebalance run.debtBalances)) :=
      indexed.write_both (debt.scaled indexed) debt.advances debt.restated
    rw [run.markets, run.positions]
    refine first.write_both (collateral.scaled indexed) ?_ collateral.restated
    by_cases same : accounts.collateralMint = accounts.debtMint
    · refine ⟨_, by rw [same, Finmap.lookup_insert], ?_⟩
      rw [same] at collateral
      rw [debt.same_index collateral]
      exact le_rfl
    · rw [Finmap.lookup_insert_of_ne _ same]
      exact collateral.advances

theorem Reachable.indexed (reached : Reachable rt s) : s.Indexed := by
  apply reached.invariant_under (fun _ earlier => Reachable.linked earlier)
  · rintro _ rfl
    constructor <;> intros <;> simp_all [State.empty]
  · intro _ _ _ linked indexed _ step
    exact State.Indexed.step linked indexed step

end Steps

def exactDebt (position : Position) (index : U128) : ℕ :=
  position.borrowed.val * index.val / position.borrowIndexSnapshotE18.val

/-- A restated debt is the exact quotient cut off by both widths. -/
theorem accruePosition_exact {position : Position} {market : Market}
    (snapshot : 0 < position.borrowIndexSnapshotE18.val)
    (stale : position.borrowIndexSnapshotE18.val ≠ market.borrowIndexE18.val) :
    (accruePosition position market).borrowed.val =
      min (exactDebt position market.borrowIndexE18)
        (min ((2 ^ 128 - 1) / position.borrowIndexSnapshotE18.val) (2 ^ 64 - 1)) := by
  by_cases debtless : position.borrowed.val = 0
  · rw [accruePosition_debtless _ _ debtless, exactDebt, debtless, Nat.zero_mul, Nat.zero_div,
      Nat.zero_min]
  · have monotone : Monotone (· / position.borrowIndexSnapshotE18.val) :=
      fun _ _ below => Nat.div_le_div_right below
    have split := monotone.map_min (a := position.borrowed.val * market.borrowIndexE18.val)
      (b := 2 ^ 128 - 1)
    rw [accruePosition_debt _ _ snapshot.ne' debtless stale, ← min_assoc]
    exact congrArg (min · (2 ^ 64 - 1)) split

theorem exactDebt_fresh {position : Position} {index : U128}
    (snapshot : 0 < position.borrowIndexSnapshotE18.val)
    (fresh : position.borrowIndexSnapshotE18.val = index.val) :
    exactDebt position index = position.borrowed.val := by
  rw [exactDebt, ← fresh, Nat.mul_div_cancel _ snapshot]

end ShadowLend
