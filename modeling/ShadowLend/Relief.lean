import ShadowLend.Owing

/-! A deposit or a repayment leaves its user no worse off, at any prices, and
leaves the health of everyone else alone. -/

namespace ShadowLend

open Outcome Devnet

def MarketActionKind.relieves : MarketActionKind → Bool
  | .supply | .repay => true
  | .withdraw | .borrow => false

/-- The comparison a health check makes, on the totals over the whole store. -/
def State.passes (s : State) (prices : FeedId → Price) (user : Pubkey) : Prop :=
  min (s.userDebt prices user) (2 ^ 128 - 1) ≤ min (s.userCollateral prices user) (2 ^ 128 - 1)

def State.debtValue (s : State) (prices : FeedId → Price) (key : Pubkey × Pubkey)
    (position : Position) : ℕ :=
  usdValue (s.debtNow key position) (prices position.feedId) position.decimals

def weightedValue (prices : FeedId → Price) (_ : Pubkey × Pubkey) (position : Position) : ℕ :=
  collateralValue position.supplied (prices position.feedId) position.decimals position.maxLtvBps

theorem collateralValue_mono {supplied larger : U64} (price : Price) (decimals : U8)
    (maxLtvBps : U16) (below : supplied.val ≤ larger.val) :
    collateralValue supplied price decimals maxLtvBps ≤
      collateralValue larger price decimals maxLtvBps := by
  have worth := usdValue_mono price decimals below
  have weighted := Nat.mul_le_mul_right maxLtvBps.val worth
  exact Nat.div_le_div_right (min_le_min_right _ weighted)

theorem share_ofUser {positions : Table (Pubkey × Pubkey) Position} {user : Pubkey}
    {worth : Pubkey × Pubkey → Position → ℕ} {key : Pubkey × Pubkey} :
    positions.share (ofUser user worth) key =
      if key.1 = user then positions.share worth key else 0 := by
  cases found : positions.lookup key with
  | none =>
      rw [Table.share_of_absent found, Table.share_of_absent found]
      split <;> rfl
  | some position =>
      rw [Table.share_of_lookup found, Table.share_of_lookup found]
      rfl

section Sums

variable {positions positions' : Table (Pubkey × Pubkey) Position} {user : Pubkey}
variable {worth worth' : Pubkey × Pubkey → Position → ℕ}

theorem ofUser_total_le (below : ∀ key, key.1 = user →
    positions.share worth key ≤ positions'.share worth' key) :
    positions.total (ofUser user worth) ≤ positions'.total (ofUser user worth') := by
  apply Table.total_le_total
  intro key
  rw [share_ofUser, share_ofUser]
  split
  · rename_i owned
    exact below key owned
  · exact le_rfl

theorem ofUser_total_congr (same : ∀ key, key.1 = user →
    positions.share worth key = positions'.share worth' key) :
    positions.total (ofUser user worth) = positions'.total (ofUser user worth') :=
  le_antisymm (ofUser_total_le fun key owned => (same key owned).le)
    (ofUser_total_le fun key owned => (same key owned).ge)

end Sums

section Steps

variable {rt : Runtime} {s s' : State}

theorem step_shares (linked : Linked rt s) {a : Action} (step : Step rt s a s')
    (clock : s'.clock = s.clock) (prices : FeedId → Price) {key : Pubkey × Pubkey}
    (kept : s'.positions.lookup key = s.positions.lookup key) :
    s'.positions.share (s'.debtValue prices) key = s.positions.share (s.debtValue prices) key ∧
      s'.positions.share (weightedValue prices) key =
        s.positions.share (weightedValue prices) key := by
  cases found : s.positions.lookup key with
  | none =>
      rw [found] at kept
      simp only [Table.share_of_absent found, Table.share_of_absent kept, and_self]
  | some position =>
      rw [found] at kept
      rcases position_market linked found with ⟨market, present⟩
      rw [Table.share_of_lookup found, Table.share_of_lookup kept, Table.share_of_lookup found,
        Table.share_of_lookup kept, State.debtValue, State.debtValue,
        step_debtNow linked step clock present position]
      exact ⟨rfl, rfl⟩

variable {kind : MarketActionKind} {user : Signer} {mint : Pubkey}

theorem Touch.books_relieve (touch : Touch s kind user mint s') (relieves : kind.relieves) :
    touch.position.supplied.val ≤ touch.balances.supplied.val ∧
      touch.balances.borrowed.val ≤ touch.position.borrowed.val := by
  have books := touch.books
  cases kind with
  | supply =>
      rcases books with ⟨supplied, borrowed, _⟩
      exact ⟨by omega, by rw [borrowed]⟩
  | repay =>
      rcases books with ⟨supplied, borrowed, _⟩
      exact ⟨by rw [supplied], by omega⟩
  | withdraw => cases relieves
  | borrow => cases relieves

/-- The position the instruction names owes no more and holds no less. -/
theorem Touch.shares_relieved (touch : Touch s kind user mint s') (relieves : kind.relieves)
    (clock : s'.clock = s.clock) (prices : FeedId → Price) :
    s'.positions.share (s'.debtValue prices) (user.pubkey, mint) ≤
        s.positions.share (s.debtValue prices) (user.pubkey, mint) ∧
      s.positions.share (weightedValue prices) (user.pubkey, mint) ≤
        s'.positions.share (weightedValue prices) (user.pubkey, mint) := by
  rcases touch.books_relieve relieves with ⟨deposits, repays⟩
  rw [Table.share_of_lookup touch.lookup_self, Table.share_of_lookup touch.lookup_self,
    State.debtValue, touch.debtNow_self clock]
  rcases touch.accrued.ofPosition with ⟨old, found, same⟩ | ⟨absent, _, nothing, _⟩
  · rcases touch.accrued.ofMarket with ⟨market, present, current⟩
    have owes : s.debtNow (user.pubkey, mint) old = touch.position.borrowed := by
      rw [same, current]
      exact debtNow_of_lookup present old
    rw [Table.share_of_lookup found, Table.share_of_lookup found, State.debtValue, owes]
    rw [same] at repays deposits ⊢
    rw [accruePosition_supplied] at deposits
    simp only [weightedValue, Position.rebalance, accruePosition_feedId,
      accruePosition_decimals, accruePosition_maxLtvBps]
    exact ⟨usdValue_mono _ _ repays, collateralValue_mono _ _ _ deposits⟩
  · have nothing' : touch.balances.borrowed.val = 0 := by omega
    rw [Table.share_of_absent absent, Table.share_of_absent absent, usdValue_zero _ _ nothing']
    exact ⟨le_rfl, Nat.zero_le _⟩

end Steps

theorem relief_improves {rt : Runtime} {s s' : State} (reached : Reachable rt s) {a : Action}
    {kind : MarketActionKind} {user : Signer} {mint : Pubkey}
    (acts : a.touch = some (kind, user, mint)) (relieves : kind.relieves) (step : Step rt s a s')
    (prices : FeedId → Price) :
    s.userCollateral prices user.pubkey ≤ s'.userCollateral prices user.pubkey ∧
      s'.userDebt prices user.pubkey ≤ s.userDebt prices user.pubkey ∧
      (∀ other, other ≠ user.pubkey →
        s'.userCollateral prices other = s.userCollateral prices other ∧
          s'.userDebt prices other = s.userDebt prices other) ∧
      ∀ anyone, s.passes prices anyone → s'.passes prices anyone := by
  have linked := reached.linked
  rcases step_touch linked acts step with ⟨touch⟩
  have clock : s'.clock = s.clock := touch_clock (by rw [acts]; rfl) step
  have elsewhere (key : Pubkey × Pubkey) (distinct : key ≠ (user.pubkey, mint)) :=
    step_shares linked step clock prices (touch.lookup_other distinct)
  rcases touch.shares_relieved relieves clock prices with ⟨debt, collateral⟩
  have collateralGrows (anyone : Pubkey) :
      s.userCollateral prices anyone ≤ s'.userCollateral prices anyone := by
    apply ofUser_total_le
    intro key _
    by_cases here : key = (user.pubkey, mint)
    · rw [here]
      exact collateral
    · exact (elsewhere key here).2.ge
  have debtFalls (anyone : Pubkey) : s'.userDebt prices anyone ≤ s.userDebt prices anyone := by
    apply ofUser_total_le
    intro key _
    by_cases here : key = (user.pubkey, mint)
    · rw [here]
      exact debt
    · exact (elsewhere key here).1.le
  refine ⟨collateralGrows _, debtFalls _, ?_, ?_⟩
  · intro other distinct
    have apart (key : Pubkey × Pubkey) (owned : key.1 = other) : key ≠ (user.pubkey, mint) := by
      rintro rfl
      exact distinct owned.symm
    exact ⟨ofUser_total_congr fun key owned => (elsewhere key (apart key owned)).2,
      ofUser_total_congr fun key owned => (elsewhere key (apart key owned)).1⟩
  · intro anyone passes
    calc
      min (s'.userDebt prices anyone) (2 ^ 128 - 1) ≤
          min (s.userDebt prices anyone) (2 ^ 128 - 1) := min_le_min_right _ (debtFalls anyone)
      _ ≤ min (s.userCollateral prices anyone) (2 ^ 128 - 1) := passes
      _ ≤ min (s'.userCollateral prices anyone) (2 ^ 128 - 1) :=
        min_le_min_right _ (collateralGrows anyone)

def afterAWhile : State :=
  ledger (indebted 4000000000000 ++ [reach 1000100 6000000000])

theorem relief_improves_repayment :
    ∃ s', Step devnet afterAWhile (.repay alice usdc.pubkey 1000000000000) s' ∧
      4000000000000 < afterAWhile.owed (alice.pubkey, usdc.pubkey) ∧
      s'.userDebt (quoted 6000000000) alice.pubkey ≤
        afterAWhile.userDebt (quoted 6000000000) alice.pubkey := by
  have ran : ∃ s', Step devnet afterAWhile (.repay alice usdc.pubkey 1000000000000) s' ∧
      4000000000000 < afterAWhile.owed (alice.pubkey, usdc.pubkey) := ok_where (by decide +kernel)
  rcases ran with ⟨s', ran, interest⟩
  have improves := relief_improves (ledger_reachable _) rfl rfl ran (quoted 6000000000)
  exact ⟨s', ran, interest, improves.2.1⟩

end ShadowLend
