import ShadowLend.Devnet
import ShadowLend.Indices
import ShadowLend.Listing

/-! What a check counts, entry by entry: how often each position, and with which
debt. -/

namespace ShadowLend

open Outcome Devnet

def entryOf (log : List Contribution) (g : Contribution → ℕ) (account : Pubkey) : ℕ :=
  ((log.find? (·.account = account)).map g).getD 0

/-- No account is counted twice, and the totals are the sums over the accounts
counted, up to where the saturating additions stop. -/
structure CountsOnce (log : List Contribution) (totals : Totals) : Prop where
  once : ∀ account, (log.map Contribution.account).count account ≤ 1
  collateral : totals.collatAtLtv.val =
    min (∑ account ∈ (log.map Contribution.account).toFinset,
      entryOf log Contribution.collateral account) (2 ^ 128 - 1)
  debt : totals.debt.val =
    min (∑ account ∈ (log.map Contribution.account).toFinset,
      entryOf log Contribution.debt account) (2 ^ 128 - 1)

/-- No nonempty position is listed twice, main positions apart, and the main
positions of a liquidation are two. -/
structure ListsOnce (s : State) (a : Action) : Prop where
  mains : a.mainKeys.Nodup
  listed : ((listedPositions a.remaining).filter fun key =>
    !decide (key ∈ a.mainPositions) && s.holdsAmount key).Nodup

theorem sum_entryOf {log : List Contribution} (g : Contribution → ℕ)
    (distinct : (log.map Contribution.account).Nodup) :
    ∑ account ∈ (log.map Contribution.account).toFinset, entryOf log g account =
      (log.map g).sum := by
  induction log with
  | nil => simp
  | cons head tail ih =>
      rw [List.map_cons, List.nodup_cons] at distinct
      rcases distinct with ⟨fresh, distinct⟩
      simp only [List.map_cons, List.toFinset_cons, List.sum_cons]
      rw [Finset.sum_insert (by simpa using fresh), ← ih distinct]
      congr 1
      · simp [entryOf]
      · apply Finset.sum_congr rfl
        intro account member
        have apart : head.account ≠ account := by
          rintro rfl
          exact fresh (List.mem_toFinset.mp member)
        simp [entryOf, apart]

section Accounts

variable {rt : Runtime} {s s' : State} {a : Action} {log : List Contribution}

theorem mains_accounts {keys : List (Pubkey × Pubkey)} {mains : List Contribution}
    (shape : List.Forall₂ (MainEntry s a) keys mains) :
    mains.map Contribution.account = keys.map fun key => .position key.1 key.2 := by
  induction shape with
  | nil => rfl
  | cons head _ ih => rw [List.map_cons, List.map_cons, ih, head.1]

theorem counted_accounts (counted : a.counted rt s = .ok log) :
    log.map Contribution.account =
      a.mainPositions ++ (listedPositions a.remaining).filter fun key =>
        !decide (key ∈ a.mainPositions) && s.holdsAmount key := by
  rcases counted_shape counted with ⟨user, mains, listed, rfl, shape, walked⟩
  rw [List.map_append, mains_accounts shape, contributions_accounts walked]
  rfl

theorem counted_nodup (counted : a.counted rt s = .ok log) :
    (log.map Contribution.account).Nodup ↔ ListsOnce s a := by
  rw [counted_accounts counted, List.nodup_append]
  constructor
  · rintro ⟨mains, listed, _⟩
    exact ⟨mains.of_map _, listed⟩
  · rintro ⟨mains, listed⟩
    refine ⟨mains.map positionKey_injective, listed, ?_⟩
    rintro key main other member rfl
    simp [main] at member

/-- A check, passed or refused, counts every position at most once exactly when its
caller lists every other nonempty position at most once and names two main ones. -/
theorem counts_once_iff {totals : Totals} (counted : a.counted rt s = .ok log)
    (summed : accumulateAll log .zero = .ok totals) :
    CountsOnce log totals ↔ ListsOnce s a := by
  rw [← counted_nodup counted]
  constructor
  · intro counts
    exact List.nodup_iff_count_le_one.mpr counts.once
  · intro distinct
    rcases accumulateAll_zero summed with ⟨collateral, debt⟩
    refine ⟨List.nodup_iff_count_le_one.mp distinct, ?_, ?_⟩
    · rw [sum_entryOf _ distinct, collateral]
    · rw [sum_entryOf _ distinct, debt]

end Accounts

def overstated : Action :=
  .withdraw alice sol.pubkey solPrice (listed alice usdc usdcPrice ++ listed alice usdc usdcPrice)
    1000000000

theorem counts_once_iff_overstated :
    apply devnet (ledger (indebted 5000000000000)) overstated =
        .error (.market .wouldBeUnhealthy) ∧
      ∃ log totals, overstated.counted devnet (ledger (indebted 5000000000000)) = .ok log ∧
        accumulateAll log .zero = .ok totals ∧ ¬ overstated.passes totals ∧
        (CountsOnce log totals ↔ ListsOnce (ledger (indebted 5000000000000)) overstated) := by
  have refused : apply devnet (ledger (indebted 5000000000000)) overstated =
      .error (.market .wouldBeUnhealthy) := error_where (by decide +kernel)
  have counted : ∃ log, overstated.counted devnet (ledger (indebted 5000000000000)) = .ok log ∧
      ((accumulateAll log .zero).toOption.any fun totals =>
        totals.collatAtLtv.val = 792000000000 ∧ totals.debt.val = 1000000000000) = true :=
    ok_where (by decide +kernel)
  rcases counted with ⟨log, counted, computed⟩
  rcases ok_where computed with ⟨totals, summed, collateral, debt⟩
  refine ⟨refused, log, totals, counted, summed, ?_, counts_once_iff counted summed⟩
  simp only [overstated, Action.passes]
  omega

def doubled : Action :=
  .borrow alice usdc.pubkey usdcPrice (listed alice sol solPrice ++ listed alice sol solPrice)
    16000000000000

/-- Twice the collateral is counted, and twice the loan is granted. -/
theorem counts_twice :
    ∃ s' log totals, Reachable devnet (ledger lenders) ∧
      Step devnet (ledger lenders) doubled s' ∧
      doubled.counted devnet (ledger lenders) = .ok log ∧
      accumulateAll log .zero = .ok totals ∧ totals.collatAtLtv.val = 1600000000000 ∧
      ¬ CountsOnce log totals := by
  have ran : ∃ s', Step devnet (ledger lenders) doubled s' ∧
      s'.userDebt (quoted 10000000000) alice.pubkey = 1600000000000 := ok_where (by decide +kernel)
  have counted : ∃ log, doubled.counted devnet (ledger lenders) = .ok log ∧
      ((log.map Contribution.account).count (.position alice.pubkey sol.pubkey) = 2 ∧
        ((accumulateAll log .zero).toOption.any fun totals =>
          totals.collatAtLtv.val = 1600000000000) = true) := ok_where (by decide +kernel)
  rcases ran with ⟨s', ran, _⟩
  rcases counted with ⟨log, counted, twice, computed⟩
  rcases ok_where computed with ⟨totals, summed, collateral⟩
  refine ⟨s', log, totals, ledger_reachable _, ran, counted, summed, collateral, ?_⟩
  intro counts
  have once := counts.once (.position alice.pubkey sol.pubkey)
  omega

def Uncut (position : Position) (index : U128) : Prop :=
  position.borrowIndexSnapshotE18.val = index.val ∨
    (exactDebt position index ≤ (2 ^ 128 - 1) / position.borrowIndexSnapshotE18.val ∧
      exactDebt position index ≤ 2 ^ 64 - 1)

/-- Less than one base unit of interest has accrued since the snapshot. -/
def NoInterestDue (position : Position) (index : U128) : Prop :=
  position.borrowed.val * index.val <
    position.borrowIndexSnapshotE18.val * (position.borrowed.val + 1)

/-- An entry whose debt is the stored one, restated to the index its market has at
the current slot, plus what the action itself lends. -/
def CurrentEntry (s : State) (a : Action) (e : Contribution) : Prop :=
  ∃ user mint position market, e.account = .position user mint ∧
    s.positions.lookup (user, mint) = some position ∧ s.markets.lookup mint = some market ∧
    e.borrowed.val = exactDebt position (accrueMarket market s.clock).borrowIndexE18 +
      if e.account ∈ a.mainPositions then a.lent else 0

def CountsCurrentDebts (s : State) (a : Action) (log : List Contribution) : Prop :=
  ∀ e ∈ log, CurrentEntry s a e

structure DebtsCurrent (s : State) (a : Action) : Prop where
  mains : ∀ key ∈ a.mainKeys, ∀ position market, s.positions.lookup key = some position →
    s.markets.lookup key.2 = some market →
    Uncut position (accrueMarket market s.clock).borrowIndexE18
  listed : ∀ user mint position market, .position user mint ∈ listedPositions a.remaining →
    .position user mint ∉ a.mainPositions → s.positions.lookup (user, mint) = some position →
    s.markets.lookup mint = some market →
    NoInterestDue position (accrueMarket market s.clock).borrowIndexE18

theorem accruePosition_exact_iff {position : Position} {market : Market}
    (snapshot : 0 < position.borrowIndexSnapshotE18.val) :
    (accruePosition position market).borrowed.val = exactDebt position market.borrowIndexE18 ↔
      Uncut position market.borrowIndexE18 := by
  by_cases fresh : position.borrowIndexSnapshotE18.val = market.borrowIndexE18.val
  · rw [accruePosition_fresh _ _ fresh, exactDebt_fresh snapshot fresh]
    exact iff_of_true rfl (Or.inl fresh)
  · rw [accruePosition_exact snapshot fresh, Uncut, or_iff_right fresh]
    constructor
    · intro same
      omega
    · rintro ⟨product, result⟩
      omega

theorem stored_exact_iff {position : Position} {index : U128}
    (snapshot : 0 < position.borrowIndexSnapshotE18.val)
    (behind : position.borrowIndexSnapshotE18.val ≤ index.val) :
    position.borrowed.val = exactDebt position index ↔ NoInterestDue position index := by
  have grown := Nat.mul_le_mul_left position.borrowed.val behind
  rw [eq_comm, exactDebt, Nat.div_eq_iff snapshot, NoInterestDue,
    Nat.mul_comm position.borrowIndexSnapshotE18.val, Nat.add_mul, Nat.one_mul]
  omega

section Debts

variable {rt : Runtime} {s s' : State} {a : Action} {log : List Contribution}

/-- A snapshot is positive and not ahead of the index its market has by now. -/
theorem Reachable.snapshot_bounds (reached : Reachable rt s) {user mint : Pubkey}
    {position : Position} {market : Market}
    (held : s.positions.lookup (user, mint) = some position)
    (found : s.markets.lookup mint = some market) :
    0 < position.borrowIndexSnapshotE18.val ∧
      position.borrowIndexSnapshotE18.val ≤
        (accrueMarket market s.clock).borrowIndexE18.val := by
  rcases (Reachable.indexed reached).position user mint position market held found with ⟨low, high⟩
  have scale : 0 < rateScaleE18.val := by decide
  exact ⟨scale.trans_le low, high.trans (accrueMarket_index_le market s.clock)⟩

theorem currentEntry_iff {e : Contribution} {user mint : Pubkey} {position : Position}
    {market : Market} (named : e.account = .position user mint)
    (held : s.positions.lookup (user, mint) = some position)
    (found : s.markets.lookup mint = some market) :
    CurrentEntry s a e ↔
      e.borrowed.val = exactDebt position (accrueMarket market s.clock).borrowIndexE18 +
        if e.account ∈ a.mainPositions then a.lent else 0 := by
  constructor
  · intro current
    rcases current with ⟨_, _, position', market', named', held', found', borrowed⟩
    rcases Pubkey.position.inj (named.symm.trans named') with ⟨rfl, rfl⟩
    rcases Table.lookup_unique held held' with rfl
    rcases Table.lookup_unique found found' with rfl
    exact borrowed
  · intro borrowed
    exact ⟨user, mint, position, market, named, held, found, borrowed⟩

theorem MainEntry.current_iff (reached : Reachable rt s) {key : Pubkey × Pubkey}
    (main : key ∈ a.mainKeys) {e : Contribution} (entry : MainEntry s a key e)
    {position : Position} {market : Market} (held : s.positions.lookup key = some position)
    (found : s.markets.lookup key.2 = some market) :
    CurrentEntry s a e ↔ Uncut position (accrueMarket market s.clock).borrowIndexE18 := by
  rcases entry with ⟨named, position', market', held', found', borrowed⟩
  rcases Table.lookup_unique held held' with rfl
  rcases Table.lookup_unique found found' with rfl
  have skipped : e.account ∈ a.mainPositions := by
    rw [named]
    exact List.mem_map_of_mem main
  rw [currentEntry_iff named held found, if_pos skipped, borrowed, Nat.add_right_cancel_iff]
  exact accruePosition_exact_iff (Reachable.snapshot_bounds reached held found).1

theorem listed_current_iff (reached : Reachable rt s) {user : Pubkey} {listed : List Contribution}
    (walked : contributions rt (a.remaining.map s.accountInfo) user
      (fun key => decide (key ∈ a.mainPositions)) s.clock = .ok listed)
    {e : Contribution} (member : e ∈ listed) {owner mint : Pubkey} {position : Position}
    {market : Market} (named : e.account = .position owner mint)
    (held : s.positions.lookup (owner, mint) = some position)
    (found : s.markets.lookup mint = some market) :
    CurrentEntry s a e ↔ NoInterestDue position (accrueMarket market s.clock).borrowIndexE18 := by
  rcases Reachable.snapshot_bounds reached held found with ⟨positive, behind⟩
  obtain ⟨unskipped, _, _, _, stored, price, named', held', _, _, rfl⟩ :=
    listed_entry walked member
  rcases Pubkey.position.inj (named.symm.trans named') with ⟨rfl, rfl⟩
  rcases Table.lookup_unique held held' with rfl
  rw [currentEntry_iff named held found, if_neg (of_decide_eq_false unskipped), Nat.add_zero]
  exact stored_exact_iff positive behind

/-- A check sees current debts exactly when no listed position has interest due and
no main one outgrows the widths. -/
theorem counts_current_debts_iff (reached : Reachable rt s) (step : Step rt s a s') :
    ∃ log totals, a.counted rt s = .ok log ∧ accumulateAll log .zero = .ok totals ∧
      a.passes totals ∧ (CountsCurrentDebts s a log ↔ DebtsCurrent s a) := by
  rcases step_counted step with ⟨log, totals, counted, summed, passes⟩
  refine ⟨log, totals, counted, summed, passes, ?_⟩
  rcases counted_shape counted with ⟨user, mains, listed, rfl, shape, walked⟩
  constructor
  · intro current
    constructor
    · intro key main position market held found
      rcases exists_image shape main with ⟨e, member, entry⟩
      exact (entry.current_iff reached main held found).mp
        (current e (List.mem_append_left _ member))
    · intro owner mint position market present unskipped held found
      by_cases empty : position.isEmpty
      · rw [NoInterestDue, empty.2, Nat.zero_mul]
        exact Nat.mul_pos (Reachable.snapshot_bounds reached held found).1 Nat.one_pos
      · obtain ⟨e, member, named⟩ :=
          listed_counted walked held empty present (by simpa using unskipped)
        exact (listed_current_iff reached walked member named held found).mp
          (current e (List.mem_append_right _ member))
  · intro current e member
    rcases List.mem_append.mp member with member | member
    · rcases exists_source shape member with ⟨key, main, entry⟩
      have shown := entry
      rcases shown with ⟨_, position, market, held, found, _⟩
      exact (entry.current_iff reached main held found).mpr
        (current.mains key main position market held found)
    · obtain ⟨unskipped, present, owner, mint, position, _, named, held, _⟩ :=
        listed_entry walked member
      obtain ⟨_, _, terms, _⟩ :=
        (Reachable.linked reached).position _ _ _ (positionTerms_of_lookup held)
      rcases marketTerms_some terms with ⟨market, found, _⟩
      rw [named] at present unskipped
      exact (listed_current_iff reached walked member named held found).mpr
        (current.listed owner mint position market present (of_decide_eq_false unskipped) held
          found)

end Debts

def overdue : State := ledger (indebted 4000000000000 ++ [reach 1000100 10000000000])

def takeBack : Action :=
  .withdraw alice sol.pubkey solPrice (listed alice usdc usdcPrice) 1000000000

theorem counts_current_debts_iff_takeBack :
    ∃ s', Step devnet overdue takeBack s' ∧
      ∃ log totals, takeBack.counted devnet overdue = .ok log ∧
        accumulateAll log .zero = .ok totals ∧ takeBack.passes totals ∧
        (CountsCurrentDebts overdue takeBack log ↔ DebtsCurrent overdue takeBack) := by
  have ran : ∃ s', Step devnet overdue takeBack s' ∧
      s'.userCollateral (quoted 10000000000) alice.pubkey = 792000000000 :=
    ok_where (by decide +kernel)
  rcases ran with ⟨s', ran, _⟩
  exact ⟨s', ran, counts_current_debts_iff (ledger_reachable _) ran⟩

/-- Alice's loan is counted without the interest of a million slots. -/
theorem counts_stale_debt :
    ∃ s' log e position market, Reachable devnet overdue ∧ Step devnet overdue takeBack s' ∧
      takeBack.counted devnet overdue = .ok log ∧ e ∈ log ∧
      e.account = .position alice.pubkey usdc.pubkey ∧
      overdue.positions.lookup (alice.pubkey, usdc.pubkey) = some position ∧
      overdue.markets.lookup usdc.pubkey = some market ∧ e.borrowed.val = 4000000000000 ∧
      exactDebt position (accrueMarket market overdue.clock).borrowIndexE18 = 4101471334348 ∧
      ¬ CountsCurrentDebts overdue takeBack log := by
  have ran : ∃ s', Step devnet overdue takeBack s' ∧
      s'.userCollateral (quoted 10000000000) alice.pubkey = 792000000000 :=
    ok_where (by decide +kernel)
  have counted : ∃ log, takeBack.counted devnet overdue = .ok log ∧
      ∃ e ∈ log, e.account = .position alice.pubkey usdc.pubkey ∧
        e.borrowed.val = 4000000000000 := ok_where (by decide +kernel)
  have held : ∃ position,
      overdue.positions.lookup (alice.pubkey, usdc.pubkey) = some position ∧
      ((overdue.markets.lookup usdc.pubkey).any fun market =>
        exactDebt position (accrueMarket market overdue.clock).borrowIndexE18 =
          4101471334348) = true := some_where (by decide +kernel)
  rcases ran with ⟨s', ran, _⟩
  rcases counted with ⟨log, counted, e, member, named, borrowed⟩
  rcases held with ⟨position, held, computed⟩
  rcases some_where computed with ⟨market, found, due⟩
  refine ⟨s', log, e, position, market, ledger_reachable _, ran, counted, member, named, held,
    found, borrowed, due, ?_⟩
  intro current
  have same := (currentEntry_iff named held found).mp (current e member)
  rw [borrowed, due] at same
  omega

end ShadowLend
