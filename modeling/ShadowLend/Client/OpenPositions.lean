import ShadowLend.Serialization

/-! The client's count of positions, which tells accounts apart by their size alone. -/

namespace ShadowLend

open Devnet

def State.programAccounts (s : State) : Multiset ProgramAccount :=
  s.markets.entries.map (fun entry => .market entry.2) +
    s.positions.entries.map (fun entry => .position entry.2) +
    s.receipts.entries.map (fun entry => .claimReceipt entry.2) +
    s.stats.entries.map (fun entry => .userStats entry.2)

def ProgramAccount.isPosition : ProgramAccount → Bool
  | .position _ => true
  | _ => false

/-- `getProgramAccounts` with a `dataSize` filter. -/
def getProgramAccounts (accounts : Multiset ProgramAccount) (dataSize : ℕ) :
    Multiset ProgramAccount :=
  accounts.filter fun account => account.space = dataSize

/-- `null` where the call fails. -/
def fetchOpenPositionsCount (accounts : Multiset ProgramAccount) (answered : Bool) : Option ℕ :=
  if answered then some (getProgramAccounts accounts 124).card else none

theorem space_ne_filter (account : ProgramAccount) : account.space ≠ 124 := by
  cases account with
  | market held => exact (by decide : 8 + Market.size ≠ 124)
  | position held => exact (by decide : 8 + Position.size ≠ 124)
  | claimReceipt held => exact (by decide : 8 + ClaimReceipt.size ≠ 124)
  | userStats held => exact (by decide : 8 + UserStats.size ≠ 124)

theorem fetchOpenPositionsCount_answered (accounts : Multiset ProgramAccount) :
    fetchOpenPositionsCount accounts true = some 0 := by
  have none : getProgramAccounts accounts 124 = 0 :=
    Multiset.filter_eq_nil.mpr fun account _ => space_ne_filter account
  rw [fetchOpenPositionsCount, if_pos rfl, none, Multiset.card_zero]

def CountsPositions (accounts : Multiset ProgramAccount) : Prop :=
  fetchOpenPositionsCount accounts true =
      some (accounts.countP fun account => account.isPosition) ∧
    ∀ (hashes : Hashes) (account : ProgramAccount),
      (account.data hashes).length = account.space

/-- The filter is that of a position without its index snapshot: it counts none. -/
theorem positions_counted_iff (accounts : Multiset ProgramAccount) :
    CountsPositions accounts ↔ ∀ account ∈ accounts, ¬ account.isPosition := by
  have sizes : ∀ (hashes : Hashes) (account : ProgramAccount),
      (account.data hashes).length = account.space :=
    fun hashes account => account.length_data hashes
  rw [CountsPositions, fetchOpenPositionsCount_answered, Option.some.injEq, eq_comm,
    Multiset.countP_eq_zero]
  exact and_iff_left sizes

theorem positions_uncounted :
    Reachable devnet (ledger lenders) ∧
      (ledger lenders).programAccounts.countP (fun account => account.isPosition) = 4 ∧
      fetchOpenPositionsCount (ledger lenders).programAccounts true = some 0 ∧
      ¬ CountsPositions (ledger lenders).programAccounts := by
  have four : (ledger lenders).programAccounts.countP (fun account => account.isPosition) = 4 := by
    decide +kernel
  have none := fetchOpenPositionsCount_answered (ledger lenders).programAccounts
  refine ⟨ledger_reachable _, four, none, ?_⟩
  intro counts
  have same := counts.1
  rw [none, four] at same
  cases same

end ShadowLend
