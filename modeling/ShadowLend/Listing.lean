import ShadowLend.HealthCheck
import ShadowLend.Foundation.Coverage

/-! What a caller's list does to the two totals. The sums the program forms are
over a list the caller chose; the sums that matter are over the store. -/

namespace ShadowLend

def ofUser (user : Pubkey) (worth : Pubkey × Pubkey → Position → ℕ) (key : Pubkey × Pubkey)
    (position : Position) : ℕ := if key.1 = user then worth key position else 0

/-- The debt of a stored position, restated to the index its market has by now. -/
def State.debtNow (s : State) (key : Pubkey × Pubkey) (position : Position) : U64 :=
  match s.markets.lookup key.2 with
  | some market => (accruePosition position (accrueMarket market s.clock)).borrowed
  | none => position.borrowed

/-- All a user owes, over every position in the store, at one price for each feed. -/
def State.userDebt (s : State) (prices : FeedId → Price) (user : Pubkey) : ℕ :=
  s.positions.total <| ofUser user fun key position =>
    usdValue (s.debtNow key position) (prices position.feedId) position.decimals

/-- All the collateral a user holds, each position weighted by its max LTV. -/
def State.userCollateral (s : State) (prices : FeedId → Price) (user : Pubkey) : ℕ :=
  s.positions.total <| ofUser user fun _ position =>
    collateralValue position.supplied (prices position.feedId) position.decimals
      position.maxLtvBps

section Sums

variable {s : State} {user : Pubkey} {worth : Pubkey × Pubkey → Position → ℕ}
variable {g : Contribution → ℕ} {log : List Contribution}

theorem positionKey_injective :
    Function.Injective fun key : Pubkey × Pubkey => Pubkey.position key.1 key.2 := by
  intro a b same
  simp only [Pubkey.position.injEq] at same
  exact Prod.ext same.1 same.2

/-- A list that reaches every position of worth is worth at least the store. -/
theorem total_le_of_listed
    (valued : ∀ e ∈ log, ∀ mint position, e.account = .position user mint →
      s.positions.lookup (user, mint) = some position → worth (user, mint) position ≤ g e)
    (covered : ∀ mint position, s.positions.lookup (user, mint) = some position →
      worth (user, mint) position ≠ 0 → ∃ e ∈ log, e.account = .position user mint) :
    s.positions.total (ofUser user worth) ≤ (log.map g).sum := by
  apply Coverage.sum_le_of_covered _ Contribution.account positionKey_injective
  · rintro ⟨owner, mint⟩ _ nonzero
    cases found : s.positions.lookup (owner, mint) with
    | none => exact absurd (Table.share_of_absent found) nonzero
    | some position =>
        rw [Table.share_of_lookup found, ofUser] at nonzero
        split at nonzero
        · rename_i mine
          subst mine
          exact covered mint position found nonzero
        · exact absurd rfl nonzero
  · rintro e listed ⟨owner, mint⟩ _ named
    cases found : s.positions.lookup (owner, mint) with
    | none =>
        rw [Table.share_of_absent found]
        exact Nat.zero_le _
    | some position =>
        rw [Table.share_of_lookup found, ofUser]
        split
        · rename_i mine
          subst mine
          exact valued e listed mint position named found
        · exact Nat.zero_le _

/-- A list that repeats no entry of worth is worth at most the store. -/
theorem le_total_of_once
    (valued : ∀ e ∈ log, ∃ mint position, e.account = .position user mint ∧
      s.positions.lookup (user, mint) = some position ∧ g e ≤ worth (user, mint) position)
    (once : log.Pairwise fun e e' => g e ≠ 0 → g e' ≠ 0 → e.account ≠ e'.account) :
    (log.map g).sum ≤ s.positions.total (ofUser user worth) := by
  refine Coverage.sum_le_of_distinct (fun key => Pubkey.position key.1 key.2)
    Contribution.account log s.positions.keys ?_ once
  intro e listed _
  rcases valued e listed with ⟨mint, position, named, found, bound⟩
  refine ⟨(user, mint), ?_, named, ?_⟩
  · exact Finmap.mem_keys.mpr (Finmap.lookup_isSome.mp (by rw [found]; rfl))
  · rw [Table.share_of_lookup found, ofUser, if_pos rfl]
    exact bound

end Sums

section Walks

variable {rt : Runtime} {s : State} {skip : Pubkey → Bool} {user : Pubkey}
variable {remaining : List Pubkey} {listed : List Contribution}

theorem holdsAmount_of_lookup {mint : Pubkey} {position : Position}
    (found : s.positions.lookup (user, mint) = some position) :
    s.holdsAmount (.position user mint) = !decide position.isEmpty := by
  simp [State.holdsAmount, State.accountInfo, found, AccountData.asPosition]

/-- A listed contribution is a stored position, as it is stored. -/
theorem listed_entry
    (walked : contributions rt (remaining.map s.accountInfo) user skip s.clock = .ok listed)
    {e : Contribution} (member : e ∈ listed) :
    skip e.account = false ∧ e.account ∈ listedPositions remaining ∧
      ∃ owner mint position price, e.account = .position owner mint ∧
        s.positions.lookup (owner, mint) = some position ∧ position.user = user ∧
        ¬ position.isEmpty ∧
        e = position.contribution (.position owner mint) price position.feedId := by
  rcases contributions_mem walked member with ⟨keys, listed, ran⟩
  obtain ⟨unskipped, holds, owner, mint, position, price, _, named, found, mine, _, _, _, rfl⟩ :=
    readKeys_some ran
  have present : keys.1 ∈ listedPositions remaining := List.mem_map_of_mem listed
  rw [named] at holds unskipped present ⊢
  rw [holdsAmount_of_lookup found] at holds
  exact ⟨unskipped, present, owner, mint, position, price, rfl, found, mine, by simpa using holds,
    rfl⟩

theorem listed_stored (linked : Linked rt s)
    (walked : contributions rt (remaining.map s.accountInfo) user skip s.clock = .ok listed)
    {e : Contribution} (member : e ∈ listed) :
    skip e.account = false ∧ e.account ∈ listedPositions remaining ∧
      ∃ mint position price, e.account = .position user mint ∧
        s.positions.lookup (user, mint) = some position ∧
        e = position.contribution (.position user mint) price position.feedId := by
  obtain ⟨unskipped, present, owner, mint, position, price, named, found, mine, _, shape⟩ :=
    listed_entry walked member
  have owned : position.user = owner := linked.position_user found
  obtain rfl : user = owner := mine.symm.trans owned
  exact ⟨unskipped, present, mint, position, price, named, found, shape⟩

theorem listed_counted
    (walked : contributions rt (remaining.map s.accountInfo) user skip s.clock = .ok listed)
    {owner mint : Pubkey} {position : Position}
    (found : s.positions.lookup (owner, mint) = some position) (holds : ¬ position.isEmpty)
    (present : .position owner mint ∈ listedPositions remaining)
    (unskipped : skip (.position owner mint) = false) :
    ∃ e ∈ listed, e.account = .position owner mint := by
  have kept : .position owner mint ∈ listed.map Contribution.account := by
    rw [contributions_accounts walked, List.mem_filter, holdsAmount_of_lookup found]
    exact ⟨present, by simp [unskipped, holds]⟩
  exact List.mem_map.mp kept

theorem listed_once
    (walked : contributions rt (remaining.map s.accountInfo) user skip s.clock = .ok listed)
    {g : Contribution → ℕ}
    (single : ∀ e ∈ listed, g e ≠ 0 → (listedPositions remaining).count e.account ≤ 1) :
    listed.Pairwise fun e e' => g e ≠ 0 → g e' ≠ 0 → e.account ≠ e'.account := by
  apply List.pairwise_of_forall_sublist
  intro e e' included nonzero _ same
  have twice : (List.replicate 2 e.account).Sublist (listedPositions remaining) := by
    have mapped := included.map Contribution.account
    rw [contributions_accounts walked] at mapped
    simp only [List.map_cons, List.map_nil, ← same] at mapped
    exact mapped.trans List.filter_sublist
  have bound := single e (included.subset (by simp)) nonzero
  rw [List.replicate_sublist_iff] at twice
  omega

theorem listed_length
    (walked : contributions rt (remaining.map s.accountInfo) user skip s.clock = .ok listed) :
    listed.length ≤ remaining.length / 2 := by
  calc
    listed.length = (listed.map Contribution.account).length := (List.length_map _).symm
    _ ≤ (listedPositions remaining).length := by
      rw [contributions_accounts walked]
      exact List.length_filter_le _ _
    _ = (pairs remaining).length := List.length_map _
    _ = remaining.length / 2 := length_pairs _

end Walks

end ShadowLend
