import ShadowLend.Pricing
import Mathlib.Data.List.ReduceOption

/-! The health check's walk over `remaining_accounts`. -/

namespace ShadowLend

open Outcome

/-- One call of `accumulate_position`: the account it counts, the amounts and
parameters it passes, and the feed its price was read for. -/
structure Contribution where
  account : Pubkey
  supplied : U64
  borrowed : U64
  price : Price
  feedId : FeedId
  decimals : U8
  maxLtvBps : U16

def Contribution.accumulate (c : Contribution) (totals : Totals) : Except ProgramError Totals :=
  accumulatePosition c.supplied c.borrowed c.price c.decimals c.maxLtvBps totals

def Contribution.collateral (c : Contribution) : ℕ :=
  collateralValue c.supplied c.price c.decimals c.maxLtvBps

def Contribution.debt (c : Contribution) : ℕ := usdValue c.borrowed c.price c.decimals

def Position.contribution (position : Position) (account : Pubkey) (price : Price)
    (feedId : FeedId) : Contribution where
  account := account
  supplied := position.supplied
  borrowed := position.borrowed
  price := price
  feedId := feedId
  decimals := position.decimals
  maxLtvBps := position.maxLtvBps

def Position.isEmpty (position : Position) : Prop :=
  position.supplied.val = 0 ∧ position.borrowed.val = 0

instance (position : Position) : Decidable position.isEmpty := by
  unfold Position.isEmpty
  infer_instance

/-- `ras[i], ras[i + 1]` for every even `i`. -/
def pairs {α : Type} : List α → List (α × α)
  | first :: second :: rest => (first, second) :: pairs rest
  | _ => []

/-- The body of both loops up to `accumulate_position`; `none` is a `continue`. -/
def readPair (rt : Runtime) (skip : Pubkey → Bool) (user : Pubkey) (clock : Clock)
    (pair : AccountInfo × AccountInfo) : Except ProgramError (Option Contribution) := do
  let posAi := pair.1
  let puAi := pair.2
  if skip posAi.key then
    pure none
  else
    require (posAi.owner = .shadowLend) (.market .badPositionAccount)
    let pos ← okOr posAi.data.asPosition (.market .badPositionAccount)
    require (pos.user = user) (.market .badPositionAccount)
    if pos.isEmpty then
      pure none
    else
      require (puAi.owner = .pythReceiver) (.market .badPriceFeed)
      let pu ← okOr puAi.data.asPriceUpdate (.market .badPriceFeed)
      let price ← okOr (rt.getPriceNoOlderThan pu clock maxPriceAgeSec pos.feedId)
        (.market .stalePrice)
      pure (some (pos.contribution posAi.key price pos.feedId))

def visit (totals : Totals) : Option Contribution → Except ProgramError Totals
  | none => .ok totals
  | some c => c.accumulate totals

/-- The two loops differ in which keys they skip and in nothing else. -/
def walkRemaining (rt : Runtime) (ras : List AccountInfo) (user : Pubkey)
    (skip : Pubkey → Bool) (clock : Clock) (totals : Totals) : Except ProgramError Totals := do
  require (ras.length % 2 = 0) (.market .badRemainingAccounts)
  (pairs ras).foldlM (fun totals pair => readPair rt skip user clock pair >>= visit totals) totals

def accumulateRemainingSkip (rt : Runtime) (ras : List AccountInfo) (user : Pubkey)
    (skipKeys : List Pubkey) (clock : Clock) (totals : Totals) : Except ProgramError Totals :=
  walkRemaining rt ras user (fun key => skipKeys.any (· = key)) clock totals

def accumulateRemaining (rt : Runtime) (ras : List AccountInfo) (user : Pubkey)
    (skip : Pubkey) (clock : Clock) (totals : Totals) : Except ProgramError Totals :=
  walkRemaining rt ras user (fun key => key = skip) clock totals

def contributions (rt : Runtime) (ras : List AccountInfo) (user : Pubkey)
    (skip : Pubkey → Bool) (clock : Clock) : Except ProgramError (List Contribution) := do
  require (ras.length % 2 = 0) (.market .badRemainingAccounts)
  let reads ← (pairs ras).mapM (readPair rt skip user clock)
  pure reads.reduceOption

def accumulateAll (log : List Contribution) (totals : Totals) : Except ProgramError Totals :=
  log.foldlM (fun totals c => c.accumulate totals) totals

theorem accumulateAll_cons {head : Contribution} {tail : List Contribution}
    {totals after : Totals} :
    accumulateAll (head :: tail) totals = .ok after ↔
      ∃ mid, head.accumulate totals = .ok mid ∧ accumulateAll tail mid = .ok after := by
  rw [accumulateAll, List.foldlM_cons, bind_ok]
  rfl

theorem foldlM_visit (reads : List (Option Contribution)) (totals : Totals) :
    reads.foldlM visit totals = accumulateAll reads.reduceOption totals := by
  induction reads generalizing totals with
  | nil => rfl
  | cons head tail ih =>
      cases head with
      | none =>
          rw [List.foldlM_cons, List.reduceOption_cons_of_none]
          exact ih totals
      | some c =>
          rw [List.foldlM_cons, List.reduceOption_cons_of_some, accumulateAll, List.foldlM_cons]
          exact congrArg _ (funext ih)

/-- A walk succeeds exactly when all its pairs can be read and what it read can
be accumulated. -/
theorem walkRemaining_ok {rt : Runtime} {ras : List AccountInfo} {user : Pubkey}
    {skip : Pubkey → Bool} {clock : Clock} {totals after : Totals} :
    walkRemaining rt ras user skip clock totals = .ok after ↔
      ∃ log, contributions rt ras user skip clock = .ok log ∧
        accumulateAll log totals = .ok after := by
  simp only [walkRemaining, contributions, bind_ok, require_ok, foldlM_read_ok, pure_ok,
    exists_const]
  constructor
  · rintro ⟨even, reads, read, folded⟩
    exact ⟨_, ⟨even, reads, read, rfl⟩, by rw [← foldlM_visit]; exact folded⟩
  · rintro ⟨_, ⟨even, reads, read, rfl⟩, folded⟩
    exact ⟨even, reads, read, by rw [foldlM_visit]; exact folded⟩

theorem accumulateAll_ok {log : List Contribution} {totals after : Totals}
    (ran : accumulateAll log totals = .ok after) :
    after.collatAtLtv.val =
        min (totals.collatAtLtv.val + (log.map Contribution.collateral).sum) (2 ^ 128 - 1) ∧
      after.debt.val =
        min (totals.debt.val + (log.map Contribution.debt).sum) (2 ^ 128 - 1) := by
  induction log generalizing totals with
  | nil =>
      simp only [accumulateAll, List.foldlM_nil, pure_ok] at ran
      subst after
      have := totals.collatAtLtv.val_le_max
      have := totals.debt.val_le_max
      simp only [List.map_nil, List.sum_nil]
      omega
  | cons head tail ih =>
      rcases accumulateAll_cons.mp ran with ⟨mid, first, rest⟩
      have one := accumulatePosition_ok first
      have many := ih rest
      simp only [List.map_cons, List.sum_cons, Contribution.collateral, Contribution.debt] at *
      omega

/-- From zero totals, the two sides of the check are the clamped exact sums. -/
theorem accumulateAll_zero {log : List Contribution} {after : Totals}
    (ran : accumulateAll log .zero = .ok after) :
    after.collatAtLtv.val = min (log.map Contribution.collateral).sum (2 ^ 128 - 1) ∧
      after.debt.val = min (log.map Contribution.debt).sum (2 ^ 128 - 1) := by
  have sums := accumulateAll_ok ran
  simpa [Totals.zero] using sums

theorem accumulateAll_ok_iff {log : List Contribution} {totals : Totals} :
    (∃ after, accumulateAll log totals = .ok after) ↔
      ∀ c ∈ log, c.price.converts c.decimals := by
  induction log generalizing totals with
  | nil => simp [accumulateAll, pure, Except.pure]
  | cons head tail ih =>
      simp only [accumulateAll_cons, List.forall_mem_cons]
      constructor
      · intro accumulated
        rcases accumulated with ⟨after, mid, first, rest⟩
        exact ⟨accumulatePosition_ok_iff.mp ⟨mid, first⟩, ih.mp ⟨after, rest⟩⟩
      · intro convert
        rcases convert with ⟨converts, others⟩
        rcases accumulatePosition_ok_iff.mpr converts with ⟨mid, first⟩
        rcases ih.mpr others with ⟨after, rest⟩
        exact ⟨after, mid, first, rest⟩

/-- The totals of a list do not depend on its order. -/
theorem accumulateAll_perm {log log' : List Contribution} (order : log.Perm log')
    {totals after : Totals} (ran : accumulateAll log totals = .ok after) :
    accumulateAll log' totals = .ok after := by
  have converts : ∀ c ∈ log', c.price.converts c.decimals := by
    intro c member
    exact accumulateAll_ok_iff.mp ⟨after, ran⟩ c (order.mem_iff.mpr member)
  rcases accumulateAll_ok_iff.mpr converts with ⟨after', ran'⟩
  have sums := accumulateAll_ok ran
  have sums' := accumulateAll_ok ran'
  rw [(order.map Contribution.collateral).sum_eq, (order.map Contribution.debt).sum_eq] at sums
  have collat : after'.collatAtLtv = after.collatAtLtv := Fin.ext (sums'.1.trans sums.1.symm)
  have debt : after'.debt = after.debt := Fin.ext (sums'.2.trans sums.2.symm)
  rw [ran']
  cases after
  cases after'
  simp_all

theorem pairs_map {α β : Type} (f : α → β) (items : List α) :
    pairs (items.map f) = (pairs items).map (Prod.map f f) := by
  induction items using pairs.induct with
  | case1 first second rest ih => simp [pairs, ih]
  | case2 items short =>
      cases items with
      | nil => rfl
      | cons first rest =>
          cases rest with
          | nil => rfl
          | cons second rest => exact absurd rfl (short first second rest)

theorem length_pairs {α : Type} (items : List α) : (pairs items).length = items.length / 2 := by
  induction items using pairs.induct with
  | case1 first second rest ih =>
      simp only [pairs, List.length_cons, ih]
      omega
  | case2 items short =>
      cases items with
      | nil => simp [pairs]
      | cons first rest =>
          cases rest with
          | nil => simp [pairs]
          | cons second rest => exact absurd rfl (short first second rest)

section Reading

variable {rt : Runtime} {s : State} {skip : Pubkey → Bool} {user : Pubkey}

def State.readKeys (s : State) (rt : Runtime) (skip : Pubkey → Bool) (user : Pubkey)
    (keys : Pubkey × Pubkey) : Except ProgramError (Option Contribution) :=
  readPair rt skip user s.clock (Prod.map s.accountInfo s.accountInfo keys)

def State.holdsAmount (s : State) (key : Pubkey) : Bool :=
  match (s.accountInfo key).data.asPosition with
  | some position => !decide position.isEmpty
  | none => false

theorem readKeys_none {keys : Pubkey × Pubkey} (ran : s.readKeys rt skip user keys = .ok none) :
    skip keys.1 = true ∨ s.holdsAmount keys.1 = false := by
  unfold State.readKeys readPair at ran
  simp only [Prod.map, accountInfo_key] at ran
  split at ran
  · rename_i skipped
    exact Or.inl skipped
  · right
    simp only [bind_ok, okOr_ok] at ran
    rcases ran with ⟨_, _, position, data, _, _, ran⟩
    split at ran
    · rename_i nothing
      simp [State.holdsAmount, data, nothing]
    · simp only [bind_ok, pure_ok, reduceCtorEq, and_false, exists_false] at ran

/-- A counted pair names a stored, nonempty position whose recorded user is the
one being checked, and a Pyth account which prices that position's feed. -/
theorem readKeys_some {keys : Pubkey × Pubkey} {c : Contribution}
    (ran : s.readKeys rt skip user keys = .ok (some c)) :
    skip keys.1 = false ∧ s.holdsAmount keys.1 = true ∧
      ∃ owner mint position price update, keys.1 = .position owner mint ∧
        s.positions.lookup (owner, mint) = some position ∧ position.user = user ∧
        (s.accountInfo keys.2).owner = .pythReceiver ∧
        (s.accountInfo keys.2).data.asPriceUpdate = some update ∧
        rt.getPriceNoOlderThan update s.clock maxPriceAgeSec position.feedId = some price ∧
        c = position.contribution keys.1 price position.feedId := by
  unfold State.readKeys readPair at ran
  simp only [Prod.map, accountInfo_key] at ran
  split at ran
  · simp at ran
  · rename_i unskipped
    simp only [bind_ok, okOr_ok, require_ok] at ran
    rcases ran with ⟨_, owned, position, data, _, sameUser, ran⟩
    split at ran
    · simp at ran
    · rename_i holds
      simp only [bind_ok, okOr_ok, require_ok, pure_ok, Option.some.injEq] at ran
      rcases ran with ⟨_, pyth, update, updateData, price, priced, rfl⟩
      rcases accountInfo_position owned data with ⟨owner, mint, key, stored⟩
      refine ⟨by simpa using unskipped, ?_, owner, mint, position, price, update, key, stored,
        sameUser, pyth, updateData, priced, rfl⟩
      simp [State.holdsAmount, data, holds]

variable {remaining : List Pubkey} {log : List Contribution}

/-- The addresses a caller lists in the position places of `remaining_accounts`. -/
def listedPositions (remaining : List Pubkey) : List Pubkey := (pairs remaining).map Prod.fst

theorem contributions_reads
    (ran : contributions rt (remaining.map s.accountInfo) user skip s.clock = .ok log) :
    remaining.length % 2 = 0 ∧ ∃ reads, log = reads.reduceOption ∧
      List.Forall₂ (fun keys read => s.readKeys rt skip user keys = .ok read)
        (pairs remaining) reads := by
  simp only [contributions, bind_ok, require_ok, List.length_map, pure_ok, pairs_map] at ran
  rcases ran with ⟨_, even, reads, read, rfl⟩
  rw [List.mapM_map, mapM_ok] at read
  exact ⟨even, reads, rfl, read⟩

theorem contributions_mem {c : Contribution}
    (ran : contributions rt (remaining.map s.accountInfo) user skip s.clock = .ok log)
    (member : c ∈ log) :
    ∃ keys ∈ pairs remaining, s.readKeys rt skip user keys = .ok (some c) := by
  rcases contributions_reads ran with ⟨_, reads, rfl, read⟩
  exact exists_source read (List.reduceOption_mem_iff.mp member)

/-- The accounts a walk counts are the listed ones that are neither skipped nor
empty, in the order and with the repeats of the list. -/
theorem contributions_accounts
    (ran : contributions rt (remaining.map s.accountInfo) user skip s.clock = .ok log) :
    log.map Contribution.account =
      (listedPositions remaining).filter fun key => !skip key && s.holdsAmount key := by
  rcases contributions_reads ran with ⟨_, reads, rfl, read⟩
  clear ran
  unfold listedPositions
  generalize pairs remaining = places at read ⊢
  induction read with
  | nil => rfl
  | @cons keys read keyTail readTail head _ ih =>
      simp only [List.map_cons, List.filter_cons]
      cases read with
      | none =>
          have dropped : (!skip keys.1 && s.holdsAmount keys.1) = false := by
            rcases readKeys_none head with skipped | nothing
            · simp [skipped]
            · simp [nothing]
          rw [dropped, List.reduceOption_cons_of_none, ih]
          rfl
      | some c =>
          rcases readKeys_some head with ⟨unskipped, holds, _, _, _, _, _, _, _, _, _, _, _, rfl⟩
          have kept : (!skip keys.1 && s.holdsAmount keys.1) = true := by simp [unskipped, holds]
          rw [kept, List.reduceOption_cons_of_some, List.map_cons, ih]
          rfl

end Reading

end ShadowLend
