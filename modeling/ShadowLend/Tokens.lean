import ShadowLend.Accounts

/-! The SPL token program, as far as the lending program and its users call it:
a call moves exactly its amount or aborts. -/

namespace ShadowLend

open Outcome

def Tokens.amountAt (tokens : Tokens) (key : Pubkey) : ℕ :=
  (tokens.lookup key).elim 0 fun account => account.amount.val

/-- Who owns the account at an address and which mint it is of. -/
def Tokens.identityAt (tokens : Tokens) (key : Pubkey) : Option (Pubkey × Pubkey) :=
  (tokens.lookup key).map fun account => (account.mint, account.owner)

def transferTokens (tokens : Tokens) (source destination authority : Pubkey) (amount : U64) :
    Except ProgramError Tokens := do
  let from_ ← okOr (tokens.lookup source) (.token .uninitialized)
  let to_ ← okOr (tokens.lookup destination) (.token .uninitialized)
  require (amount.val ≤ from_.amount.val) (.token .insufficientFunds)
  require (from_.mint = to_.mint) (.token .mintMismatch)
  require (from_.owner = authority) (.token .ownerMismatch)
  if source = destination then
    pure tokens
  else
    let debited ← okOr (from_.amount.checkedSub amount) (.token .overflow)
    let credited ← okOr (to_.amount.checkedAdd amount) (.token .overflow)
    pure ((tokens.insert source { from_ with amount := debited }).insert destination
      { to_ with amount := credited })

def mintTokens (mints : Table Pubkey Mint) (tokens : Tokens) (mint destination : Pubkey)
    (amount : U64) : Except ProgramError (Table Pubkey Mint × Tokens) := do
  let minted ← okOr (mints.lookup mint) (.token .uninitialized)
  let to_ ← okOr (tokens.lookup destination) (.token .uninitialized)
  require (to_.mint = mint) (.token .mintMismatch)
  let supply ← okOr (minted.supply.checkedAdd amount) (.token .overflow)
  let credited ← okOr (to_.amount.checkedAdd amount) (.token .overflow)
  pure (mints.insert mint { minted with supply := supply },
    tokens.insert destination { to_ with amount := credited })

/-- The `init_if_needed` constraint on an associated token account. -/
def initAssociatedToken (tokens : Tokens) (owner mint : Pubkey) : Except ProgramError Tokens :=
  match tokens.lookup (.associatedToken owner mint) with
  | none => .ok (tokens.insert (.associatedToken owner mint) ⟨mint, owner, 0⟩)
  | some account => do
      require (account.mint = mint) (.anchor .constraintTokenMint)
      require (account.owner = owner) (.anchor .constraintTokenOwner)
      pure tokens

/-- What the holder of a token account may do without this program. -/
inductive HolderInstruction
  | transfer (source destination : Pubkey) (amount : U64)
  | burn (account : Pubkey) (amount : U64)
  | setOwner (account newOwner : Pubkey)
  | createAccount (address : Signer) (owner mint : Pubkey)
  | createAssociated (owner mint : Pubkey)

def State.isVacant (s : State) (address : Signer) : Bool :=
  (s.mints.lookup address.pubkey).isNone && (s.tokens.lookup address.pubkey).isNone &&
    (s.foreign address.id).isNone

def holderInstruction (s : State) (holder : Signer) :
    HolderInstruction → Except ProgramError State
  | .transfer source destination amount => do
      let tokens ← transferTokens s.tokens source destination holder.pubkey amount
      pure { s with tokens := tokens }
  | .burn account amount => do
      let held ← okOr (s.tokens.lookup account) (.token .uninitialized)
      let minted ← okOr (s.mints.lookup held.mint) (.token .uninitialized)
      require (held.owner = holder.pubkey) (.token .ownerMismatch)
      let left ← okOr (held.amount.checkedSub amount) (.token .insufficientFunds)
      let supply ← okOr (minted.supply.checkedSub amount) (.token .overflow)
      pure { s with
        tokens := s.tokens.insert account { held with amount := left }
        mints := s.mints.insert held.mint { minted with supply := supply } }
  | .setOwner account newOwner => do
      let held ← okOr (s.tokens.lookup account) (.token .uninitialized)
      require (held.owner = holder.pubkey) (.token .ownerMismatch)
      pure { s with tokens := s.tokens.insert account { held with owner := newOwner } }
  | .createAccount address owner mint => do
      require (s.isVacant address) (.anchor .accountAlreadyInUse)
      require ((s.mints.lookup mint).isSome) (.token .uninitialized)
      pure { s with tokens := s.tokens.insert address.pubkey ⟨mint, owner, 0⟩ }
  | .createAssociated owner mint => do
      require ((s.tokens.lookup (.associatedToken owner mint)).isNone)
        (.anchor .accountAlreadyInUse)
      require ((s.mints.lookup mint).isSome) (.token .uninitialized)
      pure { s with tokens := s.tokens.insert (.associatedToken owner mint) ⟨mint, owner, 0⟩ }

section Amounts

variable {tokens after : Tokens} {source destination authority : Pubkey} {amount : U64}

theorem amountAt_of_lookup {key : Pubkey} {account : TokenAccount}
    (found : tokens.lookup key = some account) : tokens.amountAt key = account.amount.val := by
  simp [Tokens.amountAt, found]

theorem identityAt_of_lookup {key : Pubkey} {account : TokenAccount}
    (found : tokens.lookup key = some account) :
    tokens.identityAt key = some (account.mint, account.owner) := by
  simp [Tokens.identityAt, found]

@[simp] theorem amountAt_insert_self (key : Pubkey) (account : TokenAccount) :
    Tokens.amountAt (tokens.insert key account) key = account.amount.val := by
  simp [Tokens.amountAt, Finmap.lookup_insert]

theorem amountAt_insert_other {key other : Pubkey} (account : TokenAccount)
    (distinct : other ≠ key) :
    Tokens.amountAt (tokens.insert key account) other = tokens.amountAt other := by
  simp [Tokens.amountAt, Finmap.lookup_insert_of_ne _ distinct]

@[simp] theorem identityAt_insert_self (key : Pubkey) (account : TokenAccount) :
    Tokens.identityAt (tokens.insert key account) key = some (account.mint, account.owner) := by
  simp [Tokens.identityAt, Finmap.lookup_insert]

theorem identityAt_insert_other {key other : Pubkey} (account : TokenAccount)
    (distinct : other ≠ key) :
    Tokens.identityAt (tokens.insert key account) other = tokens.identityAt other := by
  simp [Tokens.identityAt, Finmap.lookup_insert_of_ne _ distinct]

/-- A transfer is authorised by the owner of its source and never creates one. -/
theorem transferTokens_authorised
    (ran : transferTokens tokens source destination authority amount = .ok after) :
    ∃ mint, tokens.identityAt source = some (mint, authority) := by
  simp only [transferTokens, bind_ok, okOr_ok, require_ok] at ran
  rcases ran with ⟨from_, found, _, _, _, _, _, _, _, owned, _⟩
  exact ⟨from_.mint, by rw [identityAt_of_lookup found, owned]⟩

theorem transferTokens_identity
    (ran : transferTokens tokens source destination authority amount = .ok after) (key : Pubkey) :
    after.identityAt key = tokens.identityAt key := by
  simp only [transferTokens, bind_ok, okOr_ok, require_ok] at ran
  rcases ran with ⟨from_, found, to_, reached, _, _, _, _, _, _, ran⟩
  split at ran
  · rw [pure_ok] at ran
    rw [ran]
  · simp only [bind_ok, okOr_ok, pure_ok] at ran
    rcases ran with ⟨debited, _, credited, _, rfl⟩
    by_cases atDestination : key = destination
    · subst key
      rw [identityAt_insert_self, identityAt_of_lookup reached]
    · rw [identityAt_insert_other _ atDestination]
      by_cases atSource : key = source
      · subst key
        rw [identityAt_insert_self, identityAt_of_lookup found]
      · rw [identityAt_insert_other _ atSource]

theorem transferTokens_moves
    (ran : transferTokens tokens source destination authority amount = .ok after)
    (distinct : source ≠ destination) :
    after.amountAt source + amount.val = tokens.amountAt source ∧
      after.amountAt destination = tokens.amountAt destination + amount.val ∧
      ∀ key, key ≠ source → key ≠ destination → after.amountAt key = tokens.amountAt key := by
  simp only [transferTokens, bind_ok, okOr_ok, require_ok, if_neg distinct, pure_ok] at ran
  obtain ⟨from_, found, to_, reached, _, _, _, _, _, _, debited, left, credited, grown, rfl⟩ := ran
  rw [Uint.checkedSub_eq_some] at left
  rw [Uint.checkedAdd_eq_some] at grown
  refine ⟨?_, ?_, ?_⟩
  · rw [amountAt_insert_other _ distinct, amountAt_insert_self, amountAt_of_lookup found]
    exact left
  · rw [amountAt_insert_self, amountAt_of_lookup reached]
    exact grown
  · intro key atSource atDestination
    rw [amountAt_insert_other _ atDestination, amountAt_insert_other _ atSource]

theorem lookup_of_identityAt {key mint owner : Pubkey}
    (identity : tokens.identityAt key = some (mint, owner)) :
    ∃ account, tokens.lookup key = some account ∧ account.mint = mint ∧ account.owner = owner := by
  rcases Option.map_eq_some_iff.mp identity with ⟨account, found, same⟩
  exact ⟨account, found, congrArg Prod.fst same, congrArg Prod.snd same⟩

/-- The owner of an account with enough in it can pay into any other of its mint
that has room. -/
theorem transferTokens_exists {mint receiver : Pubkey}
    (pays : tokens.identityAt source = some (mint, authority))
    (receives : tokens.identityAt destination = some (mint, receiver))
    (distinct : source ≠ destination) (enough : amount.val ≤ tokens.amountAt source)
    (room : tokens.amountAt destination + amount.val < 2 ^ 64) :
    ∃ after, transferTokens tokens source destination authority amount = .ok after := by
  rcases lookup_of_identityAt pays with ⟨from_, found, rfl, owned⟩
  rcases lookup_of_identityAt receives with ⟨to_, reached, same, _⟩
  rw [amountAt_of_lookup found] at enough
  rw [amountAt_of_lookup reached] at room
  simp only [transferTokens, bind_ok, okOr_ok, require_ok, if_neg distinct, pure_ok]
  exact ⟨_, from_, found, to_, reached, (), enough, (), same.symm, (), owned, _,
    Uint.checkedSub_of_le enough, ⟨to_.amount.val + amount.val, room⟩,
    Uint.checkedAdd_eq_some.mpr rfl, rfl⟩

theorem transferTokens_self
    (ran : transferTokens tokens source source authority amount = .ok after) : after = tokens := by
  simp only [transferTokens, bind_ok, okOr_ok, require_ok, if_true, pure_ok] at ran
  rcases ran with ⟨_, _, _, _, _, _, _, _, _, _, rfl⟩
  rfl

/-- An account that is neither end of a transfer keeps its amount, and one that
does not send only gains. -/
theorem transferTokens_le {key : Pubkey}
    (ran : transferTokens tokens source destination authority amount = .ok after)
    (receives : key ≠ source) : tokens.amountAt key ≤ after.amountAt key := by
  by_cases same : source = destination
  · subst destination
    rw [transferTokens_self ran]
  · rcases transferTokens_moves ran same with ⟨_, gained, others⟩
    by_cases atDestination : key = destination
    · subst key
      omega
    · exact (others key receives atDestination).ge

theorem initAssociatedToken_amountAt {owner mint : Pubkey}
    (ran : initAssociatedToken tokens owner mint = .ok after) (key : Pubkey) :
    after.amountAt key = tokens.amountAt key := by
  unfold initAssociatedToken at ran
  split at ran
  · rename_i absent
    cases ran
    by_cases atNew : key = .associatedToken owner mint
    · subst key
      rw [amountAt_insert_self]
      simp [Tokens.amountAt, absent]
    · rw [amountAt_insert_other _ atNew]
  · simp only [bind_ok, require_ok, pure_ok] at ran
    rcases ran with ⟨_, _, _, _, rfl⟩
    rfl

theorem initAssociatedToken_identity {owner mint key : Pubkey}
    (ran : initAssociatedToken tokens owner mint = .ok after)
    (elsewhere : key ≠ .associatedToken owner mint) :
    after.identityAt key = tokens.identityAt key := by
  unfold initAssociatedToken at ran
  split at ran
  · cases ran
    rw [identityAt_insert_other _ elsewhere]
  · simp only [bind_ok, require_ok, pure_ok] at ran
    rcases ran with ⟨_, _, _, _, rfl⟩
    rfl

end Amounts

end ShadowLend
