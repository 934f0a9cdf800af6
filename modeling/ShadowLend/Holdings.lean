import ShadowLend.Links

/-! Token accounts summed by the mint they are of and by who owns them. A transfer
moves an amount between two such classes, and only the mint itself makes more of
a token or less of it. -/

namespace ShadowLend

open Outcome

/-- A class of token accounts, told apart by mint and owner. -/
abbrev Holders := Pubkey × Pubkey → Bool

def TokenAccount.worth (account : TokenAccount) (holders : Holders) : ℕ :=
  if holders (account.mint, account.owner) then account.amount.val else 0

def Tokens.held (tokens : Tokens) (holders : Holders) : ℕ :=
  tokens.total fun _ account => account.worth holders

def Holders.part (holders : Holders) (identity : Pubkey × Pubkey) (amount : ℕ) : ℕ :=
  if holders identity then amount else 0

theorem worth_eq (account : TokenAccount) (holders : Holders) :
    account.worth holders = holders.part (account.mint, account.owner) account.amount.val := rfl

theorem part_add (holders : Holders) (identity : Pubkey × Pubkey) (first second : ℕ) :
    holders.part identity (first + second) =
      holders.part identity first + holders.part identity second := by
  unfold Holders.part
  split <;> rfl

theorem part_zero (holders : Holders) (identity : Pubkey × Pubkey) :
    holders.part identity 0 = 0 := by
  unfold Holders.part
  split <;> rfl

section Tables

variable {tokens after : Tokens} {holders : Holders}

/-- Rewriting a stored account moves the sum by the difference of the two. -/
theorem held_rewrite (holders : Holders) {key : Pubkey} {account : TokenAccount}
    (new : TokenAccount) (found : tokens.lookup key = some account) :
    Tokens.held (tokens.insert key new) holders + account.worth holders =
      tokens.held holders + new.worth holders := by
  have law := Table.total_insert tokens (fun _ account => account.worth holders) key new
  rwa [Table.share_of_lookup found] at law

theorem held_fresh {key : Pubkey} {new : TokenAccount} (absent : tokens.lookup key = none)
    (empty : new.amount = 0) :
    Tokens.held (tokens.insert key new) holders = tokens.held holders := by
  have law := Table.total_insert tokens (fun _ account => account.worth holders) key new
  have nothing : new.worth holders = 0 := by
    rw [worth_eq, empty]
    exact part_zero holders _
  rw [Table.share_of_absent absent, nothing] at law
  exact law

/-- A transfer takes its amount out of the source's class and puts it into the
destination's, which is of the same mint. -/
theorem held_transfer {source destination authority : Pubkey} {amount : U64}
    (ran : transferTokens tokens source destination authority amount = .ok after) :
    ∃ kind receiver, tokens.identityAt source = some (kind, authority) ∧
      tokens.identityAt destination = some (kind, receiver) ∧
      ∀ holders : Holders,
        after.held holders + holders.part (kind, authority) amount.val =
          tokens.held holders + holders.part (kind, receiver) amount.val := by
  simp only [transferTokens, bind_ok, okOr_ok, require_ok] at ran
  rcases ran with ⟨from_, found, to_, reached, _, _, _, same, _, owned, ran⟩
  refine ⟨from_.mint, to_.owner, by rw [identityAt_of_lookup found, owned],
    by rw [identityAt_of_lookup reached, same], ?_⟩
  intro holders
  subst authority
  split at ran
  · rename_i loop
    subst destination
    rw [pure_ok] at ran
    rcases Table.lookup_unique found reached with rfl
    rw [ran]
  · rename_i distinct
    simp only [bind_ok, okOr_ok, pure_ok, Uint.checkedSub_eq_some, Uint.checkedAdd_eq_some] at ran
    rcases ran with ⟨debited, left, credited, grown, rfl⟩
    have first := held_rewrite holders { from_ with amount := debited } found
    have reached' : (tokens.insert source { from_ with amount := debited }).lookup destination =
        some to_ := by
      rw [Finmap.lookup_insert_of_ne _ (Ne.symm distinct), reached]
    have second := held_rewrite holders { to_ with amount := credited } reached'
    simp only [worth_eq] at first second
    rw [← left, part_add] at first
    rw [grown, part_add] at second
    rw [same] at first second ⊢
    omega

theorem held_initAssociatedToken {owner mint : Pubkey}
    (ran : initAssociatedToken tokens owner mint = .ok after) (holders : Holders) :
    after.held holders = tokens.held holders := by
  unfold initAssociatedToken at ran
  split at ran
  · rename_i absent
    cases ran
    exact held_fresh absent rfl
  · simp only [bind_ok, require_ok, pure_ok] at ran
    rcases ran with ⟨_, _, _, _, rfl⟩
    rfl

theorem initAssociatedToken_own {owner mint : Pubkey}
    (ran : initAssociatedToken tokens owner mint = .ok after) :
    after.identityAt (.associatedToken owner mint) = some (mint, owner) := by
  unfold initAssociatedToken at ran
  split at ran
  · cases ran
    exact identityAt_insert_self _ _
  · rename_i account found
    simp only [bind_ok, require_ok, pure_ok] at ran
    rcases ran with ⟨_, kind, _, owned, rfl⟩
    rw [identityAt_of_lookup found, kind, owned]

end Tables

def ofMint (mint : Pubkey) : Holders := fun identity => identity.1 = mint

theorem ofMint_part (mint : Pubkey) (identity : Pubkey × Pubkey) (amount : ℕ) :
    (ofMint mint).part identity amount = if identity.1 = mint then amount else 0 := by
  simp [Holders.part, ofMint]

/-- The units of a mint there are: none before it is created. -/
def State.minted (s : State) (mint : Pubkey) : ℕ :=
  (s.mints.lookup mint).elim 0 fun minted => minted.supply.val

theorem minted_of_lookup {s : State} {mint : Pubkey} {minted : Mint}
    (found : s.mints.lookup mint = some minted) : s.minted mint = minted.supply.val := by
  simp [State.minted, found]

section Steps

variable {rt : Runtime} {s s' : State}

theorem minted_rewrite (other : Pubkey) (supply : U64) {mint : Pubkey} {minted : Mint}
    (found : s.mints.lookup mint = some minted) :
    (Finmap.lookup other (s.mints.insert mint { minted with supply := supply })).elim 0
        (fun m => m.supply.val) + (if mint = other then minted.supply.val else 0) =
      s.minted other + if mint = other then supply.val else 0 := by
  by_cases here : mint = other
  · subst other
    rw [Finmap.lookup_insert, minted_of_lookup found, if_pos rfl, if_pos rfl]
    exact add_comm _ _
  · rw [Finmap.lookup_insert_of_ne _ (Ne.symm here), if_neg here, if_neg here]
    rfl

def MintsWith (s s' : State) (mint : Pubkey) : Prop :=
  s'.tokens.held (ofMint mint) + s.minted mint = s.tokens.held (ofMint mint) + s'.minted mint

theorem mintsWith_of_held {mint : Pubkey}
    (held : s'.tokens.held (ofMint mint) = s.tokens.held (ofMint mint))
    (mints : s'.mints = s.mints) : MintsWith s s' mint := by
  rw [MintsWith, held, State.minted, State.minted, mints]

theorem held_transfer_mint {tokens after : Tokens} {source destination authority : Pubkey}
    {amount : U64} (ran : transferTokens tokens source destination authority amount = .ok after)
    (mint : Pubkey) : after.held (ofMint mint) = tokens.held (ofMint mint) := by
  rcases held_transfer ran with ⟨kind, receiver, _, _, law⟩
  have moved := law (ofMint mint)
  simp only [ofMint_part] at moved
  exact Nat.add_right_cancel moved

theorem holderInstruction_mints {holder : Signer} {instruction : HolderInstruction}
    (ran : holderInstruction s holder instruction = .ok s') (mint : Pubkey) :
    MintsWith s s' mint := by
  cases instruction with
  | transfer source destination amount =>
      simp only [holderInstruction, bind_ok, pure_ok] at ran
      rcases ran with ⟨tokens, moved, rfl⟩
      exact mintsWith_of_held (held_transfer_mint moved mint) rfl
  | burn account amount =>
      simp only [holderInstruction, bind_ok, okOr_ok, require_ok, pure_ok,
        Uint.checkedSub_eq_some] at ran
      rcases ran with ⟨held, found, minted, present, _, _, left, taken, supply, lowered, rfl⟩
      have tokens := held_rewrite (ofMint mint) { held with amount := left } found
      have mints := minted_rewrite mint supply present
      simp only [worth_eq, ofMint_part] at tokens
      simp only [MintsWith, State.minted] at mints ⊢
      split at tokens <;> simp_all only [if_true, if_false] <;> omega
  | setOwner account newOwner =>
      simp only [holderInstruction, bind_ok, okOr_ok, require_ok, pure_ok] at ran
      rcases ran with ⟨held, found, _, _, rfl⟩
      have tokens := held_rewrite (ofMint mint) { held with owner := newOwner } found
      simp only [worth_eq, ofMint_part] at tokens
      exact mintsWith_of_held (Nat.add_right_cancel tokens) rfl
  | createAccount address owner kind =>
      simp only [holderInstruction, bind_ok, require_ok, pure_ok, State.isVacant,
        Bool.and_eq_true, Option.isNone_iff_eq_none] at ran
      rcases ran with ⟨_, ⟨⟨_, absent⟩, _⟩, _, _, rfl⟩
      exact mintsWith_of_held (held_fresh absent rfl) rfl
  | createAssociated owner kind =>
      simp only [holderInstruction, bind_ok, require_ok, pure_ok, Option.isNone_iff_eq_none] at ran
      rcases ran with ⟨_, absent, _, _, rfl⟩
      exact mintsWith_of_held (held_fresh absent rfl) rfl

theorem isVacant_iff {address : Signer} :
    s.isVacant address = true ↔ s.mints.lookup address.pubkey = none ∧
      s.tokens.lookup address.pubkey = none ∧ s.foreign address.id = none := by
  simp [State.isVacant, and_assoc]

/-- Whatever a step makes of a token, or takes away, the mint's supply records. -/
theorem step_mints {a : Action} (step : Step rt s a s') (mint : Pubkey) : MintsWith s s' mint := by
  cases step_writes step with
  | opened admin created amountPerClaim maxLtvBps feedId rate _ run =>
      have held : s'.tokens.held (ofMint mint) = s.tokens.held (ofMint mint) := by
        rw [run.result]
        exact held_fresh run.newVault rfl
      have same : s'.minted mint = s.minted mint := by
        rw [run.result]
        by_cases here : mint = created.pubkey
        · subst mint
          simp [State.minted, Finmap.lookup_insert, (isVacant_iff.mp run.newMint).1]
        · simp [State.minted, Finmap.lookup_insert_of_ne _ here]
      rw [MintsWith, held, same]
  | decreed _ _ _ _ _ _ result =>
      subst result
      exact mintsWith_of_held rfl rfl
  | claimed user kind _ run =>
      have tokens :=
        held_rewrite (ofMint mint) { run.wallet with amount := run.credited } run.walletFound
      have mints := minted_rewrite mint run.supply run.mintFound
      have own := initAssociatedToken_own run.ready
      rw [identityAt_of_lookup run.walletFound, Option.some.injEq, Prod.mk.injEq] at own
      rw [held_initAssociatedToken run.ready] at tokens
      simp only [worth_eq, ofMint_part, own.1] at tokens
      have grown := run.grown
      have supplied := run.supplied
      rw [run.result]
      simp only [MintsWith, State.minted] at mints ⊢
      split at tokens <;> simp_all only [if_true, if_false] <;> omega
  | moved kind user market _ move =>
      rw [move.result]
      exact mintsWith_of_held
        ((held_transfer_mint move.paid mint).trans (held_initAssociatedToken move.ready _)) rfl
  | liquidated accounts remaining repayAmount _ run =>
      rw [run.result]
      exact mintsWith_of_held
        ((held_transfer_mint run.paidOut mint).trans (held_transfer_mint run.paidIn mint)) rfl
  | counted _ _ _ _ _ _ result =>
      subst result
      exact mintsWith_of_held rfl rfl
  | held _ _ _ ran => exact holderInstruction_mints ran mint
  | passed _ _ _ _ result =>
      subst result
      exact mintsWith_of_held rfl rfl

/-- The accounts of a mint hold its supply between them. -/
theorem Reachable.minted (reached : Reachable rt s) (mint : Pubkey) :
    s.tokens.held (ofMint mint) = s.minted mint := by
  apply reached.invariant (P := fun s => s.tokens.held (ofMint mint) = s.minted mint)
  · rintro _ rfl
    simp [State.empty, State.minted, Tokens.held]
  · intro s a s' held _ step
    have law := step_mints step mint
    rw [MintsWith, held] at law
    omega

theorem minted_le (s : State) (mint : Pubkey) : s.minted mint ≤ 2 ^ 64 - 1 := by
  unfold State.minted
  cases s.mints.lookup mint with
  | none => exact Nat.zero_le _
  | some minted => exact minted.supply.val_le_max

/-- Two accounts of a mint hold no more than one account can. -/
theorem Reachable.amounts_fit (reached : Reachable rt s) {mint key other owner owner' : Pubkey}
    (held : s.tokens.identityAt key = some (mint, owner))
    (held' : s.tokens.identityAt other = some (mint, owner')) (distinct : key ≠ other) :
    s.tokens.amountAt key + s.tokens.amountAt other ≤ 2 ^ 64 - 1 := by
  rcases lookup_of_identityAt held with ⟨account, found, rfl, _⟩
  rcases lookup_of_identityAt held' with ⟨account', found', same, _⟩
  have worth (holder : TokenAccount) (kind : holder.mint = account.mint) :
      holder.worth (ofMint account.mint) = holder.amount.val := by
    rw [worth_eq, ofMint_part, if_pos kind]
  have both := s.tokens.share_add_share_le_total
    (fun _ holder => holder.worth (ofMint account.mint)) distinct
  rw [Table.share_of_lookup found, Table.share_of_lookup found', worth account rfl,
    worth account' same] at both
  calc
    s.tokens.amountAt key + s.tokens.amountAt other = account.amount.val + account'.amount.val := by
      rw [amountAt_of_lookup found, amountAt_of_lookup found']
    _ ≤ s.tokens.held (ofMint account.mint) := both
    _ = s.minted account.mint := reached.minted account.mint
    _ ≤ 2 ^ 64 - 1 := minted_le s account.mint

/-- A step creates one mint, or rewrites the supply of one, or leaves them all alone. -/
inductive MintWrite (s s' : State) : Prop
  | kept (same : s'.mints = s.mints)
  | created (mint : Pubkey) (absent : s.mints.lookup mint = none)
      (same : s'.mints = s.mints.insert mint ⟨0, 9⟩)
  | supplied (mint : Pubkey) (minted : Mint) (supply : U64)
      (found : s.mints.lookup mint = some minted)
      (same : s'.mints = s.mints.insert mint { minted with supply := supply })

theorem holderInstruction_mintTable {holder : Signer} {instruction : HolderInstruction}
    (ran : holderInstruction s holder instruction = .ok s') : MintWrite s s' := by
  cases instruction with
  | burn account amount =>
      simp only [holderInstruction, bind_ok, okOr_ok, require_ok, pure_ok] at ran
      rcases ran with ⟨_, _, minted, found, _, _, _, _, supply, _, rfl⟩
      exact .supplied _ minted supply found rfl
  | transfer source destination amount =>
      simp only [holderInstruction, bind_ok, pure_ok] at ran
      rcases ran with ⟨_, _, rfl⟩
      exact .kept rfl
  | setOwner account newOwner =>
      simp only [holderInstruction, bind_ok, okOr_ok, require_ok, pure_ok] at ran
      rcases ran with ⟨_, _, _, _, rfl⟩
      exact .kept rfl
  | createAccount address owner mint =>
      simp only [holderInstruction, bind_ok, require_ok, pure_ok] at ran
      rcases ran with ⟨_, _, _, _, rfl⟩
      exact .kept rfl
  | createAssociated owner mint =>
      simp only [holderInstruction, bind_ok, require_ok, pure_ok] at ran
      rcases ran with ⟨_, _, _, _, rfl⟩
      exact .kept rfl

theorem step_mintTable {a : Action} (step : Step rt s a s') : MintWrite s s' := by
  cases step_writes step with
  | opened _ mint _ _ _ _ _ run =>
      exact .created mint.pubkey (isVacant_iff.mp run.newMint).1 (congrArg State.mints run.result)
  | decreed _ _ _ _ _ _ result => exact .kept (by rw [result])
  | claimed user mint _ run =>
      exact .supplied mint run.minted run.supply run.mintFound (congrArg State.mints run.result)
  | moved _ _ _ _ move =>
      rw [move.result]
      exact .kept rfl
  | liquidated _ _ _ _ run =>
      rw [run.result]
      exact .kept rfl
  | counted _ _ _ _ _ _ result => exact .kept (by rw [result])
  | held _ _ _ ran => exact holderInstruction_mintTable ran
  | passed _ _ _ _ result => exact .kept (by rw [result])

theorem step_decimals {a : Action} (step : Step rt s a s') {mint : Pubkey} {minted : Mint}
    (found : s.mints.lookup mint = some minted) :
    ∃ minted', s'.mints.lookup mint = some minted' ∧ minted'.decimals = minted.decimals := by
  rcases step_mintTable step with same | ⟨created, absent, same⟩ |
    ⟨kind, old, supply, present, same⟩
  · exact ⟨minted, by rw [same, found], rfl⟩
  · have elsewhere : mint ≠ created := by
      rintro rfl
      rw [found] at absent
      cases absent
    exact ⟨minted, by rw [same, Finmap.lookup_insert_of_ne _ elsewhere, found], rfl⟩
  · by_cases here : mint = kind
    · subst kind
      rcases Table.lookup_unique found present with rfl
      exact ⟨{ minted with supply := supply }, by rw [same, Finmap.lookup_insert], rfl⟩
    · exact ⟨minted, by rw [same, Finmap.lookup_insert_of_ne _ here, found], rfl⟩

/-- The mint of every market has the decimals each position copies. -/
theorem Reachable.mint_decimals (reached : Reachable rt s) {mint : Pubkey} {terms : MarketTerms}
    (named : s.marketTerms mint = some terms) :
    ∃ minted, s.mints.lookup mint = some minted ∧ minted.decimals = mintDecimals := by
  have law : ∀ terms, s.marketTerms mint = some terms →
      ∃ minted, s.mints.lookup mint = some minted ∧ minted.decimals = mintDecimals := by
    apply reached.invariant (P := fun s => ∀ terms, s.marketTerms mint = some terms →
      ∃ minted, s.mints.lookup mint = some minted ∧ minted.decimals = mintDecimals)
    · rintro _ rfl terms named
      simp [State.marketTerms, State.empty] at named
    · intro s a s' carried _ step terms named
      have kept (terms : MarketTerms) (named : s.marketTerms mint = some terms) :
          ∃ minted, s'.mints.lookup mint = some minted ∧ minted.decimals = mintDecimals := by
        rcases carried terms named with ⟨minted, found, decimals⟩
        rcases step_decimals step found with ⟨minted', found', same⟩
        exact ⟨minted', found', same.trans decimals⟩
      rcases step_marketTerms step with ⟨_, same⟩ |
        ⟨admin, created, amountPerClaim, maxLtvBps, feedId, rate, _, rfl, _, _, _, _, written⟩
      · rw [same] at named
        exact kept terms named
      · by_cases here : mint = created.pubkey
        · rcases initializeMarket_ok step with ⟨run⟩
          exact ⟨⟨0, 9⟩, by rw [run.result, here, Finmap.lookup_insert], rfl⟩
        · rw [written, Function.update_of_ne here] at named
          exact kept terms named
  exact law terms named

end Steps

end ShadowLend
