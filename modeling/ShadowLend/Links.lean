import ShadowLend.Writes

/-! What ties the accounts of a ledger together: a market to its own mint and
vault, and a position to its user and its market. No instruction undoes a tie. -/

namespace ShadowLend

open Outcome

structure Linked (rt : Runtime) (s : State) : Prop where
  market : ∀ mint terms, s.marketTerms mint = some terms →
    terms.mint = mint ∧ terms.bump = rt.findBump (.market mint) ∧
      terms.authorityBump = rt.findBump (.authority mint) ∧
      0 < terms.maxLtvBps.val ∧ terms.maxLtvBps.val < 10000
  position : ∀ user mint terms, s.positionTerms (user, mint) = some terms →
    (∃ signer : Signer, user = signer.pubkey) ∧
      ∃ opening, s.marketTerms mint = some opening ∧ terms = opening.opened rt user mint
  vault : ∀ mint, s.tokens.identityAt (.vault mint) =
    (s.marketTerms mint).map fun _ => (mint, .authority mint)

def SameVaults (tokens after : Tokens) : Prop :=
  ∀ mint, after.identityAt (.vault mint) = tokens.identityAt (.vault mint)

theorem SameVaults.trans {first second third : Tokens} (earlier : SameVaults first second)
    (later : SameVaults second third) : SameVaults first third := by
  intro mint
  exact (later mint).trans (earlier mint)

theorem transferTokens_sameVaults {tokens after : Tokens} {source destination authority : Pubkey}
    {amount : U64}
    (ran : transferTokens tokens source destination authority amount = .ok after) :
    SameVaults tokens after := by
  intro mint
  exact transferTokens_identity ran _

theorem initAssociatedToken_sameVaults {tokens after : Tokens} {owner mint : Pubkey}
    (ran : initAssociatedToken tokens owner mint = .ok after) : SameVaults tokens after := by
  intro other
  exact initAssociatedToken_identity ran (by simp)

theorem insert_sameVaults {tokens : Tokens} {key : Pubkey} (account : TokenAccount)
    (elsewhere : ∀ mint, key ≠ .vault mint) : SameVaults tokens (tokens.insert key account) := by
  intro mint
  exact identityAt_insert_other account (elsewhere mint).symm

section Steps

variable {rt : Runtime} {s s' : State}

theorem Linked.vault_owner (linked : Linked rt s) {mint kind owner : Pubkey}
    (held : s.tokens.identityAt (.vault mint) = some (kind, owner)) :
    kind = mint ∧ owner = .authority mint := by
  rw [linked.vault mint, Option.map_eq_some_iff] at held
  rcases held with ⟨_, _, same⟩
  exact ⟨(congrArg Prod.fst same).symm, (congrArg Prod.snd same).symm⟩

/-- A position is stored under the user it names. -/
theorem Linked.position_user (linked : Linked rt s) {user mint : Pubkey} {position : Position}
    (stored : s.positions.lookup (user, mint) = some position) : position.user = user := by
  rcases linked.position user mint _ (positionTerms_of_lookup stored) with ⟨_, _, _, shape⟩
  exact congrArg PositionTerms.user shape

/-- The vault of a listed market is its authority's account of its mint. -/
theorem Linked.vault_identity (linked : Linked rt s) {mint : Pubkey} {market : Market}
    (listed : s.markets.lookup mint = some market) :
    s.tokens.identityAt (.vault mint) = some (mint, .authority mint) := by
  rw [linked.vault mint, marketTerms_of_lookup listed]
  rfl

theorem Linked.vault_ne (linked : Linked rt s) {address kind : Pubkey} {signer : Signer}
    (held : s.tokens.identityAt address = some (kind, signer.pubkey)) (mint : Pubkey) :
    address ≠ .vault mint := by
  rintro rfl
  have owned := (linked.vault_owner held).2
  simp [Signer.pubkey] at owned

theorem holderInstruction_sameVaults (linked : Linked rt s) {holder : Signer}
    {instruction : HolderInstruction}
    (ran : holderInstruction s holder instruction = .ok s') : SameVaults s.tokens s'.tokens := by
  cases instruction with
  | transfer source destination amount =>
      simp only [holderInstruction, bind_ok, pure_ok] at ran
      rcases ran with ⟨tokens, moved, rfl⟩
      exact transferTokens_sameVaults moved
  | burn account amount =>
      simp only [holderInstruction, bind_ok, okOr_ok, require_ok, pure_ok] at ran
      rcases ran with ⟨held, found, _, _, _, owned, _, _, _, _, rfl⟩
      apply insert_sameVaults
      exact linked.vault_ne (by rw [identityAt_of_lookup found, owned])
  | setOwner account newOwner =>
      simp only [holderInstruction, bind_ok, okOr_ok, require_ok, pure_ok] at ran
      rcases ran with ⟨held, found, _, owned, rfl⟩
      apply insert_sameVaults
      exact linked.vault_ne (by rw [identityAt_of_lookup found, owned])
  | createAccount address owner mint =>
      simp only [holderInstruction, bind_ok, require_ok, pure_ok] at ran
      rcases ran with ⟨_, _, _, _, rfl⟩
      apply insert_sameVaults
      simp [Signer.pubkey]
  | createAssociated owner mint =>
      simp only [holderInstruction, bind_ok, require_ok, pure_ok] at ran
      rcases ran with ⟨_, _, _, _, rfl⟩
      apply insert_sameVaults
      simp

/-- Only the creation of a market gives a vault its owner. -/
theorem step_vaults (linked : Linked rt s) {a : Action} (step : Step rt s a s') :
    (a.createdMint = none ∧ SameVaults s.tokens s'.tokens) ∨
      ∃ mint, a.createdMint = some mint ∧ ∀ other,
        s'.tokens.identityAt (.vault other) =
          if other = mint then some (mint, .authority mint)
          else s.tokens.identityAt (.vault other) := by
  cases step_writes step with
  | opened admin mint amountPerClaim maxLtvBps feedId rate acts run =>
      right
      subst acts
      refine ⟨mint.pubkey, rfl, ?_⟩
      intro other
      rw [run.result]
      split
      · subst other
        exact identityAt_insert_self _ _
      · rename_i distinct
        exact identityAt_insert_other _ (by simpa using distinct)
  | decreed admin mint amount market acts found result =>
      subst acts result
      exact Or.inl ⟨rfl, fun _ => rfl⟩
  | claimed user mint acts run =>
      subst acts
      rw [run.result]
      exact Or.inl
        ⟨rfl, (initAssociatedToken_sameVaults run.ready).trans (insert_sameVaults _ (by simp))⟩
  | moved kind user mint acts move =>
      rw [move.result]
      exact Or.inl ⟨createdMint_of_touch acts,
        (initAssociatedToken_sameVaults move.ready).trans (transferTokens_sameVaults move.paid)⟩
  | liquidated accounts remaining repayAmount acts run =>
      subst acts
      rw [run.result]
      exact Or.inl
        ⟨rfl, (transferTokens_sameVaults run.paidIn).trans (transferTokens_sameVaults run.paidOut)⟩
  | counted user stats events acts named bump result =>
      subst result
      exact Or.inl ⟨createdMint_of_count acts, fun _ => rfl⟩
  | held holder instruction acts ran =>
      subst acts
      exact Or.inl ⟨rfl, holderInstruction_sameVaults linked ran⟩
  | passed clock foreign acts forward result =>
      subst acts result
      exact Or.inl ⟨rfl, fun _ => rfl⟩

theorem linked_empty (rt : Runtime) : Linked rt State.empty := by
  constructor <;> intros <;> simp_all [State.marketTerms, State.positionTerms, State.empty,
    Tokens.identityAt]

/-- A market, once it has terms, keeps them. -/
theorem step_marketTerms_mono {a : Action} (step : Step rt s a s') {mint : Pubkey}
    {terms : MarketTerms} (found : s.marketTerms mint = some terms) :
    s'.marketTerms mint = some terms := by
  rcases step_marketTerms step with ⟨_, same⟩ | ⟨_, created, _, _, _, _, _, _, fresh, _, _, _, written⟩
  · rw [same, found]
  · rw [written, Function.update_of_ne _, found]
    rintro rfl
    rw [State.marketTerms, fresh] at found
    cases found

theorem Linked.step (linked : Linked rt s) {a : Action} (step : Step rt s a s') :
    Linked rt s' := by
  constructor
  · intro mint terms found
    rcases step_marketTerms step with ⟨_, same⟩ | ⟨_, created, _, _, _, _, new, _, _, shape, low, high,
      written⟩
    · rw [same] at found
      exact linked.market mint terms found
    · rw [written] at found
      by_cases here : mint = created.pubkey
      · subst mint
        rw [Function.update_self, Option.some.injEq] at found
        subst terms
        rw [shape]
        exact ⟨rfl, rfl, rfl, low, high⟩
      · rw [Function.update_of_ne here] at found
        exact linked.market mint terms found
  · intro user mint terms found
    rcases step_positionTerms step with same | ⟨signer, opened, _, opening, _, _, present, written⟩
    · rw [same] at found
      rcases linked.position user mint terms found with ⟨signed, opening, present, shape⟩
      exact ⟨signed, opening, step_marketTerms_mono step present, shape⟩
    · rw [written] at found
      by_cases here : (user, mint) = (signer.pubkey, opened)
      · rcases Prod.mk.inj here with ⟨rfl, rfl⟩
        rw [Function.update_self, Option.some.injEq] at found
        exact ⟨⟨signer, rfl⟩, opening, step_marketTerms_mono step present, found.symm⟩
      · rw [Function.update_of_ne here] at found
        rcases linked.position user mint terms found with ⟨signed, opening, present, shape⟩
        exact ⟨signed, opening, step_marketTerms_mono step present, shape⟩
  · intro mint
    rcases step_vaults linked step with ⟨none, kept⟩ | ⟨created, some, vaults⟩
    · rcases step_marketTerms step with ⟨_, same⟩ | ⟨_, _, _, _, _, _, _, rfl, _⟩
      · rw [kept mint, same, linked.vault mint]
      · cases none
    · rcases step_marketTerms step with ⟨none, _⟩ | ⟨_, _, _, _, _, _, _, rfl, _, _, _, _, written⟩
      · rw [none] at some
        cases some
      · cases some
        rw [vaults mint, written, linked.vault mint]
        split
        · rename_i here
          rw [here, Function.update_self]
          rfl
        · rename_i elsewhere
          rw [Function.update_of_ne elsewhere]

theorem Reachable.linked (reached : Reachable rt s) : Linked rt s := by
  apply reached.invariant
  · rintro _ rfl
    exact linked_empty rt
  · intro _ _ _ linked _ step
    exact linked.step step

end Steps

end ShadowLend
