import ShadowLend.Foundation.Runs
import ShadowLend.Instructions.Lending
import ShadowLend.Instructions.Liquidation
import ShadowLend.Instructions.Markets

/-! The ledger as a transition system: any wallet sends any instruction, token
holders use their own accounts, and between instructions time passes and other
programs rewrite theirs. -/

namespace ShadowLend

open Outcome

inductive Action
  | initializeMarket (admin mint : Signer) (amountPerClaim : U64) (maxLtvBps : U16)
      (feedId : FeedId) (borrowRatePerSlotE18 : U64)
  | setClaimAmount (admin : Signer) (mint : Pubkey) (amount : U64)
  | claimFaucet (user : Signer) (mint : Pubkey)
  | supply (user : Signer) (mint : Pubkey) (amount : U64)
  | withdraw (user : Signer) (mint priceUpdate : Pubkey) (remaining : List Pubkey) (amount : U64)
  | borrow (user : Signer) (mint priceUpdate : Pubkey) (remaining : List Pubkey) (amount : U64)
  | repay (user : Signer) (mint : Pubkey) (amount : U64)
  | liquidate (accounts : LiquidateAccounts) (remaining : List Pubkey) (repayAmount : U64)
  | initUserStats (user : Signer)
  | recordAction (user : Signer) (kind : ActionKind) (healthBps : U16)
  | holder (holder : Signer) (instruction : HolderInstruction)
  | environment (clock : Clock) (foreign : ℕ → Option ForeignAccount)

/-- The market and the position `supply`, `withdraw`, `borrow` or `repay` names. -/
def Action.touch : Action → Option (MarketActionKind × Signer × Pubkey)
  | .supply user mint _ => some (.supply, user, mint)
  | .withdraw user mint _ _ _ => some (.withdraw, user, mint)
  | .borrow user mint _ _ _ => some (.borrow, user, mint)
  | .repay user mint _ => some (.repay, user, mint)
  | _ => none

/-- Slots only go forward; the accounts of other programs may become anything. -/
def advance (s : State) (clock : Clock) (foreign : ℕ → Option ForeignAccount) :
    Except ProgramError State := do
  require (s.clock.slot.val ≤ clock.slot.val) .clockRewound
  pure { s with clock := clock, foreign := foreign }

/-- A failed instruction leaves the ledger as it was: it has no successor state. -/
def apply (rt : Runtime) (s : State) : Action → Except ProgramError State
  | .initializeMarket admin mint amountPerClaim maxLtvBps feedId rate =>
      initializeMarket rt s admin mint amountPerClaim maxLtvBps feedId rate
  | .setClaimAmount admin mint amount => setClaimAmount rt s admin mint amount
  | .claimFaucet user mint => claimFaucet rt s user mint
  | .supply user mint amount => supply rt s user mint amount
  | .withdraw user mint priceUpdate remaining amount =>
      withdraw rt s user mint priceUpdate remaining amount
  | .borrow user mint priceUpdate remaining amount =>
      borrow rt s user mint priceUpdate remaining amount
  | .repay user mint amount => repay rt s user mint amount
  | .liquidate accounts remaining repayAmount => liquidate rt s accounts remaining repayAmount
  | .initUserStats user => initUserStats rt s user
  | .recordAction user kind healthBps => recordAction rt s user kind healthBps
  | .holder holder instruction => holderInstruction s holder instruction
  | .environment clock foreign => advance s clock foreign

def Step (rt : Runtime) (s : State) (a : Action) (s' : State) : Prop := apply rt s a = .ok s'

/-- The states reached from the empty store by steps which all meet a guard. -/
abbrev ReachableBy (rt : Runtime) (guard : State → Action → Prop) (s : State) : Prop :=
  Runs.Reaches (· = State.empty) (Step rt) guard s

abbrev Reachable (rt : Runtime) (s : State) : Prop := ReachableBy rt (fun _ _ => True) s

theorem ReachableBy.reachable {rt : Runtime} {guard : State → Action → Prop} {s : State}
    (reached : ReachableBy rt guard s) : Reachable rt s :=
  reached.weaken fun _ _ _ => trivial

/-- The states some run of guarded steps leads to from a given one. -/
abbrev Leads (rt : Runtime) (guard : State → Action → Prop) (s s' : State) : Prop :=
  Runs.Reaches (· = s) (Step rt) guard s'

theorem Reachable.leads {rt : Runtime} {guard : State → Action → Prop} {s s' : State}
    (reached : Reachable rt s) (later : Leads rt guard s s') : Reachable rt s' :=
  reached.append (later.weaken fun _ _ _ => trivial)

/-- A ledger offered a list of actions: one that the guard or the program refuses
leaves it as it was. -/
def replay (rt : Runtime) (guard : State → Action → Prop) [∀ s a, Decidable (guard s a)]
    (s : State) (actions : List Action) : State :=
  actions.foldl (fun s a => if guard s a then ((apply rt s a).toOption).getD s else s) s

theorem replay_continues {rt : Runtime} {guard : State → Action → Prop}
    [∀ s a, Decidable (guard s a)] {initial : State → Prop} {s : State}
    (reached : Runs.Reaches initial (Step rt) guard s) (actions : List Action) :
    Runs.Reaches initial (Step rt) guard (replay rt guard s actions) := by
  induction actions generalizing s with
  | nil => exact reached
  | cons head tail ih =>
      rw [replay, List.foldl_cons]
      apply ih
      split
      · rename_i allowed
        cases ran : apply rt s head with
        | ok s' => exact .next reached allowed ran
        | error e => exact reached
      · exact reached

theorem replay_reaches {rt : Runtime} {guard : State → Action → Prop}
    [∀ s a, Decidable (guard s a)] {s : State} (reached : ReachableBy rt guard s)
    (actions : List Action) : ReachableBy rt guard (replay rt guard s actions) :=
  replay_continues reached actions

theorem replay_leads (rt : Runtime) (guard : State → Action → Prop)
    [∀ s a, Decidable (guard s a)] (s : State) (actions : List Action) :
    Leads rt guard s (replay rt guard s actions) := by
  have begins : Leads rt guard s s := .start rfl
  exact replay_continues begins actions

theorem advance_ok {s s' : State} {clock : Clock} {foreign : ℕ → Option ForeignAccount}
    (ran : advance s clock foreign = .ok s') :
    s.clock.slot.val ≤ clock.slot.val ∧ s' = { s with clock := clock, foreign := foreign } := by
  simp only [advance, bind_ok, require_ok, pure_ok] at ran
  rcases ran with ⟨_, forward, rfl⟩
  exact ⟨forward, rfl⟩

/-- Holders write token accounts and mint supplies only. -/
theorem holderInstruction_frame {s s' : State} {holder : Signer} {ix : HolderInstruction}
    (ran : holderInstruction s holder ix = .ok s') :
    ∃ tokens mints, s' = { s with tokens := tokens, mints := mints } := by
  cases ix with
  | transfer source destination amount =>
      simp only [holderInstruction, bind_ok, pure_ok] at ran
      rcases ran with ⟨tokens, _, rfl⟩
      exact ⟨tokens, s.mints, rfl⟩
  | burn account amount =>
      simp only [holderInstruction, bind_ok, okOr_ok, require_ok, pure_ok] at ran
      rcases ran with ⟨_, _, _, _, _, _, _, _, _, _, rfl⟩
      exact ⟨_, _, rfl⟩
  | setOwner account newOwner =>
      simp only [holderInstruction, bind_ok, okOr_ok, require_ok, pure_ok] at ran
      rcases ran with ⟨_, _, _, _, rfl⟩
      exact ⟨_, s.mints, rfl⟩
  | createAccount address owner mint =>
      simp only [holderInstruction, bind_ok, require_ok, pure_ok] at ran
      rcases ran with ⟨_, _, _, _, rfl⟩
      exact ⟨_, s.mints, rfl⟩
  | createAssociated owner mint =>
      simp only [holderInstruction, bind_ok, require_ok, pure_ok] at ran
      rcases ran with ⟨_, _, _, _, rfl⟩
      exact ⟨_, s.mints, rfl⟩

end ShadowLend
