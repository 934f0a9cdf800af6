import ShadowLend.Holdings
import ShadowLend.Owing
import Mathlib.Data.Int.Basic

/-! What a user has of a token: the balance of its accounts and its deposit, less
its debt. Supplying, withdrawing, borrowing and repaying only move it around. -/

namespace ShadowLend

open Outcome Devnet

def ownedBy (user : Signer) (mint : Pubkey) : Holders :=
  fun identity => identity = (mint, user.pubkey)

def State.balance (s : State) (user : Signer) (mint : Pubkey) : ℕ :=
  s.tokens.held (ownedBy user mint)

def State.wealth (s : State) (user : Signer) (mint : Pubkey) : ℤ :=
  s.balance user mint + s.deposited (user.pubkey, mint) - s.owed (user.pubkey, mint)

/-- What of a payment by or to one user concerns another. -/
def concerns (payer user : Signer) (paid mint : Pubkey) (amount : ℕ) : ℕ :=
  if (user.pubkey, mint) = (payer.pubkey, paid) then amount else 0

theorem concerns_add (payer user : Signer) (paid mint : Pubkey) (first second : ℕ) :
    concerns payer user paid mint (first + second) =
      concerns payer user paid mint first + concerns payer user paid mint second := by
  unfold concerns
  split <;> rfl

theorem ownedBy_part_signer (user payer : Signer) (mint paid : Pubkey) (amount : ℕ) :
    (ownedBy user mint).part (paid, payer.pubkey) amount =
      concerns payer user paid mint amount := by
  by_cases same : (user.pubkey, mint) = (payer.pubkey, paid)
  · rcases Prod.mk.inj same with ⟨here, rfl⟩
    simp [Holders.part, ownedBy, concerns, here]
  · have apart : (paid, payer.pubkey) ≠ (mint, user.pubkey) := by
      intro equal
      rcases Prod.mk.inj equal with ⟨rfl, here⟩
      exact same (by rw [here])
    simp [Holders.part, ownedBy, concerns, apart, same]

theorem ownedBy_part_authority (user : Signer) (mint paid kind : Pubkey) (amount : ℕ) :
    (ownedBy user mint).part (kind, .authority paid) amount = 0 := by
  simp [Holders.part, ownedBy, Signer.pubkey]

section Steps

variable {rt : Runtime} {s s' : State}

theorem vault_identity_prepared (linked : Linked rt s) {user : Signer} {mint : Pubkey}
    {prepared : Tokens} (ready : initAssociatedToken s.tokens user.pubkey mint = .ok prepared)
    {kind owner : Pubkey} (held : prepared.identityAt (.vault mint) = some (kind, owner)) :
    kind = mint ∧ owner = .authority mint := by
  rw [initAssociatedToken_identity ready (by simp)] at held
  exact linked.vault_owner held

theorem paidIn_balance (linked : Linked rt s) {payer : Signer} {paid : Pubkey}
    {prepared after : Tokens} {amount : U64}
    (ready : initAssociatedToken s.tokens payer.pubkey paid = .ok prepared)
    (ran : transferTokens prepared (.associatedToken payer.pubkey paid) (.vault paid)
      payer.pubkey amount = .ok after) (user : Signer) (mint : Pubkey) :
    after.held (ownedBy user mint) + concerns payer user paid mint (after.amountAt (.vault paid)) =
      s.balance user mint + concerns payer user paid mint (s.cash paid) := by
  rcases held_transfer ran with ⟨kind, receiver, source, destination, law⟩
  rw [initAssociatedToken_own ready, Option.some.injEq, Prod.mk.injEq] at source
  rcases source with ⟨rfl, _⟩
  rcases vault_identity_prepared linked ready destination with ⟨_, rfl⟩
  have moved := law (ownedBy user mint)
  have cash := paidIn_cash ready ran paid
  rw [ownedBy_part_signer, ownedBy_part_authority, held_initAssociatedToken ready] at moved
  rw [if_pos rfl] at cash
  rw [cash, concerns_add, State.balance]
  omega

theorem paidOut_balance {payee : Signer} {paid : Pubkey} {prepared after : Tokens} {amount : U64}
    (ready : initAssociatedToken s.tokens payee.pubkey paid = .ok prepared)
    (ran : transferTokens prepared (.vault paid) (.associatedToken payee.pubkey paid)
      (.authority paid) amount = .ok after) (user : Signer) (mint : Pubkey) :
    after.held (ownedBy user mint) + concerns payee user paid mint (after.amountAt (.vault paid)) =
      s.balance user mint + concerns payee user paid mint (s.cash paid) := by
  rcases held_transfer ran with ⟨kind, receiver, source, destination, law⟩
  rw [initAssociatedToken_own ready, Option.some.injEq, Prod.mk.injEq] at destination
  rcases destination with ⟨rfl, rfl⟩
  have moved := law (ownedBy user mint)
  have cash := paidOut_cash ready ran paid
  rw [ownedBy_part_signer, ownedBy_part_authority, held_initAssociatedToken ready] at moved
  rw [if_pos rfl] at cash
  rw [← cash, concerns_add, State.balance]
  omega

/-- Between a user's accounts and the vault nothing is lost. -/
theorem step_balance (linked : Linked rt s) {a : Action} {kind : MarketActionKind}
    {payer : Signer} {paid : Pubkey} (acts : a.touch = some (kind, payer, paid))
    (step : Step rt s a s') (user : Signer) (mint : Pubkey) :
    s'.balance user mint + concerns payer user paid mint (s'.cash paid) =
      s.balance user mint + concerns payer user paid mint (s.cash paid) := by
  rcases step_move acts step with ⟨move⟩
  have ready := move.ready
  have moved := move.paid
  rw [move.result]
  cases kind with
  | supply | repay => exact paidIn_balance linked ready moved user mint
  | withdraw | borrow => exact paidOut_balance ready moved user mint

/-- The position of the user moves against the vault as its token accounts do. -/
theorem Touch.position_moves {kind : MarketActionKind} {user : Signer} {mint : Pubkey}
    (touch : Touch s kind user mint s') (clock : s'.clock = s.clock) :
    (s'.deposited (user.pubkey, mint) : ℤ) - s'.owed (user.pubkey, mint) - s'.cash mint =
      s.deposited (user.pubkey, mint) - s.owed (user.pubkey, mint) - s.cash mint := by
  rw [touch.deposited_self, touch.owed_self clock, touch.accrued.deposited (user.pubkey, mint),
    touch.accrued.owed (user.pubkey, mint)]
  have books := touch.books
  cases kind with
  | supply =>
      rcases books with ⟨supplied, borrowed, _, _, cash⟩
      rw [borrowed]
      omega
  | withdraw =>
      rcases books with ⟨supplied, borrowed, _, _, cash⟩
      rw [borrowed]
      omega
  | borrow =>
      rcases books with ⟨_, supplied, borrowed, _, _, cash⟩
      rw [supplied]
      omega
  | repay =>
      rcases books with ⟨supplied, borrowed, _, _, cash⟩
      rw [supplied]
      omega

theorem step_wealth (linked : Linked rt s) {a : Action} (touches : a.touch.isSome)
    (step : Step rt s a s') (user : Signer) (mint : Pubkey) :
    s'.wealth user mint = s.wealth user mint := by
  rcases Option.isSome_iff_exists.mp touches with ⟨⟨kind, payer, paid⟩, acts⟩
  rcases step_touch linked acts step with ⟨touch⟩
  have clock := touch_clock touches step
  have balance := step_balance linked acts step user mint
  simp only [State.wealth, concerns] at balance ⊢
  by_cases own : (user.pubkey, mint) = (payer.pubkey, paid)
  · have moved := touch.position_moves clock
    rw [if_pos own, if_pos own] at balance
    rw [own]
    omega
  · have kept := touch.lookup_other own
    have deposited : s'.deposited (user.pubkey, mint) = s.deposited (user.pubkey, mint) := by
      rw [State.deposited, State.deposited, kept]
    rw [if_neg own, if_neg own, Nat.add_zero, Nat.add_zero] at balance
    rw [balance, deposited, step_owed linked step clock kept]

end Steps

/-- Within a slot no sequence of these four instructions, of any users in any
markets, moves what any user has of any token. -/
theorem wealth_constant {rt : Runtime} {s s' : State} (reached : Reachable rt s)
    (later : Leads rt (fun _ a => a.touch.isSome) s s') (user : Signer) (mint : Pubkey) :
    s'.clock = s.clock ∧ s'.wealth user mint = s.wealth user mint := by
  apply Runs.Reaches.invariant_under (fun _ onward => (reached.leads onward).linked) ?_ ?_ later
  · rintro _ rfl
    exact ⟨rfl, rfl⟩
  · intro before a after linked carried touches step
    rcases carried with ⟨clock, wealth⟩
    exact ⟨(touch_clock touches step).trans clock,
      (step_wealth linked touches step user mint).trans wealth⟩

def busySlot : State :=
  replay devnet (fun _ a => a.touch.isSome) (ledger lenders)
    [borrowUsdc 4000000000000, .repay alice usdc.pubkey 1500000000000,
      .withdraw bob usdc.pubkey usdcPrice [] 20000000000000,
      .supply alice sol.pubkey 300000000000]

theorem wealth_constant_busySlot :
    busySlot.balance alice usdc.pubkey = 52500000000000 ∧
      busySlot.owed (alice.pubkey, usdc.pubkey) = 2500000000000 ∧
      busySlot.wealth alice usdc.pubkey = (ledger lenders).wealth alice usdc.pubkey ∧
      busySlot.wealth alice sol.pubkey = (ledger lenders).wealth alice sol.pubkey ∧
      busySlot.wealth bob usdc.pubkey = (ledger lenders).wealth bob usdc.pubkey := by
  have reached := ledger_reachable lenders
  have later : Leads devnet (fun _ a => a.touch.isSome) (ledger lenders) busySlot :=
    replay_leads devnet _ (ledger lenders) _
  exact ⟨by decide +kernel, by decide +kernel,
    (wealth_constant reached later alice usdc.pubkey).2,
    (wealth_constant reached later alice sol.pubkey).2,
    (wealth_constant reached later bob usdc.pubkey).2⟩

end ShadowLend
