import ShadowLend.Foundation.Rounds
import ShadowLend.Equity
import ShadowLend.Ownership
import ShadowLend.Preconditions

/-! When the borrowers of a market have paid, its lenders can leave: each of them with
the whole deposit, in whatever order they come. -/

namespace ShadowLend

open Outcome Devnet

def State.depositOf (s : State) (user : Signer) (mint : Pubkey) : U64 :=
  (s.positions.lookup (user.pubkey, mint)).elim 0 Position.supplied

/-- A lender takes the whole deposit out, with no other position listed. -/
def leave (rt : Runtime) (mint priceUpdate : Pubkey) (s : State) (user : Signer) :
    Except ProgramError State :=
  withdraw rt s user mint priceUpdate [] (s.depositOf user mint)

/-- A market nobody owes anything, at a price the program can read. -/
structure Settled (rt : Runtime) (s : State) (mint priceUpdate : Pubkey) (price : Price) :
    Prop where
  reached : ReachableBy rt DebtsStand s
  paid : s.owedIn mint = 0
  quoted : ∃ market, s.markets.lookup mint = some market ∧
    Quotes rt s priceUpdate market.feedId price
  converts : price.converts mintDecimals

structure Lender (s : State) (mint : Pubkey) (user : Signer) : Prop where
  lends : 0 < s.deposited (user.pubkey, mint)
  wallet : WalletUsable s user mint

section Steps

variable {rt : Runtime} {s s' : State} {mint priceUpdate : Pubkey} {price : Price} {user : Signer}

theorem val_depositOf (s : State) (user : Signer) (mint : Pubkey) :
    (s.depositOf user mint).val = s.deposited (user.pubkey, mint) := by
  rw [State.depositOf, State.deposited]
  cases s.positions.lookup (user.pubkey, mint) <;> rfl

theorem owed_le (s : State) (key : Pubkey × Pubkey) : s.owed key ≤ s.owedIn key.2 := by
  rw [State.owed]
  cases held : s.positions.lookup key with
  | none => exact Nat.zero_le _
  | some position =>
      have share := s.positions.share_le_total
        (fun k p => if k.2 = key.2 then (s.debtNow k p).val else 0) key
      rwa [Table.share_of_lookup held, if_pos rfl] at share

theorem healthyAt_nothing (linked : Linked rt s) {market : Market} {position : Position}
    (found : s.markets.lookup mint = some market)
    (held : s.positions.lookup (user.pubkey, mint) = some position)
    (quoted : Quotes rt s priceUpdate market.feedId price) (converts : price.converts mintDecimals) :
    HealthyAt rt s user mint priceUpdate [] 0 0 := by
  obtain ⟨feed, _, decimals⟩ := stored_terms linked held found
  rw [← decimals] at converts
  have accepted : ∃ totals, accumulatePosition 0 0 price position.decimals position.maxLtvBps
      .zero = .ok totals := accumulatePosition_ok_iff.mpr converts
  obtain ⟨totals, counted⟩ := accepted
  have nothing : totals.debt.val = 0 := by
    rw [(accumulatePosition_ok counted).2, usdValue_zero _ _ rfl]
    rfl
  refine ⟨position, price, totals, held, feed ▸ quoted, ?_, nothing.trans_le (Nat.zero_le _)⟩
  rw [ownerTotals, bind_ok]
  exact ⟨totals, counted, rfl⟩

theorem position_of_deposit {key : Pubkey × Pubkey} (lends : 0 < s.deposited key) :
    ∃ position, s.positions.lookup key = some position := by
  cases held : s.positions.lookup key with
  | none =>
      rw [State.deposited, held] at lends
      exact absurd lends (lt_irrefl 0)
  | some position => exact ⟨position, rfl⟩

/-- A deposit against which nothing is owed can be taken out of a vault that has it. -/
theorem leave_goes (reached : Reachable rt s) (lender : Lender s mint user)
    (paid : s.owed (user.pubkey, mint) = 0)
    (liquid : s.deposited (user.pubkey, mint) ≤ s.cash mint) {market : Market}
    (found : s.markets.lookup mint = some market)
    (quoted : Quotes rt s priceUpdate market.feedId price) (converts : price.converts mintDecimals) :
    ∃ s', leave rt mint priceUpdate s user = .ok s' := by
  have lends := lender.lends
  have amount := val_depositOf s user mint
  obtain ⟨position, held⟩ := position_of_deposit lends
  refine withdraw_exists reached ⟨by omega, lender.wallet, by omega, 0, 0, ?_, paid.symm,
    healthyAt_nothing reached.linked found held quoted converts⟩
  rw [amount]
  exact Nat.zero_add _

theorem leave_empties (left : leave rt mint priceUpdate s user = .ok s') :
    s'.deposited (user.pubkey, mint) = 0 := by
  obtain ⟨draw⟩ := withdraw_draw.mp left
  have taken := draw.books.1
  have written : s'.positions.lookup (user.pubkey, mint) =
      some (draw.position.rebalance draw.balances) :=
    (congrArg (fun t : State => t.positions.lookup (user.pubkey, mint)) draw.result).trans
      (Finmap.lookup_insert _)
  rw [val_depositOf, draw.stored_amounts.1] at taken
  rw [deposited_of_lookup written]
  change draw.balances.supplied.val = 0
  omega

theorem Settled.leaves (settled : Settled rt s mint priceUpdate price)
    (lender : Lender s mint user) : ∃ s', leave rt mint priceUpdate s user = .ok s' := by
  obtain ⟨market, found, quoted⟩ := settled.quoted
  have covered := deposits_covered settled.reached mint
  have mine : s.deposited (user.pubkey, mint) ≤ s.suppliedIn mint := deposited_le s _
  have owes : s.owed (user.pubkey, mint) ≤ s.owedIn mint := owed_le s _
  rw [settled.paid] at covered owes
  exact leave_goes (ReachableBy.reachable settled.reached) lender (Nat.le_zero.mp owes) (by omega)
    found quoted settled.converts

theorem Settled.after (settled : Settled rt s mint priceUpdate price)
    (left : leave rt mint priceUpdate s user = .ok s') :
    Settled rt s' mint priceUpdate price ∧ s'.deposited (user.pubkey, mint) = 0 ∧
      ∀ other, other ≠ user → s'.deposited (other.pubkey, mint) = s.deposited (other.pubkey, mint) ∧
        (WalletUsable s other mint → WalletUsable s' other mint) := by
  have reached := ReachableBy.reachable settled.reached
  have step : Step rt s (.withdraw user mint priceUpdate [] (s.depositOf user mint)) s' := left
  obtain ⟨market, found, quoted⟩ := settled.quoted
  obtain ⟨draw⟩ := withdraw_draw.mp left
  obtain ⟨touch⟩ := withdraw_touch left
  have redrawn := draw.redrawn
  have stand : DebtsStand s (.withdraw user mint priceUpdate [] (s.depositOf user mint)) := trivial
  refine ⟨⟨.next settled.reached stand step, ?_, ?_, settled.converts⟩, leave_empties left, ?_⟩
  · have owed := touch.owedIn reached.linked step redrawn.clock
    have same := touch.books.2.1
    rw [same, settled.paid] at owed
    omega
  · obtain ⟨market', found', advanced⟩ := step_market reached.linked step found
    obtain ⟨update, loaded, priced⟩ := quotes_iff.mp quoted
    have feed : market'.feedId = market.feedId := congrArg MarketTerms.feedId advanced.terms
    refine ⟨market', found', quotes_iff.mpr ⟨update, redrawn.loadPriceUpdate loaded, ?_⟩⟩
    rw [feed, redrawn.clock, priced]
  · intro other distinct
    have apart : other.pubkey ≠ user.pubkey := fun same => distinct (Signer.pubkey_injective same)
    have kept := redrawn.positions (other.pubkey, mint) (by simp [apart])
    have wallet := redrawn.tokens (.associatedToken other.pubkey mint) (by simp) (by simp [apart])
    simp only [State.deposited, WalletUsable, Tokens.identityAt, kept, wallet]
    exact ⟨trivial, id⟩

/-- Lenders leave one after the other, and none of them holds up the next. -/
theorem leaving_round : Round (leave rt mint priceUpdate) (· ≠ ·)
    (fun s => Settled rt s mint priceUpdate price) (Lender · mint)
    fun s user => s.deposited (user.pubkey, mint) = 0 where
  symm := Ne.symm
  goes settled lender := settled.leaves lender
  inv settled _ left := (settled.after left).1
  settles settled _ left := (settled.after left).2.1
  spares := by
    intro s first s' settled _ left user distinct
    obtain ⟨deposit, wallet⟩ := (settled.after left).2.2 user distinct.symm
    exact ⟨fun lender => ⟨by rw [deposit]; exact lender.lends, wallet lender.wallet⟩,
      deposit.trans⟩

/-- However many lenders there are and in whatever order they come, each leaves with the
whole deposit. -/
theorem lenders_leave (settled : Settled rt s mint priceUpdate price) {lenders : List Signer}
    (once : lenders.Nodup) (lent : ∀ user ∈ lenders, Lender s mint user) :
    ∃ s', lenders.foldlM (leave rt mint priceUpdate) s = .ok s' ∧
      ∀ user ∈ lenders, s'.deposited (user.pubkey, mint) = 0 := by
  obtain ⟨s', ran, _, emptied, _⟩ := leaving_round.runs once settled lent
  exact ⟨s', ran, emptied⟩

end Steps

def paidBack : State :=
  replay devnet DebtsStand .empty (indebted 4000000000000 ++
    [.claimFaucet mallory usdc.pubkey, .supply mallory usdc.pubkey 50000000000000,
      .claimFaucet alice usdc.pubkey, reach 1000100 10000000000,
      .repay alice usdc.pubkey 50000000000000])

theorem lenders_leave_usdc :
    ∃ s', [mallory, bob].foldlM (leave devnet usdc.pubkey usdcPrice) paidBack = .ok s' ∧
      ∀ user ∈ [mallory, bob], s'.deposited (user.pubkey, usdc.pubkey) = 0 := by
  have listed : ∃ market, paidBack.markets.lookup usdc.pubkey = some market ∧
      market.feedId = usdcFeed := some_where (by decide +kernel)
  obtain ⟨market, found, feed⟩ := listed
  have quotes : Quotes devnet paidBack usdcPrice usdcFeed (dollars 100000000) :=
    quotes_of_read (by decide +kernel)
  have settled : Settled devnet paidBack usdc.pubkey usdcPrice (dollars 100000000) :=
    ⟨replay_reaches (.start rfl) _, by decide +kernel, ⟨market, found, feed ▸ quotes⟩,
      ⟨_, rfl, by decide⟩⟩
  have lender (user : Signer) (lends : 0 < paidBack.deposited (user.pubkey, usdc.pubkey))
      (wallet : paidBack.tokens.identityAt (.associatedToken user.pubkey usdc.pubkey) =
        some (usdc.pubkey, user.pubkey)) : Lender paidBack usdc.pubkey user :=
    ⟨lends, fun identity held => Option.some.inj (held.symm.trans wallet)⟩
  apply lenders_leave settled (by decide)
  simp only [List.forall_mem_cons, List.not_mem_nil, false_implies, implies_true, and_true]
  exact ⟨lender mallory (by decide +kernel) (by decide +kernel),
    lender bob (by decide +kernel) (by decide +kernel)⟩

end ShadowLend
