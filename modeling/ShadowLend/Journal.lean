import ShadowLend.Faucet
import ShadowLend.Owing

/-! The log of events as a reader outside the ledger sees it. Playing it from its
start tells every deposit, every claim and every user's counters, and each debt since
the last time a liquidation changed it. -/

namespace ShadowLend

open Outcome Devnet

@[ext] structure Tally where
  proofs : ℕ
  supplies : ℕ
  borrows : ℕ
  repays : ℕ
  liquidations : ℕ
  lastHealth : ℕ
  lastAt : Option Int64

def Tally.empty : Tally := ⟨0, 0, 0, 0, 0, 0, none⟩

def Tally.record (t : Tally) (kind : ActionKind) (healthBps : U16) (at_ : Int64) : Tally where
  proofs := t.proofs + 1
  supplies := t.supplies + if kind = .supply then 1 else 0
  borrows := t.borrows + if kind = .borrow then 1 else 0
  repays := t.repays + if kind = .repay then 1 else 0
  liquidations := t.liquidations + if kind = .liquidation then 1 else 0
  lastHealth := if 0 < healthBps.val then healthBps.val else t.lastHealth
  lastAt := some at_

/-- Stats nobody has acted on carry the time they were created, not of an action. -/
def UserStats.tally (stats : UserStats) : Tally where
  proofs := stats.proofsSubmitted.val
  supplies := stats.supplies.val
  borrows := stats.borrows.val
  repays := stats.repays.val
  liquidations := stats.liquidations.val
  lastHealth := stats.lastHealthBps.val
  lastAt := if stats.proofsSubmitted.val = 0 then none else some stats.lastActionAt

def State.tally (s : State) (user : Pubkey) : Tally :=
  (s.stats.lookup user).elim .empty UserStats.tally

/-- What the log has told of a ledger so far. A debt is unknown after a liquidation,
whose event does not say what interest had accrued. -/
structure Mirror where
  deposits : Pubkey × Pubkey → ℕ
  debts : Pubkey × Pubkey → Option ℕ
  claims : Pubkey × Pubkey → Option (U64 × Int64)
  tallies : Pubkey → Tally

def Mirror.empty : Mirror := ⟨fun _ => 0, fun _ => some 0, fun _ => none, fun _ => .empty⟩

def Mirror.play (m : Mirror) : Event → Mirror
  | .faucetClaimed user mint amount claimedAt =>
      { m with claims := Function.update m.claims (user, mint) (some (amount, claimedAt)) }
  | .marketAction user mint _ supplied borrowed =>
      { m with
        deposits := Function.update m.deposits (user, mint) supplied.val
        debts := Function.update m.debts (user, mint) (some borrowed.val) }
  | .actionRecorded user kind healthBps at_ =>
      { m with tallies := Function.update m.tallies user ((m.tallies user).record kind healthBps at_) }
  | .liquidation _ borrower debtMint collateralMint _ seized =>
      { m with
        deposits := Function.update m.deposits (borrower, collateralMint)
          (m.deposits (borrower, collateralMint) - seized.val)
        debts := Function.update (Function.update m.debts (borrower, debtMint) none)
          (borrower, collateralMint) none }

def State.recordedDebt (s : State) (key : Pubkey × Pubkey) : ℕ :=
  (s.positions.lookup key).elim 0 fun position => position.borrowed.val

structure Mirrors (m : Mirror) (s : State) : Prop where
  deposits : ∀ key, m.deposits key = s.deposited key
  debts : ∀ key debt, m.debts key = some debt → s.recordedDebt key = debt
  claims : ∀ key, m.claims key =
    (s.receipts.lookup key).map fun receipt => (receipt.amount, receipt.claimedAt)
  tallies : ∀ user, m.tallies user = s.tally user

section Steps

variable {rt : Runtime} {s s' : State} {m : Mirror}

/-- The news of a step: the events it appends. -/
def Tells (m : Mirror) (s s' : State) : Prop :=
  ∃ news, s'.events = s.events ++ news ∧ Mirrors (news.foldl Mirror.play m) s'

theorem tells_nothing (mirrors : Mirrors m s) (events : s'.events = s.events)
    (positions : s'.positions = s.positions) (receipts : s'.receipts = s.receipts)
    (stats : s'.stats = s.stats) : Tells m s s' := by
  refine ⟨[], by rw [events, List.append_nil], ?_, ?_, ?_, ?_⟩
  · intro key
    rw [State.deposited, positions]
    exact mirrors.deposits key
  · intro key debt known
    rw [State.recordedDebt, positions]
    exact mirrors.debts key debt known
  · intro key
    rw [receipts]
    exact mirrors.claims key
  · intro user
    rw [State.tally, stats]
    exact mirrors.tallies user

theorem deposited_insert {positions : Table (Pubkey × Pubkey) Position} {key : Pubkey × Pubkey}
    {position : Position} (written : s'.positions = positions.insert key position)
    (other : Pubkey × Pubkey) :
    s'.deposited other =
      if other = key then position.supplied.val
      else (positions.lookup other).elim 0 fun position => position.supplied.val := by
  rw [State.deposited, written]
  split
  · rename_i here
    rw [here, Finmap.lookup_insert]
    rfl
  · rename_i elsewhere
    rw [Finmap.lookup_insert_of_ne _ elsewhere]

theorem recordedDebt_insert {positions : Table (Pubkey × Pubkey) Position}
    {key : Pubkey × Pubkey} {position : Position}
    (written : s'.positions = positions.insert key position) (other : Pubkey × Pubkey) :
    s'.recordedDebt other =
      if other = key then position.borrowed.val
      else (positions.lookup other).elim 0 fun position => position.borrowed.val := by
  rw [State.recordedDebt, written]
  split
  · rename_i here
    rw [here, Finmap.lookup_insert]
    rfl
  · rename_i elsewhere
    rw [Finmap.lookup_insert_of_ne _ elsewhere]

/-- A market action is logged with the two amounts it leaves in the position. -/
theorem writeBack_tells (mirrors : Mirrors m s) {user mint named : Pubkey} {market : Market}
    {position : Position} {tokens : Tokens} {kind : MarketActionKind} (same : named = mint)
    (result : s' = s.writeBack user mint market position tokens
      (.marketAction user named kind position.supplied position.borrowed)) : Tells m s s' := by
  subst same
  have written : s'.positions = s.positions.insert (user, named) position :=
    congrArg State.positions result
  have receipts : s'.receipts = s.receipts := by
    rw [result]
    rfl
  have stats : s'.stats = s.stats := by
    rw [result]
    rfl
  refine ⟨_, congrArg State.events result, ?_, ?_, ?_, ?_⟩
  · intro key
    rw [deposited_insert written]
    simp only [List.foldl_cons, List.foldl_nil, Mirror.play, Function.update_apply]
    split
    · rfl
    · exact mirrors.deposits key
  · intro key debt known
    simp only [List.foldl_cons, List.foldl_nil, Mirror.play, Function.update_apply] at known
    rw [recordedDebt_insert written]
    split at known
    · rename_i here
      rw [if_pos here]
      exact Option.some.inj known
    · rename_i elsewhere
      rw [if_neg elsewhere]
      exact mirrors.debts key debt known
  · intro key
    rw [receipts]
    exact mirrors.claims key
  · intro user
    rw [State.tally, stats]
    exact mirrors.tallies user

theorem claimFaucet_tells (mirrors : Mirrors m s) {user : Signer} {mint : Pubkey}
    (ran : claimFaucet rt s user mint = .ok s') : Tells m s s' := by
  obtain ⟨run⟩ := claimFaucet_ok ran
  have named := run.named
  rw [run.result]
  refine ⟨_, rfl, mirrors.deposits, mirrors.debts, ?_, mirrors.tallies⟩
  intro key
  simp only [List.foldl_cons, List.foldl_nil, Mirror.play, Function.update_apply, named]
  split
  · rename_i here
    rw [here, Finmap.lookup_insert]
    rfl
  · rename_i elsewhere
    rw [Finmap.lookup_insert_of_ne _ elsewhere]
    exact mirrors.claims key

/-- A liquidation leaves the supplied amount of its debt position as it was. -/
theorem liquidate_tells (mirrors : Mirrors m s) {accounts : LiquidateAccounts}
    {remaining : List Pubkey} {repayAmount : U64}
    (ran : liquidate rt s accounts remaining repayAmount = .ok s') : Tells m s s' := by
  obtain ⟨run⟩ := liquidate_ok ran
  have debt := run.accruedDebt.deposited (accounts.borrower, accounts.debtMint)
  have collateral := run.accruedCollateral.deposited (accounts.borrower, accounts.collateralMint)
  have seized : (run.collateralPosition.rebalance run.collateralBalances).supplied.val =
      run.collateralPosition.supplied.val - run.seize.val := Uint.val_saturatingSub _ _
  have loaded := Liquidate.load_ok run.loaded
  have debtNamed : run.debtMarket.mint = accounts.debtMint := by
    rw [run.accruedDebtMarket, accrueMarket_mint, loaded.debtNamed]
  have collateralNamed : run.collateralMarket.mint = accounts.collateralMint := by
    rw [run.accruedCollateralMarket, accrueMarket_mint, loaded.collateralNamed]
  have written := run.positions
  have receipts : s'.receipts = s.receipts := by
    rw [run.result]
    rfl
  have stats : s'.stats = s.stats := by
    rw [run.result]
    rfl
  refine ⟨_, congrArg State.events run.result, ?_, ?_, ?_, ?_⟩
  · intro key
    rw [deposited_insert written, seized]
    simp only [List.foldl_cons, List.foldl_nil, Mirror.play, Function.update_apply, collateralNamed,
      mirrors.deposits]
    split
    · rw [collateral]
    · by_cases atDebt : key = (accounts.borrower, accounts.debtMint)
      · rw [atDebt, Finmap.lookup_insert, debt]
        rfl
      · rw [Finmap.lookup_insert_of_ne _ atDebt]
        rfl
  · intro key debt known
    simp only [List.foldl_cons, List.foldl_nil, Mirror.play, Function.update_apply, debtNamed,
      collateralNamed] at known
    rw [recordedDebt_insert written]
    split at known
    · cases known
    · rename_i elsewhere
      rw [if_neg elsewhere]
      split at known
      · cases known
      · rename_i notDebt
        rw [Finmap.lookup_insert_of_ne _ notDebt]
        exact mirrors.debts key debt known
  · intro key
    rw [receipts]
    exact mirrors.claims key
  · intro user
    rw [State.tally, stats]
    exact mirrors.tallies user

/-- New stats count nothing, and take the place of none. -/
theorem initUserStats_tells (mirrors : Mirrors m s) {user : Signer}
    (ran : initUserStats rt s user = .ok s') : Tells m s s' := by
  simp only [initUserStats, bind_ok, require_ok, pure_ok, Option.isNone_iff_eq_none] at ran
  obtain ⟨_, absent, rfl⟩ := ran
  refine ⟨[], (List.append_nil _).symm, mirrors.deposits, mirrors.debts, mirrors.claims, ?_⟩
  intro other
  rw [List.foldl_nil, mirrors.tallies other, State.tally, State.tally]
  by_cases here : other = user.pubkey
  · rw [here, absent, Finmap.lookup_insert]
    rfl
  · rw [Finmap.lookup_insert_of_ne _ here]

theorem countAction_tally {stats counted : UserStats} {kind : ActionKind} {healthBps : U16}
    {proofs : U64} {at_ : Int64} (grown : increment stats.proofsSubmitted = .ok proofs)
    (ran : countAction
      { stats with
        lastActionAt := at_
        proofsSubmitted := proofs
        lastHealthBps := if 0 < healthBps.val then healthBps else stats.lastHealthBps } kind =
          .ok counted) :
    counted.tally = stats.tally.record kind healthBps at_ := by
  have one_more (counter more : U64) (ran : increment counter = .ok more) :
      more.val = counter.val + 1 := by
    rwa [increment, okOr_ok, Uint.checkedAdd_eq_some] at ran
  have total := one_more _ _ grown
  have health : (if 0 < healthBps.val then healthBps else stats.lastHealthBps).val =
      if 0 < healthBps.val then healthBps.val else stats.lastHealthBps.val := by
    split <;> rfl
  cases kind <;>
    · simp only [countAction, bind_ok, pure_ok] at ran
      obtain ⟨more, incremented, rfl⟩ := ran
      have counted := one_more _ _ incremented
      simp only [UserStats.tally, Tally.record, total, counted, health, Nat.add_eq_zero_iff,
        one_ne_zero, and_false, reduceCtorEq, if_true, if_false, add_zero]

theorem recordAction_tells (mirrors : Mirrors m s) {user : Signer} {kind : ActionKind}
    {healthBps : U16} (ran : recordAction rt s user kind healthBps = .ok s') : Tells m s s' := by
  simp only [recordAction, bind_ok, okOr_ok, require_ok, pure_ok] at ran
  obtain ⟨stats, found, _, _, _, _, proofs, grown, counted, tallied, rfl⟩ := ran
  refine ⟨_, rfl, mirrors.deposits, mirrors.debts, mirrors.claims, ?_⟩
  intro other
  simp only [List.foldl_cons, List.foldl_nil, Mirror.play, Function.update_apply, mirrors.tallies,
    State.tally]
  by_cases here : other = user.pubkey
  · rw [if_pos here, here, found, Finmap.lookup_insert]
    exact (countAction_tally grown tallied).symm
  · rw [if_neg here, Finmap.lookup_insert_of_ne _ here]

/-- Whatever a step changes of what a log can tell, its events tell. -/
theorem step_tells {a : Action} (mirrors : Mirrors m s) (step : Step rt s a s') : Tells m s s' := by
  cases step_writes step with
  | opened _ _ _ _ _ _ _ run =>
      rw [run.result]
      exact tells_nothing mirrors rfl rfl rfl rfl
  | decreed _ _ _ _ _ _ result =>
      subst result
      exact tells_nothing mirrors rfl rfl rfl rfl
  | claimed user mint acts _ =>
      subst acts
      exact claimFaucet_tells mirrors step
  | moved _ _ _ _ move => exact writeBack_tells mirrors move.named move.result
  | liquidated accounts remaining repayAmount acts _ =>
      subst acts
      exact liquidate_tells mirrors step
  | counted user stats events acts _ _ _ =>
      obtain rfl | ⟨kind, healthBps, rfl⟩ := acts
      · exact initUserStats_tells mirrors step
      · exact recordAction_tells mirrors step
  | held _ _ _ ran =>
      obtain ⟨_, _, rfl⟩ := holderInstruction_frame ran
      exact tells_nothing mirrors rfl rfl rfl rfl
  | passed _ _ _ _ result =>
      subst result
      exact tells_nothing mirrors rfl rfl rfl rfl

theorem mirrors_empty : Mirrors .empty State.empty := by
  refine ⟨fun _ => rfl, ?_, fun _ => rfl, fun _ => rfl⟩
  intro key debt known
  exact Option.some.inj known

theorem Leads.tells {guard : State → Action → Prop} (mirrors : Mirrors m s)
    (later : Leads rt guard s s') : Tells m s s' := by
  apply later.replayed (R := Mirrors) mirrors
  intro s a s' m step mirrors
  exact step_tells mirrors step

theorem Reachable.mirrored (reached : Reachable rt s) :
    Mirrors (s.events.foldl Mirror.play .empty) s := by
  obtain ⟨news, events, mirrors⟩ := Leads.tells mirrors_empty reached
  rw [events]
  exact mirrors

/-- Who reads the events of a ledger from the first to the last knows its deposits, its
claims and its counters, and every debt the log still speaks for. Who knows a ledger
from elsewhere has only the later events to read: none is ever taken back. -/
theorem log_mirrors (reached : Reachable rt s) :
    Mirrors (s.events.foldl Mirror.play .empty) s ∧
      ∀ m s', Mirrors m s → Leads rt (fun _ _ => True) s s' → Tells m s s' :=
  ⟨reached.mirrored, fun _ _ mirrors later => later.tells mirrors⟩

end Steps

def eventful : State :=
  ledger (indebted 8000000000000 ++ [reach 100 9000000000,
    .liquidate (bobSeizes sol solPrice) [] 1000000000000, .initUserStats bob,
    .recordAction bob .liquidation 9500])

theorem eventful_reachable : Reachable devnet eventful := ledger_reachable _

theorem log_mirrors_eventful :
    Mirrors (eventful.events.foldl Mirror.play .empty) eventful ∧
      (eventful.events.foldl Mirror.play .empty).deposits (alice.pubkey, sol.pubkey) =
        88333333334 ∧
      (eventful.events.foldl Mirror.play .empty).debts (alice.pubkey, usdc.pubkey) = none := by
  refine ⟨(log_mirrors eventful_reachable).1, ?_, ?_⟩
  · decide +kernel
  · decide +kernel

end ShadowLend
