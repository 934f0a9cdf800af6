import ShadowLend.Accounting
import ShadowLend.Devnet
import ShadowLend.Owing

/-! What a market is worth to its lenders: its vault and all debts as they are by
now, less all deposits. Whoever does what, it never falls but by a debt that time
cuts off. -/

namespace ShadowLend

open Outcome Devnet

/-- All debts of a market, each restated to the slot. -/
def State.owedIn (s : State) (mint : Pubkey) : ℕ :=
  s.positions.total fun key position =>
    if key.2 = mint then (s.debtNow key position).val else 0

def State.equity (s : State) (mint : Pubkey) : ℤ :=
  s.cash mint + s.owedIn mint - s.suppliedIn mint

/-- The passage of time leaves no debt smaller than it was. -/
def DebtsStand (s : State) (a : Action) : Prop :=
  match a with
  | .environment clock _ => ∀ key position, s.positions.lookup key = some position →
      (s.debtNow key position).val ≤ ({ s with clock := clock }.debtNow key position).val
  | _ => True

instance (s : State) (a : Action) : Decidable (DebtsStand s a) := by
  unfold DebtsStand
  split <;> infer_instance

def currentDebt (market : Market) (clock : Clock) (position : Position) : ℕ :=
  (accruePosition position (accrueMarket market clock)).borrowed.val

section Steps

variable {rt : Runtime} {s s' : State} {a : Action} {mint : Pubkey}

theorem owedIn_listed {market : Market} (found : s.markets.lookup mint = some market) :
    s.owedIn mint = s.positions.total (inMarket (currentDebt market s.clock) mint) := by
  apply Table.total_congr
  rintro ⟨user, other⟩ position _
  rw [inMarket]
  split
  · rename_i here
    rw [debtNow_of_lookup (by rw [here, found])]
    rfl
  · rfl

theorem total_unlisted (linked : Linked rt s) (unlisted : s.markets.lookup mint = none)
    (worth : Pubkey × Pubkey → Position → ℕ) :
    (s.positions.total fun key position => if key.2 = mint then worth key position else 0) = 0 := by
  rw [Table.total_eq_zero_iff]
  intro key position held
  split
  · rename_i here
    obtain ⟨market, found⟩ := position_market linked held
    rw [here, unlisted] at found
    cases found
  · rfl

/-- The debts before and after a step within a slot, as sums of one amount. -/
theorem owedIn_within (linked : Linked rt s) (step : Step rt s a s') (clock : s'.clock = s.clock)
    {market : Market} (found : s.markets.lookup mint = some market) :
    s'.owedIn mint = s'.positions.total (inMarket (currentDebt market s.clock) mint) := by
  obtain ⟨market', found', advanced⟩ := step_market linked step found
  rw [owedIn_listed found', clock]
  apply Table.total_congr
  intro key position _
  simp only [inMarket, currentDebt, accruePosition_index advanced.index_now]

theorem owedIn_kept (linked : Linked rt s) (step : Step rt s a s') (clock : s'.clock = s.clock)
    (positions : s'.positions = s.positions) : s'.owedIn mint = s.owedIn mint := by
  rw [State.owedIn, positions]
  apply Table.total_congr
  intro key position held
  obtain ⟨market, found⟩ := position_market linked held
  rw [step_debtNow linked step clock found]

theorem suppliedIn_kept (positions : s'.positions = s.positions) :
    s'.suppliedIn mint = s.suppliedIn mint := by
  rw [State.suppliedIn, positions]
  rfl

theorem Accrued.share_restated {user : Pubkey} {market stored : Market} {position : Position}
    (accrued : Accrued s user mint market position)
    (found : s.markets.lookup mint = some stored) :
    s.positions.share (inMarket (currentDebt stored s.clock) mint) (user, mint) =
      position.borrowed.val := by
  obtain ⟨stored', found', rfl⟩ := accrued.ofMarket
  obtain rfl := Table.lookup_unique found found'
  obtain ⟨old, held, rfl⟩ | ⟨absent, _, nothing, _⟩ := accrued.ofPosition
  · rw [Table.share_of_lookup held, inMarket, if_pos rfl]
    rfl
  · rw [Table.share_of_absent absent, nothing]

theorem Accrued.restated_written {user : Pubkey} {market stored : Market} {position : Position}
    (accrued : Accrued s user mint market position)
    (found : s.markets.lookup mint = some stored) (b : Balances) :
    currentDebt stored s.clock (position.rebalance b) = b.borrowed.val := by
  obtain ⟨stored', found', same⟩ := accrued.ofMarket
  obtain rfl := Table.lookup_unique found found'
  have fresh : (position.rebalance b).borrowIndexSnapshotE18.val =
      (accrueMarket stored s.clock).borrowIndexE18.val := by
    rw [← same]
    exact congrArg Fin.val accrued.restated
  rw [currentDebt, accruePosition_fresh _ _ fresh]
  rfl

/-- Writes to positions of other markets leave the debts of this one alone. -/
theorem owedIn_elsewhere (linked : Linked rt s) (step : Step rt s a s')
    (clock : s'.clock = s.clock)
    (unlisted : s.markets.lookup mint = none → s'.markets.lookup mint = none)
    (totals : ∀ amount, s'.positions.total (inMarket amount mint) =
      s.positions.total (inMarket amount mint)) : s'.owedIn mint = s.owedIn mint := by
  cases found : s.markets.lookup mint with
  | none =>
      rw [State.owedIn, State.owedIn, total_unlisted linked found,
        total_unlisted (linked.step step) (unlisted found)]
  | some market => rw [owedIn_within linked step clock found, owedIn_listed found, totals]

theorem equity_congr (cash : s'.cash mint = s.cash mint) (owed : s'.owedIn mint = s.owedIn mint)
    (supplied : s'.suppliedIn mint = s.suppliedIn mint) : s'.equity mint = s.equity mint := by
  rw [State.equity, State.equity, cash, owed, supplied]

theorem Touch.owedIn (linked : Linked rt s) (step : Step rt s a s') (clock : s'.clock = s.clock)
    {kind : MarketActionKind} {user : Signer} (touch : Touch s kind user mint s') :
    s'.owedIn mint + touch.position.borrowed.val =
      s.owedIn mint + touch.balances.borrowed.val := by
  obtain ⟨stored, found, _⟩ := touch.accrued.ofMarket
  rw [owedIn_within linked step clock found, owedIn_listed found, touch.positions,
    ← touch.accrued.share_restated found,
    ← touch.accrued.restated_written found touch.balances]
  exact total_inMarket_self _ _

/-- Supplying, withdrawing, borrowing and repaying exchange tokens for claims. -/
theorem Touch.equity (linked : Linked rt s) (step : Step rt s a s') (clock : s'.clock = s.clock)
    {kind : MarketActionKind} {user : Signer} {touched : Pubkey}
    (touch : Touch s kind user touched s') (mint : Pubkey) : s'.equity mint = s.equity mint := by
  by_cases here : mint = touched
  · subst touched
    have owed := touch.owedIn linked step clock
    have supplied : s'.suppliedIn mint + touch.position.supplied.val =
        s.suppliedIn mint + touch.balances.supplied.val := by
      rw [State.suppliedIn, touch.positions, ← touch.accrued.share_supplied]
      exact total_inMarket_self _ _
    have books := touch.books
    simp only [State.equity]
    cases kind with
    | supply =>
        obtain ⟨deposit, debt, _, _, cash⟩ := books
        rw [debt] at owed
        omega
    | withdraw =>
        obtain ⟨deposit, debt, _, _, cash⟩ := books
        rw [debt] at owed
        omega
    | borrow =>
        obtain ⟨_, deposit, debt, _, _, cash⟩ := books
        rw [deposit] at supplied
        omega
    | repay =>
        obtain ⟨deposit, debt, _, _, cash⟩ := books
        rw [deposit] at supplied
        omega
  · have totals (amount : Position → ℕ) : s'.positions.total (inMarket amount mint) =
        s.positions.total (inMarket amount mint) := by
      rw [touch.positions, total_inMarket_other amount _ (Ne.symm here)]
    refine equity_congr (touch.elsewhere mint here) ?_ (totals _)
    apply owedIn_elsewhere linked step clock _ totals
    intro unlisted
    rw [touch.markets, Finmap.lookup_insert_of_ne _ here, unlisted]

section Liquidations

variable {accounts : LiquidateAccounts} {remaining : List Pubkey} {repayAmount : U64}

/-- A seizure takes a deposit and as much cash; the repayment of a debt whose copy is
overwritten is a gift. -/
theorem LiquidateRun.collateral_equity (linked : Linked rt s) (step : Step rt s a s')
    (run : LiquidateRun rt s accounts remaining repayAmount s') :
    s'.equity accounts.collateralMint = s.equity accounts.collateralMint +
      if accounts.collateralMint = accounts.debtMint then run.actualRepay.val else 0 := by
  have clock := run.clock
  obtain ⟨stored, found, _⟩ := run.accruedCollateral.ofMarket
  have cash := run.cash linked accounts.collateralMint
  have owed := run.collateral_total (currentDebt stored s.clock)
  have supplied := run.collateral_total fun p => p.supplied.val
  have seize := run.seize_le
  have mine := run.accruedCollateral.supplied_le
  have left : (run.collateralPosition.rebalance run.collateralBalances).supplied.val =
      run.collateralPosition.supplied.val - run.seize.val := Uint.val_saturatingSub _ _
  rw [run.accruedCollateral.share_supplied, left] at supplied
  rw [run.accruedCollateral.share_restated found,
    run.accruedCollateral.restated_written found run.collateralBalances,
    ← owedIn_within linked step clock found, ← owedIn_listed found] at owed
  have kept : run.collateralBalances.borrowed = run.collateralPosition.borrowed := rfl
  rw [kept] at owed
  rw [if_pos rfl] at cash
  simp only [State.equity, State.suppliedIn] at *
  split at cash <;> rename_i same <;> simp only [same, if_true, if_false] at * <;> omega

theorem LiquidateRun.debt_equity (linked : Linked rt s) (step : Step rt s a s')
    (run : LiquidateRun rt s accounts remaining repayAmount s')
    (distinct : accounts.debtMint ≠ accounts.collateralMint) :
    s'.equity accounts.debtMint = s.equity accounts.debtMint := by
  have clock := run.clock
  obtain ⟨stored, found, _⟩ := run.accruedDebt.ofMarket
  have cash := run.cash linked accounts.debtMint
  have owed := run.debt_total distinct (currentDebt stored s.clock)
  have supplied := run.debt_total distinct fun p => p.supplied.val
  have repaid := run.repay_le
  have kept : (run.debtPosition.rebalance run.debtBalances).supplied.val =
      run.debtPosition.supplied.val := rfl
  have less : run.debtBalances.borrowed.val =
      run.debtPosition.borrowed.val - run.actualRepay.val := Uint.val_saturatingSub _ _
  rw [run.accruedDebt.share_supplied, kept] at supplied
  rw [run.accruedDebt.share_restated found,
    run.accruedDebt.restated_written found run.debtBalances, less,
    ← owedIn_within linked step clock found, ← owedIn_listed found] at owed
  rw [if_pos rfl, if_neg distinct] at cash
  simp only [State.equity, State.suppliedIn] at *
  omega

theorem LiquidateRun.equity_le (linked : Linked rt s) (step : Step rt s a s')
    (run : LiquidateRun rt s accounts remaining repayAmount s') (mint : Pubkey) :
    s.equity mint ≤ s'.equity mint := by
  by_cases atCollateral : mint = accounts.collateralMint
  · rw [atCollateral, run.collateral_equity linked step]
    exact Int.le_add_of_nonneg_right (Int.natCast_nonneg _)
  · by_cases atDebt : mint = accounts.debtMint
    · subst mint
      exact (run.debt_equity linked step atCollateral).ge
    · have totals (amount : Position → ℕ) : s'.positions.total (inMarket amount mint) =
          s.positions.total (inMarket amount mint) := by
        rw [run.positions, total_inMarket_other amount _ (Ne.symm atCollateral),
          total_inMarket_other amount _ (Ne.symm atDebt)]
      have cash := run.cash linked mint
      rw [if_neg atCollateral, if_neg atDebt] at cash
      apply le_of_eq
      refine (equity_congr cash ?_ (totals _)).symm
      apply owedIn_elsewhere linked step run.clock _ totals
      intro unlisted
      rw [run.markets, Finmap.lookup_insert_of_ne _ atCollateral,
        Finmap.lookup_insert_of_ne _ atDebt, unlisted]

end Liquidations

/-- No step costs the lenders of a market anything, unless time cuts a debt off. -/
theorem step_equity (linked : Linked rt s) (step : Step rt s a s') (stand : DebtsStand s a)
    (mint : Pubkey) : s.equity mint ≤ s'.equity mint := by
  obtain clock | ⟨clock, foreign, rfl, _, rfl⟩ := step_clock step
  · cases step_effect linked step with
    | quiet markets positions cash =>
        have grown := cash mint
        have owed : s'.owedIn mint = s.owedIn mint := owedIn_kept linked step clock positions
        have supplied : s'.suppliedIn mint = s.suppliedIn mint := suppliedIn_kept positions
        simp only [State.equity]
        omega
    | opened opened market fresh index empty markets positions cash =>
        exact (equity_congr (cash mint) (owedIn_kept linked step clock positions)
          (suppliedIn_kept positions)).ge
    | adjusted adjusted market amountPerClaim claimCount found markets positions cash =>
        exact (equity_congr (cash mint) (owedIn_kept linked step clock positions)
          (suppliedIn_kept positions)).ge
    | touched kind user touched acts touch => exact (touch.equity linked step clock mint).ge
    | liquidated accounts remaining repayAmount acts run => exact run.equity_le linked step mint
  · have owed : s.owedIn mint ≤
        ({ s with clock := clock, foreign := foreign } : State).owedIn mint := by
      apply Table.total_le_total
      intro key
      cases held : s.positions.lookup key with
      | none =>
          rw [Table.share_of_absent held]
          exact Nat.zero_le _
      | some position =>
          rw [Table.share_of_lookup held, Table.share_of_lookup held]
          split
          · exact stand key position held
          · exact le_rfl
    have grown : (s.owedIn mint : ℤ) ≤
        ({ s with clock := clock, foreign := foreign } : State).owedIn mint := by
      exact_mod_cast owed
    exact sub_le_sub_right (add_le_add_right grown _) _

theorem Leads.equity_le (later : Leads rt DebtsStand s s') (linked : Linked rt s)
    (mint : Pubkey) : s.equity mint ≤ s'.equity mint := by
  have law : Linked rt s → s.equity mint ≤ s'.equity mint ∧ Linked rt s' := by
    apply later.frame (R := fun s s' => Linked rt s → s.equity mint ≤ s'.equity mint ∧ Linked rt s')
    · exact fun s linked => ⟨le_rfl, linked⟩
    · intro s s' s'' first second linked
      obtain ⟨grown, linked'⟩ := first linked
      obtain ⟨grown', linked''⟩ := second linked'
      exact ⟨grown.trans grown', linked''⟩
    · exact fun s a s' stand step linked => ⟨step_equity linked step stand mint, linked.step step⟩
  exact (law linked).1

theorem deposits_covered (reached : ReachableBy rt DebtsStand s) (mint : Pubkey) :
    s.suppliedIn mint ≤ s.cash mint + s.owedIn mint := by
  have begins : Reachable rt State.empty := .start rfl
  have grown := Leads.equity_le reached begins.linked mint
  have nothing : State.empty.equity mint = 0 := by
    simp [State.equity, State.cash, State.owedIn, State.suppliedIn, State.empty, Tokens.amountAt]
  rw [nothing, State.equity] at grown
  omega

/-- Whatever sequence of instructions by whatever wallets, in whatever slots: as long as
time cuts no debt off, the lenders of a market are never worse off. -/
theorem equity_never_falls (reached : Reachable rt s) (later : Leads rt DebtsStand s s')
    (mint : Pubkey) : s.equity mint ≤ s'.equity mint :=
  later.equity_le reached.linked mint

end Steps

def interestEarned : State :=
  replay devnet DebtsStand (ledger (indebted 4000000000000))
    [reach 1000100 10000000000, .withdraw bob usdc.pubkey usdcPrice [] 30000000000000,
      .repay alice usdc.pubkey 5]

theorem equity_never_falls_usdc :
    (ledger (indebted 4000000000000)).equity usdc.pubkey ≤ interestEarned.equity usdc.pubkey ∧
      (ledger (indebted 4000000000000)).equity usdc.pubkey = 0 ∧
      interestEarned.equity usdc.pubkey = 101471334348 := by
  refine ⟨equity_never_falls (ledger_reachable _) (replay_leads devnet DebtsStand _ _) _, ?_, ?_⟩
  · decide +kernel
  · decide +kernel

end ShadowLend
