import ShadowLend.Accounting
import ShadowLend.Devnet

/-! What a liquidation leaves in the store. The collateral copies are written back
last, so the collateral side always stands; the debt side stands when nothing is
written over it and the loan counter holds the repayment. -/

namespace ShadowLend

open Outcome Devnet

/-- A market and a position of the borrower in it, as they are stored. -/
structure Stored (s : State) (user mint : Pubkey) (market : Market) (position : Position) :
    Prop where
  market : s.markets.lookup mint = some market
  position : s.positions.lookup (user, mint) = some position

theorem Stored.unique {s : State} {user mint : Pubkey} {market market' : Market}
    {position position' : Position} (stored : Stored s user mint market position)
    (stored' : Stored s user mint market' position') : market = market' ∧ position = position' :=
  ⟨Table.lookup_unique stored.market stored'.market,
    Table.lookup_unique stored.position stored'.position⟩

/-- The amounts a liquidation moves and the transfers that move them. -/
structure Moves (s : State) (accounts : LiquidateAccounts) (repaid seized : U64) (s' : State) :
    Prop where
  transfers : ∃ middle,
    transferTokens s.tokens accounts.liquidatorDebtAta (.vault accounts.debtMint)
      accounts.liquidator.pubkey repaid = .ok middle ∧
    transferTokens middle (.vault accounts.collateralMint) accounts.liquidatorCollateralAta
      (.authority accounts.collateralMint) seized = .ok s'.tokens
  recorded : s'.events = s.events ++ [.liquidation accounts.liquidator.pubkey accounts.borrower
    accounts.debtMint accounts.collateralMint repaid seized]

def DebtSettled (s : State) (accounts : LiquidateAccounts) (repaid : U64) (s' : State) : Prop :=
  ∃ market position market' position',
    Stored s accounts.borrower accounts.debtMint market position ∧
    Stored s' accounts.borrower accounts.debtMint market' position' ∧
    position'.borrowed.val + repaid.val =
      (accruePosition position (accrueMarket market s.clock)).borrowed.val ∧
    market'.totalBorrowed.val + repaid.val = market.totalBorrowed.val

def CollateralSettled (s : State) (accounts : LiquidateAccounts) (seized : U64) (s' : State) :
    Prop :=
  ∃ market position market' position',
    Stored s accounts.borrower accounts.collateralMint market position ∧
    Stored s' accounts.borrower accounts.collateralMint market' position' ∧
    position'.supplied.val + seized.val = position.supplied.val ∧
    market'.totalSupplied.val + seized.val = market.totalSupplied.val

/-- Two markets, and a repayment within what the debt market has on its counter. -/
def Separable (s : State) (accounts : LiquidateAccounts) (repayAmount : U64) : Prop :=
  accounts.debtMint ≠ accounts.collateralMint ∧
    ∀ market position, Stored s accounts.borrower accounts.debtMint market position →
      min repayAmount.val (accruePosition position (accrueMarket market s.clock)).borrowed.val ≤
        market.totalBorrowed.val

section Runs

variable {rt : Runtime} {s s' : State} {accounts : LiquidateAccounts}
variable {remaining : List Pubkey} {repayAmount : U64}
variable (run : LiquidateRun rt s accounts remaining repayAmount s')
include run

theorem LiquidateRun.stored_debt :
    Stored s accounts.borrower accounts.debtMint run.ctx.debtMarket run.ctx.debtPosition := by
  have loaded := Liquidate.load_ok run.loaded
  exact ⟨loaded.debtMarket, loaded.debtPosition⟩

theorem LiquidateRun.stored_collateral :
    Stored s accounts.borrower accounts.collateralMint run.ctx.collateralMarket
      run.ctx.collateralPosition := by
  have loaded := Liquidate.load_ok run.loaded
  exact ⟨loaded.collateralMarket, loaded.collateralPosition⟩

theorem LiquidateRun.moves : Moves s accounts run.actualRepay run.seize s' := by
  have loaded := Liquidate.load_ok run.loaded
  constructor
  · refine ⟨run.repaid, run.paidIn, ?_⟩
    exact run.paidOut.trans (congrArg (fun t : State => Except.ok t.tokens) run.result).symm
  · refine (congrArg State.events run.result).trans ?_
    rw [run.accruedDebtMarket, run.accruedCollateralMarket, accrueMarket_mint, accrueMarket_mint,
      loaded.debtNamed, loaded.collateralNamed]
    rfl

theorem LiquidateRun.left_collateral :
    Stored s' accounts.borrower accounts.collateralMint
      (run.collateralMarket.rebalance run.collateralBalances)
      (run.collateralPosition.rebalance run.collateralBalances) := by
  constructor
  · rw [run.markets, Finmap.lookup_insert]
  · rw [run.positions, Finmap.lookup_insert]

theorem LiquidateRun.left_debt (distinct : accounts.debtMint ≠ accounts.collateralMint) :
    Stored s' accounts.borrower accounts.debtMint (run.debtMarket.rebalance run.debtBalances)
      (run.debtPosition.rebalance run.debtBalances) := by
  constructor
  · rw [run.markets, Finmap.lookup_insert_of_ne _ distinct, Finmap.lookup_insert]
  · rw [run.positions, Finmap.lookup_insert_of_ne _ (by simpa using distinct),
      Finmap.lookup_insert]

theorem LiquidateRun.repay_val :
    run.actualRepay.val = min repayAmount.val run.debtPosition.borrowed.val := by
  rw [run.capped, Uint.val_least]

/-- Both subtractions of a seizure are exact, whichever markets it names. -/
theorem LiquidateRun.collateral_settled (reached : Reachable rt s) :
    CollateralSettled s accounts run.seize s' := by
  refine ⟨_, _, _, _, run.stored_collateral, run.left_collateral, ?_, ?_⟩
  · have bound := run.seize_le
    have same : run.collateralPosition.supplied = run.ctx.collateralPosition.supplied := by
      rw [run.accruedCollateralPosition, accruePosition_supplied]
    simp only [Position.rebalance, LiquidateRun.collateralBalances, Uint.val_saturatingSub]
    rw [← same]
    omega
  · have bound := run.seize_le.trans run.accruedCollateral.supplied_le
    have balanced := Reachable.balanced reached accounts.collateralMint
    have booked := run.accruedCollateral.totalSupplied
    have same : run.collateralMarket.totalSupplied = run.ctx.collateralMarket.totalSupplied := by
      rw [run.accruedCollateralMarket, accrueMarket_totalSupplied]
    simp only [Pool.Balanced, State.pool] at balanced
    simp only [Market.rebalance, LiquidateRun.collateralBalances, Uint.val_saturatingSub]
    rw [← same]
    omega

theorem LiquidateRun.repay_pos : 0 < run.actualRepay.val := by
  have positive := run.positive
  have owes := run.owes
  rw [run.repay_val]
  omega

/-- When both sides name one position, the copy that carries the repayment is lost. -/
theorem LiquidateRun.debt_unsettled (same : accounts.debtMint = accounts.collateralMint) :
    ¬ DebtSettled s accounts run.actualRepay s' := by
  rintro ⟨market, position, market', position', stored, stored', borrowed, _⟩
  have before := run.stored_collateral
  have after := run.left_collateral
  rw [← same] at before after
  rcases stored.unique before with ⟨rfl, rfl⟩
  rcases stored'.unique after with ⟨rfl, rfl⟩
  have kept : (run.collateralPosition.rebalance run.collateralBalances).borrowed =
      (accruePosition run.ctx.collateralPosition
        (accrueMarket run.ctx.collateralMarket s.clock)).borrowed := by
    rw [← run.accruedCollateralMarket, ← run.accruedCollateralPosition]
    rfl
  rw [kept] at borrowed
  have positive := run.repay_pos
  omega

theorem LiquidateRun.debt_settled_iff :
    DebtSettled s accounts run.actualRepay s' ↔ Separable s accounts repayAmount := by
  have accrued : (accruePosition run.ctx.debtPosition
      (accrueMarket run.ctx.debtMarket s.clock)).borrowed = run.debtPosition.borrowed := by
    rw [← run.accruedDebtMarket, ← run.accruedDebtPosition]
  have counter : run.debtMarket.totalBorrowed = run.ctx.debtMarket.totalBorrowed := by
    rw [run.accruedDebtMarket, accrueMarket_totalBorrowed]
  have amount := run.repay_val
  have bound := run.repay_le
  constructor
  · intro settled
    refine ⟨fun same => run.debt_unsettled same settled, ?_⟩
    rcases settled with ⟨market, position, market', position', stored, _, _, total⟩
    intro market₂ position₂ stored₂
    rcases stored.unique stored₂ with ⟨rfl, rfl⟩
    rcases stored.unique run.stored_debt with ⟨rfl, rfl⟩
    rw [accrued]
    omega
  · rintro ⟨distinct, covered⟩
    have enough := covered _ _ run.stored_debt
    refine ⟨_, _, _, _, run.stored_debt, run.left_debt distinct, ?_, ?_⟩
    · simp only [Position.rebalance, LiquidateRun.debtBalances, Uint.val_saturatingSub, accrued]
      omega
    · simp only [Market.rebalance, LiquidateRun.debtBalances, Uint.val_saturatingSub]
      rw [accrued] at enough
      rw [counter]
      omega

omit run in
/-- A liquidation is booked in full exactly when it names two markets and the debt
market's counter holds the repayment. -/
theorem liquidation_settled_iff (reached : Reachable rt s)
    (ran : liquidate rt s accounts remaining repayAmount = .ok s') :
    ∃ repaid seized, Moves s accounts repaid seized s' ∧
      (DebtSettled s accounts repaid s' ∧ CollateralSettled s accounts seized s' ↔
        Separable s accounts repayAmount) := by
  rcases liquidate_ok ran with ⟨run⟩
  refine ⟨run.actualRepay, run.seize, run.moves, ?_⟩
  rw [run.debt_settled_iff, and_iff_left (run.collateral_settled reached)]

end Runs

def fallen : State := ledger (indebted 8000000000000 ++ [reach 100 9000000000])

theorem fallen_liquidated :
    ∃ s', liquidate devnet fallen (bobSeizes sol solPrice) [] 1000000000000 = .ok s' ∧
      s'.borrowedIn usdc.pubkey = 7000000000000 := ok_where (by decide +kernel)

theorem liquidation_settled_iff_usdc :
    ∃ s', liquidate devnet fallen (bobSeizes sol solPrice) [] 1000000000000 = .ok s' ∧
      ∃ repaid seized, Moves fallen (bobSeizes sol solPrice) repaid seized s' ∧
        (DebtSettled fallen (bobSeizes sol solPrice) repaid s' ∧
            CollateralSettled fallen (bobSeizes sol solPrice) seized s' ↔
          Separable fallen (bobSeizes sol solPrice) 1000000000000) := by
  rcases fallen_liquidated with ⟨s', ran, _⟩
  exact ⟨s', ran, liquidation_settled_iff (ledger_reachable _) ran⟩

/-- Alice also supplied 1000 USDC to the position she owes from, and SOL is at a dollar. -/
def bothSides : State :=
  ledger (indebted 8000000000000 ++
    [.supply alice usdc.pubkey 1000000000000, reach 100 100000000])

/-- Bob pays 500 USDC and takes 525, and the debt is what it was. -/
theorem repayment_lost :
    ∃ s' repaid seized, Reachable devnet bothSides ∧
      liquidate devnet bothSides (bobSeizes usdc usdcPrice) (listed alice sol solPrice)
        500000000000 = .ok s' ∧
      Moves bothSides (bobSeizes usdc usdcPrice) repaid seized s' ∧ 0 < repaid.val ∧
      bothSides.borrowedIn usdc.pubkey = 8000000000000 ∧
      s'.borrowedIn usdc.pubkey = 8000000000000 ∧
      ¬ DebtSettled bothSides (bobSeizes usdc usdcPrice) repaid s' := by
  have ran : ∃ s', liquidate devnet bothSides (bobSeizes usdc usdcPrice)
      (listed alice sol solPrice) 500000000000 = .ok s' ∧
        s'.borrowedIn usdc.pubkey = 8000000000000 := ok_where (by decide +kernel)
  rcases ran with ⟨s', ran, after⟩
  rcases liquidate_ok ran with ⟨run⟩
  exact ⟨s', run.actualRepay, run.seize, ledger_reachable _, ran, run.moves, run.repay_pos,
    by decide +kernel, after, run.debt_unsettled rfl⟩

end ShadowLend
