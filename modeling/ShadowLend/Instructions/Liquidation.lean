import ShadowLend.Contexts
import ShadowLend.Health
import ShadowLend.Interest

/-! `liquidate`. Its four mutable program accounts are separate copies until
Anchor writes them back, which is where two fields naming one account collide. -/

namespace ShadowLend

open Outcome

/-- What the repaid value plus the bonus buys, capped to the supplied collateral. -/
def seizeAmount (actualRepay : U64) (debtPrice collatPrice : Price)
    (debtDecimals collatDecimals : U8) (supplied : U64) : Except ProgramError U64 := do
  let repayValueUsd ← tokenUsd8dp actualRepay debtPrice debtDecimals
  let seizeValueUsd :=
    (repayValueUsd.saturatingMul (bpsDenominator.saturatingAdd liquidationBonusBps)).div
      bpsDenominator
  let seize ← usd8dpToToken seizeValueUsd collatPrice collatDecimals
  pure (if supplied.val < seize.val then supplied else seize)

def bonusValue (value : U128) : U128 :=
  (value.saturatingMul (bpsDenominator.saturatingAdd liquidationBonusBps)).div bpsDenominator

theorem val_bonusValue (value : U128) :
    (bonusValue value).val = min (value.val * 10500) (2 ^ 128 - 1) / 10000 := rfl

/-- The write-back in field order: debt market, debt position, collateral market,
collateral position. -/
def State.writeBackLiquidation (s : State) (accounts : LiquidateAccounts)
    (debtMarket : Market) (debtPosition : Position) (collateralMarket : Market)
    (collateralPosition : Position) (tokens : Tokens) (event : Event) : State :=
  { s with
    markets := (s.markets.insert accounts.debtMint debtMarket).insert accounts.collateralMint
      collateralMarket
    positions := (s.positions.insert (accounts.borrower, accounts.debtMint) debtPosition).insert
      (accounts.borrower, accounts.collateralMint) collateralPosition
    tokens := tokens
    events := s.events ++ [event] }

def LiquidateAccounts.skipKeys (accounts : LiquidateAccounts) : List Pubkey :=
  [.position accounts.borrower accounts.debtMint,
    .position accounts.borrower accounts.collateralMint]

def liquidate (rt : Runtime) (s : State) (accounts : LiquidateAccounts) (remaining : List Pubkey)
    (repayAmount : U64) : Except ProgramError State := do
  let ctx ← Liquidate.load rt s accounts
  require (0 < repayAmount.val) (.market .zeroAmount)
  let debtMarket := accrueMarket ctx.debtMarket s.clock
  let collateralMarket := accrueMarket ctx.collateralMarket s.clock
  let debtPosition := accruePosition ctx.debtPosition debtMarket
  let collateralPosition := accruePosition ctx.collateralPosition collateralMarket
  require (accounts.liquidator.pubkey ≠ accounts.borrower) (.market .selfLiquidation)
  require (debtPosition.user = accounts.borrower) (.market .badPositionAccount)
  require (collateralPosition.user = accounts.borrower) (.market .badPositionAccount)
  require (0 < debtPosition.borrowed.val) (.market .nothingToLiquidate)
  require (0 < collateralPosition.supplied.val) (.market .nothingToLiquidate)
  let debtPrice ← okOr
    (rt.getPriceNoOlderThan ctx.debtPriceUpdate s.clock maxPriceAgeSec debtMarket.feedId)
    (.market .stalePrice)
  let collatPrice ← okOr
    (rt.getPriceNoOlderThan ctx.collateralPriceUpdate s.clock maxPriceAgeSec
      collateralMarket.feedId)
    (.market .stalePrice)
  let totals ← accumulatePosition debtPosition.supplied debtPosition.borrowed debtPrice
    debtPosition.decimals debtPosition.maxLtvBps .zero
  let totals ← accumulatePosition collateralPosition.supplied collateralPosition.borrowed
    collatPrice collateralPosition.decimals collateralPosition.maxLtvBps totals
  let totals ← accumulateRemainingSkip rt (remaining.map s.accountInfo) accounts.borrower
    accounts.skipKeys s.clock totals
  require (totals.collatAtLtv.val < totals.debt.val) (.market .positionHealthy)
  let actualRepay := repayAmount.least debtPosition.borrowed
  let seize ← seizeAmount actualRepay debtPrice collatPrice debtPosition.decimals
    collateralPosition.decimals collateralPosition.supplied
  require (0 < seize.val) (.market .nothingToLiquidate)
  require (seize.val ≤ ctx.collateralVault.amount.val) (.market .insufficientLiquidity)
  let tokens ← transferTokens s.tokens accounts.liquidatorDebtAta (.vault accounts.debtMint)
    accounts.liquidator.pubkey actualRepay
  let tokens ← transferTokens tokens (.vault accounts.collateralMint)
    accounts.liquidatorCollateralAta (.authority accounts.collateralMint) seize
  pure (s.writeBackLiquidation accounts
    { debtMarket with totalBorrowed := debtMarket.totalBorrowed.saturatingSub actualRepay }
    { debtPosition with borrowed := debtPosition.borrowed.saturatingSub actualRepay }
    { collateralMarket with totalSupplied := collateralMarket.totalSupplied.saturatingSub seize }
    { collateralPosition with supplied := collateralPosition.supplied.saturatingSub seize }
    tokens
    (.liquidation accounts.liquidator.pubkey accounts.borrower debtMarket.mint
      collateralMarket.mint actualRepay seize))

section Runs

variable {rt : Runtime} {s s' : State} {accounts : LiquidateAccounts}
variable {remaining : List Pubkey} {repayAmount : U64}

section Seizures

variable {actualRepay : U64} {debtPrice collatPrice : Price} {debtDecimals collatDecimals : U8}
variable {supplied seize : U64}

theorem seizeAmount_ok :
    seizeAmount actualRepay debtPrice collatPrice debtDecimals collatDecimals supplied =
        .ok seize ↔
      ∃ value, tokenUsd8dp actualRepay debtPrice debtDecimals = .ok value ∧
        ∃ bought, usd8dpToToken (bonusValue value) collatPrice collatDecimals = .ok bought ∧
          seize.val = min supplied.val bought.val := by
  have capped (bought : U64) :
      (if supplied.val < bought.val then supplied else bought) = seize ↔
        seize.val = min supplied.val bought.val := by
    rw [← Fin.val_inj]
    split <;> omega
  simp only [seizeAmount, bind_ok, pure_ok, capped, bonusValue]

theorem seizeAmount_le
    (ran : seizeAmount actualRepay debtPrice collatPrice debtDecimals collatDecimals supplied =
      .ok seize) : seize.val ≤ supplied.val := by
  rcases seizeAmount_ok.mp ran with ⟨_, _, bought, _, capped⟩
  omega

end Seizures

/-- The markets and positions are the copies after accrual. -/
structure LiquidateRun (rt : Runtime) (s : State) (accounts : LiquidateAccounts)
    (remaining : List Pubkey) (repayAmount : U64) (s' : State) where
  ctx : Liquidate
  debtMarket : Market
  debtPosition : Position
  collateralMarket : Market
  collateralPosition : Position
  debtPrice : Price
  collatPrice : Price
  listed : List Contribution
  totals : Totals
  actualRepay : U64
  seize : U64
  repaid : Tokens
  tokens : Tokens
  loaded : Liquidate.load rt s accounts = .ok ctx
  positive : 0 < repayAmount.val
  accruedDebtMarket : debtMarket = accrueMarket ctx.debtMarket s.clock
  accruedCollateralMarket : collateralMarket = accrueMarket ctx.collateralMarket s.clock
  accruedDebtPosition : debtPosition = accruePosition ctx.debtPosition debtMarket
  accruedCollateralPosition :
    collateralPosition = accruePosition ctx.collateralPosition collateralMarket
  notSelf : accounts.liquidator.pubkey ≠ accounts.borrower
  debtUser : debtPosition.user = accounts.borrower
  collateralUser : collateralPosition.user = accounts.borrower
  owes : 0 < debtPosition.borrowed.val
  holds : 0 < collateralPosition.supplied.val
  debtPriced : rt.getPriceNoOlderThan ctx.debtPriceUpdate s.clock maxPriceAgeSec
    debtMarket.feedId = some debtPrice
  collatPriced : rt.getPriceNoOlderThan ctx.collateralPriceUpdate s.clock maxPriceAgeSec
    collateralMarket.feedId = some collatPrice
  counted : contributions rt (remaining.map s.accountInfo) accounts.borrower
    (fun key => accounts.skipKeys.any (· = key)) s.clock = .ok listed
  summed : accumulateAll
    (debtPosition.contribution (.position accounts.borrower accounts.debtMint) debtPrice
        debtMarket.feedId ::
      collateralPosition.contribution (.position accounts.borrower accounts.collateralMint)
        collatPrice collateralMarket.feedId :: listed) .zero = .ok totals
  unhealthy : totals.collatAtLtv.val < totals.debt.val
  capped : actualRepay = repayAmount.least debtPosition.borrowed
  seized : seizeAmount actualRepay debtPrice collatPrice debtPosition.decimals
    collateralPosition.decimals collateralPosition.supplied = .ok seize
  something : 0 < seize.val
  liquid : seize.val ≤ ctx.collateralVault.amount.val
  paidIn : transferTokens s.tokens accounts.liquidatorDebtAta (.vault accounts.debtMint)
    accounts.liquidator.pubkey actualRepay = .ok repaid
  paidOut : transferTokens repaid (.vault accounts.collateralMint)
    accounts.liquidatorCollateralAta (.authority accounts.collateralMint) seize = .ok tokens
  result : s' = s.writeBackLiquidation accounts
    { debtMarket with totalBorrowed := debtMarket.totalBorrowed.saturatingSub actualRepay }
    { debtPosition with borrowed := debtPosition.borrowed.saturatingSub actualRepay }
    { collateralMarket with totalSupplied := collateralMarket.totalSupplied.saturatingSub seize }
    { collateralPosition with supplied := collateralPosition.supplied.saturatingSub seize }
    tokens
    (.liquidation accounts.liquidator.pubkey accounts.borrower debtMarket.mint
      collateralMarket.mint actualRepay seize)

theorem liquidate_ok (ran : liquidate rt s accounts remaining repayAmount = .ok s') :
    Nonempty (LiquidateRun rt s accounts remaining repayAmount s') := by
  simp only [liquidate, bind_ok, require_ok, okOr_ok, pure_ok] at ran
  obtain ⟨ctx, loaded, _, positive, _, notSelf, _, debtUser, _, collateralUser, _, owes, _, holds,
    debtPrice, debtPriced, collatPrice, collatPriced, first, start, second, next, totals, walked,
    _, unhealthy, seize, seized, _, something, _, liquid, repaid, paidIn, tokens, paidOut,
    rfl⟩ := ran
  generalize accruedDebtMarket : accrueMarket ctx.debtMarket s.clock = debtMarket at *
  generalize accruedCollateralMarket :
    accrueMarket ctx.collateralMarket s.clock = collateralMarket at *
  generalize accruedDebtPosition : accruePosition ctx.debtPosition debtMarket = debtPosition at *
  generalize accruedCollateralPosition :
    accruePosition ctx.collateralPosition collateralMarket = collateralPosition at *
  rcases walkRemaining_ok.mp walked with ⟨listed, counted, rest⟩
  have summed : accumulateAll
      (debtPosition.contribution (.position accounts.borrower accounts.debtMint) debtPrice
          debtMarket.feedId ::
        collateralPosition.contribution (.position accounts.borrower accounts.collateralMint)
          collatPrice collateralMarket.feedId :: listed) .zero = .ok totals :=
    accumulateAll_cons.mpr ⟨first, start, accumulateAll_cons.mpr ⟨second, next, rest⟩⟩
  exact ⟨⟨ctx, debtMarket, debtPosition, collateralMarket, collateralPosition, debtPrice,
    collatPrice, listed, totals, _, seize, repaid, tokens, loaded, positive,
    accruedDebtMarket.symm, accruedCollateralMarket.symm, accruedDebtPosition.symm,
    accruedCollateralPosition.symm, notSelf, debtUser, collateralUser, owes, holds, debtPriced,
    collatPriced, counted, summed, unhealthy, rfl, seized, something, liquid, paidIn, paidOut,
    rfl⟩⟩

theorem LiquidateRun.debt_read (run : LiquidateRun rt s accounts remaining repayAmount s') :
    rt.getPriceNoOlderThan run.ctx.debtPriceUpdate s.clock maxPriceAgeSec
      run.ctx.debtMarket.feedId = some run.debtPrice := by
  have priced := run.debtPriced
  rwa [run.accruedDebtMarket, accrueMarket_feedId] at priced

theorem LiquidateRun.collateral_read (run : LiquidateRun rt s accounts remaining repayAmount s') :
    rt.getPriceNoOlderThan run.ctx.collateralPriceUpdate s.clock maxPriceAgeSec
      run.ctx.collateralMarket.feedId = some run.collatPrice := by
  have priced := run.collatPriced
  rwa [run.accruedCollateralMarket, accrueMarket_feedId] at priced

end Runs

end ShadowLend
