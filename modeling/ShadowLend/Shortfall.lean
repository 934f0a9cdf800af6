import ShadowLend.Agreement
import ShadowLend.Rounding
import ShadowLend.Settlement

/-! What a liquidation does to the borrower's shortfall. The repayment takes its exact
value off the debt, and the seizure takes off the collateral no more than that value
with the bonus, which only the collateral's loan-to-value brings below it again. -/

namespace ShadowLend

open Outcome Devnet

/-- The exact debt of a position, less its exact collateral at the loan-to-value. The
prices are by mint, as two markets may share a feed and be priced by two accounts. -/
def State.shortfallOf (s : State) (prices : Pubkey → Price) (key : Pubkey × Pubkey)
    (position : Position) : ℚ :=
  exactUsd (s.debtNow key position) (prices key.2) position.decimals -
    exactUsd position.supplied (prices key.2) position.decimals * position.maxLtvBps.val / 10000

def State.shortfallShare (s : State) (prices : Pubkey → Price) (user : Pubkey)
    (key : Pubkey × Pubkey) (position : Position) : ℚ :=
  if key.1 = user then s.shortfallOf prices key position else 0

def State.shortfall (s : State) (prices : Pubkey → Price) (user : Pubkey) : ℚ :=
  s.positions.total (s.shortfallShare prices user)

section Seizures

variable {repay supplied seize : U64} {debtPrice collatPrice : Price} {decimals decimals' : U8}

/-- A repayment without value buys nothing, and a price that is not positive neither. -/
theorem seizeAmount_priced
    (ran : seizeAmount repay debtPrice collatPrice decimals decimals' supplied = .ok seize)
    (something : 0 < seize.val) :
    0 < debtPrice.price.toInt ∧ 0 < collatPrice.price.toInt := by
  rcases seizeAmount_ok.mp ran with ⟨value, valued, bought, buys, capped⟩
  have some_bought : 0 < bought.val := by omega
  have priced' : 0 < collatPrice.price.toInt := by
    by_contra worthless
    rw [usd8dpToToken_worthless (not_lt.mp worthless), Except.ok.injEq] at buys
    exact some_bought.ne (congrArg Fin.val buys)
  have converts' := (usd8dpToToken_ok_iff priced').mp ⟨bought, buys⟩
  refine ⟨?_, priced'⟩
  by_contra worthless
  have nothing : value.val = 0 := by
    rw [← usdValue_of_ok valued]
    exact usdValue_worthless (tokenUsd8dp_ok_iff.mp ⟨value, valued⟩) (not_lt.mp worthless)
  have bonus : (bonusValue value).val = 0 := by
    rw [val_bonusValue, nothing, Nat.zero_mul, Nat.zero_min]
  rw [usd8dpToToken_eq converts' priced', bonus, boughtAmount_zero, Except.ok.injEq] at buys
  exact some_bought.ne (congrArg Fin.val buys)

/-- The seizure is worth at most the repayment with the bonus, whatever it was capped to. -/
theorem seizeAmount_worth
    (ran : seizeAmount repay debtPrice collatPrice decimals decimals' supplied = .ok seize)
    (something : 0 < seize.val) (wide : -38 ≤ debtPrice.scale decimals) :
    exactUsd seize collatPrice decimals' ≤ 21 / 20 * exactUsd repay debtPrice decimals := by
  rcases seizeAmount_priced ran something with ⟨priced, priced'⟩
  rcases seizeAmount_ok.mp ran with ⟨value, valued, bought, buys, capped⟩
  have converts := tokenUsd8dp_ok_iff.mp ⟨value, valued⟩
  have converts' := (usd8dpToToken_ok_iff priced').mp ⟨bought, buys⟩
  have repaid : (value.val : ℚ) ≤ exactUsd repay debtPrice decimals := by
    have truncated : (usdValue repay debtPrice decimals : ℚ) ≤ _ := usdValue_le_exact converts wide
    rwa [usdValue_of_ok valued, max_eq_left (exactUsd_nonneg priced)] at truncated
  have least : seize.val ≤ bought.val := capped.trans_le (min_le_right _ _)
  have bonus : (bonusValue value).val ≤ value.val * 10500 / 10000 :=
    Nat.div_le_div_right (min_le_left _ _)
  have below : (bonusValue value).val < 2 ^ 128 - 1 := by
    rw [val_bonusValue]
    omega
  calc
    exactUsd seize collatPrice decimals' ≤ exactUsd bought collatPrice decimals' :=
      exactUsd_mono priced' least
    _ ≤ (bonusValue value).val := bought_le_value converts' buys below
    _ ≤ ((value.val * 10500 / 10000 : ℕ) : ℚ) := Nat.cast_le.mpr bonus
    _ ≤ value.val * 10500 / 10000 := by exact_mod_cast Nat.cast_div_le
    _ = 21 / 20 * value.val := by ring
    _ ≤ 21 / 20 * exactUsd repay debtPrice decimals :=
      mul_le_mul_of_nonneg_left repaid (by norm_num)

end Seizures

section Runs

variable {rt : Runtime} {s s' : State} {accounts : LiquidateAccounts}
variable {remaining : List Pubkey} {repayAmount : U64} {prices : Pubkey → Price}

section Sides

variable (run : LiquidateRun rt s accounts remaining repayAmount s')

theorem LiquidateRun.shortfallOf_debt (distinct : accounts.debtMint ≠ accounts.collateralMint)
    (prices : Pubkey → Price) :
    s'.shortfallOf prices (accounts.borrower, accounts.debtMint)
        (run.debtPosition.rebalance run.debtBalances) =
      s.shortfallOf prices (accounts.borrower, accounts.debtMint) run.ctx.debtPosition -
        exactUsd run.actualRepay (prices accounts.debtMint) run.debtPosition.decimals := by
  have owed : s.debtNow (accounts.borrower, accounts.debtMint) run.ctx.debtPosition =
      run.debtPosition.borrowed := by
    rw [run.accruedDebtPosition, run.accruedDebtMarket]
    exact debtNow_of_lookup run.stored_debt.market _
  have left : s'.debtNow (accounts.borrower, accounts.debtMint)
      (run.debtPosition.rebalance run.debtBalances) = run.debtBalances.borrowed :=
    run.accruedDebt.debtNow_written run.clock _ (run.left_debt distinct).market _
  have split : run.debtBalances.borrowed.val + run.actualRepay.val =
      run.debtPosition.borrowed.val := by
    have bound := run.repay_le
    simp only [LiquidateRun.debtBalances, Uint.val_saturatingSub]
    omega
  rw [State.shortfallOf, State.shortfallOf, owed, left, ← exactUsd_add split]
  simp only [Position.rebalance, LiquidateRun.debtBalances, run.accruedDebtPosition,
    accruePosition_supplied, accruePosition_decimals, accruePosition_maxLtvBps]
  ring

theorem LiquidateRun.shortfallOf_collateral (prices : Pubkey → Price) :
    s'.shortfallOf prices (accounts.borrower, accounts.collateralMint)
        (run.collateralPosition.rebalance run.collateralBalances) =
      s.shortfallOf prices (accounts.borrower, accounts.collateralMint)
          run.ctx.collateralPosition +
        exactUsd run.seize (prices accounts.collateralMint) run.collateralPosition.decimals *
          run.collateralPosition.maxLtvBps.val / 10000 := by
  have owed : s.debtNow (accounts.borrower, accounts.collateralMint) run.ctx.collateralPosition =
      run.collateralPosition.borrowed := by
    rw [run.accruedCollateralPosition, run.accruedCollateralMarket]
    exact debtNow_of_lookup run.stored_collateral.market _
  have left : s'.debtNow (accounts.borrower, accounts.collateralMint)
      (run.collateralPosition.rebalance run.collateralBalances) =
        run.collateralBalances.borrowed :=
    run.accruedCollateral.debtNow_written run.clock _ run.left_collateral.market _
  have split : run.collateralBalances.supplied.val + run.seize.val =
      run.ctx.collateralPosition.supplied.val := by
    have bound := run.seize_le
    have same : run.collateralPosition.supplied = run.ctx.collateralPosition.supplied := by
      rw [run.accruedCollateralPosition, accruePosition_supplied]
    rw [same] at bound
    simp only [LiquidateRun.collateralBalances, Uint.val_saturatingSub, same]
    omega
  rw [State.shortfallOf, State.shortfallOf, owed, left, ← exactUsd_add split]
  simp only [Position.rebalance, LiquidateRun.collateralBalances, run.accruedCollateralPosition,
    accruePosition_supplied, accruePosition_decimals, accruePosition_maxLtvBps]
  ring

end Sides

theorem LiquidateRun.shortfallOf_kept (linked : Linked rt s)
    (ran : liquidate rt s accounts remaining repayAmount = .ok s')
    (run : LiquidateRun rt s accounts remaining repayAmount s') (prices : Pubkey → Price)
    {key : Pubkey × Pubkey} {position : Position}
    (found : s'.positions.lookup key = some position) :
    s'.shortfallOf prices key position = s.shortfallOf prices key position := by
  have present : ∃ market, s.markets.lookup key.2 = some market := by
    by_cases collateral : key = (accounts.borrower, accounts.collateralMint)
    · rw [collateral]
      exact ⟨_, run.stored_collateral.market⟩
    · by_cases debt : key = (accounts.borrower, accounts.debtMint)
      · rw [debt]
        exact ⟨_, run.stored_debt.market⟩
      · rw [run.positions, Finmap.lookup_insert_of_ne _ collateral,
          Finmap.lookup_insert_of_ne _ debt] at found
        exact position_market linked found
  rcases present with ⟨market, present⟩
  have step : Step rt s (.liquidate accounts remaining repayAmount) s' := ran
  rw [State.shortfallOf, State.shortfallOf, step_debtNow linked step run.clock present position]

/-- Nothing but the two main positions moves the shortfall. -/
theorem LiquidateRun.shortfall_moves (linked : Linked rt s)
    (ran : liquidate rt s accounts remaining repayAmount = .ok s')
    (run : LiquidateRun rt s accounts remaining repayAmount s')
    (distinct : accounts.debtMint ≠ accounts.collateralMint) (prices : Pubkey → Price) :
    s'.shortfall prices accounts.borrower =
      s.shortfall prices accounts.borrower -
          exactUsd run.actualRepay (prices accounts.debtMint) run.debtPosition.decimals +
        exactUsd run.seize (prices accounts.collateralMint) run.collateralPosition.decimals *
            run.collateralPosition.maxLtvBps.val / 10000 := by
  have apart : (accounts.borrower, accounts.collateralMint) ≠
      (accounts.borrower, accounts.debtMint) := by
    intro same
    exact distinct (congrArg Prod.snd same).symm
  have measured : s'.shortfall prices accounts.borrower =
      s'.positions.total (s.shortfallShare prices accounts.borrower) := by
    apply Table.total_congr
    intro key position found
    rw [State.shortfallShare, State.shortfallShare, run.shortfallOf_kept linked ran prices found]
  have debtSide := run.shortfallOf_debt distinct prices
  have collateralSide := run.shortfallOf_collateral prices
  rw [run.shortfallOf_kept linked ran prices (run.left_debt distinct).position] at debtSide
  rw [run.shortfallOf_kept linked ran prices run.left_collateral.position] at collateralSide
  have first := Table.total_insert s.positions (s.shortfallShare prices accounts.borrower)
    (accounts.borrower, accounts.debtMint) (run.debtPosition.rebalance run.debtBalances)
  have second := Table.total_insert
    (s.positions.insert (accounts.borrower, accounts.debtMint)
      (run.debtPosition.rebalance run.debtBalances))
    (s.shortfallShare prices accounts.borrower) (accounts.borrower, accounts.collateralMint)
    (run.collateralPosition.rebalance run.collateralBalances)
  rw [Table.share_of_lookup run.stored_debt.position] at first
  rw [Table.share_insert_other _ _ _ apart, Table.share_of_lookup run.stored_collateral.position]
    at second
  simp only [State.shortfallShare, if_true] at first second
  rw [measured, run.positions, State.shortfall]
  linarith

theorem LiquidateRun.debt_decimals (linked : Linked rt s)
    (run : LiquidateRun rt s accounts remaining repayAmount s') :
    run.debtPosition.decimals = mintDecimals := by
  rw [run.accruedDebtPosition, accruePosition_decimals]
  exact (stored_terms linked run.stored_debt.position run.stored_debt.market).2.2

theorem LiquidateRun.collateral_terms (linked : Linked rt s)
    (run : LiquidateRun rt s accounts remaining repayAmount s') :
    run.collateralPosition.decimals = mintDecimals ∧
      run.collateralPosition.maxLtvBps = run.ctx.collateralMarket.maxLtvBps := by
  rw [run.accruedCollateralPosition, accruePosition_decimals, accruePosition_maxLtvBps]
  have terms := stored_terms linked run.stored_collateral.position run.stored_collateral.market
  exact ⟨terms.2.2, terms.2.1⟩

theorem LiquidateRun.prices_eq (run : LiquidateRun rt s accounts remaining repayAmount s')
    {debtPrice collatPrice : Price}
    (debtQuoted : Quotes rt s accounts.debtPriceUpdate run.ctx.debtMarket.feedId debtPrice)
    (collateralQuoted :
      Quotes rt s accounts.collateralPriceUpdate run.ctx.collateralMarket.feedId collatPrice) :
    run.debtPrice = debtPrice ∧ run.collatPrice = collatPrice := by
  have loaded := Liquidate.load_ok run.loaded
  exact ⟨debtQuoted.price_eq loaded.debtPriced run.debt_read,
    collateralQuoted.price_eq loaded.collateralPriced run.collateral_read⟩

theorem LiquidateRun.seize_worth (linked : Linked rt s)
    (run : LiquidateRun rt s accounts remaining repayAmount s')
    (wide : -38 ≤ run.debtPrice.scale mintDecimals) :
    exactUsd run.seize run.collatPrice mintDecimals ≤
      21 / 20 * exactUsd run.actualRepay run.debtPrice mintDecimals := by
  have seized := run.seized
  rw [run.debt_decimals linked, (run.collateral_terms linked).1] at seized
  exact seizeAmount_worth seized run.something wide

theorem shortfall_bound {before after repaid seized : ℚ} {maxLtvBps : U16}
    (moves : after = before - repaid + seized * maxLtvBps.val / 10000)
    (worth : seized ≤ 21 / 20 * repaid) :
    after ≤ before + (10500 * maxLtvBps.val / 10 ^ 8 - 1) * repaid := by
  have weighted := mul_le_mul_of_nonneg_right worth
    (Nat.cast_nonneg maxLtvBps.val : (0 : ℚ) ≤ maxLtvBps.val)
  linarith

theorem bonus_covered {repaid : ℚ} {maxLtvBps : U16} (repays : 0 ≤ repaid)
    (low : maxLtvBps.val ≤ 9523) : (10500 * maxLtvBps.val / 10 ^ 8 - 1) * repaid ≤ 0 := by
  have bound : (maxLtvBps.val : ℚ) ≤ 9523 := by exact_mod_cast low
  apply mul_nonpos_of_nonpos_of_nonneg ?_ repays
  linarith

end Runs

/-- A liquidation raises the borrower's shortfall by no more than what the weighted
bonus adds to the repayment, which is nothing up to 9523 basis points. -/
theorem liquidation_shortfall {rt : Runtime} {s s' : State} (reached : Reachable rt s)
    {accounts : LiquidateAccounts} (distinct : accounts.debtMint ≠ accounts.collateralMint)
    {remaining : List Pubkey} {repayAmount : U64}
    (ran : liquidate rt s accounts remaining repayAmount = .ok s')
    {debtMarket collateralMarket : Market}
    (debtListed : s.markets.lookup accounts.debtMint = some debtMarket)
    (collateralListed : s.markets.lookup accounts.collateralMint = some collateralMarket)
    {prices : Pubkey → Price} (positive : ∀ mint, 0 < (prices mint).price.toInt)
    (debtQuoted : Quotes rt s accounts.debtPriceUpdate debtMarket.feedId
      (prices accounts.debtMint))
    (collateralQuoted : Quotes rt s accounts.collateralPriceUpdate collateralMarket.feedId
      (prices accounts.collateralMint))
    (wide : -38 ≤ (prices accounts.debtMint).scale mintDecimals) :
    ∃ repaid seized, Moves s accounts repaid seized s' ∧
      s'.shortfall prices accounts.borrower ≤ s.shortfall prices accounts.borrower +
        (10500 * collateralMarket.maxLtvBps.val / 10 ^ 8 - 1) *
          exactUsd repaid (prices accounts.debtMint) mintDecimals ∧
      (collateralMarket.maxLtvBps.val ≤ 9523 →
        s'.shortfall prices accounts.borrower ≤ s.shortfall prices accounts.borrower) := by
  rcases liquidate_ok ran with ⟨run⟩
  have linked := reached.linked
  rcases Table.lookup_unique run.stored_debt.market debtListed with rfl
  rcases Table.lookup_unique run.stored_collateral.market collateralListed with rfl
  have used := run.prices_eq debtQuoted collateralQuoted
  have worth := run.seize_worth linked (by rw [used.1]; exact wide)
  have moves := run.shortfall_moves linked ran distinct prices
  rw [used.1, used.2] at worth
  rw [run.debt_decimals linked, (run.collateral_terms linked).1,
    (run.collateral_terms linked).2] at moves
  have grows := shortfall_bound moves worth
  refine ⟨run.actualRepay, run.seize, run.moves, grows, ?_⟩
  intro low
  have repays : 0 ≤ exactUsd run.actualRepay (prices accounts.debtMint) mintDecimals :=
    exactUsd_nonneg (positive _)
  exact grows.trans (add_le_of_nonpos_right (bonus_covered repays low))

def loanPrices (solUsd : Int64) (mint : Pubkey) : Price :=
  if mint = usdc.pubkey then dollars 100000000 else dollars solUsd

theorem loanPrices_pos {solUsd : Int64} (positive : 0 < solUsd.toInt) (mint : Pubkey) :
    0 < (loanPrices solUsd mint).price.toInt := by
  unfold loanPrices
  split
  · decide
  · exact positive

theorem liquidation_shortfall_usdc :
    ∃ market s', fallen.markets.lookup sol.pubkey = some market ∧ market.maxLtvBps.val ≤ 9523 ∧
      liquidate devnet fallen (bobSeizes sol solPrice) [] 1000000000000 = .ok s' ∧
      s'.shortfall (loanPrices 9000000000) alice.pubkey ≤
        fallen.shortfall (loanPrices 9000000000) alice.pubkey := by
  have debtMarket : ∃ market, fallen.markets.lookup usdc.pubkey = some market ∧
      market.feedId = usdcFeed := some_where (by decide +kernel)
  have collateralMarket : ∃ market, fallen.markets.lookup sol.pubkey = some market ∧
      market.feedId = solFeed ∧ market.maxLtvBps.val ≤ 9523 := some_where (by decide +kernel)
  rcases fallen_liquidated with ⟨s', ran, _⟩
  rcases debtMarket with ⟨debtMarket, debtListed, debtFeed⟩
  rcases collateralMarket with ⟨market, listed, feed, low⟩
  have debtQuoted : Quotes devnet fallen usdcPrice debtMarket.feedId
      (loanPrices 9000000000 usdc.pubkey) := by
    rw [debtFeed]
    exact quotes_of_read (by decide +kernel)
  have quoted : Quotes devnet fallen solPrice market.feedId
      (loanPrices 9000000000 sol.pubkey) := by
    rw [feed]
    exact quotes_of_read (by decide +kernel)
  have bounded := liquidation_shortfall (ledger_reachable _) (by decide) ran debtListed listed
    (loanPrices_pos (by decide)) debtQuoted quoted (by decide)
  rcases bounded with ⟨_, _, _, _, falls⟩
  exact ⟨market, s', listed, low, ran, falls low⟩

def steep : State :=
  ledger ([reach 100 10000000000,
      .initializeMarket admin sol 1000000000000 9999 solFeed 12683916794,
      .initializeMarket admin usdc 50000000000000 8500 usdcFeed 25367833587] ++
    deposits ++ openPosition alice usdc usdcPrice ++
    [borrowUsdc 9000000000000, reach 100 9000000000])

/-- Bob repays 1000 USDC, and Alice is short of about 50 dollars more. -/
theorem liquidation_raises_shortfall :
    ∃ debtMarket collateralMarket s', Reachable devnet steep ∧
      steep.markets.lookup usdc.pubkey = some debtMarket ∧
      steep.markets.lookup sol.pubkey = some collateralMarket ∧ usdc.pubkey ≠ sol.pubkey ∧
      (∀ mint, 0 < (loanPrices 9000000000 mint).price.toInt) ∧
      Quotes devnet steep usdcPrice debtMarket.feedId (loanPrices 9000000000 usdc.pubkey) ∧
      Quotes devnet steep solPrice collateralMarket.feedId (loanPrices 9000000000 sol.pubkey) ∧
      liquidate devnet steep (bobSeizes sol solPrice) [] 1000000000000 = .ok s' ∧
      steep.shortfall (loanPrices 9000000000) alice.pubkey <
        s'.shortfall (loanPrices 9000000000) alice.pubkey := by
  have ran : ∃ s', liquidate devnet steep (bobSeizes sol solPrice) [] 1000000000000 = .ok s' ∧
      steep.shortfall (loanPrices 9000000000) alice.pubkey <
        s'.shortfall (loanPrices 9000000000) alice.pubkey := ok_where (by decide +kernel)
  have debtMarket : ∃ market, steep.markets.lookup usdc.pubkey = some market ∧
      market.feedId = usdcFeed := some_where (by decide +kernel)
  have collateralMarket : ∃ market, steep.markets.lookup sol.pubkey = some market ∧
      market.feedId = solFeed := some_where (by decide +kernel)
  rcases ran with ⟨s', ran, more⟩
  rcases debtMarket with ⟨debtMarket, debtListed, debtFeed⟩
  rcases collateralMarket with ⟨market, listed, feed⟩
  refine ⟨debtMarket, market, s', ledger_reachable _, debtListed, listed, by decide,
    loanPrices_pos (by decide), ?_, ?_, ran, more⟩
  · rw [debtFeed]
    exact quotes_of_read (by decide +kernel)
  · rw [feed]
    exact quotes_of_read (by decide +kernel)

end ShadowLend
