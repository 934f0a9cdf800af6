import ShadowLend.Agreement
import ShadowLend.Rounding
import ShadowLend.Settlement

/-! Whether somebody can liquidate an unhealthy borrower at all. Only a seizure that
rounds to nothing stands in the way, and no repayment seizes more than the whole debt. -/

namespace ShadowLend

open Outcome Devnet

def Liquidate.accruedDebt (ctx : Liquidate) (clock : Clock) : Position :=
  accruePosition ctx.debtPosition (accrueMarket ctx.debtMarket clock)

def Liquidate.accruedCollateral (ctx : Liquidate) (clock : Clock) : Position :=
  accruePosition ctx.collateralPosition (accrueMarket ctx.collateralMarket clock)

def Liquidate.seizes (ctx : Liquidate) (clock : Clock) (debtPrice collatPrice : Price)
    (repay : U64) : Except ProgramError U64 :=
  seizeAmount repay debtPrice collatPrice (ctx.accruedDebt clock).decimals
    (ctx.accruedCollateral clock).decimals (ctx.accruedCollateral clock).supplied

/-- `liquidate` gets as far as finding the borrower unhealthy, whatever is repaid. -/
structure FindsUnhealthy (rt : Runtime) (s : State) (accounts : LiquidateAccounts)
    (remaining : List Pubkey) (ctx : Liquidate) (debtPrice collatPrice : Price) : Prop where
  loaded : Liquidate.load rt s accounts = .ok ctx
  notSelf : accounts.liquidator.pubkey ≠ accounts.borrower
  owes : 0 < (ctx.accruedDebt s.clock).borrowed.val
  holds : 0 < (ctx.accruedCollateral s.clock).supplied.val
  debtPriced : rt.getPriceNoOlderThan ctx.debtPriceUpdate s.clock maxPriceAgeSec
    ctx.debtMarket.feedId = some debtPrice
  collatPriced : rt.getPriceNoOlderThan ctx.collateralPriceUpdate s.clock maxPriceAgeSec
    ctx.collateralMarket.feedId = some collatPrice
  unhealthy : ∃ totals, liquidationTotals rt s accounts (ctx.accruedDebt s.clock) debtPrice
      (ctx.accruedCollateral s.clock) collatPrice remaining = .ok totals ∧
    totals.collatAtLtv.val < totals.debt.val

section Seizing

variable {price debtPrice collatPrice : Price} {decimals decimals' : U8}

theorem usd8dpToToken_mono {value larger : U128} (converts : price.converts decimals)
    (below : value.val ≤ larger.val) {bought : U64}
    (ran : usd8dpToToken value price decimals = .ok bought) :
    ∃ more, usd8dpToToken larger price decimals = .ok more ∧ bought.val ≤ more.val := by
  rcases le_or_gt price.price.toInt 0 with worthless | priced
  · rw [usd8dpToToken_worthless worthless, Except.ok.injEq] at ran
    exact ⟨0, usd8dpToToken_worthless worthless, ran ▸ le_rfl⟩
  · rw [usd8dpToToken_eq converts priced, Except.ok.injEq] at ran
    refine ⟨_, usd8dpToToken_eq converts priced larger, ?_⟩
    rw [← ran, Uint.val_clamp, Uint.val_clamp]
    exact min_le_min_right _ (boughtAmount_mono below)

theorem exists_ok_pos {x : Except ProgramError U64} {result : U64} (ran : x = .ok result) :
    (∃ bought, x = .ok bought ∧ 0 < bought.val) ↔ 0 < result.val := by
  constructor
  · intro paid
    rcases paid with ⟨bought, ran', positive⟩
    rw [ran, Except.ok.injEq] at ran'
    rwa [ran']
  · intro positive
    exact ⟨result, ran, positive⟩

theorem bought_pos_iff {value : U128} (converts : price.converts decimals)
    (wide : -38 ≤ price.scale decimals) (below : value.val < 2 ^ 128 - 1) :
    (∃ bought, usd8dpToToken value price decimals = .ok bought ∧ 0 < bought.val) ↔
      0 < price.price.toInt ∧ exactUsd 1 price decimals ≤ value.val := by
  rcases le_or_gt price.price.toInt 0 with worthless | priced
  · rw [exists_ok_pos (usd8dpToToken_worthless worthless)]
    simp only [not_lt.mpr worthless, false_and, iff_false]
    exact lt_irrefl 0
  · have unit : (1 : U64).val = 1 := rfl
    have factor : 0 < price.price.toInt.toNat := by omega
    simp only [priced, true_and]
    rw [exists_ok_pos (usd8dpToToken_eq converts priced value), Uint.val_clamp]
    rcases le_or_gt 0 (price.scale decimals) with whole | divided
    · have denom : 0 < price.price.toInt.toNat * 10 ^ (price.scale decimals).toNat :=
        Nat.mul_pos factor (Nat.pow_pos (by decide))
      rw [boughtAmount_whole _ whole, exactUsd_whole priced whole, Nat.cast_le, unit, one_mul,
        lt_min_iff, Nat.div_pos_iff]
      omega
    · have fits : price.price.toInt.toNat ≤ 2 ^ 128 - 1 := (positivePart price.price).val_le_max
      have power : 0 < 10 ^ (-price.scale decimals).toNat := Nat.pow_pos (by decide)
      rw [boughtAmount_divided _ divided, checkedPow_places (by omega),
        exactUsd_divided priced divided, div_le_iff₀ (Nat.cast_pos.mpr power), ← Nat.cast_mul,
        Nat.cast_le, unit, one_mul, lt_min_iff, Nat.div_pos_iff]
      omega

theorem seizeAmount_mono {repay larger supplied seize : U64}
    (converts : debtPrice.converts decimals) (converts' : collatPrice.converts decimals')
    (below : repay.val ≤ larger.val)
    (ran : seizeAmount repay debtPrice collatPrice decimals decimals' supplied = .ok seize) :
    ∃ more, seizeAmount larger debtPrice collatPrice decimals decimals' supplied = .ok more ∧
      seize.val ≤ more.val := by
  rcases seizeAmount_ok.mp ran with ⟨value, valued, bought, buys, capped⟩
  have converted : ∃ value', tokenUsd8dp larger debtPrice decimals = .ok value' :=
    tokenUsd8dp_ok_iff.mpr converts
  rcases converted with ⟨value', valued'⟩
  have grows : value.val ≤ value'.val := by
    rw [← usdValue_of_ok valued, ← usdValue_of_ok valued']
    exact usdValue_mono debtPrice decimals below
  have bonus : (bonusValue value).val ≤ (bonusValue value').val :=
    Nat.div_le_div_right (min_le_min_right _ (Nat.mul_le_mul_right _ grows))
  rcases usd8dpToToken_mono converts' bonus buys with ⟨bought', buys', more⟩
  refine ⟨supplied.least bought', seizeAmount_ok.mpr ⟨value', valued', bought', buys', ?_⟩, ?_⟩
  · exact Uint.val_least _ _
  · rw [capped, Uint.val_least]
    exact min_le_min_left _ more

end Seizing

section Transfers

variable {rt : Runtime} {s : State} {accounts : LiquidateAccounts} {ctx : Liquidate}

/-- Both transfers of a liquidation go through: a sum of two accounts of a mint is
within its supply, so neither receiver overflows. -/
theorem liquidation_transfers (reached : Reachable rt s) (loaded : Liquidate.Loaded s accounts ctx)
    (distinct : accounts.debtMint ≠ accounts.collateralMint) {repay seize : U64}
    (funded : repay.val ≤ s.tokens.amountAt accounts.liquidatorDebtAta)
    (liquid : seize.val ≤ ctx.collateralVault.amount.val) :
    ∃ middle after,
      transferTokens s.tokens accounts.liquidatorDebtAta (.vault accounts.debtMint)
        accounts.liquidator.pubkey repay = .ok middle ∧
      transferTokens middle (.vault accounts.collateralMint) accounts.liquidatorCollateralAta
        (.authority accounts.collateralMint) seize = .ok after := by
  have linked := reached.linked
  have debtVault := linked.vault_identity loaded.debtMarket
  have collateralVault := linked.vault_identity loaded.collateralMarket
  have pays := linked.vault_ne loaded.debtAta
  have takes := linked.vault_ne loaded.collateralAta
  have paidIn : ∃ middle, transferTokens s.tokens accounts.liquidatorDebtAta
      (.vault accounts.debtMint) accounts.liquidator.pubkey repay = .ok middle := by
    apply transferTokens_exists loaded.debtAta debtVault (pays _) funded
    have fits := reached.amounts_fit loaded.debtAta debtVault (pays _)
    omega
  rcases paidIn with ⟨middle, paidIn⟩
  have others := (transferTokens_moves paidIn (pays _)).2.2
  have vault : middle.amountAt (.vault accounts.collateralMint) =
      s.tokens.amountAt (.vault accounts.collateralMint) :=
    others _ (pays _).symm (by simpa using distinct.symm)
  have elsewhere : accounts.liquidatorCollateralAta ≠ accounts.liquidatorDebtAta := by
    intro same
    have kinds := loaded.collateralAta
    rw [same, loaded.debtAta, Option.some.injEq] at kinds
    exact distinct (congrArg Prod.fst kinds)
  have ata : middle.amountAt accounts.liquidatorCollateralAta =
      s.tokens.amountAt accounts.liquidatorCollateralAta := others _ elsewhere (takes _)
  have held : s.tokens.amountAt (.vault accounts.collateralMint) =
      ctx.collateralVault.amount.val := amountAt_of_lookup loaded.collateralVault
  have paidOut : ∃ after, transferTokens middle (.vault accounts.collateralMint)
      accounts.liquidatorCollateralAta (.authority accounts.collateralMint) seize = .ok after := by
    have source := (transferTokens_identity paidIn _).trans collateralVault
    have destination := (transferTokens_identity paidIn _).trans loaded.collateralAta
    apply transferTokens_exists source destination (takes _).symm
    · omega
    · have fits := reached.amounts_fit collateralVault loaded.collateralAta (takes _).symm
      omega
  rcases paidOut with ⟨after, paidOut⟩
  exact ⟨middle, after, paidIn, paidOut⟩

end Transfers

section Checks

variable {rt : Runtime} {s s' : State} {accounts : LiquidateAccounts} {remaining : List Pubkey}
variable {ctx : Liquidate} {debtPrice collatPrice : Price} {repayAmount : U64}

theorem FindsUnhealthy.converts
    (finds : FindsUnhealthy rt s accounts remaining ctx debtPrice collatPrice) :
    debtPrice.converts (ctx.accruedDebt s.clock).decimals ∧
      collatPrice.converts (ctx.accruedCollateral s.clock).decimals := by
  rcases finds.unhealthy with ⟨totals, summed, _⟩
  simp only [liquidationTotals, bind_ok] at summed
  rcases summed with ⟨first, debt, second, collateral, _⟩
  exact ⟨accumulatePosition_ok_iff.mp ⟨first, debt⟩,
    accumulatePosition_ok_iff.mp ⟨second, collateral⟩⟩

/-- What any repayment that goes through seizes, the whole debt seizes as well. -/
theorem FindsUnhealthy.whole_seizes
    (finds : FindsUnhealthy rt s accounts remaining ctx debtPrice collatPrice)
    (ran : liquidate rt s accounts remaining repayAmount = .ok s') :
    ∃ seize, ctx.seizes s.clock debtPrice collatPrice (ctx.accruedDebt s.clock).borrowed =
      .ok seize ∧ 0 < seize.val := by
  rcases liquidate_ok ran with ⟨run⟩
  have same : run.ctx = ctx := Except.ok.inj (run.loaded.symm.trans finds.loaded)
  have debtPriced := run.debt_read
  have collatPriced := run.collateral_read
  rw [same, finds.debtPriced, Option.some.injEq] at debtPriced
  rw [same, finds.collatPriced, Option.some.injEq] at collatPriced
  have debt : run.debtPosition = ctx.accruedDebt s.clock := by
    rw [run.accruedDebtPosition, run.accruedDebtMarket, same]
    rfl
  have collateral : run.collateralPosition = ctx.accruedCollateral s.clock := by
    rw [run.accruedCollateralPosition, run.accruedCollateralMarket, same]
    rfl
  have seized := run.seized
  have below := run.repay_le
  rw [← debtPriced, ← collatPriced, debt, collateral] at seized
  rw [debt] at below
  rcases seizeAmount_mono finds.converts.1 finds.converts.2 below seized with ⟨more, whole, grows⟩
  exact ⟨more, whole, run.something.trans_le grows⟩

/-- With the tokens there, repaying the whole debt goes through if it seizes anything. -/
theorem FindsUnhealthy.liquidates (reached : Reachable rt s)
    (finds : FindsUnhealthy rt s accounts remaining ctx debtPrice collatPrice)
    (distinct : accounts.debtMint ≠ accounts.collateralMint)
    (funded : (ctx.accruedDebt s.clock).borrowed.val ≤
      s.tokens.amountAt accounts.liquidatorDebtAta)
    (liquid : (ctx.accruedCollateral s.clock).supplied.val ≤ ctx.collateralVault.amount.val)
    {seize : U64}
    (seizes : ctx.seizes s.clock debtPrice collatPrice (ctx.accruedDebt s.clock).borrowed =
      .ok seize) (something : 0 < seize.val) :
    ∃ s', liquidate rt s accounts remaining (ctx.accruedDebt s.clock).borrowed = .ok s' := by
  have linked := reached.linked
  have loaded := Liquidate.load_ok finds.loaded
  have covered := (seizeAmount_le seizes).trans liquid
  rcases finds.unhealthy with ⟨totals, summed, unhealthy⟩
  rcases liquidation_transfers reached loaded distinct funded covered with
    ⟨middle, after, paidIn, paidOut⟩
  have owes := finds.owes
  have holds := finds.holds
  simp only [Liquidate.seizes, Liquidate.accruedDebt, Liquidate.accruedCollateral] at *
  rw [liquidate_eq]
  simp only [finds.loaded, bind_ok, Except.ok.injEq, exists_eq_left', require_ok, okOr_ok, pure_ok,
    accruePosition_user, accrueMarket_feedId, Uint.least_self]
  exact ⟨_, (), owes, (), finds.notSelf, (), linked.position_user loaded.debtPosition, (),
    linked.position_user loaded.collateralPosition, (), owes, (), holds, debtPrice,
    finds.debtPriced, collatPrice, finds.collatPriced, totals, summed, (), unhealthy, seize, seizes,
    (), something, (), covered, middle, paidIn, after, paidOut, rfl⟩

/-- The whole debt seizes something exactly when its value with the bonus is at least
that of one base unit of collateral. -/
theorem FindsUnhealthy.seizes_iff (linked : Linked rt s)
    (finds : FindsUnhealthy rt s accounts remaining ctx debtPrice collatPrice)
    (wide : -38 ≤ collatPrice.scale mintDecimals) :
    (∃ seize, ctx.seizes s.clock debtPrice collatPrice (ctx.accruedDebt s.clock).borrowed =
        .ok seize ∧ 0 < seize.val) ↔
      0 < collatPrice.price.toInt ∧
        exactUsd 1 collatPrice mintDecimals ≤
          (min (usdValue (ctx.accruedDebt s.clock).borrowed debtPrice mintDecimals * 10500)
            (2 ^ 128 - 1) / 10000 : ℕ) := by
  have loaded := Liquidate.load_ok finds.loaded
  have decimals : (ctx.accruedDebt s.clock).decimals = mintDecimals := by
    rw [Liquidate.accruedDebt, accruePosition_decimals]
    exact (stored_terms linked loaded.debtPosition loaded.debtMarket).2.2
  have decimals' : (ctx.accruedCollateral s.clock).decimals = mintDecimals := by
    rw [Liquidate.accruedCollateral, accruePosition_decimals]
    exact (stored_terms linked loaded.collateralPosition loaded.collateralMarket).2.2
  have converts := finds.converts
  rw [decimals, decimals'] at converts
  have converted : ∃ value, tokenUsd8dp (ctx.accruedDebt s.clock).borrowed debtPrice mintDecimals =
      .ok value := tokenUsd8dp_ok_iff.mpr converts.1
  rcases converted with ⟨value, valued⟩
  have below : (bonusValue value).val < 2 ^ 128 - 1 := by
    rw [val_bonusValue]
    omega
  rw [usdValue_of_ok valued, ← val_bonusValue, ← bought_pos_iff converts.2 wide below]
  simp only [Liquidate.seizes, decimals, decimals', seizeAmount_ok]
  have holds := finds.holds
  constructor
  · intro seizes
    rcases seizes with ⟨seize, ⟨value', valued', bought, buys, capped⟩, something⟩
    rw [valued, Except.ok.injEq] at valued'
    subst value'
    exact ⟨bought, buys, by omega⟩
  · intro buys
    rcases buys with ⟨bought, buys, something⟩
    refine ⟨(ctx.accruedCollateral s.clock).supplied.least bought,
      ⟨value, valued, bought, buys, Uint.val_least _ _⟩, ?_⟩
    rw [Uint.val_least]
    omega

end Checks

/-- Some repayment of an unhealthy borrower goes through exactly when that of the whole
debt seizes anything, and then that one goes through. -/
theorem liquidatable_iff {rt : Runtime} {s : State} (reached : Reachable rt s)
    {accounts : LiquidateAccounts} (distinct : accounts.debtMint ≠ accounts.collateralMint)
    {remaining : List Pubkey} {ctx : Liquidate} {debtPrice collatPrice : Price}
    (finds : FindsUnhealthy rt s accounts remaining ctx debtPrice collatPrice)
    (funded : (ctx.accruedDebt s.clock).borrowed.val ≤
      s.tokens.amountAt accounts.liquidatorDebtAta)
    (liquid : (ctx.accruedCollateral s.clock).supplied.val ≤ ctx.collateralVault.amount.val) :
    ((∃ repayAmount s', liquidate rt s accounts remaining repayAmount = .ok s') ↔
      ∃ seize, ctx.seizes s.clock debtPrice collatPrice (ctx.accruedDebt s.clock).borrowed =
        .ok seize ∧ 0 < seize.val) ∧
    ((∃ repayAmount s', liquidate rt s accounts remaining repayAmount = .ok s') →
      ∃ s', liquidate rt s accounts remaining (ctx.accruedDebt s.clock).borrowed = .ok s') ∧
    (-38 ≤ collatPrice.scale mintDecimals →
      ((∃ repayAmount s', liquidate rt s accounts remaining repayAmount = .ok s') ↔
        0 < collatPrice.price.toInt ∧
          exactUsd 1 collatPrice mintDecimals ≤
            (min (usdValue (ctx.accruedDebt s.clock).borrowed debtPrice mintDecimals * 10500)
              (2 ^ 128 - 1) / 10000 : ℕ))) := by
  have possible : (∃ repayAmount s', liquidate rt s accounts remaining repayAmount = .ok s') ↔
      ∃ seize, ctx.seizes s.clock debtPrice collatPrice (ctx.accruedDebt s.clock).borrowed =
        .ok seize ∧ 0 < seize.val := by
    constructor
    · intro liquidated
      rcases liquidated with ⟨repayAmount, s', ran⟩
      exact finds.whole_seizes ran
    · intro seizing
      rcases seizing with ⟨seize, seizes, something⟩
      exact ⟨_, finds.liquidates reached distinct funded liquid seizes something⟩
  refine ⟨possible, ?_, ?_⟩
  · intro some
    rcases possible.mp some with ⟨seize, seizes, something⟩
    exact finds.liquidates reached distinct funded liquid seizes something
  · intro wide
    exact possible.trans (finds.seizes_iff reached.linked wide)

def BobChecks (s : State) (debtPrice collatPrice : Price) (ctx : Liquidate) : Prop :=
  0 < (ctx.accruedDebt s.clock).borrowed.val ∧ 0 < (ctx.accruedCollateral s.clock).supplied.val ∧
    devnet.getPriceNoOlderThan ctx.debtPriceUpdate s.clock maxPriceAgeSec ctx.debtMarket.feedId =
      some debtPrice ∧
    devnet.getPriceNoOlderThan ctx.collateralPriceUpdate s.clock maxPriceAgeSec
      ctx.collateralMarket.feedId = some collatPrice ∧
    ((liquidationTotals devnet s (bobSeizes sol solPrice) (ctx.accruedDebt s.clock) debtPrice
        (ctx.accruedCollateral s.clock) collatPrice []).toOption.any fun totals =>
      totals.collatAtLtv.val < totals.debt.val) = true ∧
    (ctx.accruedDebt s.clock).borrowed.val ≤
      s.tokens.amountAt (bobSeizes sol solPrice).liquidatorDebtAta ∧
    (ctx.accruedCollateral s.clock).supplied.val ≤ ctx.collateralVault.amount.val

instance (s : State) (debtPrice collatPrice : Price) (ctx : Liquidate) :
    Decidable (BobChecks s debtPrice collatPrice ctx) := by
  unfold BobChecks
  infer_instance

theorem findsUnhealthy_of_checks {s : State} {debtPrice collatPrice : Price} {ctx : Liquidate}
    (loaded : Liquidate.load devnet s (bobSeizes sol solPrice) = .ok ctx)
    (checked : BobChecks s debtPrice collatPrice ctx) :
    FindsUnhealthy devnet s (bobSeizes sol solPrice) [] ctx debtPrice collatPrice := by
  rcases checked with ⟨owes, holds, debtPriced, collatPriced, summed, _⟩
  exact ⟨loaded, by decide, owes, holds, debtPriced, collatPriced, ok_where summed⟩

theorem liquidatable_iff_fallen :
    ∃ repayAmount s', liquidate devnet fallen (bobSeizes sol solPrice) [] repayAmount = .ok s' := by
  have facts : ∃ ctx, Liquidate.load devnet fallen (bobSeizes sol solPrice) = .ok ctx ∧
      BobChecks fallen (dollars 100000000) (dollars 9000000000) ctx ∧
        ((ctx.seizes fallen.clock (dollars 100000000) (dollars 9000000000)
          (ctx.accruedDebt fallen.clock).borrowed).toOption.any fun seize => 0 < seize.val) =
          true := ok_where (by decide +kernel)
  rcases facts with ⟨ctx, loaded, checked, seizes⟩
  have finds := findsUnhealthy_of_checks loaded checked
  rcases checked with ⟨_, _, _, _, _, funded, liquid⟩
  exact (liquidatable_iff (ledger_reachable _) (by decide) finds funded liquid).1.mpr
    (ok_where seizes)

def dust : State :=
  ledger (initializeMarkets ++
    [.claimFaucet bob sol.pubkey, .claimFaucet bob usdc.pubkey,
      .supply bob usdc.pubkey 40000000000000, .claimFaucet alice sol.pubkey,
      .supply alice sol.pubkey 1] ++
    openPosition alice usdc usdcPrice ++ [borrowUsdc 80, reach 100 9000000000])

/-- Alice's debt with the bonus is worth 8 of the units of the totals, and one unit of her
collateral 9, so nobody can liquidate her. -/
theorem dust_immune :
    ∃ ctx, Reachable devnet dust ∧
      FindsUnhealthy devnet dust (bobSeizes sol solPrice) [] ctx (dollars 100000000)
        (dollars 9000000000) ∧
      (ctx.accruedDebt dust.clock).borrowed.val ≤
        dust.tokens.amountAt (bobSeizes sol solPrice).liquidatorDebtAta ∧
      (ctx.accruedCollateral dust.clock).supplied.val ≤ ctx.collateralVault.amount.val ∧
      ∀ repayAmount s', liquidate devnet dust (bobSeizes sol solPrice) [] repayAmount ≠ .ok s' := by
  have facts : ∃ ctx, Liquidate.load devnet dust (bobSeizes sol solPrice) = .ok ctx ∧
      BobChecks dust (dollars 100000000) (dollars 9000000000) ctx ∧
        ((ctx.seizes dust.clock (dollars 100000000) (dollars 9000000000)
          (ctx.accruedDebt dust.clock).borrowed).toOption.any fun seize => seize.val = 0) =
          true := ok_where (by decide +kernel)
  rcases facts with ⟨ctx, loaded, checked, seizes⟩
  have finds := findsUnhealthy_of_checks loaded checked
  rcases checked with ⟨_, _, _, _, _, funded, liquid⟩
  refine ⟨ctx, ledger_reachable _, finds, funded, liquid, ?_⟩
  intro repayAmount s' ran
  rcases finds.whole_seizes ran with ⟨seize, whole, something⟩
  rcases ok_where seizes with ⟨seize', whole', nothing⟩
  rw [whole, Except.ok.injEq] at whole'
  subst seize'
  omega

end ShadowLend
