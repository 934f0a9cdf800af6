import ShadowLend.Interference
import ShadowLend.Liquidatable
import ShadowLend.Seizure

/-! When a liquidation goes through, whoever's accounts and whatever markets it names,
one market on both sides included. What it has to seize makes the checks of amounts
superfluous, and the seeds, the vaults and the room in both receivers are right by
themselves. Within the slot only the borrower and an empty vault can stop it. -/

namespace ShadowLend

open Outcome Devnet

def Side.accrued {rt : Runtime} {s : State} {user mint priceUpdate : Pubkey}
    (side : Side rt s user mint priceUpdate) : Position :=
  accruePosition side.position (accrueMarket side.market s.clock)

section Conditions

variable {rt : Runtime} {s : State} {accounts : LiquidateAccounts}

/-- The borrower is short, and the repayment seizes so much, which can be paid out. -/
structure Foreclosable (debt : DebtSide rt s accounts) (collateral : CollateralSide rt s accounts)
    (remaining : List Pubkey) (repayAmount seize : U64) : Prop where
  short : ∃ totals, liquidationTotals rt s accounts debt.accrued debt.price collateral.accrued
      collateral.price remaining = .ok totals ∧ totals.collatAtLtv.val < totals.debt.val
  seizes : seizeAmount (debt.repayment repayAmount) debt.price collateral.price mintDecimals
    mintDecimals collateral.position.supplied = .ok seize
  something : 0 < seize.val
  liquid : seize.val ≤ s.cash accounts.collateralMint
  funded : (debt.repayment repayAmount).val ≤ s.tokens.amountAt accounts.liquidatorDebtAta

end Conditions

structure LiquidatorReady (s : State) (accounts : LiquidateAccounts) : Prop where
  notSelf : accounts.liquidator.pubkey ≠ accounts.borrower
  pays : s.tokens.identityAt accounts.liquidatorDebtAta =
    some (accounts.debtMint, accounts.liquidator.pubkey)
  takes : s.tokens.identityAt accounts.liquidatorCollateralAta =
    some (accounts.collateralMint, accounts.liquidator.pubkey)

def CanLiquidate (rt : Runtime) (s : State) (accounts : LiquidateAccounts)
    (remaining : List Pubkey) (repayAmount : U64) : Prop :=
  LiquidatorReady s accounts ∧
    ∃ (debt : DebtSide rt s accounts) (collateral : CollateralSide rt s accounts) (seize : U64),
      Foreclosable debt collateral remaining repayAmount seize

section Amounts

variable {price debtPrice collatPrice : Price} {decimals decimals' : U8}

theorem repay_pos_of_seize {repay supplied seize : U64}
    (ran : seizeAmount repay debtPrice collatPrice decimals decimals' supplied = .ok seize)
    (something : 0 < seize.val) : 0 < repay.val := by
  by_contra none_repaid
  have priced := (seizeAmount_priced ran something).2
  obtain ⟨value, valued, bought, buys, capped⟩ := seizeAmount_ok.mp ran
  have worth : value.val = 0 := by
    rw [← usdValue_of_ok valued, usdValue_zero _ _ (by omega)]
  have bonus : (bonusValue value).val = 0 := by
    rw [val_bonusValue, worth]
    rfl
  have converts := (usd8dpToToken_ok_iff priced).mp ⟨bought, buys⟩
  rw [usd8dpToToken_eq converts priced, bonus, boughtAmount_zero, Except.ok.injEq] at buys
  rw [← buys, Uint.val_clamp] at capped
  omega

end Amounts

section Transfers

variable {rt : Runtime} {s : State} {accounts : LiquidateAccounts} {ctx : Liquidate}

/-- In one market the repayment only adds to the vault the seizure is paid from. -/
theorem liquidation_transfers_same (reached : Reachable rt s)
    (loaded : Liquidate.Loaded s accounts ctx)
    (same : accounts.debtMint = accounts.collateralMint) {repay seize : U64}
    (funded : repay.val ≤ s.tokens.amountAt accounts.liquidatorDebtAta)
    (liquid : seize.val ≤ s.cash accounts.collateralMint) :
    ∃ middle after,
      transferTokens s.tokens accounts.liquidatorDebtAta (.vault accounts.debtMint)
        accounts.liquidator.pubkey repay = .ok middle ∧
      transferTokens middle (.vault accounts.collateralMint) accounts.liquidatorCollateralAta
        (.authority accounts.collateralMint) seize = .ok after := by
  have linked := reached.linked
  have vault := linked.vault_identity loaded.collateralMarket
  have pays := loaded.debtAta
  have takes := loaded.collateralAta
  have payer := linked.vault_ne pays
  have taker := linked.vault_ne takes
  rw [same] at pays ⊢
  have fits := reached.amounts_fit pays vault (payer _)
  have paidIn : ∃ middle, transferTokens s.tokens accounts.liquidatorDebtAta
      (.vault accounts.collateralMint) accounts.liquidator.pubkey repay = .ok middle :=
    transferTokens_exists pays vault (payer _) funded (by omega)
  obtain ⟨middle, paidIn⟩ := paidIn
  obtain ⟨spent, gained, others⟩ := transferTokens_moves paidIn (payer _)
  have less : middle.amountAt accounts.liquidatorCollateralAta ≤
      s.tokens.amountAt accounts.liquidatorCollateralAta := by
    by_cases one : accounts.liquidatorCollateralAta = accounts.liquidatorDebtAta
    · rw [one]
      omega
    · exact (others _ one (taker _)).le
  have fits' := reached.amounts_fit takes vault (taker _)
  have source := (transferTokens_identity paidIn _).trans vault
  have destination := (transferTokens_identity paidIn _).trans takes
  rw [State.cash] at liquid
  have paidOut : ∃ after, transferTokens middle (.vault accounts.collateralMint)
      accounts.liquidatorCollateralAta (.authority accounts.collateralMint) seize = .ok after :=
    transferTokens_exists source destination (taker _).symm (by omega) (by omega)
  obtain ⟨after, paidOut⟩ := paidOut
  exact ⟨middle, after, paidIn, paidOut⟩

theorem Liquidate.load_iff (reached : Reachable rt s) :
    Liquidate.load rt s accounts = .ok ctx ↔ Liquidate.Loaded s accounts ctx := by
  refine ⟨Liquidate.load_ok, ?_⟩
  rintro ⟨debtFound, debtNamed, debtHeld, debtPriced, debtAta, found, named, held, banked, priced,
    ata⟩
  have debtSound := reached.sound debtFound
  have sound := reached.sound found
  obtain ⟨debtVault, debtBanked⟩ := debtSound.banked
  simp only [Liquidate.load, loadTokenAccount, bind_ok, loadMarketBySeeds_ok, loadPosition_ok,
    checkLiquidatorAta_ok, require_ok, okOr_ok, pure_ok]
  exact ⟨ctx.debtMarket, ⟨debtFound, debtNamed, debtSound.bump⟩, ctx.debtPosition,
    ⟨debtHeld, position_bump reached.linked debtHeld⟩, debtVault, debtBanked, ctx.debtPriceUpdate,
    debtPriced, (), debtAta, ctx.collateralMarket, ⟨found, named, sound.bump⟩,
    ctx.collateralPosition, ⟨held, position_bump reached.linked held⟩, ctx.collateralVault, banked,
    (), sound.authority, ctx.collateralPriceUpdate, priced, (), ata, rfl⟩

end Transfers

section Runs

variable {rt : Runtime} {s s' : State} {accounts : LiquidateAccounts}
variable {remaining : List Pubkey} {repayAmount : U64}

theorem LiquidateRun.totals_formed (run : LiquidateRun rt s accounts remaining repayAmount s') :
    liquidationTotals rt s accounts run.debtPosition run.debtPrice run.collateralPosition
      run.collatPrice remaining = .ok run.totals := by
  obtain ⟨first, debt, rest⟩ := accumulateAll_cons.mp run.summed
  obtain ⟨second, collateral, listed⟩ := accumulateAll_cons.mp rest
  simp only [liquidationTotals, bind_ok]
  exact ⟨first, debt, second, collateral, walkRemaining_ok.mpr ⟨run.listed, run.counted, listed⟩⟩

theorem LiquidateRun.repaid_eq (run : LiquidateRun rt s accounts remaining repayAmount s') :
    run.actualRepay = repayAmount.least
      (s.debtNow (accounts.borrower, accounts.debtMint) run.ctx.debtPosition) := by
  rw [run.capped, run.accruedDebtPosition, run.accruedDebtMarket,
    debtNow_of_lookup run.stored_debt.market]

theorem LiquidateRun.ready (run : LiquidateRun rt s accounts remaining repayAmount s') :
    LiquidatorReady s accounts := by
  have loaded := Liquidate.load_ok run.loaded
  exact ⟨run.notSelf, loaded.debtAta, loaded.collateralAta⟩

theorem LiquidateRun.foreclosable (linked : Linked rt s)
    (run : LiquidateRun rt s accounts remaining repayAmount s') :
    ∃ (debt : DebtSide rt s accounts) (collateral : CollateralSide rt s accounts),
      Foreclosable debt collateral remaining repayAmount run.seize ∧
        run.actualRepay = debt.repayment repayAmount := by
  have loaded := Liquidate.load_ok run.loaded
  have debtTerms := stored_terms linked loaded.debtPosition loaded.debtMarket
  have terms := stored_terms linked loaded.collateralPosition loaded.collateralMarket
  have vault : s.cash accounts.collateralMint = run.ctx.collateralVault.amount.val :=
    amountAt_of_lookup loaded.collateralVault
  refine ⟨⟨_, _, run.debtPrice, run.stored_debt, quotes_of_load loaded.debtPriced run.debt_read⟩,
    ⟨_, _, run.collatPrice, run.stored_collateral,
      quotes_of_load loaded.collateralPriced run.collateral_read⟩,
    ⟨?_, ?_, run.something, vault ▸ run.liquid, ?_⟩, run.repaid_eq⟩
  · have formed := run.totals_formed
    rw [run.accruedDebtPosition, run.accruedDebtMarket, run.accruedCollateralPosition,
      run.accruedCollateralMarket] at formed
    exact ⟨run.totals, formed, run.unhealthy⟩
  · have seized := run.seized
    rwa [run.repaid_eq, run.accruedDebtPosition, run.accruedCollateralPosition,
      accruePosition_decimals, accruePosition_decimals, accruePosition_supplied, debtTerms.2.2,
      terms.2.2] at seized
  · have spent := transfer_spends (linked.vault_ne loaded.debtAta _) run.paidIn
    rwa [run.repaid_eq] at spent

theorem Foreclosable.liquidates (reached : Reachable rt s) (ready : LiquidatorReady s accounts)
    {debt : DebtSide rt s accounts} {collateral : CollateralSide rt s accounts} {seize : U64}
    (can : Foreclosable debt collateral remaining repayAmount seize) :
    ∃ s', liquidate rt s accounts remaining repayAmount = .ok s' ∧
      Moves s accounts (debt.repayment repayAmount) seize s' := by
  obtain ⟨short, seizes, something, liquid, funded⟩ := can
  obtain ⟨notSelf, pays, takes⟩ := ready
  have linked := reached.linked
  have debtTerms := stored_terms linked debt.stored.position debt.stored.market
  have terms := stored_terms linked collateral.stored.position collateral.stored.market
  obtain ⟨debtUpdate, debtLoaded, debtPriced⟩ := quotes_iff.mp debt.quoted
  obtain ⟨update, loaded, priced⟩ := quotes_iff.mp collateral.quoted
  obtain ⟨totals, formed, unhealthy⟩ := short
  obtain ⟨vault, banked⟩ := (reached.sound collateral.stored.market).banked
  have cash : s.cash accounts.collateralMint = vault.amount.val := amountAt_of_lookup banked
  have context : Liquidate.Loaded s accounts ⟨debt.market, debt.position, debtUpdate,
      collateral.market, collateral.position, vault, update⟩ :=
    ⟨debt.stored.market, (reached.sound debt.stored.market).named, debt.stored.position,
      debtLoaded, pays, collateral.stored.market, (reached.sound collateral.stored.market).named,
      collateral.stored.position, banked, loaded, takes⟩
  have repays := repay_pos_of_seize seizes something
  have within := seizeAmount_le seizes
  have repaid : debt.repayment repayAmount = repayAmount.least debt.accrued.borrowed := by
    rw [Side.repayment, debtNow_of_lookup debt.stored.market, Side.accrued]
  rw [repaid] at seizes funded repays
  rw [Uint.val_least, lt_min_iff] at repays
  obtain ⟨positive, owes⟩ := repays
  have transfers : ∃ middle after,
      transferTokens s.tokens accounts.liquidatorDebtAta (.vault accounts.debtMint)
        accounts.liquidator.pubkey (repayAmount.least debt.accrued.borrowed) = .ok middle ∧
      transferTokens middle (.vault accounts.collateralMint) accounts.liquidatorCollateralAta
        (.authority accounts.collateralMint) seize = .ok after := by
    by_cases same : accounts.debtMint = accounts.collateralMint
    · exact liquidation_transfers_same reached context same funded liquid
    · exact liquidation_transfers reached context same funded (cash ▸ liquid)
  obtain ⟨middle, after, paidIn, paidOut⟩ := transfers
  have ran : ∃ s', liquidate rt s accounts remaining repayAmount = .ok s' := by
    rw [liquidate_eq]
    simp only [(Liquidate.load_iff reached).mpr context, bind_ok, Except.ok.injEq, exists_eq_left',
      require_ok, okOr_ok, pure_ok, accruePosition_user, accrueMarket_feedId,
      accruePosition_supplied, accruePosition_decimals, debtTerms.2.2, terms.2.2]
    exact ⟨_, (), positive, (), notSelf, (), linked.position_user debt.stored.position, (),
      linked.position_user collateral.stored.position, (), owes, (), by omega, debt.price,
      debtPriced, collateral.price, priced, totals, formed, (), unhealthy, seize, seizes, (),
      something, (), cash ▸ liquid, middle, paidIn, after, paidOut, rfl⟩
  obtain ⟨s', ran⟩ := ran
  obtain ⟨seized, moves, _, amount⟩ := liquidate_amounts debt collateral ran
  rw [repaid, debtTerms.2.2, terms.2.2, seizes, Except.ok.injEq] at amount
  exact ⟨s', ran, amount ▸ moves⟩

/-- A liquidation goes through exactly when somebody else's debt is short at the two
prices, and the repayment, which the liquidator has, seizes something the vault has. -/
theorem liquidate_succeeds_iff (reached : Reachable rt s) :
    (∃ s', liquidate rt s accounts remaining repayAmount = .ok s') ↔
      CanLiquidate rt s accounts remaining repayAmount := by
  constructor
  · rintro ⟨s', ran⟩
    obtain ⟨run⟩ := liquidate_ok ran
    obtain ⟨debt, collateral, can, _⟩ := run.foreclosable reached.linked
    exact ⟨run.ready, debt, collateral, run.seize, can⟩
  · rintro ⟨ready, debt, collateral, seize, can⟩
    obtain ⟨s', ran, _⟩ := can.liquidates reached ready
    exact ⟨s', ran⟩

end Runs

theorem liquidate_succeeds_iff_bob :
    CanLiquidate devnet fallen (bobSeizes sol solPrice) [] 1000000000000 ∧
      ¬ CanLiquidate devnet (ledger (indebted 8000000000000)) (bobSeizes sol solPrice) []
        1000000000000 := by
  have refused : ¬ ∃ s', liquidate devnet (ledger (indebted 8000000000000))
      (bobSeizes sol solPrice) [] 1000000000000 = .ok s' := not_ok_of_refused (by decide +kernel)
  obtain ⟨s', ran, _⟩ := fallen_liquidated
  exact ⟨(liquidate_succeeds_iff (ledger_reachable _)).mp ⟨s', ran⟩,
    fun can => refused ((liquidate_succeeds_iff (ledger_reachable _)).mpr can)⟩

theorem Moves.unique {s s' : State} {accounts : LiquidateAccounts}
    {repaid seized repaid' seized' : U64} (moves : Moves s accounts repaid seized s')
    (moves' : Moves s accounts repaid' seized' s') : repaid = repaid' ∧ seized = seized' := by
  have same := moves.recorded.symm.trans moves'.recorded
  simpa using same

/-- What the liquidator does not sign and the borrower has no part in, within the slot. -/
def ThirdParty (liquidator borrower : Signer) (s : State) (a : Action) : Prop :=
  Unsigned liquidator s a ∧ Meanwhile borrower s a

instance (liquidator borrower : Signer) (s : State) (a : Action) :
    Decidable (ThirdParty liquidator borrower s a) := by
  unfold ThirdParty
  infer_instance

section Interference

variable {rt : Runtime} {s s' : State} {user : Signer} {accounts : LiquidateAccounts}
variable {remaining : List Pubkey} {repayAmount seize : U64}

/-- Others leave a side of a liquidation at its price, its accrual and its debt. -/
theorem Undisturbed.side (undisturbed : Undisturbed user s s') {owner mint priceUpdate : Pubkey}
    (named : owner = user.pubkey) (side : Side rt s owner mint priceUpdate) :
    ∃ side' : Side rt s' owner mint priceUpdate, side'.position = side.position ∧
      side'.price = side.price ∧ side'.accrued = side.accrued ∧
      ∀ amount, side'.repayment amount = side.repayment amount := by
  subst named
  obtain ⟨market', found, feed, index⟩ := undisturbed.markets mint side.market side.stored.market
  have held := (undisturbed.positions mint).trans side.stored.position
  have accrued := accruePosition_index index side.position
  have quoted := undisturbed.quotes side.quoted
  rw [← feed] at quoted
  refine ⟨⟨market', side.position, side.price, ⟨found, held⟩, quoted⟩, rfl, rfl, accrued, ?_⟩
  have now : s'.debtNow (user.pubkey, mint) side.position =
      s.debtNow (user.pubkey, mint) side.position := by
    rw [debtNow_of_lookup found, debtNow_of_lookup side.stored.market, accrued]
  intro amount
  rw [Side.repayment, now, Side.repayment]

theorem Undisturbed.liquidationTotals (undisturbed : Undisturbed user s s') (linked : Linked rt s)
    (named : accounts.borrower = user.pubkey) {debt collateral : Position}
    {debtPrice collatPrice : Price} {totals : Totals}
    (formed : liquidationTotals rt s accounts debt debtPrice collateral collatPrice remaining =
      .ok totals) :
    ShadowLend.liquidationTotals rt s' accounts debt debtPrice collateral collatPrice remaining =
      .ok totals := by
  simp only [ShadowLend.liquidationTotals, accumulateRemainingSkip, bind_ok, walkRemaining_ok,
    named] at formed ⊢
  obtain ⟨first, debtCounted, second, collateralCounted, listed, walked, summed⟩ := formed
  exact ⟨first, debtCounted, second, collateralCounted, listed,
    undisturbed.contributions linked walked, summed⟩

theorem LiquidatorReady.later (ready : LiquidatorReady s accounts)
    (kept : KeepsTokens accounts.liquidator.pubkey s.tokens s'.tokens) :
    LiquidatorReady s' accounts :=
  ⟨ready.notSelf, (kept _ _ ready.pays).1, (kept _ _ ready.takes).1⟩

/-- What can be seized stays so, from the same position and for the same repayment. -/
theorem Undisturbed.foreclosable (undisturbed : Undisturbed user s s') (linked : Linked rt s)
    (named : accounts.borrower = user.pubkey)
    (solvent : KeepsTokens accounts.liquidator.pubkey s.tokens s'.tokens)
    (ready : LiquidatorReady s accounts)
    {debt : DebtSide rt s accounts} {collateral : CollateralSide rt s accounts}
    (can : Foreclosable debt collateral remaining repayAmount seize)
    (liquid : seize.val ≤ s'.cash accounts.collateralMint) :
    ∃ (debt' : DebtSide rt s' accounts) (collateral' : CollateralSide rt s' accounts),
      Foreclosable debt' collateral' remaining repayAmount seize ∧
        debt'.repayment repayAmount = debt.repayment repayAmount := by
  obtain ⟨debt', _, debtPrice, debtAccrued, repayment⟩ := undisturbed.side named debt
  obtain ⟨collateral', position, price, accrued, _⟩ := undisturbed.side named collateral
  obtain ⟨⟨totals, formed, unhealthy⟩, seizes, something, _, funded⟩ := can
  refine ⟨debt', collateral', ⟨⟨totals, ?_, unhealthy⟩, ?_, something, liquid, ?_⟩, repayment _⟩
  · rw [debtPrice, debtAccrued, price, accrued]
    exact undisturbed.liquidationTotals linked named formed
  · rw [repayment, debtPrice, price, position, seizes]
  · rw [repayment]
    exact funded.trans (solvent _ _ ready.pays).2

end Interference

def rescued : State :=
  replay devnet (ThirdParty bob alice) fallen
    [.claimFaucet mallory sol.pubkey, .supply mallory sol.pubkey 1000000]

end ShadowLend
