import ShadowLend.Conversion
import ShadowLend.Shortfall

/-! What a liquidator gets for a repayment, in exact dollars. It is never more than the
repayment with the bonus. It is less where the borrower has no more to seize, and
there the repayment is taken in full all the same. -/

namespace ShadowLend

open Outcome Devnet

section Amounts

variable {repay supplied seize : U64} {debtPrice collatPrice : Price} {decimals decimals' : U8}

theorem exactUsd_one :
    exactUsd 1 collatPrice decimals =
      collatPrice.price.toInt * 10 ^ collatPrice.scale decimals := by
  have one : ((1 : U64).val : ℚ) = 1 := rfl
  rw [exactUsd, one, one_mul]

theorem exactUsd_one_pos (priced : 0 < collatPrice.price.toInt) :
    0 < exactUsd 1 collatPrice decimals := by
  have price : (0 : ℚ) < collatPrice.price.toInt := Int.cast_pos.mpr priced
  rw [exactUsd_one]
  positivity

/-- What is seized is the whole units the value and its bonus buy, or all there is. -/
theorem seizeAmount_cut
    (ran : seizeAmount repay debtPrice collatPrice decimals decimals' supplied = .ok seize)
    (something : 0 < seize.val) (wide : -38 ≤ debtPrice.scale decimals)
    (wide' : -38 ≤ collatPrice.scale decimals')
    (fits : ⌊exactUsd repay debtPrice decimals⌋₊ * 10500 < 2 ^ 128) :
    seize.val = min supplied.val
      ⌊((⌊exactUsd repay debtPrice decimals⌋₊ * 10500 / 10000 : ℕ) : ℚ) /
        exactUsd 1 collatPrice decimals'⌋₊ := by
  have priced := seizeAmount_priced ran something
  rcases seizeAmount_ok.mp ran with ⟨value, valued, bought, buys, capped⟩
  have truncated : value.val = ⌊exactUsd repay debtPrice decimals⌋₊ := by
    rw [← usdValue_of_ok valued, usdValue_floor (tokenUsd8dp_ok_iff.mp ⟨value, valued⟩) wide]
    omega
  have bonus : (bonusValue value).val = ⌊exactUsd repay debtPrice decimals⌋₊ * 10500 / 10000 := by
    rw [val_bonusValue, truncated]
    omega
  have converts' := (usd8dpToToken_ok_iff priced.2).mp ⟨bought, buys⟩
  have exact_buys : collatPrice.Buys decimals' (bonusValue value) :=
    ⟨fun _ => Or.inr (by omega), fun narrow => absurd narrow (not_lt.mpr wide')⟩
  have units := (bought_exact_iff priced.2).mpr exact_buys
  rw [usd8dpToToken_eq converts' priced.2, Except.ok.injEq] at buys
  rw [exactTokens, ← exactUsd_one, bonus] at units
  rw [capped, ← buys, Uint.val_clamp, bonus]
  have bound := supplied.val_le_max
  omega

/-- Two conversions and the bonus drop less than a unit each, one of them with the bonus. -/
theorem bonus_lt_of_units {worth unit : ℚ} {units : ℕ} (positive : 0 < unit)
    (bought : ⌊((⌊worth⌋₊ * 10500 / 10000 : ℕ) : ℚ) / unit⌋₊ = units) :
    21 / 20 * worth < units * unit + unit + 41 / 20 := by
  have floor := Nat.lt_floor_add_one worth
  have rounded : ((⌊worth⌋₊ * 10500 : ℕ) : ℚ) <
      ((⌊worth⌋₊ * 10500 / 10000 * 10000 + 10000 : ℕ) : ℚ) :=
    Nat.cast_lt.mpr (Nat.lt_div_mul_add (by decide))
  have whole := Nat.lt_floor_add_one (((⌊worth⌋₊ * 10500 / 10000 : ℕ) : ℚ) / unit)
  rw [bought, div_lt_iff₀ positive, add_mul, one_mul] at whole
  push_cast at rounded whole
  linarith

end Amounts

/-- One side of a liquidation: a position of the borrower, and the price of its market. -/
structure Side (rt : Runtime) (s : State) (user mint priceUpdate : Pubkey) where
  market : Market
  position : Position
  price : Price
  stored : Stored s user mint market position
  quoted : Quotes rt s priceUpdate market.feedId price

abbrev DebtSide (rt : Runtime) (s : State) (accounts : LiquidateAccounts) :=
  Side rt s accounts.borrower accounts.debtMint accounts.debtPriceUpdate

abbrev CollateralSide (rt : Runtime) (s : State) (accounts : LiquidateAccounts) :=
  Side rt s accounts.borrower accounts.collateralMint accounts.collateralPriceUpdate

section Sides

variable {rt : Runtime} {s : State} {user mint priceUpdate mint' priceUpdate' : Pubkey}

def Side.worth (side : Side rt s user mint priceUpdate) (amount : U64) : ℚ :=
  exactUsd amount side.price side.position.decimals

theorem Side.worth_eq (side : Side rt s user mint priceUpdate) (amount : U64) :
    side.worth amount = amount.val * side.worth 1 := by
  rw [Side.worth, Side.worth, exactUsd_one, exactUsd, mul_assoc]

def Side.scale (side : Side rt s user mint priceUpdate) : ℤ :=
  side.price.scale side.position.decimals

/-- What is asked for, or all that is owed by now. -/
def Side.repayment (side : Side rt s user mint priceUpdate) (repayAmount : U64) : U64 :=
  repayAmount.least (s.debtNow (user, mint) side.position)

/-- The value a repayment is exchanged for, with the bonus, in whole units of value. -/
def Side.exchanged (debt : Side rt s user mint priceUpdate) (repaid : U64) : ℕ :=
  ⌊debt.worth repaid⌋₊ * 10500 / 10000

/-- The whole base units of the side's token a value buys. -/
def Side.buys (collateral : Side rt s user mint priceUpdate) (value : ℕ) : ℕ :=
  ⌊value / collateral.worth 1⌋₊

/-- The bonus is paid but for the roundings, a base unit and 2.05 units of value. -/
def Promised (debt : Side rt s user mint priceUpdate)
    (collateral : Side rt s user mint' priceUpdate') (repaid seized : U64) : Prop :=
  21 / 20 * debt.worth repaid ≤ collateral.worth seized + collateral.worth 1 + 41 / 20

/-- The bonus is paid, and where the borrower supplied less than the repayment buys,
less is repaid. -/
structure KeepsPromise (debt : Side rt s user mint priceUpdate)
    (collateral : Side rt s user mint' priceUpdate') (repayAmount repaid seized : U64) :
    Prop where
  promised : Promised debt collateral repaid seized
  reduced : collateral.position.supplied.val <
      collateral.buys (debt.exchanged (debt.repayment repayAmount)) →
    repaid.val < (debt.repayment repayAmount).val

end Sides

section Runs

variable {rt : Runtime} {s s' : State} {accounts : LiquidateAccounts}
variable {remaining : List Pubkey} {repayAmount : U64}

theorem quotes_of_load {address : Pubkey} {update : PriceUpdateV2} {feedId : FeedId}
    {price : Price} (loaded : loadPriceUpdate s address = .ok update)
    (read : rt.getPriceNoOlderThan update s.clock maxPriceAgeSec feedId = some price) :
    Quotes rt s address feedId price := by
  simp only [loadPriceUpdate, bind_ok, require_ok, okOr_ok] at loaded
  rcases loaded with ⟨_, owned, data⟩
  exact ⟨update, owned, data, read⟩

theorem liquidate_sides (ran : liquidate rt s accounts remaining repayAmount = .ok s') :
    Nonempty (DebtSide rt s accounts) ∧ Nonempty (CollateralSide rt s accounts) := by
  rcases liquidate_ok ran with ⟨run⟩
  have loaded := Liquidate.load_ok run.loaded
  constructor
  · exact ⟨⟨_, _, run.debtPrice, run.stored_debt,
      quotes_of_load loaded.debtPriced run.debt_read⟩⟩
  · exact ⟨⟨_, _, run.collatPrice, run.stored_collateral,
      quotes_of_load loaded.collateralPriced run.collateral_read⟩⟩

/-- The amounts of a liquidation, from the two sides as they are stored. -/
theorem liquidate_amounts
    (debt : DebtSide rt s accounts) (collateral : CollateralSide rt s accounts)
    (ran : liquidate rt s accounts remaining repayAmount = .ok s') :
    ∃ seized, Moves s accounts (debt.repayment repayAmount) seized s' ∧ 0 < seized.val ∧
      seizeAmount (debt.repayment repayAmount) debt.price collateral.price
        debt.position.decimals collateral.position.decimals collateral.position.supplied =
          .ok seized := by
  rcases liquidate_ok ran with ⟨run⟩
  have debtSide := run.stored_debt.unique debt.stored
  have collateralSide := run.stored_collateral.unique collateral.stored
  have prices := run.prices_eq (debtSide.1 ▸ debt.quoted) (collateralSide.1 ▸ collateral.quoted)
  have owed : s.debtNow (accounts.borrower, accounts.debtMint) debt.position =
      run.debtPosition.borrowed := by
    rw [run.accruedDebtPosition, run.accruedDebtMarket, ← debtSide.2]
    exact debtNow_of_lookup run.stored_debt.market _
  have repaid : run.actualRepay = debt.repayment repayAmount := by
    rw [run.capped, Side.repayment, owed]
  have seized := run.seized
  rw [prices.1, prices.2, repaid, run.accruedDebtPosition, run.accruedCollateralPosition,
    accruePosition_decimals, accruePosition_decimals, accruePosition_supplied, debtSide.2,
    collateralSide.2] at seized
  exact ⟨run.seize, repaid ▸ run.moves, run.something, seized⟩

end Runs

/-- No liquidator takes more than the repayment and the bonus on it. -/
theorem seizure_within_bonus {rt : Runtime} {s s' : State} {accounts : LiquidateAccounts}
    {remaining : List Pubkey} {repayAmount : U64}
    (ran : liquidate rt s accounts remaining repayAmount = .ok s') :
    (Nonempty (DebtSide rt s accounts) ∧ Nonempty (CollateralSide rt s accounts)) ∧
      ∀ (debt : DebtSide rt s accounts) (collateral : CollateralSide rt s accounts),
        -38 ≤ debt.scale →
        ∃ seized, Moves s accounts (debt.repayment repayAmount) seized s' ∧
          collateral.worth seized ≤ 21 / 20 * debt.worth (debt.repayment repayAmount) := by
  refine ⟨liquidate_sides ran, ?_⟩
  intro debt collateral wide
  rcases liquidate_amounts debt collateral ran with ⟨seized, moves, something, amount⟩
  exact ⟨seized, moves, seizeAmount_worth amount something wide⟩

theorem side_where {s : State} {user mint priceUpdate : Pubkey} {price : Price}
    (feed : FeedId) (P : Position → Prop) [DecidablePred P]
    (listed : ((s.markets.lookup mint).any fun market => market.feedId = feed) = true)
    (held : ((s.positions.lookup (user, mint)).any fun position => P position) = true)
    (quoted : Quotes devnet s priceUpdate feed price) :
    ∃ side : Side devnet s user mint priceUpdate, side.price = price ∧ P side.position := by
  rcases some_where listed with ⟨market, listed, named⟩
  rcases some_where held with ⟨position, held, facts⟩
  exact ⟨⟨market, position, price, ⟨listed, held⟩, named ▸ quoted⟩, rfl, facts⟩

theorem fallen_debt :
    ∃ debt : DebtSide devnet fallen (bobSeizes sol solPrice),
      debt.price = dollars 100000000 ∧ debt.position.decimals = 9 ∧
        debt.repayment 1000000000000 = 1000000000000 :=
  side_where usdcFeed
    (fun position => position.decimals = 9 ∧
      (1000000000000 : U64).least
        (fallen.debtNow (alice.pubkey, usdc.pubkey) position) = 1000000000000)
    (by decide +kernel) (by decide +kernel) (quotes_of_read (by decide +kernel))

theorem fallen_collateral :
    ∃ collateral : CollateralSide devnet fallen (bobSeizes sol solPrice),
      collateral.price = dollars 9000000000 ∧ collateral.position.decimals = 9 :=
  side_where solFeed (fun position => position.decimals = 9) (by decide +kernel)
    (by decide +kernel) (quotes_of_read (by decide +kernel))

theorem seizure_within_bonus_usdc :
    ∃ s', ∃ debt : DebtSide devnet fallen (bobSeizes sol solPrice),
      ∃ collateral : CollateralSide devnet fallen (bobSeizes sol solPrice),
        liquidate devnet fallen (bobSeizes sol solPrice) [] 1000000000000 = .ok s' ∧
        ∃ seized, Moves fallen (bobSeizes sol solPrice) 1000000000000 seized s' ∧
          collateral.worth seized ≤ 21 / 20 * debt.worth 1000000000000 := by
  rcases fallen_liquidated with ⟨s', ran, _⟩
  rcases fallen_debt with ⟨debt, price, decimals, repaid⟩
  rcases fallen_collateral with ⟨collateral, _, _⟩
  have wide : -38 ≤ debt.scale := by
    rw [Side.scale, price, decimals]
    decide
  have bounded := (seizure_within_bonus ran).2 debt collateral wide
  rw [repaid] at bounded
  exact ⟨s', debt, collateral, ran, bounded⟩

/-- The promise is kept exactly where the borrower has supplied all that the repayment
buys: the seizure is cut off there, and the repayment is not. -/
theorem seizure_promised_iff {rt : Runtime} {s s' : State} {accounts : LiquidateAccounts}
    {remaining : List Pubkey} {repayAmount : U64}
    (ran : liquidate rt s accounts remaining repayAmount = .ok s') :
    (Nonempty (DebtSide rt s accounts) ∧ Nonempty (CollateralSide rt s accounts)) ∧
      ∀ (debt : DebtSide rt s accounts) (collateral : CollateralSide rt s accounts),
        -38 ≤ debt.scale → -38 ≤ collateral.scale →
        ⌊debt.worth (debt.repayment repayAmount)⌋₊ * 10500 < 2 ^ 128 →
        ∃ repaid seized, Moves s accounts repaid seized s' ∧
          (KeepsPromise debt collateral repayAmount repaid seized ↔
            collateral.buys (debt.exchanged (debt.repayment repayAmount)) ≤
              collateral.position.supplied.val) := by
  refine ⟨liquidate_sides ran, ?_⟩
  intro debt collateral wide wide' fits
  rcases liquidate_amounts debt collateral ran with ⟨seized, moves, something, amount⟩
  refine ⟨debt.repayment repayAmount, seized, moves, ?_⟩
  constructor
  · intro keeps
    by_contra more
    exact (keeps.reduced (not_le.mp more)).false
  · intro enough
    have cut : seized.val = collateral.buys (debt.exchanged (debt.repayment repayAmount)) :=
      (seizeAmount_cut amount something wide wide' fits).trans (min_eq_right enough)
    constructor
    · have priced := seizeAmount_priced amount something
      have paid := bonus_lt_of_units (exactUsd_one_pos priced.2) cut.symm
      rw [Promised, collateral.worth_eq seized]
      exact paid.le
    · intro capped
      exact absurd capped (not_lt.mpr enough)

theorem seizure_promised_iff_usdc :
    ∃ s', ∃ debt : DebtSide devnet fallen (bobSeizes sol solPrice),
      ∃ collateral : CollateralSide devnet fallen (bobSeizes sol solPrice),
        liquidate devnet fallen (bobSeizes sol solPrice) [] 1000000000000 = .ok s' ∧
        ∃ repaid seized, Moves fallen (bobSeizes sol solPrice) repaid seized s' ∧
          (KeepsPromise debt collateral 1000000000000 repaid seized ↔
            collateral.buys (debt.exchanged 1000000000000) ≤
              collateral.position.supplied.val) := by
  rcases fallen_liquidated with ⟨s', ran, _⟩
  rcases fallen_debt with ⟨debt, price, decimals, repaid⟩
  rcases fallen_collateral with ⟨collateral, price', decimals'⟩
  have wide : -38 ≤ debt.scale := by
    rw [Side.scale, price, decimals]
    decide
  have wide' : -38 ≤ collateral.scale := by
    rw [Side.scale, price', decimals']
    decide
  have fits : ⌊debt.worth (debt.repayment 1000000000000)⌋₊ * 10500 < 2 ^ 128 := by
    rw [repaid, Side.worth, price, decimals]
    decide +kernel
  have promised := (seizure_promised_iff ran).2 debt collateral wide wide' fits
  rw [repaid] at promised
  exact ⟨s', debt, collateral, ran, promised⟩

def ruined : State := ledger (indebted 8000000000000 ++ [reach 100 1000000000])

/-- Bob repays 4000 USDC and takes collateral worth 1000, all there is. -/
theorem seizure_breaks_promise :
    ∃ s', ∃ debt : DebtSide devnet ruined (bobSeizes sol solPrice),
      ∃ collateral : CollateralSide devnet ruined (bobSeizes sol solPrice),
        Reachable devnet ruined ∧ usdc.pubkey ≠ sol.pubkey ∧
        0 < debt.price.price.toInt ∧ 0 < collateral.price.price.toInt ∧
        debt.scale = -9 ∧ collateral.scale = -9 ∧
        ⌊debt.worth 4000000000000⌋₊ * 10500 < 2 ^ 128 ∧
        debt.exchanged 4000000000000 * 10 ^ 9 < 2 ^ 128 ∧
        liquidate devnet ruined (bobSeizes sol solPrice) [] 4000000000000 = .ok s' ∧
        Moves ruined (bobSeizes sol solPrice) 4000000000000 100000000000 s' ∧
        debt.repayment 4000000000000 = 4000000000000 ∧
        collateral.position.supplied.val < collateral.buys (debt.exchanged 4000000000000) ∧
        ¬Promised debt collateral 4000000000000 100000000000 := by
  have ran : ∃ s', liquidate devnet ruined (bobSeizes sol solPrice) [] 4000000000000 = .ok s' ∧
      s'.borrowedIn usdc.pubkey = 4000000000000 := ok_where (by decide +kernel)
  have debt : ∃ debt : DebtSide devnet ruined (bobSeizes sol solPrice),
      debt.price = dollars 100000000 ∧ debt.position.decimals = 9 ∧
        debt.repayment 4000000000000 = 4000000000000 :=
    side_where usdcFeed
      (fun position => position.decimals = 9 ∧
        (4000000000000 : U64).least
          (ruined.debtNow (alice.pubkey, usdc.pubkey) position) = 4000000000000)
      (by decide +kernel) (by decide +kernel) (quotes_of_read (by decide +kernel))
  have collateral : ∃ collateral : CollateralSide devnet ruined (bobSeizes sol solPrice),
      collateral.price = dollars 1000000000 ∧ collateral.position.decimals = 9 ∧
        collateral.position.supplied = 100000000000 :=
    side_where solFeed
      (fun position => position.decimals = 9 ∧ position.supplied = 100000000000)
      (by decide +kernel) (by decide +kernel) (quotes_of_read (by decide +kernel))
  rcases ran with ⟨s', ran, _⟩
  rcases debt with ⟨debt, price, decimals, repaid⟩
  rcases collateral with ⟨collateral, price', decimals', supplied⟩
  rcases liquidate_amounts debt collateral ran with ⟨seized, moves, _, amount⟩
  have all : seizeAmount 4000000000000 (dollars 100000000) (dollars 1000000000) 9 9
      100000000000 = .ok 100000000000 := by decide +kernel
  rw [repaid] at moves
  rw [repaid, price, price', decimals, decimals', supplied, all, Except.ok.injEq] at amount
  subst seized
  refine ⟨s', debt, collateral, ledger_reachable _, by decide, ?_, ?_, ?_, ?_, ?_, ?_, ran, moves,
    repaid, ?_, ?_⟩
  · rw [price]
    decide
  · rw [price']
    decide
  · rw [Side.scale, price, decimals]
    decide
  · rw [Side.scale, price', decimals']
    decide
  · rw [Side.worth, price, decimals]
    decide +kernel
  · rw [Side.exchanged, Side.worth, price, decimals]
    decide +kernel
  · rw [supplied, Side.buys, Side.exchanged, Side.worth, Side.worth, price, price', decimals,
      decimals']
    decide +kernel
  · rw [Promised, Side.worth, Side.worth, Side.worth, price, price', decimals, decimals']
    decide +kernel

end ShadowLend
