import ShadowLend.System
import Mathlib.Logic.Function.Basic

/-! The terms of an account are the fields no instruction rewrites once they are
set. A market gets its terms at creation and a position at its first supply, so
one lemma about steps decides every law which speaks of terms alone. -/

namespace ShadowLend

open Outcome

structure MarketTerms where
  admin : Pubkey
  mint : Pubkey
  maxLtvBps : U16
  feedId : FeedId
  borrowRatePerSlotE18 : U64
  bump : U8
  authorityBump : U8

def Market.terms (market : Market) : MarketTerms where
  admin := market.admin
  mint := market.mint
  maxLtvBps := market.maxLtvBps
  feedId := market.feedId
  borrowRatePerSlotE18 := market.borrowRatePerSlotE18
  bump := market.bump
  authorityBump := market.authorityBump

structure PositionTerms where
  user : Pubkey
  market : Pubkey
  feedId : FeedId
  maxLtvBps : U16
  decimals : U8
  bump : U8

def Position.terms (position : Position) : PositionTerms where
  user := position.user
  market := position.market
  feedId := position.feedId
  maxLtvBps := position.maxLtvBps
  decimals := position.decimals
  bump := position.bump

def MarketTerms.opened (terms : MarketTerms) (rt : Runtime) (user mint : Pubkey) :
    PositionTerms where
  user := user
  market := .market mint
  feedId := terms.feedId
  maxLtvBps := terms.maxLtvBps
  decimals := mintDecimals
  bump := rt.findBump (.position user mint)

def State.marketTerms (s : State) (mint : Pubkey) : Option MarketTerms :=
  (s.markets.lookup mint).map Market.terms

def State.positionTerms (s : State) (key : Pubkey × Pubkey) : Option PositionTerms :=
  (s.positions.lookup key).map Position.terms

theorem marketTerms_of_lookup {s : State} {mint : Pubkey} {market : Market}
    (found : s.markets.lookup mint = some market) : s.marketTerms mint = some market.terms := by
  simp [State.marketTerms, found]

theorem positionTerms_of_lookup {s : State} {key : Pubkey × Pubkey} {position : Position}
    (found : s.positions.lookup key = some position) :
    s.positionTerms key = some position.terms := by
  simp [State.positionTerms, found]

theorem marketTerms_some {s : State} {mint : Pubkey} {terms : MarketTerms}
    (found : s.marketTerms mint = some terms) :
    ∃ market, s.markets.lookup mint = some market ∧ market.terms = terms :=
  Option.map_eq_some_iff.mp found

@[simp] theorem accrueMarket_terms (market : Market) (clock : Clock) :
    (accrueMarket market clock).terms = market.terms := by
  rw [accrueMarket_fields]
  rfl

@[simp] theorem accruePosition_terms (position : Position) (market : Market) :
    (accruePosition position market).terms = position.terms := by
  rw [accruePosition_fields]
  rfl

theorem map_terms_insert {κ ν τ : Type} [DecidableEq κ] (table : Table κ ν) (terms : ν → τ)
    (key : κ) (value : ν) :
    (fun k => ((table.insert key value).lookup k).map terms) =
      Function.update (fun k => (table.lookup k).map terms) key (some (terms value)) := by
  funext k
  by_cases same : k = key
  · subst k
    rw [Function.update_self, Finmap.lookup_insert]
    rfl
  · rw [Function.update_of_ne same, Finmap.lookup_insert_of_ne _ same]

theorem map_terms_rewrite {κ ν τ : Type} [DecidableEq κ] {table : Table κ ν} {terms : ν → τ}
    {key : κ} {value : ν} (same : (table.lookup key).map terms = some (terms value)) :
    (fun k => ((table.insert key value).lookup k).map terms) =
      fun k => (table.lookup k).map terms := by
  rw [map_terms_insert]
  exact Function.update_eq_self_iff.mpr same.symm

section Steps

variable {rt : Runtime} {s s' : State}

/-- A repayment needs a debt, so it never meets a position it has just allocated. -/
theorem repay_position_stored {user : Signer} {mint : Pubkey} {amount : U64}
    (run : RepayRun rt s user mint amount s') :
    s.positions.lookup (user.pubkey, mint) = some run.ctx.position := by
  have origin := (ModifyPosition.load_ok run.loaded).position
  cases found : s.positions.lookup (user.pubkey, mint) with
  | some position => rw [origin, found, Option.getD_some]
  | none =>
      have zero : run.position.borrowed.val = 0 := by
        rw [run.accruedPosition, accruePosition_debtless] <;>
          · rw [origin, found, Option.getD_none]
            rfl
      have capped := run.capped
      have positive := run.positive
      omega

theorem SupplyRun.storedTerms {user : Signer} {mint : Pubkey} {amount : U64}
    (run : SupplyRun rt s user mint amount s') :
    s.marketTerms mint = some run.ctx.market.terms :=
  marketTerms_of_lookup (ModifyPosition.load_ok run.loaded).market

theorem SupplyRun.marketTerms {user : Signer} {mint : Pubkey} {amount : U64}
    (run : SupplyRun rt s user mint amount s') : s.marketTerms mint = some run.market.terms := by
  rw [run.storedTerms, run.accruedMarket, accrueMarket_terms]

theorem RepayRun.marketTerms {user : Signer} {mint : Pubkey} {amount : U64}
    (run : RepayRun rt s user mint amount s') : s.marketTerms mint = some run.market.terms := by
  rw [run.accruedMarket, accrueMarket_terms]
  exact marketTerms_of_lookup (ModifyPosition.load_ok run.loaded).market

theorem RepayRun.positionTerms {user : Signer} {mint : Pubkey} {amount : U64}
    (run : RepayRun rt s user mint amount s') :
    s.positionTerms (user.pubkey, mint) = some run.position.terms := by
  rw [run.accruedPosition, accruePosition_terms]
  exact positionTerms_of_lookup (repay_position_stored run)

section Checked

variable {user : Signer} {mint priceUpdate : Pubkey} {remaining : List Pubkey} {amount : U64}

theorem WithdrawRun.marketTerms (run : WithdrawRun rt s user mint priceUpdate remaining amount s') :
    s.marketTerms mint = some run.market.terms := by
  rw [run.accruedMarket, accrueMarket_terms]
  exact marketTerms_of_lookup (ModifyPositionWithPrice.load_ok run.loaded).market

theorem WithdrawRun.positionTerms
    (run : WithdrawRun rt s user mint priceUpdate remaining amount s') :
    s.positionTerms (user.pubkey, mint) = some run.position.terms := by
  rw [run.accruedPosition, accruePosition_terms]
  exact positionTerms_of_lookup (ModifyPositionWithPrice.load_ok run.loaded).position

theorem BorrowRun.marketTerms (run : BorrowRun rt s user mint priceUpdate remaining amount s') :
    s.marketTerms mint = some run.market.terms := by
  rw [run.accruedMarket, accrueMarket_terms]
  exact marketTerms_of_lookup (ModifyPositionWithPrice.load_ok run.loaded).market

theorem BorrowRun.positionTerms (run : BorrowRun rt s user mint priceUpdate remaining amount s') :
    s.positionTerms (user.pubkey, mint) = some run.position.terms := by
  rw [run.accruedPosition, accruePosition_terms]
  exact positionTerms_of_lookup (ModifyPositionWithPrice.load_ok run.loaded).position

end Checked

section Liquidations

variable {accounts : LiquidateAccounts} {remaining : List Pubkey} {repayAmount : U64}
variable (run : LiquidateRun rt s accounts remaining repayAmount s')
include run

theorem LiquidateRun.debtMarketTerms :
    s.marketTerms accounts.debtMint = some run.debtMarket.terms := by
  rw [run.accruedDebtMarket, accrueMarket_terms]
  exact marketTerms_of_lookup (Liquidate.load_ok run.loaded).debtMarket

theorem LiquidateRun.collateralMarketTerms :
    s.marketTerms accounts.collateralMint = some run.collateralMarket.terms := by
  rw [run.accruedCollateralMarket, accrueMarket_terms]
  exact marketTerms_of_lookup (Liquidate.load_ok run.loaded).collateralMarket

theorem LiquidateRun.debtPositionTerms :
    s.positionTerms (accounts.borrower, accounts.debtMint) = some run.debtPosition.terms := by
  rw [run.accruedDebtPosition, accruePosition_terms]
  exact positionTerms_of_lookup (Liquidate.load_ok run.loaded).debtPosition

theorem LiquidateRun.collateralPositionTerms :
    s.positionTerms (accounts.borrower, accounts.collateralMint) =
      some run.collateralPosition.terms := by
  rw [run.accruedCollateralPosition, accruePosition_terms]
  exact positionTerms_of_lookup (Liquidate.load_ok run.loaded).collateralPosition

end Liquidations

/-- A supply either keeps the terms of the stored position or opens it. -/
theorem supply_terms {user : Signer} {mint : Pubkey} {amount : U64}
    (run : SupplyRun rt s user mint amount s') :
    (∃ old, s.positions.lookup (user.pubkey, mint) = some old ∧ old.user ≠ .default ∧
        run.position = accruePosition old run.market) ∨
      ((∀ old, s.positions.lookup (user.pubkey, mint) = some old → old.user = .default) ∧
        run.position.terms = run.ctx.market.terms.opened rt user.pubkey mint ∧
        run.position.borrowIndexSnapshotE18 = run.market.borrowIndexE18) := by
  have origin := (ModifyPosition.load_ok run.loaded).position
  rw [run.accruedPosition, openOrAccrue]
  split
  · rename_i unclaimed
    right
    refine ⟨?_, ?_, rfl⟩
    · intro old found
      rw [← unclaimed, origin, found, Option.getD_some]
    · rw [run.accruedMarket]
      simp [Position.terms, MarketTerms.opened, Market.terms]
  · rename_i claimed
    left
    cases found : s.positions.lookup (user.pubkey, mint) with
    | none =>
        rw [origin, found, Option.getD_none] at claimed
        exact absurd rfl claimed
    | some old =>
        rw [origin, found, Option.getD_some] at claimed ⊢
        exact ⟨old, rfl, claimed, rfl⟩

theorem writeBack_marketTerms {user mint : Pubkey} {market : Market} {position : Position}
    {tokens : Tokens} {event : Event} (same : s.marketTerms mint = some market.terms) :
    (s.writeBack user mint market position tokens event).marketTerms = s.marketTerms :=
  map_terms_rewrite same

theorem writeBack_positionTerms {user mint : Pubkey} {market : Market} {position : Position}
    {tokens : Tokens} {event : Event} (same : s.positionTerms (user, mint) = some position.terms) :
    (s.writeBack user mint market position tokens event).positionTerms = s.positionTerms :=
  map_terms_rewrite same

theorem writeBackLiquidation_marketTerms {accounts : LiquidateAccounts}
    {debtMarket collateralMarket : Market} {debtPosition collateralPosition : Position}
    {tokens : Tokens} {event : Event}
    (debt : s.marketTerms accounts.debtMint = some debtMarket.terms)
    (collateral : s.marketTerms accounts.collateralMint = some collateralMarket.terms) :
    (s.writeBackLiquidation accounts debtMarket debtPosition collateralMarket collateralPosition
      tokens event).marketTerms = s.marketTerms := by
  have first := map_terms_rewrite debt
  refine (map_terms_rewrite ?_).trans first
  exact (congrFun first accounts.collateralMint).trans collateral

theorem writeBackLiquidation_positionTerms {accounts : LiquidateAccounts}
    {debtMarket collateralMarket : Market} {debtPosition collateralPosition : Position}
    {tokens : Tokens} {event : Event}
    (debt : s.positionTerms (accounts.borrower, accounts.debtMint) = some debtPosition.terms)
    (collateral : s.positionTerms (accounts.borrower, accounts.collateralMint) =
      some collateralPosition.terms) :
    (s.writeBackLiquidation accounts debtMarket debtPosition collateralMarket collateralPosition
      tokens event).positionTerms = s.positionTerms := by
  have first := map_terms_rewrite debt
  refine (map_terms_rewrite ?_).trans first
  exact (congrFun first (accounts.borrower, accounts.collateralMint)).trans collateral

end Steps

end ShadowLend
