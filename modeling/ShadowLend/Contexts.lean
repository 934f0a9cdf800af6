import ShadowLend.Tokens

/-! Account contexts: what each `#[derive(Accounts)]` struct loads and checks.
An address the constraints derive from seeds is not an argument here, since any
other address fails the instruction before it runs. -/

namespace ShadowLend

open Outcome

variable (rt : Runtime) (s : State)

def loadMarket (mint : Pubkey) : Except ProgramError Market := do
  let market ← okOr (s.markets.lookup mint) (.anchor .accountNotInitialized)
  require (market.bump = rt.findBump (.market mint)) (.anchor .constraintSeeds)
  pure market

/-- A market named through its own `mint` field, as in `AdminUpdate` and `Liquidate`. -/
def loadMarketBySeeds (mint : Pubkey) : Except ProgramError Market := do
  let market ← okOr (s.markets.lookup mint) (.anchor .accountNotInitialized)
  require (market.mint = mint) (.anchor .constraintSeeds)
  require (market.bump = rt.findBump (.market mint)) (.anchor .constraintSeeds)
  pure market

def loadPriceUpdate (address : Pubkey) : Except ProgramError PriceUpdateV2 := do
  let info := s.accountInfo address
  require (info.owner = .pythReceiver) (.anchor .accountOwnedByWrongProgram)
  okOr info.data.asPriceUpdate (.anchor .accountDiscriminatorMismatch)

def loadPosition (user mint : Pubkey) : Except ProgramError Position := do
  let position ← okOr (s.positions.lookup (user, mint)) (.anchor .accountNotInitialized)
  require (position.bump = rt.findBump (.position user mint)) (.anchor .constraintSeeds)
  pure position

def loadTokenAccount (address : Pubkey) : Except ProgramError TokenAccount :=
  okOr (s.tokens.lookup address) (.anchor .accountNotInitialized)

/-- `position` is all zero when the instruction has just allocated it. -/
structure ModifyPosition where
  market : Market
  position : Position
  tokens : Tokens

def ModifyPosition.load (user : Signer) (mint : Pubkey) : Except ProgramError ModifyPosition := do
  let market ← loadMarket rt s mint
  require (market.mint = mint) (.market .mintMismatch)
  let _ ← okOr (s.mints.lookup mint) (.anchor .accountNotInitialized)
  let position := (s.positions.lookup (user.pubkey, mint)).getD .zeroed
  let _ ← loadTokenAccount s (.vault mint)
  require (market.authorityBump = rt.findBump (.authority mint)) (.anchor .constraintSeeds)
  let tokens ← initAssociatedToken s.tokens user.pubkey mint
  pure ⟨market, position, tokens⟩

structure ModifyPositionWithPrice where
  market : Market
  position : Position
  vault : TokenAccount
  tokens : Tokens
  priceUpdate : PriceUpdateV2

def ModifyPositionWithPrice.load (user : Signer) (mint priceUpdate : Pubkey) :
    Except ProgramError ModifyPositionWithPrice := do
  let market ← loadMarket rt s mint
  require (market.mint = mint) (.market .mintMismatch)
  let _ ← okOr (s.mints.lookup mint) (.anchor .accountNotInitialized)
  let position ← loadPosition rt s user.pubkey mint
  require (position.user = user.pubkey) (.market .badPositionAccount)
  let vault ← loadTokenAccount s (.vault mint)
  require (market.authorityBump = rt.findBump (.authority mint)) (.anchor .constraintSeeds)
  let tokens ← initAssociatedToken s.tokens user.pubkey mint
  let update ← loadPriceUpdate s priceUpdate
  pure ⟨market, position, vault, tokens, update⟩

/-- The accounts of a liquidation the caller chooses freely. -/
structure LiquidateAccounts where
  liquidator : Signer
  borrower : Pubkey
  debtMint : Pubkey
  debtPriceUpdate : Pubkey
  liquidatorDebtAta : Pubkey
  collateralMint : Pubkey
  collateralPriceUpdate : Pubkey
  liquidatorCollateralAta : Pubkey

/-- Every field is a copy of its own, also where two of them name one account. -/
structure Liquidate where
  debtMarket : Market
  debtPosition : Position
  debtPriceUpdate : PriceUpdateV2
  collateralMarket : Market
  collateralPosition : Position
  collateralVault : TokenAccount
  collateralPriceUpdate : PriceUpdateV2

/-- A liquidator's token account: any account of the mint which it owns. -/
def checkLiquidatorAta (address mint owner : Pubkey) : Except ProgramError Unit := do
  let account ← loadTokenAccount s address
  require (account.mint = mint) (.market .mintMismatch)
  require (account.owner = owner) (.market .unauthorized)

def Liquidate.load (accounts : LiquidateAccounts) : Except ProgramError Liquidate := do
  let debtMarket ← loadMarketBySeeds rt s accounts.debtMint
  let debtPosition ← loadPosition rt s accounts.borrower accounts.debtMint
  let _ ← loadTokenAccount s (.vault accounts.debtMint)
  let debtUpdate ← loadPriceUpdate s accounts.debtPriceUpdate
  checkLiquidatorAta s accounts.liquidatorDebtAta accounts.debtMint accounts.liquidator.pubkey
  let collateralMarket ← loadMarketBySeeds rt s accounts.collateralMint
  let collateralPosition ← loadPosition rt s accounts.borrower accounts.collateralMint
  let collateralVault ← loadTokenAccount s (.vault accounts.collateralMint)
  require (collateralMarket.authorityBump = rt.findBump (.authority accounts.collateralMint))
    (.anchor .constraintSeeds)
  let collateralUpdate ← loadPriceUpdate s accounts.collateralPriceUpdate
  checkLiquidatorAta s accounts.liquidatorCollateralAta accounts.collateralMint
    accounts.liquidator.pubkey
  pure ⟨debtMarket, debtPosition, debtUpdate, collateralMarket, collateralPosition,
    collateralVault, collateralUpdate⟩

variable {rt s}

theorem loadMarket_ok {mint : Pubkey} {market : Market} :
    loadMarket rt s mint = .ok market ↔
      s.markets.lookup mint = some market ∧ market.bump = rt.findBump (.market mint) := by
  simp only [loadMarket, bind_ok, okOr_ok, require_ok, pure_ok]
  constructor
  · rintro ⟨_, found, _, bump, rfl⟩
    exact ⟨found, bump⟩
  · rintro ⟨found, bump⟩
    exact ⟨market, found, (), bump, rfl⟩

theorem loadMarketBySeeds_ok {mint : Pubkey} {market : Market} :
    loadMarketBySeeds rt s mint = .ok market ↔
      s.markets.lookup mint = some market ∧ market.mint = mint ∧
        market.bump = rt.findBump (.market mint) := by
  simp only [loadMarketBySeeds, bind_ok, okOr_ok, require_ok, pure_ok]
  constructor
  · rintro ⟨_, found, _, named, _, bump, rfl⟩
    exact ⟨found, named, bump⟩
  · rintro ⟨found, named, bump⟩
    exact ⟨market, found, (), named, (), bump, rfl⟩

theorem loadPosition_ok {user mint : Pubkey} {position : Position} :
    loadPosition rt s user mint = .ok position ↔
      s.positions.lookup (user, mint) = some position ∧
        position.bump = rt.findBump (.position user mint) := by
  simp only [loadPosition, bind_ok, okOr_ok, require_ok, pure_ok]
  constructor
  · rintro ⟨_, found, _, bump, rfl⟩
    exact ⟨found, bump⟩
  · rintro ⟨found, bump⟩
    exact ⟨position, found, (), bump, rfl⟩

theorem checkLiquidatorAta_ok {address mint owner : Pubkey} {u : Unit} :
    checkLiquidatorAta s address mint owner = .ok u ↔
      s.tokens.identityAt address = some (mint, owner) := by
  simp only [checkLiquidatorAta, loadTokenAccount, bind_ok, okOr_ok, require_ok]
  constructor
  · rintro ⟨account, found, _, mints, owned⟩
    rw [identityAt_of_lookup found, mints, owned]
  · intro identity
    cases found : s.tokens.lookup address with
    | none => simp [Tokens.identityAt, found] at identity
    | some account =>
        rw [identityAt_of_lookup found, Option.some.injEq, Prod.mk.injEq] at identity
        exact ⟨account, rfl, (), identity⟩

structure ModifyPosition.Loaded (s : State) (user : Signer) (mint : Pubkey)
    (ctx : ModifyPosition) : Prop where
  market : s.markets.lookup mint = some ctx.market
  named : ctx.market.mint = mint
  position : ctx.position = (s.positions.lookup (user.pubkey, mint)).getD .zeroed
  ready : initAssociatedToken s.tokens user.pubkey mint = .ok ctx.tokens

theorem ModifyPosition.load_ok {user : Signer} {mint : Pubkey} {ctx : ModifyPosition}
    (loaded : ModifyPosition.load rt s user mint = .ok ctx) :
    ModifyPosition.Loaded s user mint ctx := by
  simp only [ModifyPosition.load, bind_ok, loadMarket_ok, require_ok, okOr_ok, pure_ok] at loaded
  rcases loaded with ⟨market, ⟨found, _⟩, _, named, _, _, _, _, _, _, tokens, ready, rfl⟩
  exact ⟨found, named, rfl, ready⟩

structure ModifyPositionWithPrice.Loaded (s : State) (user : Signer) (mint priceUpdate : Pubkey)
    (ctx : ModifyPositionWithPrice) : Prop where
  market : s.markets.lookup mint = some ctx.market
  named : ctx.market.mint = mint
  position : s.positions.lookup (user.pubkey, mint) = some ctx.position
  mine : ctx.position.user = user.pubkey
  vault : s.tokens.lookup (.vault mint) = some ctx.vault
  ready : initAssociatedToken s.tokens user.pubkey mint = .ok ctx.tokens
  priced : loadPriceUpdate s priceUpdate = .ok ctx.priceUpdate

theorem ModifyPositionWithPrice.load_ok {user : Signer} {mint priceUpdate : Pubkey}
    {ctx : ModifyPositionWithPrice}
    (loaded : ModifyPositionWithPrice.load rt s user mint priceUpdate = .ok ctx) :
    ModifyPositionWithPrice.Loaded s user mint priceUpdate ctx := by
  simp only [ModifyPositionWithPrice.load, loadTokenAccount, bind_ok, loadMarket_ok,
    loadPosition_ok, require_ok, okOr_ok, pure_ok] at loaded
  obtain ⟨market, ⟨found, _⟩, _, named, _, _, position, ⟨held, _⟩, _, mine, vault, banked, _, _,
    tokens, ready, update, priced, rfl⟩ := loaded
  exact ⟨found, named, held, mine, banked, ready, priced⟩

structure Liquidate.Loaded (s : State) (accounts : LiquidateAccounts) (ctx : Liquidate) :
    Prop where
  debtMarket : s.markets.lookup accounts.debtMint = some ctx.debtMarket
  debtNamed : ctx.debtMarket.mint = accounts.debtMint
  debtPosition :
    s.positions.lookup (accounts.borrower, accounts.debtMint) = some ctx.debtPosition
  debtPriced : loadPriceUpdate s accounts.debtPriceUpdate = .ok ctx.debtPriceUpdate
  debtAta : s.tokens.identityAt accounts.liquidatorDebtAta =
    some (accounts.debtMint, accounts.liquidator.pubkey)
  collateralMarket : s.markets.lookup accounts.collateralMint = some ctx.collateralMarket
  collateralNamed : ctx.collateralMarket.mint = accounts.collateralMint
  collateralPosition :
    s.positions.lookup (accounts.borrower, accounts.collateralMint) = some ctx.collateralPosition
  collateralVault : s.tokens.lookup (.vault accounts.collateralMint) = some ctx.collateralVault
  collateralPriced :
    loadPriceUpdate s accounts.collateralPriceUpdate = .ok ctx.collateralPriceUpdate
  collateralAta : s.tokens.identityAt accounts.liquidatorCollateralAta =
    some (accounts.collateralMint, accounts.liquidator.pubkey)

theorem Liquidate.load_ok {accounts : LiquidateAccounts} {ctx : Liquidate}
    (loaded : Liquidate.load rt s accounts = .ok ctx) : Liquidate.Loaded s accounts ctx := by
  simp only [Liquidate.load, loadTokenAccount, bind_ok, loadMarketBySeeds_ok, loadPosition_ok,
    checkLiquidatorAta_ok, require_ok, okOr_ok, pure_ok] at loaded
  obtain ⟨debtMarket, ⟨debtFound, debtNamed, _⟩, debtPosition, ⟨debtHeld, _⟩, _, _, debtUpdate,
    debtPriced, _, debtAta, market, ⟨found, named, _⟩, position, ⟨held, _⟩, vault, banked, _, _,
    update, priced, _, ata, rfl⟩ := loaded
  exact ⟨debtFound, debtNamed, debtHeld, debtPriced, debtAta, found, named, held, banked, priced,
    ata⟩

end ShadowLend
