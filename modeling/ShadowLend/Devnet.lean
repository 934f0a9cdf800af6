import ShadowLend.System

/-! A ledger to run the model on: the price reader as its SDK documents it, and
the three markets the migration script sets up. -/

namespace ShadowLend

/-- What the Pyth SDK promises of a price it returns: it is the one the account
holds, for the requested feed, fully verified and not older than asked. -/
structure Runtime.ReadsFeeds (rt : Runtime) : Prop where
  reads : ∀ update clock maximumAge feedId price,
    rt.getPriceNoOlderThan update clock maximumAge feedId = some price →
      update.price = price ∧ update.feedId = feedId ∧ update.verificationLevel = .full ∧
        clock.unixTimestamp.toInt ≤ price.publishTime.toInt + maximumAge.val

/-- `get_price_no_older_than`, with its saturating addition. -/
def getPriceNoOlderThan (update : PriceUpdateV2) (clock : Clock) (maximumAge : U64)
    (feedId : FeedId) : Option Price :=
  if update.verificationLevel = .full ∧ update.feedId = feedId ∧
      clock.unixTimestamp.toInt ≤
        min (update.price.publishTime.toInt + maximumAge.val) (2 ^ 63 - 1) then
    some update.price
  else
    none

def devnet : Runtime where
  findBump := fun _ => 255
  getPriceNoOlderThan := getPriceNoOlderThan

theorem devnet_readsFeeds : devnet.ReadsFeeds := by
  constructor
  intro update clock maximumAge feedId price read
  simp only [devnet, getPriceNoOlderThan] at read
  split at read
  · rename_i accepted
    rcases accepted with ⟨verified, feed, fresh⟩
    cases read
    exact ⟨rfl, feed, verified, fresh.trans (min_le_left _ _)⟩
  · cases read

/-- A ledger that was offered a list of actions from its start. -/
def ledger (actions : List Action) : State :=
  replay devnet (fun _ _ => True) State.empty actions

theorem ledger_reachable (actions : List Action) : Reachable devnet (ledger actions) :=
  replay_reaches (.start rfl) actions

namespace Devnet

def admin : Signer := ⟨0⟩
def alice : Signer := ⟨1⟩
def bob : Signer := ⟨2⟩
def mallory : Signer := ⟨3⟩

def sol : Signer := ⟨100⟩
def usdc : Signer := ⟨101⟩
def btc : Signer := ⟨102⟩

def solFeed : FeedId := Vector.replicate 32 0xef
def usdcFeed : FeedId := Vector.replicate 32 0xea
def btcFeed : FeedId := Vector.replicate 32 0xe6

def solPrice : Pubkey := .key 200
def usdcPrice : Pubkey := .key 201
def btcPrice : Pubkey := .key 202

def dollars (price : Int64) : Price := ⟨price, 0, -8, 1000⟩

/-- The price of each feed, with that of SOL left open. -/
def quoted (solUsd : Int64) (feedId : FeedId) : Price :=
  if feedId = solFeed then
    dollars solUsd
  else if feedId = usdcFeed then
    dollars 100000000
  else
    dollars 5000000000000

def priceAccount (feedId : FeedId) (price : Price) : ForeignAccount where
  owner := .pythReceiver
  data := .priceUpdate ⟨.full, feedId, price⟩
  unwritten := nofun

def priceAccounts (solUsd : Int64) (id : ℕ) : Option ForeignAccount :=
  if id = 200 then
    some (priceAccount solFeed (quoted solUsd solFeed))
  else if id = 201 then
    some (priceAccount usdcFeed (quoted solUsd usdcFeed))
  else if id = 202 then
    some (priceAccount btcFeed (quoted solUsd btcFeed))
  else
    none

def reach (slot : U64) (solUsd : Int64) : Action :=
  .environment ⟨slot, 1000⟩ (priceAccounts solUsd)

/-- The migration script's markets, with SOL at 100 dollars. -/
def initializeMarkets : List Action :=
  [reach 100 10000000000,
    .initializeMarket admin sol 1000000000000 8000 solFeed 12683916794,
    .initializeMarket admin usdc 50000000000000 8500 usdcFeed 25367833587,
    .initializeMarket admin btc 50000000000 7500 btcFeed 6341958397]

/-- Bob claims from every faucet and lends most of it; Alice holds 100 SOL. -/
def deposits : List Action :=
  [.claimFaucet bob sol.pubkey,
    .claimFaucet bob usdc.pubkey, .supply bob usdc.pubkey 40000000000000,
    .claimFaucet bob btc.pubkey, .supply bob btc.pubkey 40000000000,
    .claimFaucet alice sol.pubkey, .supply alice sol.pubkey 100000000000]

/-- A position starts with a deposit; taking it out again leaves it empty. -/
def openPosition (user mint : Signer) (priceUpdate : Pubkey) : List Action :=
  [.claimFaucet user mint.pubkey, .supply user mint.pubkey 1,
    .withdraw user mint.pubkey priceUpdate [] 1]

def listed (user mint : Signer) (priceUpdate : Pubkey) : List Pubkey :=
  [.position user.pubkey mint.pubkey, priceUpdate]

/-- Up to 8000 USDC are allowed against 100 SOL. -/
def borrowUsdc (amount : U64) : Action :=
  .borrow alice usdc.pubkey usdcPrice (listed alice sol solPrice) amount

def lenders : List Action := initializeMarkets ++ deposits ++ openPosition alice usdc usdcPrice

def indebted (amount : U64) : List Action := lenders ++ [borrowUsdc amount]

def bobSeizes (collateral : Signer) (collateralPrice : Pubkey) : LiquidateAccounts where
  liquidator := bob
  borrower := alice.pubkey
  debtMint := usdc.pubkey
  debtPriceUpdate := usdcPrice
  liquidatorDebtAta := .associatedToken bob.pubkey usdc.pubkey
  collateralMint := collateral.pubkey
  collateralPriceUpdate := collateralPrice
  liquidatorCollateralAta := .associatedToken bob.pubkey collateral.pubkey

end Devnet

end ShadowLend
