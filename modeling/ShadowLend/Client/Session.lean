import ShadowLend.Client.PriceFeeds
import Mathlib.Algebra.Field.Rat

/-! What the page knows and asks: its configuration, the connected wallet and the answers
of the node while one of its functions runs. -/

namespace ShadowLend

open Devnet

structure MarketConfig where
  id : String
  mint : Pubkey
  maxLtvBps : ℕ
  decimals : ℕ
  feedHex : FeedId

/-- `MARKETS`, in their order. A market is known by its id. -/
structure Config where
  markets : List MarketConfig
  distinct : (markets.map MarketConfig.id).Nodup

/-- The signing program is built from a loaded IDL. -/
structure Client where
  config : Config
  idl : Bool
  program : Bool
  wallet : Option Pubkey
  built : program = true → idl = true

inductive Call
  | market (id : String)
  | receipt (id : String)
  | position (id : String)
  | balance (id : String)
  deriving DecidableEq

/-- The ledger, the calls that fail on the way, the prices held back from earlier calls
and the price accounts the node returns for a feed, if it does. -/
structure Node where
  store : State
  fails : Call → Bool
  cached : FeedId → Option CachedPrice
  now : ℕ
  prices : FeedId → Option (List RpcAccount)

def Client.getMarketConfig (client : Client) (marketId : String) : Option MarketConfig :=
  client.config.markets.find? fun m => m.id = marketId

/-- `readClient`, which falls back to a program that cannot sign. -/
def Client.readClient (client : Client) : Bool := client.program || client.idl

/-- `account.position.fetch`, which throws at a missing account as at a failed call. -/
def Node.fetchAccount (node : Node) (m : MarketConfig) (user : Pubkey) : Option Position :=
  if node.fails (.position m.id) then none else node.store.positions.lookup (user, m.mint)

/-- In exact arithmetic. A quotient of doubles is zero only where its numerator is. -/
def fromBase (amount : U64) (decimals : ℕ) : ℚ := amount.val / 10 ^ decimals

structure PositionView where
  supplied : ℚ
  borrowed : ℚ
  suppliedRaw : U64
  borrowedRaw : U64

/-- `null` for every way of not having read a position. -/
def fetchPosition (client : Client) (node : Node) (marketId : String) : Option PositionView := do
  let user ← client.wallet
  if client.readClient then do
    let m ← client.getMarketConfig marketId
    let pos ← node.fetchAccount m user
    pure ⟨fromBase pos.supplied m.decimals, fromBase pos.borrowed m.decimals,
      pos.supplied, pos.borrowed⟩
  else none

/-- `none` where it throws. -/
def Node.resolvePrice (node : Node) (feed : FeedId) : Option FreshPrice :=
  resolveFreshestPrice (node.cached feed) node.now (node.prices feed)

def Node.resolvePriceUpdate (node : Node) (feed : FeedId) : Option Pubkey :=
  (node.resolvePrice feed).map FreshPrice.pk

section Reading

variable {client : Client} {node : Node} {m : MarketConfig} {user : Pubkey}

theorem getMarketConfig_self (member : m ∈ client.config.markets) :
    client.getMarketConfig m.id = some m := by
  rw [Client.getMarketConfig]
  cases found : client.config.markets.find? fun other => other.id = m.id with
  | none =>
      have other := List.find?_eq_none.mp found m member
      exact absurd (decide_eq_true rfl) other
  | some m' =>
      have accepted := List.find?_some found
      have same : m'.id = m.id := of_decide_eq_true accepted
      have inside := List.mem_of_find?_eq_some found
      rw [List.inj_on_of_nodup_map client.config.distinct inside member same]

theorem fromBase_eq_zero {amount : U64} (decimals : ℕ) :
    fromBase amount decimals = 0 ↔ amount.val = 0 := by
  rw [fromBase, div_eq_zero_iff, Nat.cast_eq_zero]
  exact or_iff_left (by positivity)

theorem fetchPosition_eq (connected : client.wallet = some user) (ready : client.readClient = true)
    (member : m ∈ client.config.markets) :
    fetchPosition client node m.id = (node.fetchAccount m user).map fun pos =>
      ⟨fromBase pos.supplied m.decimals, fromBase pos.borrowed m.decimals,
        pos.supplied, pos.borrowed⟩ := by
  rw [fetchPosition, connected, getMarketConfig_self member]
  simp only [Option.bind_eq_bind, Option.bind_some, if_pos ready]
  cases node.fetchAccount m user <;> rfl

end Reading

namespace Devnet

def solMarket : MarketConfig := ⟨"sol", sol.pubkey, 8000, 9, solFeed⟩
def usdcMarket : MarketConfig := ⟨"usdc", usdc.pubkey, 8500, 9, usdcFeed⟩
def btcMarket : MarketConfig := ⟨"btc", btc.pubkey, 7500, 9, btcFeed⟩

def config : Config where
  markets := [solMarket, usdcMarket, btcMarket]
  distinct := by decide

def page : Client where
  config := config
  idl := true
  program := true
  wallet := some alice.pubkey
  built := fun _ => rfl

def node (store : State) (fails : Call → Bool) : Node where
  store := store
  fails := fails
  cached := fun _ => none
  now := 0
  prices := fun feed =>
    if feed = solFeed then some [solUpdate.rpc]
    else if feed = usdcFeed then some [(feedUpdate usdcPrice usdcFeed 100000000).rpc]
    else some [(feedUpdate btcPrice btcFeed 5000000000000).rpc]

end Devnet

end ShadowLend
