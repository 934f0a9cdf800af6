import ShadowLend.Accounting
import ShadowLend.Client.Dashboard
import ShadowLend.Faucet

/-! The figures on the front page. They are read off the counters of the markets, and are
the sums over all deposits and all claims of those markets that could be read. -/

namespace ShadowLend

open Outcome Devnet

def fetchAllMarkets (client : Client) (node : Node) : List (MarketConfig × Option Market) :=
  client.config.markets.map fun m => (m, fetchMarket client node m.id)

structure HeroStats where
  totalSuppliedUsd : ℚ
  totalBorrowedUsd : ℚ
  totalClaims : ℕ

/-- The body of the loop over the rows, exact where the page sums doubles. -/
def HeroStats.count (node : Node) (stats : HeroStats) (r : MarketConfig × Option Market) :
    HeroStats :=
  match r.2 with
  | none => stats
  | some onchain =>
      let supply := fromBase onchain.totalSupplied r.1.decimals
      let borrow := fromBase onchain.totalBorrowed r.1.decimals
      let stats := { stats with totalClaims := stats.totalClaims + onchain.claimCount.val }
      match node.resolvePrice r.1.feedHex with
      | none => stats
      | some p =>
          if 0 < p.price then
            let usd : ℚ := p.price * 10 ^ p.expo
            { stats with
              totalSuppliedUsd := stats.totalSuppliedUsd + supply * usd
              totalBorrowedUsd := stats.totalBorrowedUsd + borrow * usd }
          else stats

def fetchHeroStats (client : Client) (node : Node) : HeroStats × List (String × Option ℚ) :=
  let rows := fetchAllMarkets client node
  (rows.foldl (HeroStats.count node) ⟨0, 0, 0⟩,
    rows.map fun r => (r.1.id, (node.resolvePrice r.1.feedHex).map fun p => p.price * 10 ^ p.expo))

def readMarkets (client : Client) (node : Node) : List MarketConfig :=
  client.config.markets.filter fun m => (fetchMarket client node m.id).isSome

def rate (node : Node) (m : MarketConfig) : ℚ := usd 1 (node.resolvePrice m.feedHex)

def readMarket (client : Client) (node : Node) (mint : Pubkey) : Option MarketConfig :=
  (readMarkets client node).find? fun m => mint = m.mint

/-- What an amount of a mint adds to the figures of the page. -/
def pageUsd (client : Client) (node : Node) (mint : Pubkey) (amount : U64) : ℚ :=
  (readMarket client node mint).elim 0 fun m => fromBase amount m.decimals * rate node m

section Sums

variable {client : Client} {node : Node}

theorem fetchMarket_some {m : MarketConfig} {market : Market} (member : m ∈ client.config.markets)
    (read : fetchMarket client node m.id = some market) :
    node.store.markets.lookup m.mint = some market := by
  rw [fetchMarket, getMarketConfig_self member] at read
  simp only [Option.bind_eq_bind, Option.bind_some] at read
  split at read
  · exact read
  · cases read

theorem count_adds (stats : HeroStats) (m : MarketConfig) (onchain : Market) :
    stats.count node (m, some onchain) =
      ⟨stats.totalSuppliedUsd + fromBase onchain.totalSupplied m.decimals * rate node m,
        stats.totalBorrowedUsd + fromBase onchain.totalBorrowed m.decimals * rate node m,
        stats.totalClaims + onchain.claimCount.val⟩ := by
  simp only [HeroStats.count, rate, usd]
  cases node.resolvePrice m.feedHex with
  | none => simp
  | some p =>
      by_cases worth : 0 < p.price
      · simp [worth, not_le.mpr worth]
      · simp [worth, not_lt.mp worth]

def marketUsd (node : Node) (counter : Pubkey → ℕ) (m : MarketConfig) : ℚ :=
  counter m.mint / 10 ^ m.decimals * rate node m

theorem foldl_count {ms : List MarketConfig} (inside : ∀ m ∈ ms, m ∈ client.config.markets)
    (stats : HeroStats) :
    (ms.map fun m => (m, fetchMarket client node m.id)).foldl (HeroStats.count node) stats =
      let read := ms.filter fun m => (fetchMarket client node m.id).isSome
      ⟨stats.totalSuppliedUsd + (read.map (marketUsd node node.store.totalSupplied)).sum,
        stats.totalBorrowedUsd + (read.map (marketUsd node node.store.totalBorrowed)).sum,
        stats.totalClaims + (read.map fun m => node.store.claims m.mint).sum⟩ := by
  induction ms generalizing stats with
  | nil => simp
  | cons m rest ih =>
      have others : ∀ m ∈ rest, m ∈ client.config.markets :=
        fun other member => inside other (List.mem_cons_of_mem _ member)
      rw [List.map_cons, List.foldl_cons, ih others]
      cases read : fetchMarket client node m.id with
      | none => simp [read, HeroStats.count]
      | some onchain =>
          have found := fetchMarket_some (inside m List.mem_cons_self) read
          have supplied := totalSupplied_of_lookup found
          have borrowed := totalBorrowed_of_lookup found
          have claims : node.store.claims m.mint = onchain.claimCount.val :=
            claimsIn_of_lookup found
          simp [read, count_adds, marketUsd, supplied, borrowed, claims, fromBase, add_assoc]

theorem heroStats_eq :
    (fetchHeroStats client node).1 =
      ⟨((readMarkets client node).map (marketUsd node node.store.totalSupplied)).sum,
        ((readMarkets client node).map (marketUsd node node.store.totalBorrowed)).sum,
        ((readMarkets client node).map fun m => node.store.claims m.mint).sum⟩ := by
  refine (foldl_count (fun m member => member) ⟨0, 0, 0⟩).trans ?_
  simp only [zero_add, readMarkets]

/-- A counter that is a sum over positions, in dollars, is the sum of their dollars. -/
theorem marketUsd_total (positions : Table (Pubkey × Pubkey) Position)
    (amount : Position → U64) (m : MarketConfig) :
    marketUsd node (fun mint => positions.total (inMarket (fun p => (amount p).val) mint)) m =
      positions.total fun key position => if key.2 = m.mint then
        fromBase (amount position) m.decimals * rate node m else 0 := by
  have scaled := positions.total_map
    ((AddMonoidHom.mulRight (rate node m / 10 ^ m.decimals)).comp (Nat.castAddMonoidHom ℚ))
    (inMarket (fun p => (amount p).val) m.mint)
  rw [marketUsd, div_mul_eq_mul_div, mul_div_assoc]
  refine scaled.symm.trans ?_
  apply Table.total_congr
  intro key position _
  by_cases here : key.2 = m.mint
  · simp [inMarket, here, fromBase, div_mul_eq_mul_div, mul_div_assoc]
  · simp [inMarket, here]

end Sums

section Laws

variable {rt : Runtime} {client : Client} {node : Node}

theorem claims_total (reached : Reachable rt node.store)
    (apart : ((readMarkets client node).map MarketConfig.mint).Nodup) :
    ((readMarkets client node).map fun m => node.store.claims m.mint).sum =
      node.store.receipts.total fun key _ =>
        if (readMarket client node key.2).isSome then 1 else 0 := by
  have perMarket (m : MarketConfig) : node.store.claims m.mint =
      node.store.receipts.total fun key _ => if key.2 = m.mint then 1 else 0 := by
    rw [reached.claims_eq, State.receiptCount]
    apply Table.total_congr
    intro key receipt found
    have named : receipt.mint = key.2 := congrArg Prod.snd (reached.receipt_named found)
    rw [named]
  rw [List.map_congr_left fun m _ => perMarket m,
    node.store.receipts.total_groups Prod.snd MarketConfig.mint (fun _ _ _ => 1) apart]
  apply Table.total_congr
  intro key _ _
  rw [readMarket]
  cases (readMarkets client node).find? fun m => key.2 = m.mint <;> rfl

end Laws

def Devnet.frontNode : Node :=
  pricedNode (replay devnet InterestFree .empty (indebted 4000000000000)) (quoted 10000000000)

end ShadowLend
