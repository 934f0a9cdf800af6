import ShadowLend.Agreement
import ShadowLend.Client.Session
import ShadowLend.Rounding
import Mathlib.Algebra.BigOperators.Ring.Finset

/-! The health factor on the page. It is formed from stored amounts, the LTVs of the
configuration and the prices at hand, in plain quotients where the program restates and
truncates. -/

namespace ShadowLend

open Outcome Devnet

def fetchMarket (client : Client) (node : Node) (marketId : String) : Option Market := do
  let m ← client.getMarketConfig marketId
  if client.readClient && !node.fails (.market marketId) then node.store.markets.lookup m.mint
  else none

def fetchClaimReceipt (client : Client) (node : Node) (marketId : String) :
    Option ClaimReceipt := do
  let user ← client.wallet
  let m ← client.getMarketConfig marketId
  if client.readClient && !node.fails (.receipt marketId) then
    node.store.receipts.lookup (user, m.mint)
  else none

def fetchTokenBalance (client : Client) (node : Node) (marketId : String) : ℚ :=
  let acct : Option ℚ := do
    let user ← client.wallet
    let m ← client.getMarketConfig marketId
    let acct ← node.store.tokens.lookup (.associatedToken user m.mint)
    if node.fails (.balance marketId) then none else some (fromBase acct.amount m.decimals)
  acct.getD 0

/-- What does not depend on prices. -/
structure MarketRow where
  m : MarketConfig
  onchain : Option Market
  claimed : Bool
  balance : ℚ
  supplied : ℚ
  borrowed : ℚ

def marketRow (client : Client) (node : Node) (m : MarketConfig) : MarketRow where
  m := m
  onchain := fetchMarket client node m.id
  claimed := (fetchClaimReceipt client node m.id).isSome
  balance := fetchTokenBalance client node m.id
  supplied := (fetchPosition client node m.id).elim 0 PositionView.supplied
  borrowed := (fetchPosition client node m.id).elim 0 PositionView.borrowed

/-- A market without a price counts for nothing. -/
def usd (amount : ℚ) (p : Option FreshPrice) : ℚ :=
  match p with
  | none => 0
  | some p => if p.price ≤ 0 then 0 else amount * p.price * 10 ^ p.expo

section Sums

variable (client : Client) (node : Node)

def collateralUsd : ℚ :=
  (client.config.markets.map fun m =>
    usd (marketRow client node m).supplied (node.resolvePrice m.feedHex)).sum

def debtUsd : ℚ :=
  (client.config.markets.map fun m =>
    usd (marketRow client node m).borrowed (node.resolvePrice m.feedHex)).sum

def maxBorrowableUsd : ℚ :=
  (client.config.markets.map fun m =>
    usd (marketRow client node m).supplied (node.resolvePrice m.feedHex) *
      (m.maxLtvBps / 10000)).sum

def healthFactor : Option ℚ :=
  if 0 < debtUsd client node then some (maxBorrowableUsd client node / debtUsd client node)
  else none

def borrowable (p : Option FreshPrice) : ℚ :=
  match p with
  | none => 0
  | some p =>
      if 0 < p.price then
        max 0 (maxBorrowableUsd client node - debtUsd client node) / (p.price * 10 ^ p.expo)
      else 0

end Sums

structure ShownMarket where
  row : MarketRow
  priceUsd : Option ℚ
  health : Option ℚ
  borrowable : ℚ

/-- The sums are not given without a wallet. -/
structure UserMarketState where
  markets : List ShownMarket
  health : Option ℚ
  collateralUsd : Option ℚ
  debtUsd : Option ℚ
  maxBorrowableUsd : Option ℚ

def fetchUserMarketState (client : Client) (node : Node) : UserMarketState :=
  match client.wallet with
  | none => ⟨[], none, none, none, none⟩
  | some _ =>
      { markets := client.config.markets.map fun m =>
          let p := node.resolvePrice m.feedHex
          ⟨marketRow client node m, p.map fun p => p.price * 10 ^ p.expo,
            healthFactor client node, borrowable client node p⟩
        health := healthFactor client node
        collateralUsd := some (collateralUsd client node)
        debtUsd := some (debtUsd client node)
        maxBorrowableUsd := some (maxBorrowableUsd client node) }

/-- The page shows a health of one or more, or none because it sees no debt. -/
def ShownHealthy (client : Client) (node : Node) : Prop :=
  ∀ health, (fetchUserMarketState client node).health = some health → 1 ≤ health

/-- Where the page has a price it is positive and the one the program reads. -/
def SameFeeds (client : Client) (node : Node) (prices : FeedId → Price) : Prop :=
  ∀ m ∈ client.config.markets, ∀ entry, node.resolvePrice m.feedHex = some entry →
    entry.price = (prices m.feedHex).price.toInt ∧
      entry.expo = (prices m.feedHex).exponent.toInt ∧ 0 < entry.price

structure Config.Describes (config : Config) (s : State) : Prop where
  mints : (config.markets.map MarketConfig.mint).Nodup
  terms : ∀ m ∈ config.markets, ∀ terms, s.marketTerms m.mint = some terms →
    terms.maxLtvBps.val = m.maxLtvBps ∧ terms.feedId = m.feedHex
  decimals : ∀ m ∈ config.markets, m.decimals = mintDecimals.val

def shownEntry (client : Client) (node : Node) (prices : FeedId → Price) (user : Pubkey)
    (m : MarketConfig) : Option Contribution :=
  if (fetchPosition client node m.id).isSome ∧ (node.resolvePrice m.feedHex).isSome then
    ((node.store.positions.lookup (user, m.mint)).filter fun position =>
      ¬ position.isEmpty).map (storedEntry prices user m.mint)
  else none

def shownEntries (client : Client) (node : Node) (prices : FeedId → Price) (user : Pubkey) :
    List Contribution :=
  client.config.markets.filterMap (shownEntry client node prices user)

/-- The range in which the program's arithmetic neither panics nor drops a divisor nor
cuts a deposit off. -/
structure Contribution.InRange (e : Contribution) : Prop where
  converts : e.price.converts e.decimals
  wide : -38 ≤ e.price.scale e.decimals
  fits : exactUsd e.supplied e.price e.decimals * e.maxLtvBps.val ≤ (2 ^ 128 - 1 : ℕ)

def Contribution.rounding (e : Contribution) : ℚ :=
  if e.supplied.val = 0 then 0 else 1 + e.maxLtvBps.val / 10000

section Entries

variable {e : Contribution}

theorem entry_debt_le (range : e.InRange) (priced : 0 < e.price.price.toInt) :
    (e.debt : ℚ) ≤ e.exactDebt := by
  have positive : 0 ≤ e.exactDebt := exactUsd_nonneg priced
  have below : (e.debt : ℚ) ≤ max e.exactDebt 0 := usdValue_le_exact range.converts range.wide
  rwa [max_eq_left positive] at below

/-- In range a deposit is neither cut off before it is weighted nor after. -/
theorem entry_collateral (range : e.InRange) (priced : 0 < e.price.price.toInt) :
    e.collateral = ⌊exactUsd e.supplied e.price e.decimals⌋₊ * e.maxLtvBps.val / 10000 := by
  have positive : 0 ≤ exactUsd e.supplied e.price e.decimals := exactUsd_nonneg priced
  have weighted : ⌊exactUsd e.supplied e.price e.decimals⌋₊ * e.maxLtvBps.val ≤ 2 ^ 128 - 1 := by
    have product : ((⌊exactUsd e.supplied e.price e.decimals⌋₊ * e.maxLtvBps.val : ℕ) : ℚ) ≤
        (2 ^ 128 - 1 : ℕ) := by
      rw [Nat.cast_mul]
      exact (mul_le_mul_of_nonneg_right (Nat.floor_le positive) (Nat.cast_nonneg _)).trans range.fits
    exact Nat.cast_le.mp product
  rw [Contribution.collateral, collateralValue, usdValue_floor range.converts range.wide]
  rcases Nat.eq_zero_or_pos e.maxLtvBps.val with none | some
  · rw [none, Nat.mul_zero, Nat.mul_zero, Nat.zero_min]
  · have alone := Nat.le_mul_of_pos_right ⌊exactUsd e.supplied e.price e.decimals⌋₊ some
    rw [min_eq_left (alone.trans weighted), min_eq_left weighted]

theorem entry_collateral_ge (range : e.InRange) (priced : 0 < e.price.price.toInt) :
    e.exactCollateral ≤ e.collateral + e.rounding := by
  rw [Contribution.rounding]
  split
  · rename_i nothing
    rw [Contribution.exactCollateral, exactUsd_zero nothing, zero_mul, zero_div, add_zero]
    exact Nat.cast_nonneg _
  · have above := (Nat.lt_floor_add_one (exactUsd e.supplied e.price e.decimals)).le
    have weight : (0 : ℚ) ≤ e.maxLtvBps.val := Nat.cast_nonneg _
    have quotient : ⌊exactUsd e.supplied e.price e.decimals⌋₊ * e.maxLtvBps.val ≤
        (e.collateral + 1) * 10000 := by
      rw [entry_collateral range priced]
      exact (Nat.lt_mul_of_div_lt (Nat.lt_succ_self _) (by decide)).le
    have quotient' : (⌊exactUsd e.supplied e.price e.decimals⌋₊ : ℚ) * e.maxLtvBps.val ≤
        (e.collateral + 1) * 10000 := by exact_mod_cast quotient
    have scaled := mul_le_mul_of_nonneg_right above weight
    rw [Contribution.exactCollateral]
    linarith

theorem rounding_nonneg (e : Contribution) : 0 ≤ e.rounding := by
  rw [Contribution.rounding]
  split
  · exact le_rfl
  · positivity

end Entries

/-- The sums of the program stay within the roundings of the exact ones. -/
theorem rounded_sums {log : List Contribution} (range : ∀ e ∈ log, e.InRange)
    (priced : ∀ e ∈ log, 0 < e.price.price.toInt)
    (covered : (log.map Contribution.exactDebt).sum ≤ (log.map Contribution.exactCollateral).sum) :
    ((log.map Contribution.debt).sum : ℚ) ≤
      (log.map Contribution.collateral).sum + (log.map Contribution.rounding).sum := by
  have debts : ((log.map Contribution.debt).sum : ℚ) ≤ (log.map Contribution.exactDebt).sum := by
    rw [Nat.cast_list_sum, List.map_map]
    exact List.sum_le_sum fun e member => entry_debt_le (range e member) (priced e member)
  have deposits : (log.map Contribution.exactCollateral).sum ≤
      (log.map Contribution.collateral).sum + (log.map Contribution.rounding).sum := by
    rw [Nat.cast_list_sum, List.map_map, ← List.sum_map_add]
    exact List.sum_le_sum fun e member => entry_collateral_ge (range e member) (priced e member)
  exact debts.trans (covered.trans deposits)

theorem sum_map_filterMap {α β : Type} (f : α → Option β) (g : β → ℚ) (items : List α) :
    ((items.filterMap f).map g).sum = (items.map fun a => (f a).elim 0 g).sum := by
  induction items with
  | nil => rfl
  | cons head tail ih =>
      rw [List.map_cons, List.sum_cons, ← ih]
      cases found : f head with
      | none => rw [List.filterMap_cons_none found, Option.elim_none, zero_add]
      | some b => rw [List.filterMap_cons_some found, List.map_cons, List.sum_cons,
          Option.elim_some]

theorem usd_scaled (amount : U64) {price : Price} {decimals : U8} {places : ℕ} {entry : FreshPrice}
    (same : entry.price = price.price.toInt ∧ entry.expo = price.exponent.toInt ∧ 0 < entry.price)
    (digits : places = decimals.val) :
    10 ^ 8 * usd (fromBase amount places) (some entry) = exactUsd amount price decimals := by
  have power : (10 : ℚ) ^ price.scale decimals =
      10 ^ 8 * 10 ^ price.exponent.toInt / 10 ^ decimals.val := by
    rw [Price.scale, zpow_sub₀ (by norm_num), zpow_add₀ (by norm_num), zpow_natCast]
    norm_num
  rw [usd, if_neg (not_le.mpr same.2.2), fromBase, digits, same.1, same.2.1, exactUsd, power]
  ring

section Reading

variable {rt : Runtime} {client : Client} {node : Node} {prices : FeedId → Price} {user : Pubkey}
variable {m : MarketConfig}

theorem fetchPosition_some {view : PositionView} (connected : client.wallet = some user)
    (member : m ∈ client.config.markets) (read : fetchPosition client node m.id = some view) :
    ∃ position, node.store.positions.lookup (user, m.mint) = some position ∧
      view = ⟨fromBase position.supplied m.decimals, fromBase position.borrowed m.decimals,
        position.supplied, position.borrowed⟩ := by
  rw [fetchPosition, connected, getMarketConfig_self member] at read
  simp only [Option.bind_eq_bind, Option.bind_some] at read
  split at read
  · rw [Option.bind_eq_some_iff] at read
    rcases read with ⟨position, fetched, shown⟩
    rw [Node.fetchAccount] at fetched
    split at fetched
    · cases fetched
    · cases shown
      exact ⟨position, fetched, rfl⟩
  · cases read

theorem described_position (linked : Linked rt node.store)
    (describes : client.config.Describes node.store) (member : m ∈ client.config.markets)
    {position : Position} (found : node.store.positions.lookup (user, m.mint) = some position) :
    position.feedId = m.feedHex ∧ position.maxLtvBps.val = m.maxLtvBps ∧
      m.decimals = position.decimals.val := by
  rcases linked.position user m.mint _ (positionTerms_of_lookup found) with ⟨_, terms, named, shape⟩
  have described := describes.terms m member terms named
  have feed : position.feedId = terms.feedId := congrArg PositionTerms.feedId shape
  have ltv : position.maxLtvBps = terms.maxLtvBps := congrArg PositionTerms.maxLtvBps shape
  have digits : position.decimals = mintDecimals := congrArg PositionTerms.decimals shape
  refine ⟨feed.trans described.2, ?_, ?_⟩
  · rw [ltv, described.1]
  · rw [digits, describes.decimals m member]

theorem shownEntry_some {e : Contribution}
    (shown : shownEntry client node prices user m = some e) :
    ∃ position, node.store.positions.lookup (user, m.mint) = some position ∧
      ¬ position.isEmpty ∧ e = storedEntry prices user m.mint position ∧
      ∃ entry, node.resolvePrice m.feedHex = some entry := by
  rw [shownEntry] at shown
  split at shown
  · rename_i read
    rcases Option.map_eq_some_iff.mp shown with ⟨position, kept, same⟩
    rcases Option.filter_eq_some_iff.mp kept with ⟨found, holds⟩
    exact ⟨position, found, of_decide_eq_true holds, same.symm, Option.isSome_iff_exists.mp read.2⟩
  · cases shown

/-- What the page counts for an amount is the exact value of that amount in the entry. -/
theorem row_worth (linked : Linked rt node.store) (connected : client.wallet = some user)
    (describes : client.config.Describes node.store) (same : SameFeeds client node prices)
    (member : m ∈ client.config.markets) (shown : PositionView → ℚ) (amount : Contribution → U64)
    (views : ∀ position : Position,
      shown ⟨fromBase position.supplied m.decimals, fromBase position.borrowed m.decimals,
        position.supplied, position.borrowed⟩ =
          fromBase (amount (storedEntry prices user m.mint position)) m.decimals)
    (hollow : ∀ position : Position, position.isEmpty →
      (amount (storedEntry prices user m.mint position)).val = 0) :
    10 ^ 8 * usd ((fetchPosition client node m.id).elim 0 shown) (node.resolvePrice m.feedHex) =
      (shownEntry client node prices user m).elim 0 fun e =>
        exactUsd (amount e) e.price e.decimals := by
  cases priced : node.resolvePrice m.feedHex with
  | none => simp [usd, shownEntry, priced]
  | some entry =>
      cases read : fetchPosition client node m.id with
      | none =>
          have nothing : usd 0 (some entry) = 0 := by simp [usd]
          simp [shownEntry, read, nothing]
      | some view =>
          rcases fetchPosition_some connected member read with ⟨position, found, shape⟩
          rcases described_position linked describes member found with ⟨feed, _, digits⟩
          have quoted := same m member entry priced
          rw [← feed] at quoted
          have worth := usd_scaled (amount (storedEntry prices user m.mint position)) quoted digits
          have counted : shownEntry client node prices user m =
              ((some position).filter fun position => ¬ position.isEmpty).map
                (storedEntry prices user m.mint) := by
            rw [shownEntry, if_pos ⟨by rw [read]; rfl, by rw [priced]; rfl⟩, found]
          rw [Option.elim_some, shape, views, worth, counted, Option.filter_some]
          by_cases empty : position.isEmpty
          · rw [if_neg (by simp [empty])]
            exact exactUsd_zero (hollow position empty)
          · rw [if_pos (by simp [empty])]
            rfl

theorem shownEntries_mem {e : Contribution} (member : e ∈ shownEntries client node prices user) :
    ∃ m ∈ client.config.markets, shownEntry client node prices user m = some e :=
  List.mem_filterMap.mp member

theorem shownEntry_described (linked : Linked rt node.store)
    (describes : client.config.Describes node.store) (same : SameFeeds client node prices)
    (member : m ∈ client.config.markets) {e : Contribution}
    (shown : shownEntry client node prices user m = some e) :
    0 < e.price.price.toInt ∧ e.maxLtvBps.val = m.maxLtvBps := by
  rcases shownEntry_some shown with ⟨position, found, _, shape, entry, priced⟩
  rcases described_position linked describes member found with ⟨feed, ltv, _⟩
  have quoted := same m member entry priced
  have price : e.price = prices m.feedHex := by
    rw [shape, ← feed]
    rfl
  rw [price, ← quoted.1]
  exact ⟨quoted.2.2, by rw [shape, ← ltv]; rfl⟩

theorem exact_debts (linked : Linked rt node.store) (connected : client.wallet = some user)
    (describes : client.config.Describes node.store) (same : SameFeeds client node prices) :
    ((shownEntries client node prices user).map Contribution.exactDebt).sum =
      10 ^ 8 * debtUsd client node := by
  rw [shownEntries, sum_map_filterMap, debtUsd, ← List.sum_map_mul_left]
  apply congrArg List.sum
  apply List.map_congr_left
  intro m member
  exact (row_worth linked connected describes same member PositionView.borrowed
    Contribution.borrowed (fun _ => rfl) fun _ empty => empty.2).symm

theorem exact_deposits (linked : Linked rt node.store) (connected : client.wallet = some user)
    (describes : client.config.Describes node.store) (same : SameFeeds client node prices) :
    ((shownEntries client node prices user).map Contribution.exactCollateral).sum =
      10 ^ 8 * maxBorrowableUsd client node := by
  rw [shownEntries, sum_map_filterMap, maxBorrowableUsd, ← List.sum_map_mul_left]
  apply congrArg List.sum
  apply List.map_congr_left
  intro m member
  have worth := row_worth linked connected describes same member PositionView.supplied
    Contribution.supplied (fun _ => rfl) fun _ empty => empty.1
  rw [marketRow, ← mul_assoc, worth]
  cases shown : shownEntry client node prices user m with
  | none => simp
  | some e =>
      rw [Option.elim_some, Option.elim_some, Contribution.exactCollateral,
        (shownEntry_described linked describes same member shown).2, mul_div_assoc]

theorem healthy_covers (linked : Linked rt node.store) (connected : client.wallet = some user)
    (describes : client.config.Describes node.store) (same : SameFeeds client node prices)
    (healthy : ShownHealthy client node) :
    ((shownEntries client node prices user).map Contribution.exactDebt).sum ≤
      ((shownEntries client node prices user).map Contribution.exactCollateral).sum := by
  rcases le_or_gt (debtUsd client node) 0 with nothing | owes
  · have deposits : 0 ≤ ((shownEntries client node prices user).map
        Contribution.exactCollateral).sum := by
      apply List.sum_nonneg
      intro worth member
      rcases List.mem_map.mp member with ⟨e, inside, rfl⟩
      rcases shownEntries_mem inside with ⟨m, configured, shown⟩
      have value : 0 ≤ exactUsd e.supplied e.price e.decimals :=
        exactUsd_nonneg (shownEntry_described linked describes same configured shown).1
      exact div_nonneg (mul_nonneg value (Nat.cast_nonneg _)) (by norm_num)
    rw [exact_debts linked connected describes same]
    exact (mul_nonpos_of_nonneg_of_nonpos (by norm_num) nothing).trans deposits
  · have health : (fetchUserMarketState client node).health =
        some (maxBorrowableUsd client node / debtUsd client node) := by
      rw [fetchUserMarketState, connected]
      exact if_pos owes
    have ratio := healthy _ health
    rw [one_le_div owes] at ratio
    rw [exact_debts linked connected describes same,
      exact_deposits linked connected describes same]
    exact mul_le_mul_of_nonneg_left ratio (by norm_num)

end Reading

/-- No position of the user escapes the page, whether by a call or a price that failed or
by a market missing from the configuration. -/
def SeesAll (client : Client) (node : Node) (user : Pubkey) : Prop :=
  ∀ mint position, node.store.positions.lookup (user, mint) = some position →
    ¬ position.isEmpty → ∃ m ∈ client.config.markets, m.mint = mint ∧
      (fetchPosition client node m.id).isSome ∧ (node.resolvePrice m.feedHex).isSome

def State.settled (s : State) (user : Pubkey) : Prop :=
  ∀ mint position, s.positions.lookup (user, mint) = some position →
    s.debtNow (user, mint) position = position.borrowed

section Totals

variable {client : Client} {node : Node} {prices : FeedId → Price} {user : Pubkey}

theorem shownEntry_of_seen {m : MarketConfig} {position : Position}
    (found : node.store.positions.lookup (user, m.mint) = some position)
    (holds : ¬ position.isEmpty) (read : (fetchPosition client node m.id).isSome)
    (priced : (node.resolvePrice m.feedHex).isSome) :
    shownEntry client node prices user m = some (storedEntry prices user m.mint position) := by
  rw [shownEntry, if_pos ⟨read, priced⟩, found, Option.filter_some, if_pos (by simp [holds])]
  rfl

theorem userDebt_le_shown (seen : SeesAll client node user) (settled : node.store.settled user) :
    node.store.userDebt prices user ≤
      ((shownEntries client node prices user).map Contribution.debt).sum := by
  apply total_le_of_listed
  · intro e member mint position named found
    rcases shownEntries_mem member with ⟨m, _, shown⟩
    rcases shownEntry_some shown with ⟨position', found', _, shape, _⟩
    have account : e.account = .position user m.mint := by rw [shape]; rfl
    have here : mint = m.mint := (Pubkey.position.inj (named.symm.trans account)).2
    rw [here] at found
    have stored : position' = position := Option.some.inj (found'.symm.trans found)
    rw [here, settled m.mint position found, shape, stored]
    exact le_rfl
  · intro mint position found owes
    have holds : ¬ position.isEmpty := by
      intro empty
      apply owes
      rw [settled mint position found]
      exact usdValue_zero _ _ empty.2
    rcases seen mint position found holds with ⟨m, member, here, read, priced⟩
    rw [← here] at found
    refine ⟨storedEntry prices user m.mint position, ?_, by rw [← here]; rfl⟩
    exact List.mem_filterMap.mpr ⟨m, member, shownEntry_of_seen found holds read priced⟩

/-- No deposit the page counts is counted twice. -/
theorem shown_le_userCollateral (mints : (client.config.markets.map MarketConfig.mint).Nodup) :
    ((shownEntries client node prices user).map Contribution.collateral).sum ≤
      node.store.userCollateral prices user := by
  apply le_total_of_once
  · intro e member
    rcases shownEntries_mem member with ⟨m, _, shown⟩
    rcases shownEntry_some shown with ⟨position, found, _, shape, _⟩
    exact ⟨m.mint, position, by rw [shape]; rfl, found, by rw [shape]; exact le_rfl⟩
  · rw [shownEntries, List.pairwise_filterMap]
    apply (List.pairwise_map.mp mints).imp
    intro m m' distinct e shown e' shown' _ _ same
    rcases shownEntry_some shown with ⟨_, _, _, shape, _⟩
    rcases shownEntry_some shown' with ⟨_, _, _, shape', _⟩
    rw [shape, shape'] at same
    exact distinct (Pubkey.position.inj same).2

end Totals

/-- A health of one or more on the page, against the program's totals of the positions
the page counts, at the amounts they are stored with: short of the deposits at most what
their truncation takes. Where the page sees every position and nothing has accrued since,
these are the totals of the user. -/
theorem shown_health_close {rt : Runtime} {client : Client} {node : Node}
    {prices : FeedId → Price} {user : Pubkey} (reached : Reachable rt node.store)
    (connected : client.wallet = some user) (describes : client.config.Describes node.store)
    (same : SameFeeds client node prices)
    (range : ∀ e ∈ shownEntries client node prices user, e.InRange)
    (healthy : ShownHealthy client node) :
    (∃ totals, accumulateAll (shownEntries client node prices user) .zero = .ok totals ∧
      (totals.debt.val : ℚ) ≤ totals.collatAtLtv.val +
        ((shownEntries client node prices user).map Contribution.rounding).sum) ∧
    (SeesAll client node user → node.store.settled user →
      (node.store.userDebt prices user : ℚ) ≤ node.store.userCollateral prices user +
        ((shownEntries client node prices user).map Contribution.rounding).sum) := by
  have linked := reached.linked
  have priced : ∀ e ∈ shownEntries client node prices user, 0 < e.price.price.toInt := by
    intro e member
    rcases shownEntries_mem member with ⟨m, configured, shown⟩
    exact (shownEntry_described linked describes same configured shown).1
  have sums := rounded_sums range priced
    (healthy_covers linked connected describes same healthy)
  constructor
  · have converts : ∀ e ∈ shownEntries client node prices user, e.price.converts e.decimals :=
      fun e member => (range e member).converts
    rcases accumulateAll_ok_iff.mpr converts with ⟨totals, ran⟩
    refine ⟨totals, ran, ?_⟩
    rcases accumulateAll_zero ran with ⟨collateral, debt⟩
    have kept : 0 ≤ ((shownEntries client node prices user).map Contribution.rounding).sum := by
      apply List.sum_nonneg
      intro amount member
      rcases List.mem_map.mp member with ⟨e, _, rfl⟩
      exact rounding_nonneg e
    rcases le_total ((shownEntries client node prices user).map Contribution.collateral).sum
      (2 ^ 128 - 1) with fits | saturated
    · have below : (totals.debt.val : ℚ) ≤
          ((shownEntries client node prices user).map Contribution.debt).sum :=
        Nat.cast_le.mpr (debt.trans_le (min_le_left _ _))
      rw [collateral, min_eq_left fits]
      exact below.trans sums
    · have below : (totals.debt.val : ℚ) ≤ totals.collatAtLtv.val := by
        rw [collateral, min_eq_right saturated]
        exact Nat.cast_le.mpr totals.debt.val_le_max
      linarith
  · intro seen settled
    have debts : (node.store.userDebt prices user : ℚ) ≤
        ((shownEntries client node prices user).map Contribution.debt).sum :=
      Nat.cast_le.mpr (userDebt_le_shown seen settled)
    have deposits : (((shownEntries client node prices user).map
        Contribution.collateral).sum : ℚ) ≤ node.store.userCollateral prices user :=
      Nat.cast_le.mpr (shown_le_userCollateral describes.mints)
    linarith

def Devnet.pricedNode (store : State) (prices : FeedId → Price) : Node where
  store := store
  fails := fun _ => false
  cached := fun feed => some ⟨⟨.default, (prices feed).price.toInt, (prices feed).exponent.toInt,
    (prices feed).publishTime.toInt⟩, 0⟩
  now := 0
  prices := fun _ => none

instance (client : Client) (node : Node) : Decidable (ShownHealthy client node) :=
  inferInstanceAs (Decidable (∀ health, _ = some health → 1 ≤ health))

instance (client : Client) (node : Node) (prices : FeedId → Price) :
    Decidable (SameFeeds client node prices) :=
  inferInstanceAs (Decidable (∀ m ∈ client.config.markets, ∀ entry,
    node.resolvePrice m.feedHex = some entry → _))

def Devnet.seenLoan : Node := pricedNode (ledger (indebted 5000000000000)) (quoted 10000000000)

def Devnet.loanEntries : List Contribution :=
  shownEntries page seenLoan (quoted 10000000000) alice.pubkey

theorem shown_health_close_loan :
    (∃ totals, accumulateAll loanEntries .zero = .ok totals ∧
      (totals.debt.val : ℚ) ≤ totals.collatAtLtv.val +
        (loanEntries.map Contribution.rounding).sum) ∧
    (seenLoan.store.userDebt (quoted 10000000000) alice.pubkey : ℚ) ≤
      seenLoan.store.userCollateral (quoted 10000000000) alice.pubkey +
        (loanEntries.map Contribution.rounding).sum := by
  have describes : page.config.Describes seenLoan.store :=
    ⟨by decide +kernel, by decide +kernel, by decide +kernel⟩
  have same : SameFeeds page seenLoan (quoted 10000000000) := by decide +kernel
  have healthy : ShownHealthy page seenLoan := by decide +kernel
  have summed : ∃ totals, accumulateAll loanEntries .zero = .ok totals ∧
      totals.debt.val = 500000000000 := ok_where (by decide +kernel)
  have bounds : ∀ e ∈ loanEntries, -38 ≤ e.price.scale e.decimals ∧
      exactUsd e.supplied e.price e.decimals * e.maxLtvBps.val ≤ (2 ^ 128 - 1 : ℕ) := by
    decide +kernel
  have range : ∀ e ∈ loanEntries, e.InRange := by
    intro e member
    rcases summed with ⟨totals, ran, _⟩
    exact ⟨accumulateAll_ok_iff.mp ⟨totals, ran⟩ e member, (bounds e member).1, (bounds e member).2⟩
  have held : ∀ key position, seenLoan.store.positions.lookup key = some position →
      key.1 = alice.pubkey → seenLoan.store.debtNow key position = position.borrowed ∧
        (¬ position.isEmpty → ∃ m ∈ page.config.markets, m.mint = key.2 ∧
          (fetchPosition page seenLoan m.id).isSome ∧
          (seenLoan.resolvePrice m.feedHex).isSome) := by
    decide +kernel
  have seen : SeesAll page seenLoan alice.pubkey :=
    fun mint position found => (held (alice.pubkey, mint) position found rfl).2
  have settled : seenLoan.store.settled alice.pubkey :=
    fun mint position found => (held (alice.pubkey, mint) position found rfl).1
  have close := shown_health_close (ledger_reachable _) rfl describes same range healthy
  exact ⟨close.1, close.2 seen settled⟩

def State.heldCount (s : State) (user : Pubkey) : ℕ :=
  s.positions.total (ofUser user fun _ position => if position.isEmpty then 0 else 1)

/-- The page shows health where the user is short by more than a unit for each position. -/
def Misleads (client : Client) (prices : FeedId → Price) (node : Node) : Prop :=
  Reachable devnet node.store ∧ ShownHealthy client node ∧ SameFeeds client node prices ∧
    node.store.userCollateral prices alice.pubkey + node.store.heldCount alice.pubkey <
      node.store.userDebt prices alice.pubkey

def Node.without (node : Node) (feedId : FeedId) : Node :=
  { node with cached := fun feed => if feed = feedId then none else node.cached feed }

def Node.failing (node : Node) (call : Call) : Node := { node with fails := (· = call) }

theorem store_without (node : Node) (feedId : FeedId) :
    (node.without feedId).store = node.store := rfl

theorem store_failing (node : Node) (call : Call) : (node.failing call).store = node.store := rfl

namespace Devnet

def halved : List Action := indebted 8000000000000 ++ [reach 200 5000000000]

def unpaid : List Action := indebted 8000000000000 ++ [reach 1000100 10000000000]

/-- Three deposits of almost two, eight and two units, and a debt of nine. -/
def uneven : List Action :=
  lenders ++ openPosition alice btc btcPrice ++
    [.withdraw alice sol.pubkey solPrice [] 99999998001, .supply alice btc.pubkey 1999,
      .borrow alice usdc.pubkey usdcPrice (listed alice sol solPrice) 9000,
      .supply alice usdc.pubkey 7999]

def cautious : List Action :=
  [reach 100 10000000000,
    .initializeMarket admin sol 1000000000000 5000 solFeed 12683916794,
    .initializeMarket admin usdc 50000000000000 8500 usdcFeed 25367833587,
    .initializeMarket admin btc 50000000000 7500 btcFeed 6341958397] ++
    deposits ++ openPosition alice usdc usdcPrice ++
    [borrowUsdc 5000000000000, reach 200 8000000000]

def exponents (sol others : Int32) (feedId : FeedId) : Price :=
  ⟨1, 0, if feedId = solFeed then sol else others, 1000⟩

def solPage : Client := { page with config := ⟨[solMarket], by decide⟩ }

end Devnet

/-- Interest the page does not restate, a price it does not get, roundings of more than a
unit for a position, a divisor the program drops, a deposit it cuts off, an LTV that is
not the market's, a position it does not get and a market it does not know. -/
theorem shown_health_misleads :
    Misleads page (quoted 10000000000) (pricedNode (ledger unpaid) (quoted 10000000000)) ∧
      Misleads page (quoted 5000000000)
        ((pricedNode (ledger halved) (quoted 5000000000)).without usdcFeed) ∧
      Misleads page (exponents (-2) (-2)) (pricedNode (ledger uneven) (exponents (-2) (-2))) ∧
      Misleads page (exponents (-8) (-60)) (pricedNode (ledger halved) (exponents (-8) (-60))) ∧
      Misleads page (exponents 28 25) (pricedNode (ledger halved) (exponents 28 25)) ∧
      Misleads page (quoted 8000000000) (pricedNode (ledger cautious) (quoted 8000000000)) ∧
      Misleads page (quoted 5000000000)
        ((pricedNode (ledger halved) (quoted 5000000000)).failing (.position "usdc")) ∧
      Misleads solPage (quoted 5000000000)
        (pricedNode (ledger halved) (quoted 5000000000)) := by
  have reached (actions : List Action) (prices : FeedId → Price) :
      Reachable devnet (pricedNode (ledger actions) prices).store := ledger_reachable actions
  have unpriced : Reachable devnet
      ((pricedNode (ledger halved) (quoted 5000000000)).without usdcFeed).store := by
    rw [store_without]
    exact reached halved _
  have unread : Reachable devnet
      ((pricedNode (ledger halved) (quoted 5000000000)).failing (.position "usdc")).store := by
    rw [store_failing]
    exact reached halved _
  refine ⟨⟨reached unpaid _, ?_⟩, ⟨unpriced, ?_⟩, ⟨reached uneven _, ?_⟩, ⟨reached halved _, ?_⟩,
    ⟨reached halved _, ?_⟩, ⟨reached cautious _, ?_⟩, ⟨unread, ?_⟩, ⟨reached halved _, ?_⟩⟩ <;>
    decide +kernel

end ShadowLend
