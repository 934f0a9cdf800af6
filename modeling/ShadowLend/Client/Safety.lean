import ShadowLend.Client.Transactions
import ShadowLend.Collateralisation
import ShadowLend.Agreement
import ShadowLend.Ownership

/-! The page and the program together. The program trusts the list it is handed. Where
the page could read every position, the list it sends deserves that, however much later
and after whatever others did the transaction is carried out. -/

namespace ShadowLend

open Outcome Devnet

/-- The page knows every market the user has something in, each mint once. -/
structure Configured (client : Client) (s : State) (user : Pubkey) : Prop where
  distinct : (client.config.markets.map MarketConfig.mint).Nodup
  complete : ∀ mint position, s.positions.lookup (user, mint) = some position →
    ¬ position.isEmpty → ∃ m ∈ client.config.markets, m.mint = mint

def Answered (client : Client) (node : Node) : Prop :=
  ∀ m ∈ client.config.markets, node.fails (.position m.id) = false

/-- All a user owes by the books: each debt as it was last restated. -/
def State.bookedDebt (s : State) (prices : FeedId → Price) (user : Pubkey) : ℕ :=
  s.positions.total (ofUser user (storedDebtValue prices))

/-- The instruction in a transaction of `modifyPosition` which the program checks the
health of, with the amount it decodes. -/
inductive ModifyTransaction.Carries (tx : ModifyTransaction) (user : Signer) : Action → Prop
  | withdraw {priceUpdate : Pubkey} {amount : U64} (method : tx.method = .withdraw)
      (priced : tx.priceUpdate = some priceUpdate) (encoded : tx.amount = amount.val) :
      Carries tx user (.withdraw user tx.mint priceUpdate tx.remaining amount)
  | borrow {priceUpdate : Pubkey} {amount : U64} (method : tx.method = .borrow)
      (priced : tx.priceUpdate = some priceUpdate) (encoded : tx.amount = amount.val) :
      Carries tx user (.borrow user tx.mint priceUpdate tx.remaining amount)

/-- The accounts of a transaction of `liquidate`, under the program's names. -/
structure LiquidateTransaction.Carries (tx : LiquidateTransaction) (accounts : LiquidateAccounts) :
    Prop where
  liquidator : tx.liquidator = accounts.liquidator.pubkey
  borrower : tx.borrower = accounts.borrower
  debtMarket : tx.debtMarket = .market accounts.debtMint
  debtPriceUpdate : tx.debtPriceUpdate = accounts.debtPriceUpdate
  liquidatorDebtAta : tx.liquidatorDebtAta = accounts.liquidatorDebtAta
  collateralMarket : tx.collateralMarket = .market accounts.collateralMint
  collateralPriceUpdate : tx.collateralPriceUpdate = accounts.collateralPriceUpdate
  liquidatorCollateralAta : tx.liquidatorCollateralAta = accounts.liquidatorCollateralAta

section Lists

variable {client : Client} {node : Node} {user : Pubkey} {main : List String}
variable {remaining : List Pubkey}

theorem listedPositions_crossAccounts (user : Pubkey) (places : List (MarketConfig × Pubkey)) :
    listedPositions (crossAccounts user places) =
      places.map fun place => .position user place.1.mint := by
  induction places with
  | nil => rfl
  | cons head tail ih => exact congrArg (.position user head.1.mint :: ·) ih

theorem market_eq_of_id {marketId : String} {cfg m : MarketConfig}
    (found : client.getMarketConfig marketId = some cfg) (member : m ∈ client.config.markets)
    (same : m.id = marketId) : m = cfg := by
  rw [← same, getMarketConfig_self member, Option.some.injEq] at found
  exact found

theorem getMarketConfig_some {marketId : String} {cfg : MarketConfig}
    (found : client.getMarketConfig marketId = some cfg) :
    cfg ∈ client.config.markets ∧ cfg.id = marketId := by
  have accepted := List.find?_some found
  exact ⟨List.mem_of_find?_eq_some found, of_decide_eq_true accepted⟩

theorem submits_names (submitted : Submits client node user main remaining)
    (answered : Answered client node) (configured : Configured client node.store user)
    {mint : Pubkey} {position : Position}
    (held : node.store.positions.lookup (user, mint) = some position) (holds : ¬ position.isEmpty)
    (elsewhere : ∀ m ∈ client.config.markets, m.mint = mint → m.id ∉ main) :
    .position user mint ∈ listedPositions remaining := by
  obtain ⟨places, rfl, markets, _⟩ := submits_list submitted
  obtain ⟨m, member, rfl⟩ := configured.complete mint position held holds
  have listed : m ∈ places.map Prod.fst := by
    rw [markets, List.mem_filter, othersHeld, List.mem_filter, answered m member]
    refine ⟨⟨member, ?_⟩, rfl⟩
    simp only [State.holdsIn, held, Option.any_some, elsewhere m member rfl, not_false_iff,
      true_and, decide_eq_true_eq]
    exact (Bool.not_eq_true' _).mpr (decide_eq_false holds)
  obtain ⟨place, inside, rfl⟩ := List.mem_map.mp listed
  rw [listedPositions_crossAccounts]
  exact List.mem_map_of_mem inside

theorem submits_once (submitted : Submits client node user main remaining)
    (configured : Configured client node.store user) (key : Pubkey) :
    (listedPositions remaining).count key ≤ 1 := by
  obtain ⟨places, rfl, markets, _⟩ := submits_list submitted
  rw [listedPositions_crossAccounts]
  revert key
  rw [← List.nodup_iff_count_le_one]
  have mints : (places.map fun place => place.1.mint).Nodup := by
    have part : (places.map Prod.fst).Sublist client.config.markets := by
      rw [markets]
      exact List.filter_sublist.trans List.filter_sublist
    have mapped := part.map MarketConfig.mint
    rw [List.map_map] at mapped
    exact mapped.nodup configured.distinct
  have addressed := mints.map (f := Pubkey.position user) (fun _ _ same => by
    simpa using same)
  rwa [List.map_map] at addressed

theorem submits_length (submitted : Submits client node user main remaining) :
    remaining.length ≤ 2 * client.config.markets.length := by
  obtain ⟨places, rfl, markets, _⟩ := submits_list submitted
  have part := congrArg List.length markets
  rw [List.length_map] at part
  rw [length_crossAccounts, part]
  exact Nat.mul_le_mul_left 2 ((List.length_filter_le _ _).trans (List.length_filter_le _ _))

end Lists

section Draws

variable {client : Client} {node : Node} {rt : Runtime} {s s' : State} {user : Signer}
variable {mint : Pubkey} {remaining : List Pubkey} {log : List Contribution}

theorem modifyPosition_names {method : MarketActionKind} {marketId : String}
    {uiAmount : List Char} {tx : ModifyTransaction}
    (sent : modifyPosition client node method marketId uiAmount = some tx) :
    ∃ cfg, client.getMarketConfig marketId = some cfg ∧ tx.mint = cfg.mint ∧
      tx.method = method ∧ client.wallet = some tx.user ∧
      (method = .borrow ∨ method = .withdraw →
        tx.priceUpdate = node.resolvePriceUpdate cfg.feedHex) := by
  simp only [modifyPosition, Option.bind_eq_bind, Option.bind_eq_some_iff] at sent
  obtain ⟨user, connected, sent⟩ := sent
  split at sent
  · simp only [Option.bind_eq_some_iff] at sent
    obtain ⟨cfg, found, amount, _, sent⟩ := sent
    split at sent
    · cases sent
    · by_cases needsPrice : method = .borrow ∨ method = .withdraw
      · simp only [if_pos needsPrice, Option.bind_eq_some_iff] at sent
        obtain ⟨priceUpdate, resolved, remaining, _, built⟩ := sent
        obtain ⟨address, priced, rfl⟩ := Option.map_eq_some_iff.mp resolved
        cases built
        exact ⟨cfg, found, rfl, rfl, connected, fun _ => priced.symm⟩
      · simp only [if_neg needsPrice, Option.bind_some] at sent
        cases sent
        exact ⟨cfg, found, rfl, rfl, connected, fun needs => absurd needs needsPrice⟩
  · cases sent

theorem OwnerCheck.bookedDebt_le (check : OwnerCheck rt s user mint remaining log s')
    (linked : Linked rt s) (linked' : Linked rt s') {prices : FeedId → Price}
    (priced : ∀ e ∈ log, e.price = prices e.feedId)
    (complete : ∀ other position, s.positions.lookup (user.pubkey, other) = some position →
      other ≠ mint → ¬ position.isEmpty →
      .position user.pubkey other ∈ listedPositions remaining) :
    s'.bookedDebt prices user.pubkey ≤ (log.map Contribution.debt).sum := by
  apply total_le_of_listed
  · intro e member other position named found
    obtain ⟨other', position', price, named', found', shape⟩ := check.entry linked linked' member
    obtain rfl : other = other' := by simpa [named] using named'
    obtain rfl := Table.lookup_unique found found'
    have quoted := priced e member
    rw [shape] at quoted ⊢
    change price = prices position.feedId at quoted
    rw [quoted]
    exact le_rfl
  · intro other position found nonzero
    by_cases here : other = mint
    · subst other
      exact ⟨_, by rw [check.log_eq]; exact List.mem_cons_self, rfl⟩
    · have stored := (check.lookup_other here).symm.trans found
      have holds : ¬ position.isEmpty := fun empty => nonzero (usdValue_zero _ _ empty.2)
      obtain ⟨e, member, named⟩ := listed_counted check.walked stored holds
        (complete other position stored here holds) (by simpa using here)
      exact ⟨e, by rw [check.log_eq]; exact List.mem_cons_of_mem _ member, named⟩

/-- A loan or a withdrawal the page has sent, however late it goes through, leaves the
books of its user covered: all the debts they record, over every position in the store,
by all the collateral at its LTV. -/
theorem page_draw_covered (reached : Reachable rt node.store)
    (configured : Configured client node.store user.pubkey) (answered : Answered client node)
    {method : MarketActionKind} {marketId : String} {uiAmount : List Char} {tx : ModifyTransaction}
    (sent : modifyPosition client node method marketId uiAmount = some tx)
    (signed : tx.user = user.pubkey) (later : Leads rt (Unsigned user) node.store s)
    {a : Action} (carries : tx.Carries user a) (step : Step rt s a s') :
    ∃ log, a.counted rt s = .ok log ∧
      ∀ prices : FeedId → Price, (∀ e ∈ log, e.price = prices e.feedId) →
        min (s'.bookedDebt prices user.pubkey) (2 ^ 128 - 1) ≤
            min (s'.userCollateral prices user.pubkey) (2 ^ 128 - 1) ∧
          (client.config.markets.length < 10000 →
            s'.bookedDebt prices user.pubkey ≤ s'.userCollateral prices user.pubkey) := by
  obtain ⟨cfg, found, names, kind, connected, _⟩ := modifyPosition_names sent
  rw [signed] at connected
  have checked : ∃ kind, a.touch = some (kind, user, tx.mint) ∧
      (kind = .withdraw ∨ kind = .borrow) ∧ kind = method ∧ a.remaining = tx.remaining := by
    cases carries with
    | withdraw same => exact ⟨_, rfl, Or.inl rfl, same.symm.trans kind, rfl⟩
    | borrow same => exact ⟨_, rfl, Or.inr rfl, same.symm.trans kind, rfl⟩
  obtain ⟨kind, acts, draws, rfl, carried⟩ := checked
  have submitted : Submits client node user.pubkey [marketId] tx.remaining :=
    .modified connected draws.symm sent
  have linked : Linked rt s :=
    (reached.leads later).linked
  have linked' := linked.step step
  have kept := later.keepsWallet
  obtain ⟨log, counted, ⟨check⟩⟩ := owner_check acts draws step
  rw [carried] at check
  have complete (other : Pubkey) (position : Position)
      (held : s.positions.lookup (user.pubkey, other) = some position) (distinct : other ≠ tx.mint)
      (holds : ¬ position.isEmpty) :
      .position user.pubkey other ∈ listedPositions tx.remaining := by
    obtain ⟨before, stored, wanes⟩ := kept.wanes other position held
    apply submits_names submitted answered configured stored (holds ∘ wanes.empty)
    rintro m member rfl own
    rw [List.mem_singleton] at own
    rw [names, market_eq_of_id found member own] at distinct
    exact distinct rfl
  refine ⟨log, counted, ?_⟩
  intro prices priced
  have debt := check.bookedDebt_le linked linked' priced complete
  have collateral := check.le_userCollateral_of_once linked linked' priced
    fun _ _ _ _ _ => submits_once submitted configured _
  obtain ⟨clamped, exact_sums⟩ := sums_le_of_healthy check.summed check.healthy
  constructor
  · exact (min_le_min_right _ debt).trans (clamped.trans (min_le_min_right _ collateral))
  · intro few
    have short := submits_length submitted
    exact debt.trans ((exact_sums (check.length_le (by omega))).trans collateral)

end Draws

section Liquidations

variable {client : Client} {node : Node} {rt : Runtime} {s s' : State} {borrower : Signer}

theorem sendLiquidate_names {user : Pubkey} {debtMarketId collateralMarketId : String}
    {uiRepayAmount : List Char} {tx : LiquidateTransaction}
    (sent : sendLiquidate client node user debtMarketId collateralMarketId uiRepayAmount =
      some tx) :
    ∃ debt collat, client.getMarketConfig debtMarketId = some debt ∧
      client.getMarketConfig collateralMarketId = some collat ∧ tx.borrower = user ∧
      tx.debtMarket = .market debt.mint ∧ tx.collateralMarket = .market collat.mint ∧
      node.resolvePriceUpdate debt.feedHex = some tx.debtPriceUpdate ∧
      node.resolvePriceUpdate collat.feedHex = some tx.collateralPriceUpdate := by
  simp only [sendLiquidate, Option.bind_eq_bind, Option.bind_eq_some_iff] at sent
  obtain ⟨_, _, sent⟩ := sent
  split at sent
  · simp only [Option.bind_eq_some_iff] at sent
    obtain ⟨debt, found, collat, found', _, debtFeed, _, collatFeed, _, _, _, _, built⟩ := sent
    cases built
    exact ⟨debt, collat, found, found', rfl, rfl, rfl, debtFeed, collatFeed⟩
  · cases sent

/-- A liquidation the page has sent, however late it goes through, is made against a
borrower whose debts, by now and over every position in the store, exceed all the
collateral at its LTV. -/
theorem page_liquidation_short (reached : Reachable rt node.store)
    (configured : Configured client node.store borrower.pubkey) (answered : Answered client node)
    {debtMarketId collateralMarketId : String} (markets : debtMarketId ≠ collateralMarketId)
    {uiRepayAmount : List Char} {tx : LiquidateTransaction}
    (sent : sendLiquidate client node borrower.pubkey debtMarketId collateralMarketId
      uiRepayAmount = some tx)
    (later : Leads rt (Unsigned borrower) node.store s)
    (stand : ∀ mint position, s.positions.lookup (borrower.pubkey, mint) = some position →
      .position borrower.pubkey mint ∈ listedPositions tx.remaining →
      position.borrowed.val ≤ (s.debtNow (borrower.pubkey, mint) position).val)
    {accounts : LiquidateAccounts} (carries : tx.Carries accounts) {repayAmount : U64}
    (ran : liquidate rt s accounts tx.remaining repayAmount = .ok s') :
    ∃ log, (Action.liquidate accounts tx.remaining repayAmount).counted rt s = .ok log ∧
      ∀ prices : FeedId → Price, (∀ e ∈ log, e.price = prices e.feedId) →
        s.userCollateral prices borrower.pubkey < s.userDebt prices borrower.pubkey := by
  obtain ⟨debt, collat, found, found', names, debtMarket, collateralMarket, _⟩ :=
    sendLiquidate_names sent
  have who : accounts.borrower = borrower.pubkey := carries.borrower.symm.trans names
  have debtMint : accounts.debtMint = debt.mint :=
    Pubkey.market.inj (carries.debtMarket.symm.trans debtMarket)
  have collateralMint : accounts.collateralMint = collat.mint :=
    Pubkey.market.inj (carries.collateralMarket.symm.trans collateralMarket)
  have submitted : Submits client node borrower.pubkey [debtMarketId, collateralMarketId]
      tx.remaining := .liquidated sent
  have linked : Linked rt s := (reached.leads later).linked
  have kept := later.keepsWallet
  have lists : ListsCollateral s accounts tx.remaining := by
    refine ⟨?_, ?_, ?_, ?_⟩
    · rw [debtMint, collateralMint]
      intro same
      obtain ⟨member, named⟩ := getMarketConfig_some found
      obtain ⟨member', named'⟩ := getMarketConfig_some found'
      have one := List.inj_on_of_nodup_map configured.distinct member member' same
      exact markets (by rw [← named, ← named', one])
    · rintro ⟨user, mint⟩ position held mine atDebt atCollateral supplies
      obtain rfl : user = borrower.pubkey := mine.trans who
      obtain ⟨before, stored, wanes⟩ := kept.wanes mint position held
      refine submits_names submitted answered configured stored
        (fun empty => supplies (wanes.empty empty).1) ?_
      rintro m member rfl own
      obtain own | own := by simpa using own
      · exact atDebt (by rw [debtMint, market_eq_of_id found member own])
      · exact atCollateral (by rw [collateralMint, market_eq_of_id found' member own])
    · intro key position _ _ _ _ _
      exact submits_once submitted configured _
    · rintro ⟨user, mint⟩ position held mine _ _ present
      obtain rfl : user = borrower.pubkey := mine.trans who
      exact stand mint position held present
  obtain ⟨run⟩ := liquidate_ok ran
  refine ⟨run.entries, run.log, ?_⟩
  intro prices priced
  rw [← who]
  calc
    s.userCollateral prices accounts.borrower
      ≤ (run.entries.map Contribution.collateral).sum :=
        run.userCollateral_le linked priced lists
    _ < (run.entries.map Contribution.debt).sum := sums_lt_of_unhealthy run.summed run.unhealthy
    _ ≤ s.userDebt prices accounts.borrower := run.le_userDebt linked priced lists

end Liquidations

def askingNode : Node := node (oneLoan 4000000000000) fun _ => false

theorem askingNode_reachable : Reachable devnet askingNode.store := by
  simp only [askingNode, node, oneLoan]
  exact ledger_reachable _

def arrived : State :=
  replay devnet (Unsigned alice) (oneLoan 4000000000000)
    [reach 1000100 10000000000, .claimFaucet mallory usdc.pubkey]

theorem configured_of_known {client : Client} {s : State} {user : Pubkey}
    (distinct : (client.config.markets.map MarketConfig.mint).Nodup)
    (known : ∀ key position, s.positions.lookup key = some position →
      ∃ m ∈ client.config.markets, m.mint = key.2) : Configured client s user :=
  ⟨distinct, fun mint position held _ => known (user, mint) position held⟩

theorem asking_configured : Configured page askingNode.store alice.pubkey :=
  configured_of_known (by decide) (by decide +kernel)

theorem asking_later : Leads devnet (Unsigned alice) askingNode.store arrived := by
  simp only [askingNode, node]
  exact replay_leads devnet _ _ _

theorem asking_sends (uiAmount : List Char) (amount : U64)
    (computed : (modifyPosition page askingNode .borrow "btc" uiAmount).any
      (fun tx : ModifyTransaction =>
        tx.user = alice.pubkey ∧ tx.method = .borrow ∧ tx.priceUpdate = some btcPrice ∧
          tx.amount = amount.val ∧ tx.mint = btc.pubkey ∧ tx.remaining = bothListed) = true) :
    ∃ tx, modifyPosition page askingNode .borrow "btc" uiAmount = some tx ∧
      tx.user = alice.pubkey ∧ tx.amount = amount.val ∧ tx.mint = btc.pubkey ∧
      tx.remaining = bothListed ∧
      tx.Carries alice (.borrow alice tx.mint btcPrice tx.remaining amount) := by
  obtain ⟨tx, sent, signed, method, priced, encoded, mint, remaining⟩ := some_where computed
  exact ⟨tx, sent, signed, encoded, mint, remaining, .borrow method priced encoded⟩

theorem page_draw_covered_alice :
    ∃ tx s', modifyPosition page askingNode .borrow "btc" "0.05".toList = some tx ∧
      Step devnet arrived (.borrow alice tx.mint btcPrice tx.remaining 50000000) s' ∧
      s'.bookedDebt (quoted 10000000000) alice.pubkey = 650000000000 ∧
      ∃ log, (Action.borrow alice tx.mint btcPrice tx.remaining 50000000).counted devnet arrived =
          .ok log ∧
        ∀ prices : FeedId → Price, (∀ e ∈ log, e.price = prices e.feedId) →
          min (s'.bookedDebt prices alice.pubkey) (2 ^ 128 - 1) ≤
              min (s'.userCollateral prices alice.pubkey) (2 ^ 128 - 1) ∧
            (3 < 10000 →
              s'.bookedDebt prices alice.pubkey ≤ s'.userCollateral prices alice.pubkey) := by
  obtain ⟨tx, sent, signed, _, mint, remaining, carries⟩ :=
    asking_sends "0.05".toList 50000000 (by decide +kernel)
  have ran : ∃ s', Step devnet arrived (.borrow alice btc.pubkey btcPrice bothListed 50000000) s' ∧
      s'.bookedDebt (quoted 10000000000) alice.pubkey = 650000000000 := ok_where (by decide +kernel)
  obtain ⟨s', ran, owes⟩ := ran
  rw [← mint, ← remaining] at ran
  exact ⟨tx, s', sent, ran, owes, page_draw_covered askingNode_reachable asking_configured
    (fun _ _ => rfl) sent signed asking_later carries ran⟩

def watching : Client := { page with wallet := some bob.pubkey }

def watched : Node := node (diversified 5000000000) fun _ => false

theorem watched_reachable : Reachable devnet watched.store := by
  simp only [watched, node, diversified]
  exact ledger_reachable _

theorem watching_configured : Configured watching watched.store alice.pubkey :=
  configured_of_known (by decide) (by decide +kernel)

theorem watching_later :
    Leads devnet (Unsigned alice) watched.store (diversified 5000000000) := by
  simp only [watched, node]
  exact .start rfl

theorem watching_sends :
    ∃ tx s', sendLiquidate watching watched alice.pubkey "usdc" "sol" "1000".toList = some tx ∧
      tx.Carries (bobSeizes sol solPrice) ∧
      liquidate devnet (diversified 5000000000) (bobSeizes sol solPrice) tx.remaining
        1000000000000 = .ok s' := by
  have sends : ∃ tx, sendLiquidate watching watched alice.pubkey "usdc" "sol" "1000".toList =
      some tx ∧ tx.liquidator = bob.pubkey ∧ tx.borrower = alice.pubkey ∧
      tx.debtMarket = .market usdc.pubkey ∧ tx.debtPriceUpdate = usdcPrice ∧
      tx.liquidatorDebtAta = .associatedToken bob.pubkey usdc.pubkey ∧
      tx.collateralMarket = .market sol.pubkey ∧ tx.collateralPriceUpdate = solPrice ∧
      tx.liquidatorCollateralAta = .associatedToken bob.pubkey sol.pubkey ∧
      tx.remaining = listed alice btc btcPrice := some_where (by decide +kernel)
  have ran : ∃ s', liquidate devnet (diversified 5000000000) (bobSeizes sol solPrice)
      (listed alice btc btcPrice) 1000000000000 = .ok s' ∧
      s'.cash usdc.pubkey = 33000000000000 := ok_where (by decide +kernel)
  obtain ⟨tx, sent, liquidator, borrower, debtMarket, debtPriceUpdate, debtAta, collateralMarket,
    collateralPriceUpdate, collateralAta, remaining⟩ := sends
  obtain ⟨s', ran, _⟩ := ran
  rw [← remaining] at ran
  exact ⟨tx, s', sent, ⟨liquidator, borrower, debtMarket, debtPriceUpdate, debtAta,
    collateralMarket, collateralPriceUpdate, collateralAta⟩, ran⟩

theorem page_liquidation_short_bob :
    ∃ tx s', sendLiquidate watching watched alice.pubkey "usdc" "sol" "1000".toList = some tx ∧
      liquidate devnet (diversified 5000000000) (bobSeizes sol solPrice) tx.remaining
        1000000000000 = .ok s' ∧
      ∃ log, (seizeSol tx.remaining).counted devnet (diversified 5000000000) = .ok log ∧
        ∀ prices : FeedId → Price, (∀ e ∈ log, e.price = prices e.feedId) →
          (diversified 5000000000).userCollateral prices alice.pubkey <
            (diversified 5000000000).userDebt prices alice.pubkey := by
  have stand : ∀ key position, (diversified 5000000000).positions.lookup key = some position →
      position.borrowed.val ≤ ((diversified 5000000000).debtNow key position).val := by
    decide +kernel
  obtain ⟨tx, s', sent, carries, ran⟩ := watching_sends
  exact ⟨tx, s', sent, ran, page_liquidation_short watched_reachable watching_configured
    (fun _ _ => rfl) (by decide) sent watching_later (fun _ position held _ => stand _ position held)
    carries ran⟩

end ShadowLend
