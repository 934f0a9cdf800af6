import ShadowLend.Client.Amounts
import ShadowLend.Client.Session

/-! The transactions the page sends. For the program's health check a borrow, a
withdrawal and a liquidation list the other positions of their user, found by reading
the position of every market in turn. -/

namespace ShadowLend

open Devnet

/-- The loop that fills the list: a market is passed over by its id, or where no balance
was read. A price that cannot be resolved throws. -/
def pushCrossAccounts (node : Node) (user : Pubkey) (skipped holds : MarketConfig → Bool)
    (markets : List MarketConfig) : Option (List Pubkey) :=
  markets.foldlM (fun out m =>
    if skipped m then some out
    else if !holds m then some out
    else do
      let priceUpdate ← node.resolvePriceUpdate m.feedHex
      pure (out ++ [.position user m.mint, priceUpdate])) []

def collectCrossAccounts (client : Client) (node : Node) (excludeId : String) :
    Option (List Pubkey) :=
  match client.wallet with
  | none => some []
  | some user =>
      pushCrossAccounts node user (fun m => m.id = excludeId)
        (fun m => (fetchPosition client node m.id).any fun pos =>
          !(pos.supplied = 0 ∧ pos.borrowed = 0))
        client.config.markets

structure ModifyTransaction where
  method : MarketActionKind
  amount : ℤ
  user : Pubkey
  market : Pubkey
  mint : Pubkey
  position : Pubkey
  vault : Pubkey
  authority : Pubkey
  userAta : Pubkey
  priceUpdate : Option Pubkey
  remaining : List Pubkey

/-- What is sent, and `none` where it throws. -/
def modifyPosition (client : Client) (node : Node) (method : MarketActionKind)
    (marketId : String) (uiAmount : List Char) : Option ModifyTransaction := do
  let user ← client.wallet
  if client.program then do
    let cfg ← client.getMarketConfig marketId
    let amount ← toBase uiAmount cfg.decimals
    if amount ≤ 0 then none
    else do
      let needsPrice := method = .borrow ∨ method = .withdraw
      let priceUpdate ←
        if needsPrice then (node.resolvePriceUpdate cfg.feedHex).map some else some none
      let remaining ←
        if needsPrice then collectCrossAccounts client node marketId else some []
      pure ⟨method, amount, user, .market cfg.mint, cfg.mint, .position user cfg.mint,
        .vault cfg.mint, .authority cfg.mint, .associatedToken user cfg.mint, priceUpdate,
        remaining⟩
  else none

structure LiquidateTransaction where
  amount : ℤ
  liquidator : Pubkey
  borrower : Pubkey
  debtMarket : Pubkey
  debtPosition : Pubkey
  debtVault : Pubkey
  debtPriceUpdate : Pubkey
  liquidatorDebtAta : Pubkey
  collateralMarket : Pubkey
  collateralPosition : Pubkey
  collateralVault : Pubkey
  collateralAuthority : Pubkey
  collateralPriceUpdate : Pubkey
  liquidatorCollateralAta : Pubkey
  remaining : List Pubkey

/-- `liquidate` of the page. It reads the borrower's positions without the wallet. -/
def sendLiquidate (client : Client) (node : Node) (borrower : Pubkey)
    (debtMarketId collateralMarketId : String) (uiRepayAmount : List Char) :
    Option LiquidateTransaction := do
  let user ← client.wallet
  if client.program then do
    let debt ← client.getMarketConfig debtMarketId
    let collat ← client.getMarketConfig collateralMarketId
    let debtFeed ← node.resolvePriceUpdate debt.feedHex
    let collatFeed ← node.resolvePriceUpdate collat.feedHex
    let remaining ← pushCrossAccounts node borrower
      (fun m => m.id = debtMarketId ∨ m.id = collateralMarketId)
      (fun m => client.idl && (node.fetchAccount m borrower).any fun pos =>
        !(pos.supplied.val = 0 ∧ pos.borrowed.val = 0))
      client.config.markets
    let amount ← toBase uiRepayAmount debt.decimals
    pure ⟨amount, user, borrower, .market debt.mint, .position borrower debt.mint,
      .vault debt.mint, debtFeed, .associatedToken user debt.mint, .market collat.mint,
      .position borrower collat.mint, .vault collat.mint, .authority collat.mint, collatFeed,
      .associatedToken user collat.mint, remaining⟩
  else none

/-- A transaction with a health list leaves the page: whose positions it needs, the
markets it names itself and the list. -/
inductive Submits (client : Client) (node : Node) : Pubkey → List String → List Pubkey → Prop
  | modified {user : Pubkey} {method : MarketActionKind} {marketId : String}
      {uiAmount : List Char} {tx : ModifyTransaction} (connected : client.wallet = some user)
      (needsPrice : method = .borrow ∨ method = .withdraw)
      (sent : modifyPosition client node method marketId uiAmount = some tx) :
      Submits client node user [marketId] tx.remaining
  | liquidated {borrower : Pubkey} {debtMarketId collateralMarketId : String}
      {uiRepayAmount : List Char} {tx : LiquidateTransaction}
      (sent : sendLiquidate client node borrower debtMarketId collateralMarketId uiRepayAmount =
        some tx) :
      Submits client node borrower [debtMarketId, collateralMarketId] tx.remaining

def State.holdsIn (s : State) (user : Pubkey) (m : MarketConfig) : Bool :=
  (s.positions.lookup (user, m.mint)).any fun pos =>
    !(pos.supplied.val = 0 ∧ pos.borrowed.val = 0)

def othersHeld (client : Client) (node : Node) (user : Pubkey) (main : List String) :
    List MarketConfig :=
  client.config.markets.filter fun m => m.id ∉ main ∧ node.store.holdsIn user m

def crossAccounts (user : Pubkey) (places : List (MarketConfig × Pubkey)) : List Pubkey :=
  places.flatMap fun place => [.position user place.1.mint, place.2]

/-- One pair for each of these markets and no other. -/
def CompleteList (client : Client) (node : Node) (user : Pubkey) (main : List String)
    (remaining : List Pubkey) : Prop :=
  ∃ places, remaining = crossAccounts user places ∧
    (places.map Prod.fst).Perm (othersHeld client node user main) ∧
    ∀ place ∈ places, node.resolvePriceUpdate place.1.feedHex = some place.2

section Loop

variable {client : Client} {node : Node} {user : Pubkey}

theorem length_crossAccounts (user : Pubkey) (places : List (MarketConfig × Pubkey)) :
    (crossAccounts user places).length = 2 * places.length := by
  induction places with
  | nil => rfl
  | cons head tail ih =>
      rw [crossAccounts, List.flatMap_cons, ← crossAccounts, List.length_append, ih,
        List.length_cons]
      exact (Nat.add_comm _ _).trans (Nat.mul_succ 2 _).symm

theorem pushCrossAccounts_ok {skipped holds : MarketConfig → Bool} {markets : List MarketConfig}
    {remaining : List Pubkey}
    (ran : pushCrossAccounts node user skipped holds markets = some remaining) :
    ∃ places, remaining = crossAccounts user places ∧
      places.map Prod.fst = markets.filter (fun m => !skipped m && holds m) ∧
      ∀ place ∈ places, node.resolvePriceUpdate place.1.feedHex = some place.2 := by
  unfold pushCrossAccounts at ran
  induction markets using List.reverseRecOn generalizing remaining with
  | nil =>
      cases ran
      exact ⟨[], rfl, rfl, nofun⟩
  | append_singleton markets m ih =>
      rw [List.foldlM_append, Option.bind_eq_bind, Option.bind_eq_some_iff] at ran
      rcases ran with ⟨out, before, last⟩
      rw [List.foldlM_cons, Option.bind_eq_bind, Option.bind_eq_some_iff] at last
      rcases last with ⟨after, body, done⟩
      cases done
      rcases ih before with ⟨places, listed, markets', resolved⟩
      cases skip : skipped m with
      | true =>
          rw [if_pos skip, Option.some.injEq] at body
          refine ⟨places, body ▸ listed, ?_, resolved⟩
          simp [skip, markets']
      | false =>
          rw [if_neg (by simp [skip])] at body
          cases held : holds m with
          | false =>
              rw [if_pos (by simp [held]), Option.some.injEq] at body
              refine ⟨places, body ▸ listed, ?_, resolved⟩
              simp [held, markets']
          | true =>
              rw [if_neg (by simp [held]), Option.bind_eq_bind, Option.bind_eq_some_iff] at body
              rcases body with ⟨priceUpdate, price, pushed⟩
              cases pushed
              refine ⟨places ++ [(m, priceUpdate)], ?_, ?_, ?_⟩
              · rw [listed, crossAccounts, crossAccounts, List.flatMap_append]
                rfl
              · simp [skip, held, markets']
              · intro place member
                rcases List.mem_append.mp member with earlier | this
                · exact resolved place earlier
                · rw [List.mem_singleton] at this
                  rw [this]
                  exact price

/-- A failed call is taken for an empty position. -/
theorem fetchAccount_any (m : MarketConfig) (user : Pubkey) :
    ((node.fetchAccount m user).any fun pos => !(pos.supplied.val = 0 ∧ pos.borrowed.val = 0)) =
      (!node.fails (.position m.id) && node.store.holdsIn user m) := by
  rw [Node.fetchAccount]
  cases node.fails (.position m.id) <;> rfl

theorem fetchPosition_any {m : MarketConfig} (connected : client.wallet = some user)
    (ready : client.readClient = true) (member : m ∈ client.config.markets) :
    ((fetchPosition client node m.id).any fun pos => !(pos.supplied = 0 ∧ pos.borrowed = 0)) =
      (!node.fails (.position m.id) && node.store.holdsIn user m) := by
  rw [← fetchAccount_any, fetchPosition_eq connected ready member]
  cases node.fetchAccount m user with
  | none => rfl
  | some pos => simp only [Option.map_some, Option.any_some, fromBase_eq_zero]

theorem modifyPosition_ok {method : MarketActionKind} {marketId : String} {uiAmount : List Char}
    {tx : ModifyTransaction}
    (sent : modifyPosition client node method marketId uiAmount = some tx) :
    ∃ cfg, client.program = true ∧ client.getMarketConfig marketId = some cfg ∧
      toBase uiAmount cfg.decimals = some tx.amount ∧ 0 < tx.amount ∧
      (method = .borrow ∨ method = .withdraw →
        collectCrossAccounts client node marketId = some tx.remaining) := by
  simp only [modifyPosition, Option.bind_eq_bind, Option.bind_eq_some_iff] at sent
  rcases sent with ⟨user, _, sent⟩
  split at sent
  · rename_i signing
    simp only [Option.bind_eq_some_iff] at sent
    rcases sent with ⟨cfg, found, amount, read, sent⟩
    split at sent
    · cases sent
    · rename_i positive
      by_cases needsPrice : method = .borrow ∨ method = .withdraw
      · simp only [if_pos needsPrice, Option.bind_eq_some_iff] at sent
        rcases sent with ⟨priceUpdate, _, remaining, collected, built⟩
        cases built
        exact ⟨cfg, signing, found, read, not_le.mp positive, fun _ => collected⟩
      · simp only [if_neg needsPrice, Option.bind_some] at sent
        cases sent
        exact ⟨cfg, signing, found, read, not_le.mp positive, fun needs => absurd needs needsPrice⟩
  · cases sent

theorem sendLiquidate_ok {borrower : Pubkey} {debtMarketId collateralMarketId : String}
    {uiRepayAmount : List Char} {tx : LiquidateTransaction}
    (sent : sendLiquidate client node borrower debtMarketId collateralMarketId uiRepayAmount =
      some tx) :
    client.program = true ∧
      pushCrossAccounts node borrower
        (fun m => m.id = debtMarketId ∨ m.id = collateralMarketId)
        (fun m => client.idl && (node.fetchAccount m borrower).any fun pos =>
          !(pos.supplied.val = 0 ∧ pos.borrowed.val = 0))
        client.config.markets = some tx.remaining := by
  simp only [sendLiquidate, Option.bind_eq_bind, Option.bind_eq_some_iff] at sent
  rcases sent with ⟨user, _, sent⟩
  split at sent
  · rename_i signing
    simp only [Option.bind_eq_some_iff] at sent
    rcases sent with ⟨debt, _, collat, _, debtFeed, _, collatFeed, _, remaining, listed, _, _,
      built⟩
    cases built
    exact ⟨signing, listed⟩
  · cases sent

/-- The list holds what was read, and nothing of what was not. -/
theorem submits_list {main : List String} {remaining : List Pubkey}
    (submitted : Submits client node user main remaining) :
    ∃ places, remaining = crossAccounts user places ∧
      places.map Prod.fst =
        (othersHeld client node user main).filter (fun m => !node.fails (.position m.id)) ∧
      ∀ place ∈ places, node.resolvePriceUpdate place.1.feedHex = some place.2 := by
  cases submitted with
  | @modified method marketId uiAmount tx connected needsPrice sent =>
      rcases modifyPosition_ok sent with ⟨cfg, signing, _, _, _, collected⟩
      have ready : client.readClient = true := by rw [Client.readClient, signing, Bool.true_or]
      have listed := collected needsPrice
      rw [collectCrossAccounts, connected] at listed
      rcases pushCrossAccounts_ok listed with ⟨places, same, markets, resolved⟩
      refine ⟨places, same, ?_, resolved⟩
      rw [markets, othersHeld, List.filter_filter]
      apply List.filter_congr
      intro m member
      rw [fetchPosition_any connected ready member]
      by_cases named : m.id = marketId <;> simp [named]
  | @liquidated debtMarketId collateralMarketId uiRepayAmount tx sent =>
      rcases sendLiquidate_ok sent with ⟨signing, listed⟩
      rcases pushCrossAccounts_ok listed with ⟨places, same, markets, resolved⟩
      refine ⟨places, same, ?_, resolved⟩
      rw [markets, othersHeld, List.filter_filter]
      apply List.filter_congr
      intro m member
      rw [client.built signing, Bool.true_and, fetchAccount_any]
      by_cases debt : m.id = debtMarketId
      · simp [debt]
      · by_cases collateral : m.id = collateralMarketId <;> simp [debt, collateral]

end Loop

/-- A list is complete exactly when no call for one of its positions failed. -/
theorem list_complete_iff {client : Client} {node : Node} {user : Pubkey} {main : List String}
    {remaining : List Pubkey} (submitted : Submits client node user main remaining) :
    CompleteList client node user main remaining ↔
      ∀ m ∈ othersHeld client node user main, node.fails (.position m.id) = false := by
  rcases submits_list submitted with ⟨places, same, markets, resolved⟩
  have count : places.length =
      ((othersHeld client node user main).filter fun m => !node.fails (.position m.id)).length := by
    rw [← markets, List.length_map]
  constructor
  · intro complete
    rcases complete with ⟨whole, listed, held, _⟩
    have lengths := congrArg List.length (same.symm.trans listed)
    have all := held.length_eq
    rw [length_crossAccounts, length_crossAccounts] at lengths
    rw [List.length_map] at all
    have none : ((othersHeld client node user main).filter
        fun m => !node.fails (.position m.id)).length =
          (othersHeld client node user main).length := by omega
    have read := List.length_filter_eq_length_iff.mp none
    intro m member
    exact (Bool.not_eq_true' _).mp (read m member)
  · intro answered
    refine ⟨places, same, ?_, resolved⟩
    rw [markets, List.filter_eq_self.mpr fun m member => by rw [answered m member]; rfl]

def Devnet.loanNode (fails : Call → Bool) : Node := node (ledger (indebted 5000000000000)) fails

def Devnet.borrowBtc (fails : Call → Bool) : Option ModifyTransaction :=
  modifyPosition page (loanNode fails) .borrow "btc" "0.1".toList

theorem list_complete_iff_answered :
    CompleteList page (loanNode fun _ => false) alice.pubkey ["btc"]
      (listed alice sol solPrice ++ listed alice usdc usdcPrice) := by
  have sends : ∃ tx, borrowBtc (fun _ => false) = some tx ∧
      tx.remaining = listed alice sol solPrice ++ listed alice usdc usdcPrice :=
    Outcome.some_where (by decide +kernel)
  rcases sends with ⟨tx, sent, remaining⟩
  rw [← remaining]
  exact (list_complete_iff (.modified rfl (Or.inl rfl) sent)).mpr fun _ _ => rfl

/-- The call for Alice's USDC position fails, and her debt is left out. -/
theorem list_drops_debt :
    ∃ tx, borrowBtc (· = .position "usdc") = some tx ∧
      tx.remaining = listed alice sol solPrice ∧
      Submits page (loanNode (· = .position "usdc")) alice.pubkey ["btc"] tx.remaining ∧
      ¬ CompleteList page (loanNode (· = .position "usdc")) alice.pubkey ["btc"] tx.remaining := by
  have sends : ∃ tx, borrowBtc (· = .position "usdc") = some tx ∧
      tx.remaining = listed alice sol solPrice :=
    Outcome.some_where (by decide +kernel)
  rcases sends with ⟨tx, sent, remaining⟩
  refine ⟨tx, sent, remaining, .modified rfl (Or.inl rfl) sent, ?_⟩
  intro complete
  rcases complete with ⟨places, same, held, _⟩
  have two :
      (othersHeld page (loanNode (· = .position "usdc")) alice.pubkey ["btc"]).length = 2 := by
    decide +kernel
  have lengths := congrArg List.length (remaining.symm.trans same)
  have count := held.length_eq
  rw [length_crossAccounts] at lengths
  rw [two, List.length_map] at count
  rw [count] at lengths
  cases lengths

def SendsUnits (x : Numeral) (decimals : ℕ) : Prop :=
  ∀ client node method marketId cfg tx, client.getMarketConfig marketId = some cfg →
    cfg.decimals = decimals → modifyPosition client node method marketId x.text = some tx →
      1 ≤ x.value * 10 ^ decimals

theorem sendsUnits_of_exact {x : Numeral} {decimals : ℕ} (exact' : ReadsExactly x decimals) :
    SendsUnits x decimals := by
  intro client node method marketId cfg tx found places sent
  rcases modifyPosition_ok sent with ⟨cfg', _, found', read, positive, _⟩
  rw [found', Option.some.injEq] at found
  rw [found, places] at read
  have amount := exact' tx.amount read
  rw [truncated] at amount
  split at amount
  · have unit : (1 : ℤ) ≤ ⌊x.value * 10 ^ decimals⌋ := by omega
    exact_mod_cast Int.le_floor.mp unit
  · rename_i negative
    have none : ⌈x.value * 10 ^ decimals⌉ ≤ 0 := by
      rw [Int.ceil_le, Int.cast_zero]
      exact (not_le.mp negative).le
    omega

/-- The amount is the one typed, or refused, exactly where cutting at the dot keeps it. -/
theorem amounts_exact_iff (x : Numeral) (decimals : ℕ) :
    (ReadsExactly x decimals ∧ SendsUnits x decimals) ↔ x.KeepsValue decimals := by
  rw [← reads_exactly_iff]
  exact ⟨And.left, fun exact' => ⟨exact', sendsUnits_of_exact exact'⟩⟩

def Devnet.tiny : Numeral where
  minus := false
  whole := [1]
  frac := some [2, 3, 4, 5, 6, 7, 8, 9, 1]
  exponent := some ⟨false, .minus, [7], by decide⟩
  written := by decide
  fracWritten := by decide

def Devnet.negative : Numeral where
  minus := true
  whole := [0]
  frac := some [5]
  exponent := none
  written := by decide
  fracWritten := by decide

/-- One SOL and a quarter go out for a fraction of it, and half of one for less than
nothing. -/
theorem amounts_misread :
    tiny.text = "1.234567891e-7".toList ∧ negative.text = "-0.5".toList ∧
      truncated (tiny.value * 10 ^ 9) = 123 ∧ truncated (negative.value * 10 ^ 9) = -500000000 ∧
      (modifyPosition page (loanNode fun _ => false) .supply "sol" tiny.text).map
        ModifyTransaction.amount = some 1234567891 ∧
      (modifyPosition page (loanNode fun _ => false) .supply "sol" negative.text).map
        ModifyTransaction.amount = some 500000000 ∧
      ¬ ReadsExactly tiny 9 ∧ ¬ SendsUnits negative 9 := by
  have read : toBase tiny.text 9 = some 1234567891 := by decide +kernel
  have worth : truncated (tiny.value * 10 ^ 9) = 123 := by decide +kernel
  have sends : ∃ tx, modifyPosition page (loanNode fun _ => false) .supply "sol" negative.text =
      some tx ∧ tx.amount = 500000000 := Outcome.some_where (by decide +kernel)
  rcases sends with ⟨tx, sent, amount⟩
  refine ⟨by decide +kernel, by decide +kernel, worth, by decide +kernel, by decide +kernel,
    by rw [sent, Option.map_some, amount], ?_, ?_⟩
  · intro exact'
    have same := exact' _ read
    rw [worth] at same
    cases same
  · intro units
    have found : page.getMarketConfig solMarket.id = some solMarket :=
      getMarketConfig_self List.mem_cons_self
    have least := units page _ _ _ solMarket tx found rfl sent
    exact absurd least (by decide +kernel)

end ShadowLend
