import ShadowLend.Faucet

/-! What a ledger never takes back: the terms of its markets and positions, its
receipts, the owners of its vaults and the decimals of its mints. The one figure
of a market that changes by decree is its payout, and its admin decrees it. -/

namespace ShadowLend

open Outcome Devnet

structure KeepsRecords (s s' : State) : Prop where
  markets : ∀ mint terms, s.marketTerms mint = some terms → s'.marketTerms mint = some terms
  positions : ∀ key terms, s.positionTerms key = some terms → s'.positionTerms key = some terms
  receipts : ∀ key receipt, s.receipts.lookup key = some receipt →
    s'.receipts.lookup key = some receipt
  vaults : ∀ mint identity, s.tokens.identityAt (.vault mint) = some identity →
    s'.tokens.identityAt (.vault mint) = some identity
  decimals : ∀ mint minted, s.mints.lookup mint = some minted →
    ∃ minted', s'.mints.lookup mint = some minted' ∧ minted'.decimals = minted.decimals

def State.claimAmounts (s : State) (mint : Pubkey) : Option U64 :=
  (s.markets.lookup mint).map Market.amountPerClaim

def Action.setsPayout : Action → Option (Pubkey × U64)
  | .initializeMarket _ mint amountPerClaim _ _ _ => some (mint.pubkey, amountPerClaim)
  | .setClaimAmount _ mint amount => some (mint, amount)
  | _ => none

def payoutSet (mint : Pubkey) (entry : Runs.Entry State Action) : Option U64 :=
  match entry.label.setsPayout with
  | some (named, amount) => if named = mint then some amount else none
  | none => none

section Steps

variable {rt : Runtime} {s s' : State} {a : Action}

theorem KeepsRecords.refl (s : State) : KeepsRecords s s :=
  ⟨fun _ _ h => h, fun _ _ h => h, fun _ _ h => h, fun _ _ h => h, fun _ minted h => ⟨minted, h, rfl⟩⟩

theorem KeepsRecords.trans {s s' s'' : State} (first : KeepsRecords s s')
    (second : KeepsRecords s' s'') : KeepsRecords s s'' where
  markets mint terms found := second.markets mint terms (first.markets mint terms found)
  positions key terms found := second.positions key terms (first.positions key terms found)
  receipts key receipt found := second.receipts key receipt (first.receipts key receipt found)
  vaults mint identity held := second.vaults mint identity (first.vaults mint identity held)
  decimals mint minted found := by
    obtain ⟨minted', found', same⟩ := first.decimals mint minted found
    obtain ⟨minted'', found'', same'⟩ := second.decimals mint minted' found'
    exact ⟨minted'', found'', same'.trans same⟩

/-- A position, once opened, keeps its terms: a supply finds its user set. -/
theorem step_positionTerms_mono (linked : Linked rt s) (step : Step rt s a s')
    {key : Pubkey × Pubkey} {terms : PositionTerms} (found : s.positionTerms key = some terms) :
    s'.positionTerms key = some terms := by
  obtain same | ⟨user, mint, _, _, _, unclaimed, _, written⟩ := step_positionTerms step
  · rw [same, found]
  · rw [written, Function.update_of_ne _, found]
    rintro rfl
    obtain ⟨position, stored, _⟩ := Option.map_eq_some_iff.mp found
    have named := linked.position_user stored
    rw [unclaimed position stored] at named
    exact user.pubkey_ne_default named.symm

theorem step_vaults_mono (linked : Linked rt s) (step : Step rt s a s') {mint : Pubkey}
    {identity : Pubkey × Pubkey} (held : s.tokens.identityAt (.vault mint) = some identity) :
    s'.tokens.identityAt (.vault mint) = some identity := by
  have linked' := linked.step step
  rw [linked.vault mint, Option.map_eq_some_iff] at held
  obtain ⟨terms, found, rfl⟩ := held
  rw [linked'.vault mint, step_marketTerms_mono step found]
  rfl

theorem step_receipts_mono (linked : Linked rt s) (step : Step rt s a s')
    {key : Pubkey × Pubkey} {receipt : ClaimReceipt}
    (found : s.receipts.lookup key = some receipt) : s'.receipts.lookup key = some receipt := by
  cases step_faucet linked step with
  | claimed user mint market written acts listed first named amount receipts claims minted =>
      rw [receipts, Finmap.lookup_insert_of_ne _, found]
      rintro rfl
      rw [found] at first
      cases first
  | burned _ _ receipts => rw [receipts, found]
  | idle _ receipts => rw [receipts, found]

theorem step_keepsRecords (linked : Linked rt s) (step : Step rt s a s') : KeepsRecords s s' where
  markets _ _ found := step_marketTerms_mono step found
  positions _ _ found := step_positionTerms_mono linked step found
  receipts _ _ found := step_receipts_mono linked step found
  vaults _ _ held := step_vaults_mono linked step held
  decimals _ _ found := step_decimals step found

/-- No run, whoever signs its steps, unmakes a record of the ledger it started from. -/
theorem records_kept (reached : Reachable rt s) (later : Leads rt (fun _ _ => True) s s') :
    KeepsRecords s s' := by
  have kept : Linked rt s → KeepsRecords s s' ∧ Linked rt s' := by
    apply later.frame (R := fun s s' => Linked rt s → KeepsRecords s s' ∧ Linked rt s')
    · exact fun s linked => ⟨.refl s, linked⟩
    · intro s s' s'' first second linked
      obtain ⟨kept, linked'⟩ := first linked
      obtain ⟨kept', linked''⟩ := second linked'
      exact ⟨kept.trans kept', linked''⟩
    · exact fun s a s' _ step linked => ⟨step_keepsRecords linked step, linked.step step⟩
  exact (kept reached.linked).1

theorem Accrued.claimAmounts {user mint : Pubkey} {market : Market} {position : Position}
    (accrued : Accrued s user mint market position) (b : Balances) :
    s.claimAmounts mint = some (market.rebalance b).amountPerClaim := by
  obtain ⟨stored, found, rfl⟩ := accrued.ofMarket
  rw [State.claimAmounts, found, Market.rebalance, accrueMarket_fields]
  rfl

theorem Touch.claimAmounts {kind : MarketActionKind} {user : Signer} {mint : Pubkey}
    (touch : Touch s kind user mint s') : s'.claimAmounts = s.claimAmounts := by
  have written : s'.claimAmounts = fun other =>
      ((s.markets.insert mint (touch.market.rebalance touch.balances)).lookup other).map
        Market.amountPerClaim := by
    rw [← touch.markets]
    rfl
  rw [written]
  exact map_terms_rewrite (touch.accrued.claimAmounts touch.balances)

theorem LiquidateRun.claimAmounts {accounts : LiquidateAccounts} {remaining : List Pubkey}
    {repayAmount : U64} (run : LiquidateRun rt s accounts remaining repayAmount s') :
    s'.claimAmounts = s.claimAmounts := by
  have first := map_terms_rewrite (run.accruedDebt.claimAmounts run.debtBalances)
  have written : s'.claimAmounts = fun other =>
      (((s.markets.insert accounts.debtMint (run.debtMarket.rebalance run.debtBalances)).insert
        accounts.collateralMint (run.collateralMarket.rebalance run.collateralBalances)).lookup
          other).map Market.amountPerClaim := by
    rw [← run.markets]
    rfl
  rw [written]
  refine (map_terms_rewrite ?_).trans first
  exact (congrFun first accounts.collateralMint).trans
    (run.accruedCollateral.claimAmounts run.collateralBalances)

theorem setsPayout_of_touch {kind : MarketActionKind} {user : Signer} {mint : Pubkey}
    (acts : a.touch = some (kind, user, mint)) : a.setsPayout = none := by
  cases a with
  | initializeMarket _ _ _ _ _ _ => cases acts
  | setClaimAmount _ _ _ => cases acts
  | _ => rfl

/-- Creating a market sets its payout, and otherwise only its admin's decree does. -/
theorem step_claimAmounts (linked : Linked rt s) (step : Step rt s a s') :
    match a.setsPayout with
    | none => s'.claimAmounts = s.claimAmounts
    | some (mint, amount) => s'.claimAmounts = Function.update s.claimAmounts mint (some amount) := by
  cases step_writes step with
  | opened admin mint amountPerClaim maxLtvBps feedId rate acts run =>
      subst acts
      rw [run.result]
      refine (map_terms_insert s.markets Market.amountPerClaim mint.pubkey run.market).trans ?_
      rw [run.created]
      rfl
  | decreed admin mint amount market acts _ result =>
      subst acts result
      exact map_terms_insert s.markets Market.amountPerClaim mint _
  | claimed user mint acts run =>
      subst acts
      rw [run.result]
      apply map_terms_rewrite
      rw [run.found]
      rfl
  | moved kind user mint acts _ =>
      obtain ⟨touch⟩ := step_touch linked acts step
      rw [setsPayout_of_touch acts]
      exact touch.claimAmounts
  | liquidated accounts remaining repayAmount acts run =>
      subst acts
      exact run.claimAmounts
  | counted user stats events acts _ _ result =>
      subst result
      obtain rfl | ⟨_, _, rfl⟩ := acts <;> rfl
  | held holder instruction acts ran =>
      subst acts
      obtain ⟨_, _, rfl⟩ := holderInstruction_frame ran
      rfl
  | passed clock foreign acts _ result =>
      subst acts result
      rfl

end Steps

theorem records_kept_lowered :
    KeepsRecords (ledger initializeMarkets)
        (replay devnet (fun _ _ => True) (ledger initializeMarkets)
          [.claimFaucet bob sol.pubkey, .setClaimAmount admin sol.pubkey 5,
            .claimFaucet alice sol.pubkey]) ∧
      (ledger initializeMarkets).marketTerms usdc.pubkey ≠ none :=
  ⟨records_kept (ledger_reachable _) (replay_leads devnet _ _ _), by
    have listed : ((ledger initializeMarkets).marketTerms usdc.pubkey).isSome := by decide +kernel
    intro none
    rw [none] at listed
    cases listed⟩

section Histories

variable {rt : Runtime} {history : History} {s : State}

theorem Recorded.claimAmounts (run : Recorded rt history s) (mint : Pubkey) :
    s.claimAmounts mint = history.findSome? (payoutSet mint) := by
  apply run.invariant (P := fun history s =>
    s.claimAmounts mint = history.findSome? (payoutSet mint))
  · rintro _ rfl
    simp [State.claimAmounts, State.empty]
  · intro history s a s' reached carried step
    have law := step_claimAmounts (Reachable.linked reached) step
    rw [List.findSome?_cons, payoutSet]
    cases sets : a.setsPayout with
    | none =>
        rw [sets] at law
        exact (congrFun law mint).trans carried
    | some payout =>
        obtain ⟨named, amount⟩ := payout
        rw [sets] at law
        refine (congrFun law mint).trans ?_
        by_cases here : named = mint
        · rw [here, Function.update_self]
          simp
        · rw [Function.update_of_ne (Ne.symm here), carried]
          simp [here]

/-- Whoever set a payout is the admin the market still has. -/
theorem Recorded.decreed (run : Recorded rt history s) :
    ∀ entry ∈ history, ∀ admin mint amount, entry.label = .setClaimAmount admin mint amount →
      ∃ terms, s.marketTerms mint = some terms ∧ terms.admin = admin.pubkey := by
  apply run.invariant (P := fun history s => ∀ entry ∈ history, ∀ admin mint amount,
    entry.label = .setClaimAmount admin mint amount →
      ∃ terms, s.marketTerms mint = some terms ∧ terms.admin = admin.pubkey)
  · exact fun _ _ => nofun
  · intro history s a s' reached carried step entry member admin mint amount labelled
    obtain rfl | member := List.mem_cons.mp member
    · change a = _ at labelled
      subst labelled
      obtain ⟨market, found, allowed, _⟩ := setClaimAmount_ok step
      exact ⟨market.terms, step_marketTerms_mono step (marketTerms_of_lookup found), allowed⟩
    · obtain ⟨terms, found, named⟩ := carried entry member admin mint amount labelled
      exact ⟨terms, step_marketTerms_mono step found, named⟩

/-- A payout is what was decreed last, and only the admin of a market ever decreed. -/
theorem payouts_decreed (run : Recorded rt history s) :
    (∀ mint market, s.markets.lookup mint = some market →
      history.findSome? (payoutSet mint) = some market.amountPerClaim) ∧
    ∀ entry ∈ history, ∀ admin mint amount, entry.label = .setClaimAmount admin mint amount →
      ∃ market, s.markets.lookup mint = some market ∧ market.admin = admin.pubkey := by
  constructor
  · intro mint market found
    rw [← run.claimAmounts mint, State.claimAmounts, found]
    rfl
  · intro entry member admin mint amount labelled
    obtain ⟨terms, listed, named⟩ := run.decreed entry member admin mint amount labelled
    obtain ⟨market, found, rfl⟩ := marketTerms_some listed
    exact ⟨market, found, named⟩

end Histories

theorem payouts_decreed_lowered :
    ∃ history, Recorded devnet history lowered ∧
      history.findSome? (payoutSet sol.pubkey) = some 5 := by
  obtain ⟨history, run⟩ := (ledger_reachable _ : Reachable devnet lowered).recalled
  have listed : ∃ market, lowered.markets.lookup sol.pubkey = some market ∧
      market.amountPerClaim = 5 := some_where (by decide +kernel)
  obtain ⟨market, found, paysFive⟩ := listed
  refine ⟨history, run, ?_⟩
  rw [(payouts_decreed run).1 _ _ found, paysFive]

end ShadowLend
