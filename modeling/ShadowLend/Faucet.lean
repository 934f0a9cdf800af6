import ShadowLend.Effects
import ShadowLend.Holdings
import ShadowLend.Devnet

/-! The faucet over a whole run. It is the only source of tokens, and every unit it
ever made is on one of its receipts, which are as many as the market has counted. -/

namespace ShadowLend

open Outcome Devnet

def Action.claim : Action → Option (Pubkey × Pubkey)
  | .claimFaucet user mint => some (user.pubkey, mint)
  | _ => none

def Action.burns : Action → Bool
  | .holder _ (.burn _ _) => true
  | _ => false

def claimsIn (markets : Table Pubkey Market) (mint : Pubkey) : ℕ :=
  (markets.lookup mint).elim 0 fun market => market.claimCount.val

/-- The claims a market has counted: none before it is created. -/
def State.claims (s : State) (mint : Pubkey) : ℕ := claimsIn s.markets mint

def State.receiptCount (s : State) (mint : Pubkey) : ℕ :=
  s.receipts.total fun _ receipt => if receipt.mint = mint then 1 else 0

def State.receiptTotal (s : State) (mint : Pubkey) : ℕ :=
  s.receipts.total fun _ receipt => if receipt.mint = mint then receipt.amount.val else 0

def State.wallets (s : State) (mint : Pubkey) : ℕ :=
  s.tokens.total fun key account => if key = .vault mint then 0 else account.worth (ofMint mint)

abbrev History := List (Runs.Entry State Action)

abbrev Recorded (rt : Runtime) (history : History) (s : State) : Prop :=
  Runs.Recorded (· = State.empty) (Step rt) (fun _ _ => True) history s

def createdBy (mint : Pubkey) (entry : Runs.Entry State Action) : ℕ :=
  entry.after.minted mint - entry.before.minted mint

def destroyedBy (mint : Pubkey) (entry : Runs.Entry State Action) : ℕ :=
  entry.before.minted mint - entry.after.minted mint

/-- All units of a mint that were made in a run, whatever became of them. -/
def everMinted (history : History) (mint : Pubkey) : ℕ := (history.map (createdBy mint)).sum

def timesClaimed (history : History) (user mint : Pubkey) : ℕ :=
  (history.map fun entry => if entry.label.claim = some (user, mint) then 1 else 0).sum

/-- A claim, a holder's burn, or a step the faucet does not notice. -/
inductive FaucetEffect (s : State) (a : Action) (s' : State) : Prop
  | claimed (user mint : Pubkey) (market : Market) (receipt : ClaimReceipt)
      (acts : a.claim = some (user, mint)) (listed : s.markets.lookup mint = some market)
      (first : s.receipts.lookup (user, mint) = none)
      (named : (receipt.user, receipt.mint) = (user, mint))
      (amount : receipt.amount = market.amountPerClaim)
      (receipts : s'.receipts = s.receipts.insert (user, mint) receipt)
      (claims : ∀ other, s'.claims other = s.claims other + if mint = other then 1 else 0)
      (minted : ∀ other,
        s'.minted other = s.minted other + if mint = other then receipt.amount.val else 0)
  | burned (acts : a.claim = none) (burns : a.burns = true) (receipts : s'.receipts = s.receipts)
      (claims : ∀ mint, s'.claims mint = s.claims mint)
      (minted : ∀ mint, s'.minted mint ≤ s.minted mint)
  | idle (acts : a.claim = none) (receipts : s'.receipts = s.receipts)
      (claims : ∀ mint, s'.claims mint = s.claims mint)
      (minted : ∀ mint, s'.minted mint = s.minted mint)

section Steps

variable {rt : Runtime} {s s' : State}

theorem claimsIn_insert {markets : Table Pubkey Market} {mint : Pubkey} {market : Market}
    (same : market.claimCount.val = claimsIn markets mint) (other : Pubkey) :
    claimsIn (markets.insert mint market) other = claimsIn markets other := by
  by_cases here : other = mint
  · rw [here, ← same, claimsIn, Finmap.lookup_insert]
    rfl
  · rw [claimsIn, Finmap.lookup_insert_of_ne _ here]
    rfl

theorem claimsIn_of_lookup {markets : Table Pubkey Market} {mint : Pubkey} {market : Market}
    (found : markets.lookup mint = some market) :
    claimsIn markets mint = market.claimCount.val := by
  rw [claimsIn, found]
  rfl

theorem minted_of_mints (same : s'.mints = s.mints) (mint : Pubkey) :
    s'.minted mint = s.minted mint := by
  rw [State.minted, same]
  rfl

theorem Accrued.claims {user mint : Pubkey} {market : Market} {position : Position}
    (accrued : Accrued s user mint market position) (b : Balances) :
    (market.rebalance b).claimCount.val = claimsIn s.markets mint := by
  rcases accrued.ofMarket with ⟨stored, found, rfl⟩
  rw [claimsIn_of_lookup found, Market.rebalance, accrueMarket_claimCount]

theorem Touch.claims {kind : MarketActionKind} {user : Signer} {mint : Pubkey}
    (touch : Touch s kind user mint s') (other : Pubkey) : s'.claims other = s.claims other := by
  rw [State.claims, touch.markets]
  exact claimsIn_insert (touch.accrued.claims touch.balances) other

theorem LiquidateRun.claims {accounts : LiquidateAccounts} {remaining : List Pubkey}
    {repayAmount : U64} (run : LiquidateRun rt s accounts remaining repayAmount s')
    (other : Pubkey) : s'.claims other = s.claims other := by
  have debt := claimsIn_insert (run.accruedDebt.claims run.debtBalances)
  have collateral : (run.collateralMarket.rebalance run.collateralBalances).claimCount.val =
      claimsIn (s.markets.insert accounts.debtMint (run.debtMarket.rebalance run.debtBalances))
        accounts.collateralMint := by
    rw [debt]
    exact run.accruedCollateral.claims run.collateralBalances
  rw [State.claims, run.markets, claimsIn_insert collateral, debt]
  rfl

theorem claimFaucet_effect {user : Signer} {mint : Pubkey}
    (ran : claimFaucet rt s user mint = .ok s') :
    FaucetEffect s (.claimFaucet user mint) s' := by
  rcases claimFaucet_ok ran with ⟨run⟩
  have listed := claimsIn_of_lookup run.found
  refine .claimed user.pubkey mint run.market _ rfl run.found run.first ?_ rfl
    (congrArg State.receipts run.result) ?_ ?_
  · rw [run.named]
  · intro other
    rw [run.result, State.claims, State.claims]
    by_cases here : mint = other
    · rw [← here, claimsIn_of_lookup (Finmap.lookup_insert _), listed, if_pos rfl]
      exact run.counted
    · rw [claimsIn, Finmap.lookup_insert_of_ne _ (Ne.symm here), if_neg here]
      rfl
  · intro other
    have rewritten := minted_rewrite other run.supply run.mintFound
    have supplied := run.supplied
    refine (congrArg (State.minted · other) run.result).trans ?_
    simp only [State.minted] at rewritten ⊢
    split at rewritten
    · rename_i here
      rw [if_pos here]
      omega
    · rename_i elsewhere
      rw [if_neg elsewhere]
      omega

theorem holderInstruction_effect {holder : Signer} {instruction : HolderInstruction}
    (ran : holderInstruction s holder instruction = .ok s') :
    FaucetEffect s (.holder holder instruction) s' := by
  cases instruction with
  | transfer source destination amount =>
      simp only [holderInstruction, bind_ok, pure_ok] at ran
      rcases ran with ⟨_, _, rfl⟩
      exact .idle rfl rfl (fun _ => rfl) fun _ => rfl
  | burn account amount =>
      simp only [holderInstruction, bind_ok, okOr_ok, require_ok, pure_ok,
        Uint.checkedSub_eq_some] at ran
      rcases ran with ⟨_, _, minted, present, _, _, _, _, supply, lowered, rfl⟩
      refine .burned rfl rfl rfl (fun _ => rfl) ?_
      intro mint
      have rewritten := minted_rewrite mint supply present
      simp only [State.minted] at rewritten ⊢
      split at rewritten <;> omega
  | setOwner account newOwner =>
      simp only [holderInstruction, bind_ok, okOr_ok, require_ok, pure_ok] at ran
      rcases ran with ⟨_, _, _, _, rfl⟩
      exact .idle rfl rfl (fun _ => rfl) fun _ => rfl
  | createAccount address owner mint =>
      simp only [holderInstruction, bind_ok, require_ok, pure_ok] at ran
      rcases ran with ⟨_, _, _, _, rfl⟩
      exact .idle rfl rfl (fun _ => rfl) fun _ => rfl
  | createAssociated owner mint =>
      simp only [holderInstruction, bind_ok, require_ok, pure_ok] at ran
      rcases ran with ⟨_, _, _, _, rfl⟩
      exact .idle rfl rfl (fun _ => rfl) fun _ => rfl

theorem claim_of_touch {a : Action} {kind : MarketActionKind} {user : Signer} {mint : Pubkey}
    (acts : a.touch = some (kind, user, mint)) : a.claim = none := by
  cases a with
  | claimFaucet _ _ => cases acts
  | _ => rfl

theorem step_faucet (linked : Linked rt s) {a : Action} (step : Step rt s a s') :
    FaucetEffect s a s' := by
  cases step_writes step with
  | opened admin created amountPerClaim maxLtvBps feedId rate acts run =>
      subst acts
      refine .idle rfl ?_ ?_ ?_
      · rw [run.result]
      · intro mint
        have none_counted : run.market.claimCount.val = claimsIn s.markets created.pubkey := by
          rw [run.created, claimsIn, run.newMarket]
          rfl
        rw [run.result]
        exact claimsIn_insert none_counted mint
      · intro mint
        rw [run.result]
        by_cases here : mint = created.pubkey
        · subst mint
          simp [State.minted, Finmap.lookup_insert, (isVacant_iff.mp run.newMint).1]
        · simp [State.minted, Finmap.lookup_insert_of_ne _ here]
  | decreed admin mint amount market acts found result =>
      subst acts result
      refine .idle rfl rfl ?_ fun _ => rfl
      exact claimsIn_insert (claimsIn_of_lookup found).symm
  | claimed user mint acts _ =>
      subst acts
      exact claimFaucet_effect step
  | moved kind user mint acts move =>
      rcases step_touch linked acts step with ⟨touch⟩
      refine .idle (claim_of_touch acts) ?_ touch.claims (minted_of_mints ?_)
      · rw [move.result]
        rfl
      · rw [move.result]
        rfl
  | liquidated accounts remaining repayAmount acts run =>
      subst acts
      refine .idle rfl ?_ run.claims (minted_of_mints ?_)
      · rw [run.result]
        rfl
      · rw [run.result]
        rfl
  | counted user stats events acts _ _ result =>
      subst result
      refine .idle ?_ rfl (fun _ => rfl) fun _ => rfl
      rcases acts with rfl | ⟨_, _, rfl⟩ <;> rfl
  | held holder instruction acts ran =>
      subst acts
      exact holderInstruction_effect ran
  | passed clock foreign acts _ result =>
      subst acts result
      exact .idle rfl rfl (fun _ => rfl) fun _ => rfl

end Steps

section Tables

variable {s : State}

theorem receipts_insert {receipts : Table (Pubkey × Pubkey) ClaimReceipt}
    {key : Pubkey × Pubkey} {receipt : ClaimReceipt} (first : receipts.lookup key = none)
    (worth : ClaimReceipt → ℕ) :
    Table.total (receipts.insert key receipt) (fun _ receipt => worth receipt) =
      receipts.total (fun _ receipt => worth receipt) + worth receipt := by
  have law := receipts.total_insert (fun _ receipt => worth receipt) key receipt
  rwa [Table.share_of_absent first, add_zero] at law

/-- The wallets and the vault of a mint hold its supply. -/
theorem wallets_add_cash (linked : Linked rt s) (mint : Pubkey) :
    s.wallets mint + s.cash mint = s.tokens.held (ofMint mint) := by
  have vault : s.tokens.share (fun _ account => account.worth (ofMint mint)) (.vault mint) =
      s.cash mint := by
    cases found : s.tokens.lookup (.vault mint) with
    | none =>
        rw [Table.share_of_absent found, State.cash, Tokens.amountAt, found]
        rfl
    | some account =>
        have own := (linked.vault_owner (identityAt_of_lookup found)).1
        rw [Table.share_of_lookup found, worth_eq, ofMint_part, if_pos own, State.cash,
          amountAt_of_lookup found]
  have split := s.tokens.total_except (fun _ account => account.worth (ofMint mint)) (.vault mint)
  rw [Tokens.held, split, vault, State.wallets]
  exact add_comm _ _

end Tables

section Runs

variable {rt : Runtime} {s : State} {history : History}

theorem Reachable.receipt_named (reached : Reachable rt s) {key : Pubkey × Pubkey}
    {receipt : ClaimReceipt} (found : s.receipts.lookup key = some receipt) :
    (receipt.user, receipt.mint) = key := by
  have law : ∀ key receipt, s.receipts.lookup key = some receipt →
      (receipt.user, receipt.mint) = key := by
    apply reached.invariant_under (P := fun s => ∀ key receipt,
      s.receipts.lookup key = some receipt → (receipt.user, receipt.mint) = key)
      (fun s (earlier : Reachable rt s) => earlier.linked)
    · intro s begins key receipt found
      subst begins
      simp [State.empty] at found
    · intro s a s' linked carried _ step key receipt found
      cases step_faucet linked step with
      | claimed user mint market written acts listed first named amount receipts claims minted =>
          rw [receipts] at found
          by_cases here : key = (user, mint)
          · rw [here, Finmap.lookup_insert, Option.some.injEq] at found
            rw [here, ← found, named]
          · rw [Finmap.lookup_insert_of_ne _ here] at found
            exact carried key receipt found
      | burned _ _ receipts => exact carried key receipt (receipts ▸ found)
      | idle _ receipts => exact carried key receipt (receipts ▸ found)
  exact law key receipt found

/-- A market has counted as many claims as there are receipts for its mint. -/
theorem Reachable.claims_eq (reached : Reachable rt s) (mint : Pubkey) :
    s.claims mint = s.receiptCount mint := by
  apply reached.invariant_under (P := fun s => s.claims mint = s.receiptCount mint)
    (fun s (earlier : Reachable rt s) => earlier.linked)
  · intro s begins
    subst begins
    simp [State.claims, claimsIn, State.receiptCount, State.empty]
  · intro s a s' linked carried _ step
    cases step_faucet linked step with
    | claimed user claimed market receipt acts listed first named amount receipts claims minted =>
        have same : receipt.mint = claimed := congrArg Prod.snd named
        rw [claims, carried, State.receiptCount, State.receiptCount, receipts,
          receipts_insert first, same]
    | burned _ _ receipts claims =>
        rw [claims, carried, State.receiptCount, State.receiptCount, receipts]
    | idle _ receipts claims =>
        rw [claims, carried, State.receiptCount, State.receiptCount, receipts]

/-- What a run made of a mint is what the receipts say. -/
theorem Recorded.minted_eq (run : Recorded rt history s) (mint : Pubkey) :
    s.receiptTotal mint = everMinted history mint := by
  apply run.sum (f := fun s => s.receiptTotal mint)
  · intro s begins
    subst begins
    simp [State.receiptTotal, State.empty]
  · intro s a s' reached step
    cases step_faucet (Reachable.linked reached) step with
    | claimed user claimed market receipt acts listed first named amount receipts claims minted =>
        have same : receipt.mint = claimed := congrArg Prod.snd named
        simp only [State.receiptTotal, createdBy, receipts, receipts_insert first, same, minted]
        omega
    | burned _ _ receipts _ minted =>
        have fewer := minted mint
        simp only [State.receiptTotal, createdBy, receipts]
        omega
    | idle _ receipts _ minted => simp [State.receiptTotal, createdBy, receipts, minted]

theorem Recorded.timesClaimed_eq (run : Recorded rt history s) (user mint : Pubkey) :
    (if (s.receipts.lookup (user, mint)).isSome then 1 else 0) =
      timesClaimed history user mint := by
  apply run.sum
    (f := fun s : State => if (s.receipts.lookup (user, mint)).isSome then (1 : ℕ) else 0)
  · intro s begins
    subst begins
    simp [State.empty]
  · intro s a s' reached step
    cases step_faucet (Reachable.linked reached) step with
    | claimed claimant claimed market receipt acts listed first named amount receipts =>
        by_cases here : (claimant, claimed) = (user, mint)
        · rw [here] at first receipts acts
          simp [receipts, first, acts, Finmap.lookup_insert]
        · simp [receipts, acts, here, Finmap.lookup_insert_of_ne _ (Ne.symm here)]
    | burned acts _ receipts => simp [receipts, acts]
    | idle acts receipts => simp [receipts, acts]

def PaidBy (mint : Pubkey) (receipt : ClaimReceipt) (user : Pubkey)
    (entry : Runs.Entry State Action) : Prop :=
  entry.label.claim = some (user, mint) ∧
    ∃ market, entry.before.markets.lookup mint = some market ∧
      receipt.amount = market.amountPerClaim

theorem Recorded.paid (run : Recorded rt history s) {user mint : Pubkey} {receipt : ClaimReceipt}
    (found : s.receipts.lookup (user, mint) = some receipt) :
    ∃ entry ∈ history, PaidBy mint receipt user entry := by
  have law : ∀ receipt, s.receipts.lookup (user, mint) = some receipt →
      ∃ entry ∈ history, PaidBy mint receipt user entry := by
    apply run.invariant (P := fun history s => ∀ receipt,
      s.receipts.lookup (user, mint) = some receipt →
        ∃ entry ∈ history, PaidBy mint receipt user entry)
    · intro s begins receipt found
      subst begins
      simp [State.empty] at found
    · intro history s a s' reached carried step receipt found
      have earlier (found : s.receipts.lookup (user, mint) = some receipt) :
          ∃ entry ∈ (⟨s, a, s'⟩ :: history : History), PaidBy mint receipt user entry := by
        rcases carried receipt found with ⟨entry, member, paid⟩
        exact ⟨entry, List.mem_cons_of_mem _ member, paid⟩
      cases step_faucet (Reachable.linked reached) step with
      | claimed claimant claimed market written acts listed first named amount receipts =>
          rw [receipts] at found
          by_cases here : (user, mint) = (claimant, claimed)
          · rw [← here, Finmap.lookup_insert, Option.some.injEq] at found
            rw [← here] at acts
            have same : mint = claimed := congrArg Prod.snd here
            rw [← same] at listed
            exact ⟨_, List.mem_cons_self, acts, market, listed, found ▸ amount⟩
          · rw [Finmap.lookup_insert_of_ne _ here] at found
            exact earlier found
      | burned _ _ receipts => exact earlier (receipts ▸ found)
      | idle _ receipts => exact earlier (receipts ▸ found)
  exact law receipt found

/-- Without a burn no unit of a mint is ever destroyed. -/
theorem Recorded.unburned (run : Recorded rt history s)
    (kept : ∀ entry ∈ history, entry.label.burns = false) (mint : Pubkey) :
    (history.map (destroyedBy mint)).sum = 0 := by
  have law : (∀ entry ∈ history, entry.label.burns = false) →
      (history.map (destroyedBy mint)).sum = 0 := by
    apply run.invariant (P := fun history _ => (∀ entry ∈ history, entry.label.burns = false) →
      (history.map (destroyedBy mint)).sum = 0)
    · intro _ _ _
      rfl
    · intro history s a s' reached carried step kept
      rw [List.forall_mem_cons] at kept
      rw [List.map_cons, List.sum_cons, carried kept.2, add_zero, destroyedBy]
      cases step_faucet (Reachable.linked reached) step with
      | claimed _ _ _ _ _ _ _ _ _ _ _ minted => exact Nat.sub_eq_zero_of_le (by simp [minted])
      | burned _ burns => exact absurd burns (by simp [kept.1])
      | idle _ _ _ minted => exact Nat.sub_eq_zero_of_le (minted mint).ge
  exact law kept

/-- What a run made of a mint and did not destroy again is its supply. -/
theorem Recorded.supply_eq (run : Recorded rt history s) (mint : Pubkey) :
    s.minted mint + (history.map (destroyedBy mint)).sum = everMinted history mint := by
  apply run.balance (f := fun s => s.minted mint)
  · intro s begins
    subst begins
    simp [State.minted, State.empty]
  · intro s a s' _ _
    simp only [createdBy, destroyedBy]
    omega

end Runs

structure Accounted (history : History) (s : State) : Prop where
  counted : ∀ mint market, s.markets.lookup mint = some market →
    market.claimCount.val = s.receiptCount mint
  named : ∀ key receipt, s.receipts.lookup key = some receipt →
    (receipt.user, receipt.mint) = key
  once : ∀ user mint, timesClaimed history user mint =
    if (s.receipts.lookup (user, mint)).isSome then 1 else 0
  paid : ∀ user mint receipt, s.receipts.lookup (user, mint) = some receipt →
    ∃ entry ∈ history, PaidBy mint receipt user entry
  minted : ∀ mint, everMinted history mint = s.receiptTotal mint
  held : (∀ entry ∈ history, entry.label.burns = false) →
    ∀ mint, s.wallets mint + s.cash mint = s.receiptTotal mint

/-- Every run keeps the books of the faucet, whatever payout is set in between and
whoever moves the tokens on. -/
theorem faucet_accounted {rt : Runtime} {history : History} {s : State}
    (run : Recorded rt history s) : Accounted history s := by
  have reached : Reachable rt s := run.reaches
  constructor
  · intro mint market listed
    rw [← claimsIn_of_lookup listed]
    exact reached.claims_eq mint
  · exact fun _ _ => reached.receipt_named
  · exact fun user mint => (run.timesClaimed_eq user mint).symm
  · exact fun _ _ _ => run.paid
  · exact fun mint => (run.minted_eq mint).symm
  · intro kept mint
    have supply := run.supply_eq mint
    rw [run.unburned kept mint, add_zero] at supply
    rw [wallets_add_cash reached.linked, reached.minted, supply, run.minted_eq]

def lowered : State :=
  ledger (initializeMarkets ++ [.claimFaucet bob sol.pubkey,
    .setClaimAmount admin sol.pubkey 5, .claimFaucet alice sol.pubkey])

theorem faucet_accounted_lowered :
    ∃ history, Recorded devnet history lowered ∧ Accounted history lowered ∧
      everMinted history sol.pubkey = 1000000000005 := by
  rcases (ledger_reachable _ : Reachable devnet lowered).recalled with ⟨history, run⟩
  have accounted := faucet_accounted run
  have total : lowered.receiptTotal sol.pubkey = 1000000000005 := by decide +kernel
  exact ⟨history, run, accounted, (accounted.minted _).trans total⟩

end ShadowLend
