import ShadowLend.Charter
import ShadowLend.Interference

/-! When a market can be opened and its faucet claimed. Nobody can take the addresses of
a market before it, and no claims but a wallet's own stand in its way, as long as the
supply and the counter have room. -/

namespace ShadowLend

open Outcome Devnet

/-- What a wallet needs to be paid by a faucet, in a ledger with this history. -/
structure CanClaim (history : History) (s : State) (user : Signer) (mint : Pubkey) : Prop where
  wallet : WalletUsable s user mint
  first : timesClaimed history user.pubkey mint = 0
  room : ∃ amount, history.findSome? (payoutSet mint) = some amount ∧
    s.minted mint + amount.val < 2 ^ 64
  counter : s.receiptCount mint + 1 < 2 ^ 64

section Addresses

variable {rt : Runtime} {s s' : State} {mint : Pubkey}

theorem vaultUnopened_step (linked : Linked rt s) {a : Action} (step : Step rt s a s')
    (carried : s.markets.lookup mint = none → s.tokens.identityAt (.vault mint) = none)
    (unlisted : s'.markets.lookup mint = none) : s'.tokens.identityAt (.vault mint) = none := by
  have before : s.markets.lookup mint = none := by
    by_contra listed
    obtain ⟨market, found⟩ := Option.ne_none_iff_exists'.mp listed
    obtain ⟨market', found', _⟩ := step_market linked step found
    rw [unlisted] at found'
    cases found'
  cases step_opens step (carried before) with
  | absent still => exact still
  | vault created named listed =>
      rw [← Pubkey.vault.inj named, unlisted] at listed
      cases listed
  | associated owner minted named => cases named
  | vacant address named => cases named

/-- No vault comes to be before its market. -/
theorem Reachable.vault_unopened (reached : Reachable rt s)
    (unlisted : s.markets.lookup mint = none) : s.tokens.identityAt (.vault mint) = none := by
  have law : s.markets.lookup mint = none → s.tokens.identityAt (.vault mint) = none := by
    apply reached.invariant_under (P := fun s => s.markets.lookup mint = none →
      s.tokens.identityAt (.vault mint) = none) (fun s (earlier : Reachable rt s) => earlier.linked)
    · rintro _ rfl _
      rfl
    · exact fun _ _ _ linked carried _ step => vaultUnopened_step linked step carried
  exact law unlisted

theorem Reachable.market_unlisted (reached : Reachable rt s) {mint : Signer}
    (vacant : s.isVacant mint = true) : s.markets.lookup mint.pubkey = none := by
  by_contra listed
  obtain ⟨market, found⟩ := Option.ne_none_iff_exists'.mp listed
  obtain ⟨minted, mints, _⟩ := reached.mint_decimals (marketTerms_of_lookup found)
  simp [State.isVacant, mints] at vacant

/-- A market opens exactly at an unused mint address other than its payer's, with an LTV
below one. -/
theorem initialize_market_succeeds_iff (reached : Reachable rt s) {admin mint : Signer}
    {amountPerClaim : U64} {maxLtvBps : U16} {feedId : FeedId} {rate : U64} :
    (∃ s', initializeMarket rt s admin mint amountPerClaim maxLtvBps feedId rate = .ok s') ↔
      admin ≠ mint ∧ s.isVacant mint = true ∧ 0 < maxLtvBps.val ∧ maxLtvBps.val < 10000 := by
  constructor
  · rintro ⟨s', ran⟩
    obtain ⟨run⟩ := initializeMarket_ok ran
    exact ⟨run.payer, run.newMint, run.ltv⟩
  · rintro ⟨payer, vacant, ltv⟩
    have unlisted := reached.market_unlisted vacant
    have unopened := Option.map_eq_none_iff.mp (reached.vault_unopened unlisted)
    simp only [initializeMarket, bind_ok, require_ok, pure_ok, Option.isNone_iff_eq_none]
    exact ⟨_, (), unlisted, (), payer, (), vacant, (), unopened, (), ltv, rfl⟩

end Addresses

theorem initialize_market_succeeds_iff_mallory :
    (∃ s', initializeMarket devnet (ledger initializeMarkets) mallory ⟨50⟩ 0 5000 solFeed 1 =
      .ok s') ∧
    (¬ ∃ s', initializeMarket devnet (ledger initializeMarkets) mallory sol 0 5000 solFeed 1 =
      .ok s') ∧
    ¬ ∃ s', initializeMarket devnet (ledger initializeMarkets) mallory mallory 0 5000 solFeed 1 =
      .ok s' := by
  simp only [initialize_market_succeeds_iff (ledger_reachable _)]
  decide +kernel

section Claims

variable {rt : Runtime} {history : History} {s : State} {user : Signer} {mint : Pubkey}

theorem Reachable.amountAt_le (reached : Reachable rt s) {key owner : Pubkey}
    (held : s.tokens.identityAt key = some (mint, owner)) : s.tokens.amountAt key ≤ s.minted mint := by
  obtain ⟨account, found, rfl, _⟩ := lookup_of_identityAt held
  have part := s.tokens.share_le_total (fun _ holder => holder.worth (ofMint account.mint)) key
  rw [Table.share_of_lookup found, worth_eq, ofMint_part, if_pos rfl] at part
  rw [amountAt_of_lookup found, ← reached.minted]
  exact part

theorem Reachable.prepared_wallet (reached : Reachable rt s) {prepared : Tokens}
    (ready : initAssociatedToken s.tokens user.pubkey mint = .ok prepared) :
    ∃ wallet, prepared.lookup (.associatedToken user.pubkey mint) = some wallet ∧
      wallet.mint = mint ∧ wallet.amount.val ≤ s.minted mint := by
  obtain ⟨wallet, found, kind, _⟩ := lookup_of_identityAt (initAssociatedToken_own ready)
  refine ⟨wallet, found, kind, ?_⟩
  rw [← amountAt_of_lookup found, initAssociatedToken_amountAt ready]
  rcases Nat.eq_zero_or_pos (s.tokens.amountAt (.associatedToken user.pubkey mint)) with none | funded
  · rw [none]
    exact Nat.zero_le _
  · exact reached.amountAt_le (wallet_of_funded ready funded)

theorem claim_needs (run : Recorded rt history s) {s' : State}
    (ran : claimFaucet rt s user mint = .ok s') : CanClaim history s user mint := by
  have reached : Reachable rt s := run.reaches
  obtain ⟨claim⟩ := claimFaucet_ok ran
  have once := run.timesClaimed_eq user.pubkey mint
  have decreed := run.claimAmounts mint
  have counts := reached.claims_eq mint
  rw [claim.first] at once
  rw [State.claimAmounts, claim.found] at decreed
  rw [State.claims, claimsIn_of_lookup claim.found] at counts
  have supply := claim.supply.val_le_max
  have counter := claim.claimCount.val_le_max
  have grown := claim.supplied
  have counted := claim.counted
  refine ⟨initAssociatedToken_usable.mp ⟨_, claim.ready⟩, once.symm, ⟨_, decreed.symm, ?_⟩, ?_⟩
  · rw [minted_of_lookup claim.mintFound]
    omega
  · omega

theorem claim_exists (run : Recorded rt history s) (can : CanClaim history s user mint) :
    ∃ s', claimFaucet rt s user mint = .ok s' := by
  have reached : Reachable rt s := run.reaches
  obtain ⟨usable, first, ⟨amount, paid, room⟩, counter⟩ := can
  rw [← run.claimAmounts] at paid
  obtain ⟨market, found, rfl⟩ := Option.map_eq_some_iff.mp paid
  obtain ⟨named, bump, authority, ⟨minted, mints⟩, _⟩ := reached.sound found
  obtain ⟨prepared, ready⟩ := initAssociatedToken_usable.mpr usable
  obtain ⟨wallet, held, kind, within⟩ := reached.prepared_wallet ready
  have counts := reached.claims_eq mint
  rw [State.claims, claimsIn_of_lookup found] at counts
  rw [minted_of_lookup mints] at room within
  have unclaimed : s.receipts.lookup (user.pubkey, mint) = none := by
    have once := run.timesClaimed_eq user.pubkey mint
    rw [first] at once
    simpa using once
  have credited : wallet.amount.val + market.amountPerClaim.val < 2 ^ 64 := by omega
  have counted : market.claimCount.val + one.val < 2 ^ 64 := by
    rw [counts]
    exact counter
  simp only [claimFaucet, mintTokens, bind_ok, loadMarket_ok, require_ok, okOr_ok, pure_ok,
    Option.isNone_iff_eq_none, Uint.checkedAdd_eq_some]
  exact ⟨_, market, ⟨found, bump⟩, (), named, (), authority, prepared, ready, (), unclaimed, _,
    ⟨minted, mints, wallet, held, (), kind, ⟨_, room⟩, rfl, ⟨_, credited⟩, rfl, rfl⟩,
    ⟨_, counted⟩, rfl, rfl⟩

/-- A faucet pays a wallet exactly when it has not paid it before, and the wallet's
account, the supply and the counter of claims can take the payout decreed last. -/
theorem claim_faucet_succeeds_iff (run : Recorded rt history s) :
    (∃ s', claimFaucet rt s user mint = .ok s') ↔ CanClaim history s user mint := by
  constructor
  · rintro ⟨s', ran⟩
    exact claim_needs run ran
  · exact claim_exists run

end Claims

theorem claim_faucet_succeeds_iff_bob :
    ∃ history, Recorded devnet history lowered ∧ CanClaim history lowered bob usdc.pubkey ∧
      ¬ CanClaim history lowered bob sol.pubkey := by
  obtain ⟨history, run⟩ := (ledger_reachable _ : Reachable devnet lowered).recalled
  have pays : ∃ s', claimFaucet devnet lowered bob usdc.pubkey = .ok s' ∧
      s'.minted usdc.pubkey = 50000000000000 := ok_where (by decide +kernel)
  have refused : ¬ ∃ s', claimFaucet devnet lowered bob sol.pubkey = .ok s' :=
    not_ok_of_refused (by decide +kernel)
  obtain ⟨s', ran, _⟩ := pays
  exact ⟨history, run, (claim_faucet_succeeds_iff run).mp ⟨s', ran⟩,
    fun can => refused ((claim_faucet_succeeds_iff run).mpr can)⟩

end ShadowLend
