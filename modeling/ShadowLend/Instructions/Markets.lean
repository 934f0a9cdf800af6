import ShadowLend.Contexts
import ShadowLend.Interest
import ShadowLend.Pricing

/-! Market creation, the faucet and the per-user action counters. -/

namespace ShadowLend

open Outcome

def one : U64 := ⟨1, by decide⟩

/-- The signer becomes the market's admin, whoever it is. `mint` is a fresh account which
signs for its own creation, and not the one that pays for it. -/
def initializeMarket (rt : Runtime) (s : State) (admin mint : Signer) (amountPerClaim : U64)
    (maxLtvBps : U16) (feedId : FeedId) (borrowRatePerSlotE18 : U64) :
    Except ProgramError State := do
  require ((s.markets.lookup mint.pubkey).isNone) (.anchor .accountAlreadyInUse)
  require (admin ≠ mint) (.anchor .tryingToInitPayerAsProgramAccount)
  require (s.isVacant mint) (.anchor .accountAlreadyInUse)
  require ((s.tokens.lookup (.vault mint.pubkey)).isNone) (.anchor .accountAlreadyInUse)
  require (0 < maxLtvBps.val ∧ maxLtvBps.val < bpsDenominator.val) (.market .badLtv)
  let market : Market :=
    { admin := admin.pubkey
      mint := mint.pubkey
      amountPerClaim := amountPerClaim
      maxLtvBps := maxLtvBps
      feedId := feedId
      borrowRatePerSlotE18 := borrowRatePerSlotE18
      borrowIndexE18 := rateScaleE18
      lastUpdateSlot := s.clock.slot
      totalSupplied := 0
      totalBorrowed := 0
      claimCount := 0
      bump := rt.findBump (.market mint.pubkey)
      authorityBump := rt.findBump (.authority mint.pubkey) }
  pure { s with
    markets := s.markets.insert mint.pubkey market
    mints := s.mints.insert mint.pubkey ⟨0, 9⟩
    tokens := s.tokens.insert (.vault mint.pubkey) ⟨mint.pubkey, .authority mint.pubkey, 0⟩ }

def setClaimAmount (rt : Runtime) (s : State) (admin : Signer) (mint : Pubkey) (amount : U64) :
    Except ProgramError State := do
  let market ← loadMarketBySeeds rt s mint
  require (market.admin = admin.pubkey) (.market .notAdmin)
  pure { s with markets := s.markets.insert mint { market with amountPerClaim := amount } }

def claimFaucet (rt : Runtime) (s : State) (user : Signer) (mint : Pubkey) :
    Except ProgramError State := do
  let market ← loadMarket rt s mint
  require (market.mint = mint) (.market .mintMismatch)
  require (market.authorityBump = rt.findBump (.authority mint)) (.anchor .constraintSeeds)
  let tokens ← initAssociatedToken s.tokens user.pubkey mint
  require ((s.receipts.lookup (user.pubkey, mint)).isNone) (.anchor .accountAlreadyInUse)
  let amount := market.amountPerClaim
  let (mints, tokens) ← mintTokens s.mints tokens mint (.associatedToken user.pubkey mint) amount
  let receipt : ClaimReceipt :=
    { user := user.pubkey
      mint := market.mint
      amount := amount
      claimedAt := s.clock.unixTimestamp
      bump := rt.findBump (.claim user.pubkey mint) }
  let claimCount ← okOr (market.claimCount.checkedAdd one) (.market .overflow)
  pure { s with
    markets := s.markets.insert mint { market with claimCount := claimCount }
    mints := mints
    tokens := tokens
    receipts := s.receipts.insert (user.pubkey, mint) receipt
    events := s.events ++
      [.faucetClaimed user.pubkey market.mint amount s.clock.unixTimestamp] }

def initUserStats (rt : Runtime) (s : State) (user : Signer) : Except ProgramError State := do
  require ((s.stats.lookup user.pubkey).isNone) (.anchor .accountAlreadyInUse)
  let stats : UserStats :=
    { user := user.pubkey
      createdAt := s.clock.unixTimestamp
      lastActionAt := s.clock.unixTimestamp
      proofsSubmitted := 0
      supplies := 0
      borrows := 0
      repays := 0
      liquidations := 0
      lastHealthBps := 0
      bump := rt.findBump (.stats user.pubkey) }
  pure { s with stats := s.stats.insert user.pubkey stats }

def increment (counter : U64) : Except ProgramError U64 :=
  okOr (counter.checkedAdd one) (.stats .overflow)

/-- The `match kind` of `record_action`. -/
def countAction (stats : UserStats) : ActionKind → Except ProgramError UserStats
  | .supply => do pure { stats with supplies := ← increment stats.supplies }
  | .borrow => do pure { stats with borrows := ← increment stats.borrows }
  | .repay => do pure { stats with repays := ← increment stats.repays }
  | .liquidation => do pure { stats with liquidations := ← increment stats.liquidations }

def recordAction (rt : Runtime) (s : State) (user : Signer) (kind : ActionKind)
    (healthBps : U16) : Except ProgramError State := do
  let stats ← okOr (s.stats.lookup user.pubkey) (.anchor .accountNotInitialized)
  require (stats.bump = rt.findBump (.stats user.pubkey)) (.anchor .constraintSeeds)
  require (stats.user = user.pubkey) (.stats .unauthorized)
  let proofsSubmitted ← increment stats.proofsSubmitted
  let stats :=
    { stats with
      lastActionAt := s.clock.unixTimestamp
      proofsSubmitted := proofsSubmitted
      lastHealthBps := if 0 < healthBps.val then healthBps else stats.lastHealthBps }
  let stats ← countAction stats kind
  pure { s with
    stats := s.stats.insert user.pubkey stats
    events := s.events ++
      [.actionRecorded user.pubkey kind healthBps s.clock.unixTimestamp] }

section Runs

variable {rt : Runtime} {s s' : State}

structure InitializeMarketRun (rt : Runtime) (s : State) (admin mint : Signer)
    (amountPerClaim : U64) (maxLtvBps : U16) (feedId : FeedId) (rate : U64) (s' : State) where
  market : Market
  newMarket : s.markets.lookup mint.pubkey = none
  payer : admin ≠ mint
  newMint : s.isVacant mint = true
  newVault : s.tokens.lookup (.vault mint.pubkey) = none
  ltv : 0 < maxLtvBps.val ∧ maxLtvBps.val < 10000
  created : market =
    { admin := admin.pubkey
      mint := mint.pubkey
      amountPerClaim := amountPerClaim
      maxLtvBps := maxLtvBps
      feedId := feedId
      borrowRatePerSlotE18 := rate
      borrowIndexE18 := rateScaleE18
      lastUpdateSlot := s.clock.slot
      totalSupplied := 0
      totalBorrowed := 0
      claimCount := 0
      bump := rt.findBump (.market mint.pubkey)
      authorityBump := rt.findBump (.authority mint.pubkey) }
  result : s' = { s with
    markets := s.markets.insert mint.pubkey market
    mints := s.mints.insert mint.pubkey ⟨0, 9⟩
    tokens := s.tokens.insert (.vault mint.pubkey) ⟨mint.pubkey, .authority mint.pubkey, 0⟩ }

theorem initializeMarket_ok {admin mint : Signer} {amountPerClaim : U64} {maxLtvBps : U16}
    {feedId : FeedId} {rate : U64}
    (ran : initializeMarket rt s admin mint amountPerClaim maxLtvBps feedId rate = .ok s') :
    Nonempty (InitializeMarketRun rt s admin mint amountPerClaim maxLtvBps feedId rate s') := by
  simp only [initializeMarket, bind_ok, require_ok, pure_ok, Option.isNone_iff_eq_none] at ran
  rcases ran with ⟨_, newMarket, _, payer, _, newMint, _, newVault, _, ltv, rfl⟩
  exact ⟨⟨_, newMarket, payer, newMint, newVault, ltv, rfl, rfl⟩⟩

structure ClaimFaucetRun (rt : Runtime) (s : State) (user : Signer) (mint : Pubkey)
    (s' : State) where
  market : Market
  minted : Mint
  prepared : Tokens
  wallet : TokenAccount
  supply : U64
  credited : U64
  claimCount : U64
  found : s.markets.lookup mint = some market
  named : market.mint = mint
  ready : initAssociatedToken s.tokens user.pubkey mint = .ok prepared
  first : s.receipts.lookup (user.pubkey, mint) = none
  mintFound : s.mints.lookup mint = some minted
  walletFound : prepared.lookup (.associatedToken user.pubkey mint) = some wallet
  supplied : supply.val = minted.supply.val + market.amountPerClaim.val
  grown : credited.val = wallet.amount.val + market.amountPerClaim.val
  counted : claimCount.val = market.claimCount.val + 1
  result : s' = { s with
    markets := s.markets.insert mint { market with claimCount := claimCount }
    mints := s.mints.insert mint { minted with supply := supply }
    tokens := prepared.insert (.associatedToken user.pubkey mint)
      { wallet with amount := credited }
    receipts := s.receipts.insert (user.pubkey, mint)
      { user := user.pubkey
        mint := market.mint
        amount := market.amountPerClaim
        claimedAt := s.clock.unixTimestamp
        bump := rt.findBump (.claim user.pubkey mint) }
    events := s.events ++
      [.faucetClaimed user.pubkey market.mint market.amountPerClaim s.clock.unixTimestamp] }

theorem claimFaucet_ok {user : Signer} {mint : Pubkey}
    (ran : claimFaucet rt s user mint = .ok s') :
    Nonempty (ClaimFaucetRun rt s user mint s') := by
  simp only [claimFaucet, mintTokens, bind_ok, loadMarket_ok, require_ok, okOr_ok, pure_ok,
    Option.isNone_iff_eq_none, Uint.checkedAdd_eq_some] at ran
  obtain ⟨market, ⟨found, _⟩, _, named, _, _, prepared, ready, _, first, _,
    ⟨minted, mintFound, wallet, walletFound, _, _, supply, supplied, credited, grown, rfl⟩,
    claimCount, counted, rfl⟩ := ran
  exact ⟨⟨market, minted, prepared, wallet, supply, credited, claimCount, found, named, ready,
    first, mintFound, walletFound, supplied, grown, counted, rfl⟩⟩

theorem setClaimAmount_ok {admin : Signer} {mint : Pubkey} {amount : U64}
    (ran : setClaimAmount rt s admin mint amount = .ok s') :
    ∃ market, s.markets.lookup mint = some market ∧ market.admin = admin.pubkey ∧
      s' = { s with markets := s.markets.insert mint { market with amountPerClaim := amount } } := by
  simp only [setClaimAmount, bind_ok, loadMarketBySeeds_ok, require_ok, pure_ok] at ran
  rcases ran with ⟨market, ⟨found, _, _⟩, _, allowed, rfl⟩
  exact ⟨market, found, allowed, rfl⟩

theorem initUserStats_ok {user : Signer} (ran : initUserStats rt s user = .ok s') :
    ∃ stats, stats.user = user.pubkey ∧ stats.bump = rt.findBump (.stats user.pubkey) ∧
      s' = { s with stats := s.stats.insert user.pubkey stats } := by
  simp only [initUserStats, bind_ok, require_ok, pure_ok] at ran
  rcases ran with ⟨_, _, rfl⟩
  exact ⟨_, rfl, rfl, rfl⟩

theorem countAction_names {stats counted : UserStats} {kind : ActionKind}
    (ran : countAction stats kind = .ok counted) :
    counted.user = stats.user ∧ counted.bump = stats.bump := by
  cases kind <;>
    · simp only [countAction, bind_ok, pure_ok] at ran
      obtain ⟨_, _, rfl⟩ := ran
      exact ⟨rfl, rfl⟩

theorem recordAction_ok {user : Signer} {kind : ActionKind} {healthBps : U16}
    (ran : recordAction rt s user kind healthBps = .ok s') :
    ∃ stats, stats.user = user.pubkey ∧ stats.bump = rt.findBump (.stats user.pubkey) ∧
      s' = { s with
        stats := s.stats.insert user.pubkey stats
        events := s.events ++
          [.actionRecorded user.pubkey kind healthBps s.clock.unixTimestamp] } := by
  simp only [recordAction, bind_ok, require_ok, pure_ok] at ran
  rcases ran with ⟨_, _, _, seeds, _, mine, _, _, stats, tallied, rfl⟩
  rcases countAction_names tallied with ⟨named, bump⟩
  exact ⟨stats, named.trans mine, bump.trans seeds, rfl⟩

end Runs

end ShadowLend
