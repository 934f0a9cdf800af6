import ShadowLend.Foreclosure
import ShadowLend.Foundation.Failing
import ShadowLend.Openings
import ShadowLend.Statistics

/-! What every instruction can fail with, given the accounts at the addresses its context
derives. In a reachable ledger the stored bumps, the owner of the stats and the owners and
mints of a transfer are right by themselves, and the token program refuses for want of
funds only, or for want of supply. -/

namespace ShadowLend

open Outcome Devnet

section Lists

def walletErrors : List ProgramError :=
  [.anchor .accountNotInitialized, .anchor .constraintTokenMint, .anchor .constraintTokenOwner]

def priceErrors : List ProgramError :=
  [.anchor .accountOwnedByWrongProgram, .anchor .accountDiscriminatorMismatch, .market .stalePrice,
    .panicked]

def remainingErrors : List ProgramError :=
  [.market .badRemainingAccounts, .market .badPositionAccount, .market .badPriceFeed,
    .market .stalePrice, .panicked]

def initializeMarketErrors : List ProgramError :=
  [.anchor .accountAlreadyInUse, .anchor .tryingToInitPayerAsProgramAccount, .market .badLtv]

def setClaimAmountErrors : List ProgramError :=
  [.anchor .accountNotInitialized, .market .notAdmin]

def claimFaucetErrors : List ProgramError :=
  walletErrors ++ [.anchor .accountAlreadyInUse, .token .overflow, .market .overflow]

def supplyErrors : List ProgramError :=
  walletErrors ++ [.market .zeroAmount, .token .insufficientFunds, .market .overflow]

def withdrawErrors : List ProgramError :=
  walletErrors ++ priceErrors ++ remainingErrors ++
    [.market .zeroAmount, .market .insufficientCollateral, .market .wouldBeUnhealthy,
      .token .insufficientFunds]

def borrowErrors : List ProgramError :=
  walletErrors ++ priceErrors ++ remainingErrors ++
    [.market .zeroAmount, .market .sameMintBorrow, .market .overflow,
      .market .insufficientLiquidity, .market .exceedsLtv]

def repayErrors : List ProgramError :=
  walletErrors ++ [.market .zeroAmount, .market .nothingToRepay, .token .insufficientFunds]

def liquidationErrors : List ProgramError :=
  priceErrors ++ [.anchor .accountNotInitialized, .market .mintMismatch, .market .unauthorized]

def liquidateErrors : List ProgramError :=
  liquidationErrors ++ remainingErrors ++
    [.market .zeroAmount, .market .selfLiquidation, .market .nothingToLiquidate,
      .market .positionHealthy, .market .insufficientLiquidity, .token .insufficientFunds]

def recordActionErrors : List ProgramError :=
  [.anchor .accountNotInitialized, .stats .overflow]

def holderErrors : List ProgramError :=
  [.anchor .accountAlreadyInUse, .token .uninitialized, .token .mintMismatch,
    .token .ownerMismatch, .token .insufficientFunds, .token .overflow]

/-- All that a step can fail with. -/
def Action.failures : Action → List ProgramError
  | .initializeMarket _ _ _ _ _ _ => initializeMarketErrors
  | .setClaimAmount _ _ _ => setClaimAmountErrors
  | .claimFaucet _ _ => claimFaucetErrors
  | .supply _ _ _ => supplyErrors
  | .withdraw _ _ _ _ _ => withdrawErrors
  | .borrow _ _ _ _ _ => borrowErrors
  | .repay _ _ _ => repayErrors
  | .liquidate _ _ _ => liquidateErrors
  | .initUserStats _ => [.anchor .accountAlreadyInUse]
  | .recordAction _ _ _ => recordActionErrors
  | .holder _ _ => holderErrors
  | .environment _ _ => [.clockRewound]

end Lists

section Pricing

variable {rt : Runtime}

theorem checkedI32_fails (value : ℤ) : FailsOnly [.panicked] (checkedI32 value) := by
  unfold checkedI32
  split
  · exact .ok value rfl
  · exact .error List.mem_cons_self

theorem usdShift_fails (price : Price) (decimals : U8) :
    FailsOnly [.panicked] (usdShift price decimals) :=
  .bind (checkedI32_fails _) fun _ _ => checkedI32_fails _

theorem tokenUsd8dp_fails (amount : U64) (price : Price) (decimals : U8) :
    FailsOnly [.panicked] (tokenUsd8dp amount price decimals) := by
  refine .bind (usdShift_fails price decimals) fun shift _ => ?_
  split
  · exact .pure _
  · exact .bind (checkedI32_fails _) fun _ _ => .pure _

theorem usd8dpToToken_fails (value : U128) (price : Price) (decimals : U8) :
    FailsOnly [.panicked] (usd8dpToToken value price decimals) := by
  unfold usd8dpToToken
  split
  · exact .pure _
  · refine .bind (usdShift_fails price decimals) fun shift _ => ?_
    dsimp only
    split
    · exact .bind (.pure _) fun _ _ => .pure _
    · exact .bind (checkedI32_fails _) fun _ _ => .bind (.pure _) fun _ _ => .pure _

theorem seizeAmount_fails (repay : U64) (debtPrice collatPrice : Price) (decimals decimals' : U8)
    (supplied : U64) :
    FailsOnly [.panicked] (seizeAmount repay debtPrice collatPrice decimals decimals' supplied) :=
  .bind (tokenUsd8dp_fails _ _ _) fun _ _ => .bind (usd8dpToToken_fails _ _ _) fun _ _ => .pure _

theorem accumulatePosition_fails (supplied borrowed : U64) (price : Price) (decimals : U8)
    (maxLtvBps : U16) (totals : Totals) :
    FailsOnly [.panicked] (accumulatePosition supplied borrowed price decimals maxLtvBps totals) :=
  .bind (tokenUsd8dp_fails _ _ _) fun _ _ => .bind (tokenUsd8dp_fails _ _ _) fun _ _ => .pure _

theorem readPair_fails (skip : Pubkey → Bool) (user : Pubkey) (clock : Clock)
    (pair : AccountInfo × AccountInfo) :
    FailsOnly remainingErrors (readPair rt skip user clock pair) := by
  unfold readPair
  dsimp only
  split
  · exact .pure _
  · refine .bind (.checked (by decide)) fun _ _ => .bind (.looked (by decide)) fun pos _ =>
      .bind (.checked (by decide)) fun _ _ => ?_
    split
    · exact .pure _
    · exact .bind (.checked (by decide)) fun _ _ => .bind (.looked (by decide)) fun _ _ =>
        .bind (.looked (by decide)) fun _ _ => .pure _

theorem walkRemaining_fails (ras : List AccountInfo) (user : Pubkey) (skip : Pubkey → Bool)
    (clock : Clock) (totals : Totals) :
    FailsOnly remainingErrors (walkRemaining rt ras user skip clock totals) := by
  refine .bind (.checked (by decide)) fun _ _ => .foldlM fun totals pair _ => ?_
  refine .bind (readPair_fails _ _ _ _) fun counted _ => ?_
  cases counted with
  | none => exact .ok totals rfl
  | some c => exact (accumulatePosition_fails _ _ _ _ _ _).mono (by decide)

end Pricing

section Accounts

variable {rt : Runtime} {s : State} {user : Signer} {mint priceUpdate : Pubkey}

theorem initAssociatedToken_fails (tokens : Tokens) (owner mint : Pubkey) :
    FailsOnly walletErrors (initAssociatedToken tokens owner mint) := by
  unfold initAssociatedToken
  split
  · exact .ok _ rfl
  · exact .bind (.checked (by decide)) fun _ _ => .bind (.checked (by decide)) fun _ _ => .pure _

theorem loadPriceUpdate_fails (address : Pubkey) :
    FailsOnly priceErrors (loadPriceUpdate s address) :=
  .bind (.checked (by decide)) fun _ _ => .looked (by decide)

/-- A market that is there has the seeds its address was derived from. -/
theorem loadMarket_fails (reached : Reachable rt s) :
    FailsOnly walletErrors (loadMarket rt s mint) := by
  refine .bind (.looked (by decide)) fun market found => ?_
  rw [okOr_ok] at found
  exact .bind (.holds (reached.sound found).bump) fun _ _ => .pure _

theorem loadMarketBySeeds_fails (reached : Reachable rt s) :
    FailsOnly [.anchor .accountNotInitialized] (loadMarketBySeeds rt s mint) := by
  refine .bind (.looked (by decide)) fun market found => ?_
  rw [okOr_ok] at found
  exact .bind (.holds (reached.sound found).named) fun _ _ =>
    .bind (.holds (reached.sound found).bump) fun _ _ => .pure _

theorem loadPosition_fails (linked : Linked rt s) (owner : Pubkey) :
    FailsOnly [.anchor .accountNotInitialized] (loadPosition rt s owner mint) := by
  refine .bind (.looked (by decide)) fun position held => ?_
  rw [okOr_ok] at held
  exact .bind (.holds (position_bump linked held)) fun _ _ => .pure _

theorem ModifyPosition.load_fails (reached : Reachable rt s) :
    FailsOnly walletErrors (ModifyPosition.load rt s user mint) := by
  refine .bind (loadMarket_fails reached) fun market loaded => ?_
  have sound := reached.sound (loadMarket_ok.mp loaded).1
  exact .bind (.holds sound.named) fun _ _ => .bind (.looked (by decide)) fun _ _ =>
    .bind (.looked (by decide)) fun _ _ => .bind (.holds sound.authority) fun _ _ =>
    .bind (initAssociatedToken_fails _ _ _) fun _ _ => .pure _

theorem ModifyPositionWithPrice.load_fails (reached : Reachable rt s) :
    FailsOnly (walletErrors ++ priceErrors)
      (ModifyPositionWithPrice.load rt s user mint priceUpdate) := by
  refine .bind ((loadMarket_fails reached).mono (by decide)) fun market loaded => ?_
  have sound := reached.sound (loadMarket_ok.mp loaded).1
  refine .bind (.holds sound.named) fun _ _ => .bind (.looked (by decide)) fun _ _ =>
    .bind ((loadPosition_fails reached.linked _).mono (by decide)) fun position held => ?_
  rw [loadPosition_ok] at held
  exact .bind (.holds (reached.linked.position_user held.1)) fun _ _ =>
    .bind (.looked (by decide)) fun _ _ => .bind (.holds sound.authority) fun _ _ =>
    .bind ((initAssociatedToken_fails _ _ _).mono (by decide)) fun _ _ =>
    .bind ((loadPriceUpdate_fails _).mono (by decide)) fun _ _ => .pure _

theorem checkLiquidatorAta_fails (address owner : Pubkey) :
    FailsOnly [.anchor .accountNotInitialized, .market .mintMismatch, .market .unauthorized]
      (checkLiquidatorAta s address mint owner) :=
  .bind (.looked (by decide)) fun _ _ => .bind (.checked (by decide)) fun _ _ =>
    .checked (by decide)

theorem Liquidate.load_fails (reached : Reachable rt s) (accounts : LiquidateAccounts) :
    FailsOnly liquidationErrors (Liquidate.load rt s accounts) := by
  refine .bind ((loadMarketBySeeds_fails reached).mono (by decide)) fun _ _ =>
    .bind ((loadPosition_fails reached.linked _).mono (by decide)) fun _ _ =>
    .bind (.looked (by decide)) fun _ _ =>
    .bind ((loadPriceUpdate_fails _).mono (by decide)) fun _ _ =>
    .bind ((checkLiquidatorAta_fails _ _).mono (by decide)) fun _ _ =>
    .bind ((loadMarketBySeeds_fails reached).mono (by decide)) fun market loaded =>
    .bind ((loadPosition_fails reached.linked _).mono (by decide)) fun _ _ =>
    .bind (.looked (by decide)) fun _ _ => ?_
  exact .bind (.holds (reached.sound (loadMarketBySeeds_ok.mp loaded).1).authority) fun _ _ =>
    .bind ((loadPriceUpdate_fails _).mono (by decide)) fun _ _ =>
    .bind ((checkLiquidatorAta_fails _ _).mono (by decide)) fun _ _ => .pure _

end Accounts

section Transfers

variable {rt : Runtime} {s : State} {user : Signer} {mint priceUpdate : Pubkey}
variable {tokens prepared : Tokens} {source destination authority receiver : Pubkey}

/-- Between accounts of one mint that hold no more than there is, only funds can lack. -/
theorem transferTokens_fails (pays : tokens.identityAt source = some (mint, authority))
    (receives : tokens.identityAt destination = some (mint, receiver))
    (distinct : source ≠ destination)
    (fits : tokens.amountAt source + tokens.amountAt destination < 2 ^ 64) (amount : U64) :
    FailsOnly [.token .insufficientFunds]
      (transferTokens tokens source destination authority amount) := by
  by_cases enough : amount.val ≤ tokens.amountAt source
  · obtain ⟨after, ran⟩ := transferTokens_exists pays receives distinct enough (by omega)
    exact .ok after ran
  · obtain ⟨payer, found, _⟩ := lookup_of_identityAt pays
    obtain ⟨payee, found', _⟩ := lookup_of_identityAt receives
    rw [amountAt_of_lookup found] at enough
    refine .bind (.ok payer (okOr_ok.mpr found)) fun from_ same => ?_
    rw [okOr_ok, found, Option.some.injEq] at same
    subst same
    exact .bind (.ok payee (okOr_ok.mpr found')) fun _ _ =>
      .bind (.checked List.mem_cons_self) fun _ passed => absurd (require_ok.mp passed) enough

structure Prepared (prepared : Tokens) (user : Signer) (mint : Pubkey) : Prop where
  wallet : prepared.identityAt (.associatedToken user.pubkey mint) = some (mint, user.pubkey)
  vault : prepared.identityAt (.vault mint) = some (mint, .authority mint)
  fits : prepared.amountAt (.associatedToken user.pubkey mint) + prepared.amountAt (.vault mint) <
    2 ^ 64

theorem Reachable.prepared_accounts (reached : Reachable rt s) {market : Market}
    (found : s.markets.lookup mint = some market)
    (ready : initAssociatedToken s.tokens user.pubkey mint = .ok prepared) :
    Prepared prepared user mint := by
  have vault := reached.linked.vault_identity found
  have apart : Pubkey.vault mint ≠ .associatedToken user.pubkey mint := nofun
  refine ⟨initAssociatedToken_own ready, (initAssociatedToken_identity ready apart).trans vault, ?_⟩
  rw [initAssociatedToken_amountAt ready, initAssociatedToken_amountAt ready]
  rcases Nat.eq_zero_or_pos (s.tokens.amountAt (.associatedToken user.pubkey mint)) with none | funded
  · have within := (reached.amountAt_le vault).trans (minted_le s mint)
    omega
  · have fits := reached.amounts_fit (wallet_of_funded ready funded) vault apart.symm
    omega

theorem Prepared.pays_in (accounts : Prepared prepared user mint) (amount : U64) :
    FailsOnly [.token .insufficientFunds]
      (transferTokens prepared (.associatedToken user.pubkey mint) (.vault mint) user.pubkey
        amount) :=
  transferTokens_fails accounts.wallet accounts.vault nofun accounts.fits amount

theorem Prepared.pays_out (accounts : Prepared prepared user mint) (amount : U64) :
    FailsOnly [.token .insufficientFunds]
      (transferTokens prepared (.vault mint) (.associatedToken user.pubkey mint) (.authority mint)
        amount) :=
  transferTokens_fails accounts.vault accounts.wallet nofun
    (Nat.add_comm _ _ ▸ accounts.fits) amount

end Transfers

section Handlers

variable {rt : Runtime} {s : State} {user : Signer} {mint priceUpdate : Pubkey}
variable {remaining : List Pubkey} {amount : U64}

theorem initializeMarket_fails {admin mint : Signer} {amountPerClaim rate : U64} {maxLtvBps : U16}
    {feedId : FeedId} : FailsOnly initializeMarketErrors
      (initializeMarket rt s admin mint amountPerClaim maxLtvBps feedId rate) :=
  .bind (.checked (by decide)) fun _ _ => .bind (.checked (by decide)) fun _ _ =>
    .bind (.checked (by decide)) fun _ _ => .bind (.checked (by decide)) fun _ _ =>
    .bind (.checked (by decide)) fun _ _ => .pure _

theorem setClaimAmount_fails (reached : Reachable rt s) {admin : Signer} :
    FailsOnly setClaimAmountErrors (setClaimAmount rt s admin mint amount) :=
  .bind ((loadMarketBySeeds_fails reached).mono (by decide)) fun _ _ =>
    .bind (.checked (by decide)) fun _ _ => .pure _

theorem supply_fails (reached : Reachable rt s) :
    FailsOnly supplyErrors (supply rt s user mint amount) := by
  refine .bind ((ModifyPosition.load_fails reached).mono (by decide)) fun ctx loaded => ?_
  obtain ⟨found, _, _, ready⟩ := ModifyPosition.load_ok loaded
  exact .bind (.checked (by decide)) fun _ _ =>
    .bind (((reached.prepared_accounts found ready).pays_in _).mono (by decide)) fun _ _ =>
    .bind (.looked (by decide)) fun _ _ => .bind (.looked (by decide)) fun _ _ => .pure _

theorem repay_fails (reached : Reachable rt s) :
    FailsOnly repayErrors (repay rt s user mint amount) := by
  refine .bind ((ModifyPosition.load_fails reached).mono (by decide)) fun ctx loaded => ?_
  obtain ⟨found, _, _, ready⟩ := ModifyPosition.load_ok loaded
  exact .bind (.checked (by decide)) fun _ _ => .bind (.checked (by decide)) fun _ _ =>
    .bind (((reached.prepared_accounts found ready).pays_in _).mono (by decide)) fun _ _ => .pure _

/-- No withdrawal finds the counter of deposits short. -/
theorem withdraw_fails (reached : Reachable rt s) :
    FailsOnly withdrawErrors (withdraw rt s user mint priceUpdate remaining amount) := by
  refine .bind ((ModifyPositionWithPrice.load_fails reached).mono (by decide)) fun ctx loaded => ?_
  obtain ⟨found, _, held, _, _, ready, _⟩ := ModifyPositionWithPrice.load_ok loaded
  refine .bind (.checked (by decide)) fun _ _ => .bind (.looked (by decide)) fun left taken =>
    .bind (.looked (by decide)) fun _ _ =>
    .bind ((accumulatePosition_fails _ _ _ _ _ _).mono (by decide)) fun _ _ =>
    .bind ((walkRemaining_fails _ _ _ _ _).mono (by decide)) fun _ _ =>
    .bind (.checked (by decide)) fun _ _ =>
    .bind (((reached.prepared_accounts found ready).pays_out _).mono (by decide)) fun _ _ => ?_
  have accrued : Accrued s user.pubkey mint (accrueMarket ctx.market s.clock)
      (accruePosition ctx.position (accrueMarket ctx.market s.clock)) :=
    ⟨⟨_, found, rfl⟩, Or.inl ⟨_, held, rfl⟩⟩
  have mine := accrued.supplied_le
  have booked := accrued.totalSupplied
  have balanced := Reachable.balanced reached mint
  simp only [Pool.Balanced, State.pool] at balanced
  rw [okOr_ok, Uint.checkedSub_eq_some] at taken
  have enough : amount.val ≤ (accrueMarket ctx.market s.clock).totalSupplied.val := by omega
  exact .bind (.ok _ (okOr_ok.mpr (Uint.checkedSub_of_le enough))) fun _ _ => .pure _

/-- A loan the vault has is paid out without fail. -/
theorem borrow_fails (reached : Reachable rt s) :
    FailsOnly borrowErrors (borrow rt s user mint priceUpdate remaining amount) := by
  refine .bind ((ModifyPositionWithPrice.load_fails reached).mono (by decide)) fun ctx loaded => ?_
  obtain ⟨found, _, _, _, banked, ready, _⟩ := ModifyPositionWithPrice.load_ok loaded
  refine .bind (.checked (by decide)) fun _ _ => .bind (.checked (by decide)) fun _ _ =>
    .bind (.looked (by decide)) fun _ _ => .bind (.checked (by decide)) fun _ liquid =>
    .bind (.looked (by decide)) fun _ _ =>
    .bind ((accumulatePosition_fails _ _ _ _ _ _).mono (by decide)) fun _ _ =>
    .bind ((walkRemaining_fails _ _ _ _ _).mono (by decide)) fun _ _ =>
    .bind (.checked (by decide)) fun _ _ => ?_
  obtain ⟨wallet, vault, fits⟩ := reached.prepared_accounts found ready
  rw [require_ok, ← amountAt_of_lookup banked, ← initAssociatedToken_amountAt ready] at liquid
  have paid := transferTokens_exists vault wallet nofun liquid (by omega)
  obtain ⟨after, paid⟩ := paid
  exact .bind (.ok after paid) fun _ _ => .bind (.looked (by decide)) fun _ _ => .pure _

theorem claimFaucet_fails (reached : Reachable rt s) :
    FailsOnly claimFaucetErrors (claimFaucet rt s user mint) := by
  refine .bind ((loadMarket_fails reached).mono (by decide)) fun market loaded => ?_
  have sound := reached.sound (loadMarket_ok.mp loaded).1
  refine .bind (.holds sound.named) fun _ _ => .bind (.holds sound.authority) fun _ _ =>
    .bind ((initAssociatedToken_fails _ _ _).mono (by decide)) fun prepared ready =>
    .bind (.checked (by decide)) fun _ _ => ?_
  obtain ⟨minted, mints⟩ := sound.minted
  obtain ⟨wallet, held, kind, _⟩ := reached.prepared_wallet ready
  have mintable : FailsOnly claimFaucetErrors (mintTokens s.mints prepared mint
      (.associatedToken user.pubkey mint) market.amountPerClaim) := by
    refine .bind (.ok minted (okOr_ok.mpr mints)) fun _ _ =>
      .bind (.ok wallet (okOr_ok.mpr held)) fun to_ same => ?_
    rw [okOr_ok, held, Option.some.injEq] at same
    subst same
    exact .bind (.holds kind) fun _ _ => .bind (.looked (by decide)) fun _ _ =>
      .bind (.looked (by decide)) fun _ _ => .pure _
  exact .bind mintable fun _ _ => .bind (.looked (by decide)) fun _ _ => .pure _

theorem recordAction_fails (reached : Reachable rt s) {kind : ActionKind} {healthBps : U16} :
    FailsOnly recordActionErrors (recordAction rt s user kind healthBps) := by
  refine .bind (.looked (by decide)) fun stats found => ?_
  obtain ⟨mine, bump⟩ := reached.statsNamed _ _ (okOr_ok.mp found)
  have counts (counter : U64) : FailsOnly recordActionErrors (increment counter) :=
    .looked (by decide)
  refine .bind (.holds bump) fun _ _ => .bind (.holds mine) fun _ _ => .bind (counts _) fun _ _ =>
    .bind ?_ fun _ _ => .pure _
  cases kind <;> exact .bind (counts _) fun _ _ => .pure _

end Handlers

section Liquidations

variable {rt : Runtime} {s : State} {accounts : LiquidateAccounts} {ctx : Liquidate}
variable {remaining : List Pubkey} {repayAmount : U64}

/-- What was paid in leaves the vault able to pay the seizure out. -/
theorem seizure_fails (reached : Reachable rt s) (loaded : Liquidate.Loaded s accounts ctx)
    {repay seize : U64} (liquid : seize.val ≤ ctx.collateralVault.amount.val)
    {errors : List ProgramError} {middle : Tokens}
    (paidIn : transferTokens s.tokens accounts.liquidatorDebtAta (.vault accounts.debtMint)
      accounts.liquidator.pubkey repay = .ok middle) :
    FailsOnly errors (transferTokens middle (.vault accounts.collateralMint)
      accounts.liquidatorCollateralAta (.authority accounts.collateralMint) seize) := by
  have funded := transfer_spends (reached.linked.vault_ne loaded.debtAta _) paidIn
  have transfers : ∃ middle after,
      transferTokens s.tokens accounts.liquidatorDebtAta (.vault accounts.debtMint)
        accounts.liquidator.pubkey repay = .ok middle ∧
      transferTokens middle (.vault accounts.collateralMint) accounts.liquidatorCollateralAta
        (.authority accounts.collateralMint) seize = .ok after := by
    by_cases same : accounts.debtMint = accounts.collateralMint
    · have cash : s.cash accounts.collateralMint = ctx.collateralVault.amount.val :=
        amountAt_of_lookup loaded.collateralVault
      exact liquidation_transfers_same reached loaded same funded (cash ▸ liquid)
    · exact liquidation_transfers reached loaded same funded liquid
  obtain ⟨middle', after, paidIn', paidOut⟩ := transfers
  rw [paidIn, Except.ok.injEq] at paidIn'
  subst paidIn'
  exact .ok after paidOut

/-- Of the two transfers only the payment can lack funds. -/
theorem exchange_fails (reached : Reachable rt s) (loaded : Liquidate.Loaded s accounts ctx)
    (repay : U64) {seize : U64} (liquid : seize.val ≤ ctx.collateralVault.amount.val)
    {settle : Tokens → State} :
    FailsOnly [.token .insufficientFunds] (do
      let middle ← transferTokens s.tokens accounts.liquidatorDebtAta (.vault accounts.debtMint)
        accounts.liquidator.pubkey repay
      let after ← transferTokens middle (.vault accounts.collateralMint)
        accounts.liquidatorCollateralAta (.authority accounts.collateralMint) seize
      pure (settle after)) := by
  have vault := reached.linked.vault_identity loaded.debtMarket
  have apart := reached.linked.vault_ne loaded.debtAta accounts.debtMint
  have fits := reached.amounts_fit loaded.debtAta vault apart
  have paysIn := transferTokens_fails loaded.debtAta vault apart (by omega)
  exact .bind (paysIn _) fun middle paidIn =>
    .bind (seizure_fails reached loaded liquid paidIn) fun _ _ => .pure _

theorem liquidate_fails (reached : Reachable rt s) :
    FailsOnly liquidateErrors (liquidate rt s accounts remaining repayAmount) := by
  refine .bind ((Liquidate.load_fails reached _).mono (by decide)) fun ctx load => ?_
  have loaded := Liquidate.load_ok load
  refine .bind (.checked (by decide)) fun _ _ => .bind (.checked (by decide)) fun _ _ =>
    .bind (.checked (by decide)) fun _ _ => .bind (.checked (by decide)) fun _ _ =>
    .bind (.checked (by decide)) fun _ _ => .bind (.checked (by decide)) fun _ _ =>
    .bind (.looked (by decide)) fun _ _ => .bind (.looked (by decide)) fun _ _ =>
    .bind ((accumulatePosition_fails _ _ _ _ _ _).mono (by decide)) fun _ _ =>
    .bind ((accumulatePosition_fails _ _ _ _ _ _).mono (by decide)) fun _ _ =>
    .bind ((walkRemaining_fails _ _ _ _ _).mono (by decide)) fun _ _ =>
    .bind (.checked (by decide)) fun _ _ =>
    .bind ((seizeAmount_fails _ _ _ _ _ _).mono (by decide)) fun seize _ =>
    .bind (.checked (by decide)) fun _ _ => .bind (.checked (by decide)) fun _ liquid => ?_
  exact (exchange_fails reached loaded _ (require_ok.mp liquid)).mono (by decide)

end Liquidations

section Refusals

def Action.refusal : Action → Option MarketError
  | .withdraw .. => some .wouldBeUnhealthy
  | .borrow .. => some .exceedsLtv
  | .liquidate .. => some .positionHealthy
  | _ => none

variable {rt : Runtime} {s : State} {user : Signer} {mint priceUpdate : Pubkey}
variable {remaining : List Pubkey} {amount : U64}

theorem withdraw_refused (reached : Reachable rt s)
    (failed : withdraw rt s user mint priceUpdate remaining amount =
      .error (.market .wouldBeUnhealthy)) :
    ∃ log totals,
      (Action.withdraw user mint priceUpdate remaining amount).counted rt s = .ok log ∧
        accumulateAll log .zero = .ok totals ∧ ¬ totals.debt.val ≤ totals.collatAtLtv.val := by
  unfold withdraw accumulateRemaining at failed
  obtain ⟨ctx, loaded, failed⟩ :=
    (ModifyPositionWithPrice.load_fails reached).past (by decide) failed
  obtain ⟨found, _, _, _, _, ready, _⟩ := ModifyPositionWithPrice.load_ok loaded
  dsimp only at failed
  obtain ⟨_, failed⟩ := FailsOnly.past_check (by decide) failed
  obtain ⟨left, taken, failed⟩ := FailsOnly.past_look (by decide) failed
  obtain ⟨price, priced, failed⟩ := FailsOnly.past_look (by decide) failed
  obtain ⟨own, first, failed⟩ := (accumulatePosition_fails _ _ _ _ _ _).past (by decide) failed
  obtain ⟨totals, walked, failed⟩ := (walkRemaining_fails _ _ _ _ _).past (by decide) failed
  obtain ⟨listed, counted, rest⟩ := walkRemaining_ok.mp walked
  have log : (Action.withdraw user mint priceUpdate remaining amount).counted rt s = .ok
      (({ accruePosition ctx.position (accrueMarket ctx.market s.clock) with
          supplied := left } : Position).contribution (.position user.pubkey mint) price
        (accrueMarket ctx.market s.clock).feedId :: listed) := by
    simp only [Action.counted, bind_ok, pure_ok]
    exact ⟨ctx, loaded, left, taken, price, priced, listed, counted, rfl⟩
  refine ⟨_, totals, log, accumulateAll_cons.mpr ⟨own, first, rest⟩, ?_⟩
  have paysOut := (reached.prepared_accounts found ready).pays_out amount
  refine FailsOnly.refused [.token .insufficientFunds, .market .overflow] (by decide) failed ?_
  exact .bind (paysOut.mono (by decide)) fun _ _ => .bind (.looked (by decide)) fun _ _ => .pure _

theorem borrow_refused (reached : Reachable rt s)
    (failed : borrow rt s user mint priceUpdate remaining amount = .error (.market .exceedsLtv)) :
    ∃ log totals,
      (Action.borrow user mint priceUpdate remaining amount).counted rt s = .ok log ∧
        accumulateAll log .zero = .ok totals ∧ ¬ totals.debt.val ≤ totals.collatAtLtv.val := by
  unfold borrow accumulateRemaining at failed
  obtain ⟨ctx, loaded, failed⟩ :=
    (ModifyPositionWithPrice.load_fails reached).past (by decide) failed
  obtain ⟨found, _, _, _, _, ready, _⟩ := ModifyPositionWithPrice.load_ok loaded
  dsimp only at failed
  obtain ⟨_, failed⟩ := FailsOnly.past_check (by decide) failed
  obtain ⟨_, failed⟩ := FailsOnly.past_check (by decide) failed
  obtain ⟨borrowed, grown, failed⟩ := FailsOnly.past_look (by decide) failed
  obtain ⟨_, failed⟩ := FailsOnly.past_check (by decide) failed
  obtain ⟨price, priced, failed⟩ := FailsOnly.past_look (by decide) failed
  obtain ⟨own, first, failed⟩ := (accumulatePosition_fails _ _ _ _ _ _).past (by decide) failed
  obtain ⟨totals, walked, failed⟩ := (walkRemaining_fails _ _ _ _ _).past (by decide) failed
  obtain ⟨listed, counted, rest⟩ := walkRemaining_ok.mp walked
  have log : (Action.borrow user mint priceUpdate remaining amount).counted rt s = .ok
      (({ accruePosition ctx.position (accrueMarket ctx.market s.clock) with
          borrowed := borrowed } : Position).contribution (.position user.pubkey mint) price
        (accrueMarket ctx.market s.clock).feedId :: listed) := by
    simp only [Action.counted, bind_ok, pure_ok]
    exact ⟨ctx, loaded, borrowed, grown, price, priced, listed, counted, rfl⟩
  refine ⟨_, totals, log, accumulateAll_cons.mpr ⟨own, first, rest⟩, ?_⟩
  have paysOut := (reached.prepared_accounts found ready).pays_out amount
  refine FailsOnly.refused [.token .insufficientFunds, .market .overflow] (by decide) failed ?_
  exact .bind (paysOut.mono (by decide)) fun _ _ => .bind (.looked (by decide)) fun _ _ => .pure _

theorem liquidate_refused (reached : Reachable rt s) {accounts : LiquidateAccounts}
    {repayAmount : U64}
    (failed : liquidate rt s accounts remaining repayAmount =
      .error (.market .positionHealthy)) :
    ∃ log totals, (Action.liquidate accounts remaining repayAmount).counted rt s = .ok log ∧
      accumulateAll log .zero = .ok totals ∧ ¬ totals.collatAtLtv.val < totals.debt.val := by
  unfold liquidate accumulateRemainingSkip at failed
  obtain ⟨ctx, load, failed⟩ := (Liquidate.load_fails reached accounts).past (by decide) failed
  have loaded := Liquidate.load_ok load
  dsimp only at failed
  obtain ⟨_, failed⟩ := FailsOnly.past_check (by decide) failed
  obtain ⟨_, failed⟩ := FailsOnly.past_check (by decide) failed
  obtain ⟨_, failed⟩ := FailsOnly.past_check (by decide) failed
  obtain ⟨_, failed⟩ := FailsOnly.past_check (by decide) failed
  obtain ⟨_, failed⟩ := FailsOnly.past_check (by decide) failed
  obtain ⟨_, failed⟩ := FailsOnly.past_check (by decide) failed
  obtain ⟨debtPrice, debtPriced, failed⟩ := FailsOnly.past_look (by decide) failed
  obtain ⟨collatPrice, collatPriced, failed⟩ := FailsOnly.past_look (by decide) failed
  obtain ⟨one, first, failed⟩ := (accumulatePosition_fails _ _ _ _ _ _).past (by decide) failed
  obtain ⟨two, second, failed⟩ := (accumulatePosition_fails _ _ _ _ _ _).past (by decide) failed
  obtain ⟨totals, walked, failed⟩ := (walkRemaining_fails _ _ _ _ _).past (by decide) failed
  obtain ⟨listed, counted, rest⟩ := walkRemaining_ok.mp walked
  have log : (Action.liquidate accounts remaining repayAmount).counted rt s = .ok
      ((accruePosition ctx.debtPosition (accrueMarket ctx.debtMarket s.clock)).contribution
          (.position accounts.borrower accounts.debtMint) debtPrice
          (accrueMarket ctx.debtMarket s.clock).feedId ::
        (accruePosition ctx.collateralPosition
            (accrueMarket ctx.collateralMarket s.clock)).contribution
          (.position accounts.borrower accounts.collateralMint) collatPrice
          (accrueMarket ctx.collateralMarket s.clock).feedId :: listed) := by
    simp only [Action.counted, bind_ok, pure_ok]
    exact ⟨ctx, load, debtPrice, debtPriced, collatPrice, collatPriced, listed, counted, rfl⟩
  refine ⟨_, totals, log,
    accumulateAll_cons.mpr ⟨one, first, accumulateAll_cons.mpr ⟨two, second, rest⟩⟩, ?_⟩
  refine FailsOnly.refused [.panicked, .market .nothingToLiquidate, .market .insufficientLiquidity,
    .token .insufficientFunds] (by decide) failed ?_
  exact .bind ((seizeAmount_fails _ _ _ _ _ _).mono (by decide)) fun seize _ =>
    .bind (.checked (by decide)) fun _ _ => .bind (.checked (by decide)) fun _ liquid =>
    (exchange_fails reached loaded _ (require_ok.mp liquid)).mono (by decide)

/-- A refused check has compared the totals of that list, as a passed one has. -/
theorem refused_counted (reached : Reachable rt s) {a : Action} {reason : MarketError}
    (checks : a.refusal = some reason) (failed : apply rt s a = .error (.market reason)) :
    ∃ log totals, a.counted rt s = .ok log ∧ accumulateAll log .zero = .ok totals ∧
      ¬ a.passes totals := by
  cases a with
  | withdraw user mint priceUpdate remaining amount =>
      cases checks
      exact withdraw_refused reached failed
  | borrow user mint priceUpdate remaining amount =>
      cases checks
      exact borrow_refused reached failed
  | liquidate accounts remaining repayAmount =>
      cases checks
      exact liquidate_refused reached failed
  | _ => cases checks

end Refusals

section Steps

variable {rt : Runtime} {s : State}

theorem holderInstruction_fails (holder : Signer) (instruction : HolderInstruction) :
    FailsOnly holderErrors (holderInstruction s holder instruction) := by
  cases instruction with
  | transfer source destination amount =>
      refine .bind (.bind (.looked (by decide)) fun _ _ => .bind (.looked (by decide)) fun _ _ =>
        .bind (.checked (by decide)) fun _ _ => .bind (.checked (by decide)) fun _ _ =>
        .bind (.checked (by decide)) fun _ _ => ?_) fun _ _ => .pure _
      split
      · exact .pure _
      · exact .bind (.looked (by decide)) fun _ _ => .bind (.looked (by decide)) fun _ _ => .pure _
  | burn account amount =>
      exact .bind (.looked (by decide)) fun _ _ => .bind (.looked (by decide)) fun _ _ =>
        .bind (.checked (by decide)) fun _ _ => .bind (.looked (by decide)) fun _ _ =>
        .bind (.looked (by decide)) fun _ _ => .pure _
  | setOwner account newOwner =>
      exact .bind (.looked (by decide)) fun _ _ => .bind (.checked (by decide)) fun _ _ => .pure _
  | createAccount address owner mint =>
      exact .bind (.checked (by decide)) fun _ _ => .bind (.checked (by decide)) fun _ _ => .pure _
  | createAssociated owner mint =>
      exact .bind (.checked (by decide)) fun _ _ => .bind (.checked (by decide)) fun _ _ => .pure _

end Steps

end ShadowLend
