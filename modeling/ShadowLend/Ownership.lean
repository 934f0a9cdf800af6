import ShadowLend.Devnet
import ShadowLend.Holdings

/-! Whose signature it takes to touch what. A wallet that signs nothing and is not
liquidated keeps its accounts, whatever everybody else does and in any order. -/

namespace ShadowLend

open Outcome Devnet

def Action.signers : Action → List Signer
  | .initializeMarket admin mint _ _ _ _ => [admin, mint]
  | .setClaimAmount admin _ _ => [admin]
  | .claimFaucet user _ => [user]
  | .supply user _ _ => [user]
  | .withdraw user _ _ _ _ => [user]
  | .borrow user _ _ _ _ => [user]
  | .repay user _ _ => [user]
  | .liquidate accounts _ _ => [accounts.liquidator]
  | .initUserStats user => [user]
  | .recordAction user _ _ => [user]
  | .holder wallet _ => [wallet]
  | .environment _ _ => []

def Action.borrower : Action → Option Pubkey
  | .liquidate accounts _ _ => some accounts.borrower
  | _ => none

/-- A step the wallet has no part in. -/
def Bystander (user : Signer) (_ : State) (a : Action) : Prop :=
  user ∉ a.signers ∧ a.borrower ≠ some user.pubkey

instance (user : Signer) (s : State) (a : Action) : Decidable (Bystander user s a) := by
  unfold Bystander
  infer_instance

/-- A step the wallet does not sign, though it may be liquidated in it. -/
def Unsigned (user : Signer) (_ : State) (a : Action) : Prop := user ∉ a.signers

instance (user : Signer) (s : State) (a : Action) : Decidable (Unsigned user s a) := by
  unfold Unsigned
  infer_instance

/-- Every account of an owner stays the owner's, of its mint, and loses nothing. -/
def KeepsTokens (owner : Pubkey) (tokens after : Tokens) : Prop :=
  ∀ key mint, tokens.identityAt key = some (mint, owner) →
    after.identityAt key = some (mint, owner) ∧ tokens.amountAt key ≤ after.amountAt key

structure KeepsAccounts (user : Pubkey) (s s' : State) : Prop where
  positions : ∀ mint, s'.positions.lookup (user, mint) = s.positions.lookup (user, mint)
  receipts : ∀ mint, s'.receipts.lookup (user, mint) = s.receipts.lookup (user, mint)
  stats : s'.stats.lookup user = s.stats.lookup user
  tokens : KeepsTokens user s.tokens s'.tokens

/-- What a liquidation can make of a position. -/
structure Wanes (position position' : Position) : Prop where
  feedId : position'.feedId = position.feedId
  empty : position.isEmpty → position'.isEmpty

/-- Nothing is opened in a user's name or closed, and nothing spent. -/
structure KeepsWallet (user : Pubkey) (s s' : State) : Prop where
  stays : ∀ mint, (s.positions.lookup (user, mint)).isSome →
    (s'.positions.lookup (user, mint)).isSome
  wanes : ∀ mint position', s'.positions.lookup (user, mint) = some position' →
    ∃ position, s.positions.lookup (user, mint) = some position ∧ Wanes position position'
  tokens : KeepsTokens user s.tokens s'.tokens

theorem Signer.pubkey_injective : Function.Injective Signer.pubkey := by
  intro first second same
  cases first
  cases second
  simpa [Signer.pubkey] using same

section TokenTables

variable {owner : Pubkey} {tokens middle after : Tokens}

theorem KeepsTokens.refl (owner : Pubkey) (tokens : Tokens) : KeepsTokens owner tokens tokens :=
  fun _ _ mine => ⟨mine, le_rfl⟩

theorem KeepsTokens.trans (first : KeepsTokens owner tokens middle)
    (second : KeepsTokens owner middle after) : KeepsTokens owner tokens after := by
  intro key mint mine
  obtain ⟨still, grown⟩ := first key mint mine
  obtain ⟨still', grown'⟩ := second key mint still
  exact ⟨still', grown.trans grown'⟩

theorem keepsTokens_insert {key : Pubkey} (account : TokenAccount)
    (foreign : ∀ mint, tokens.identityAt key ≠ some (mint, owner)) :
    KeepsTokens owner tokens (tokens.insert key account) := by
  intro other mint mine
  have distinct : other ≠ key := by
    rintro rfl
    exact foreign mint mine
  rw [identityAt_insert_other _ distinct, amountAt_insert_other _ distinct]
  exact ⟨mine, le_rfl⟩

theorem identityAt_of_absent {key : Pubkey} (absent : tokens.lookup key = none) :
    tokens.identityAt key = none := by
  simp [Tokens.identityAt, absent]

theorem keepsTokens_fresh {key : Pubkey} (account : TokenAccount)
    (absent : tokens.lookup key = none) : KeepsTokens owner tokens (tokens.insert key account) := by
  apply keepsTokens_insert
  intro mint
  rw [identityAt_of_absent absent]
  exact nofun

theorem foreign_of_owner {key kind other : Pubkey}
    (held : tokens.identityAt key = some (kind, other)) (distinct : other ≠ owner) (mint : Pubkey) :
    tokens.identityAt key ≠ some (mint, owner) := by
  rw [held]
  intro same
  exact distinct (congrArg Prod.snd (Option.some.inj same))

/-- A transfer takes from the account its authority owns and from no other. -/
theorem transferTokens_keeps {source destination authority : Pubkey} {amount : U64}
    (ran : transferTokens tokens source destination authority amount = .ok after)
    (distinct : authority ≠ owner) : KeepsTokens owner tokens after := by
  obtain ⟨kind, held⟩ := transferTokens_authorised ran
  intro key mint mine
  have elsewhere : key ≠ source := by
    rintro rfl
    exact foreign_of_owner held distinct mint mine
  exact ⟨(transferTokens_identity ran key).trans mine, transferTokens_le ran elsewhere⟩

theorem initAssociatedToken_keeps {holder mint : Pubkey}
    (ran : initAssociatedToken tokens holder mint = .ok after) : KeepsTokens owner tokens after := by
  unfold initAssociatedToken at ran
  split at ran
  · rename_i absent
    cases ran
    exact keepsTokens_fresh _ absent
  · simp only [bind_ok, require_ok, pure_ok] at ran
    obtain ⟨_, _, _, _, rfl⟩ := ran
    exact .refl _ _

theorem holderInstruction_keeps {s s' : State} {holder : Signer} {instruction : HolderInstruction}
    (ran : holderInstruction s holder instruction = .ok s') (distinct : holder.pubkey ≠ owner) :
    KeepsTokens owner s.tokens s'.tokens := by
  cases instruction with
  | transfer source destination amount =>
      simp only [holderInstruction, bind_ok, pure_ok] at ran
      obtain ⟨tokens, moved, rfl⟩ := ran
      exact transferTokens_keeps moved distinct
  | burn account amount =>
      simp only [holderInstruction, bind_ok, okOr_ok, require_ok, pure_ok] at ran
      obtain ⟨held, found, _, _, _, owned, _, _, _, _, rfl⟩ := ran
      apply keepsTokens_insert
      apply foreign_of_owner (identityAt_of_lookup found)
      rwa [owned]
  | setOwner account newOwner =>
      simp only [holderInstruction, bind_ok, okOr_ok, require_ok, pure_ok] at ran
      obtain ⟨held, found, _, owned, rfl⟩ := ran
      apply keepsTokens_insert
      apply foreign_of_owner (identityAt_of_lookup found)
      rwa [owned]
  | createAccount address newOwner mint =>
      simp only [holderInstruction, bind_ok, require_ok, pure_ok, State.isVacant,
        Bool.and_eq_true, Option.isNone_iff_eq_none] at ran
      obtain ⟨_, ⟨⟨_, absent⟩, _⟩, _, _, rfl⟩ := ran
      exact keepsTokens_fresh _ absent
  | createAssociated newOwner mint =>
      simp only [holderInstruction, bind_ok, require_ok, pure_ok, Option.isNone_iff_eq_none] at ran
      obtain ⟨_, absent, _, _, rfl⟩ := ran
      exact keepsTokens_fresh _ absent

end TokenTables

section Steps

variable {rt : Runtime} {s s' : State} {user : Signer}

theorem KeepsAccounts.refl (user : Pubkey) (s : State) : KeepsAccounts user s s :=
  ⟨fun _ => rfl, fun _ => rfl, rfl, .refl _ _⟩

theorem KeepsAccounts.trans {user : Pubkey} {s s' s'' : State} (first : KeepsAccounts user s s')
    (second : KeepsAccounts user s' s'') : KeepsAccounts user s s'' where
  positions mint := (second.positions mint).trans (first.positions mint)
  receipts mint := (second.receipts mint).trans (first.receipts mint)
  stats := second.stats.trans first.stats
  tokens := first.tokens.trans second.tokens

theorem pubkey_ne_of_unsigned {other : Signer} (unsigned : user ∉ [other]) :
    other.pubkey ≠ user.pubkey := by
  intro same
  rw [List.mem_singleton] at unsigned
  exact unsigned (Signer.pubkey_injective same).symm

theorem lookup_insert_foreign {ν : Type} {table : Table (Pubkey × Pubkey) ν}
    {owner other : Pubkey} (distinct : other ≠ owner) (kind : Pubkey) (value : ν) (mint : Pubkey) :
    (table.insert (other, kind) value).lookup (owner, mint) = table.lookup (owner, mint) :=
  Finmap.lookup_insert_of_ne _ fun same => distinct (congrArg Prod.fst same).symm

theorem authority_ne (mint : Pubkey) (user : Signer) : Pubkey.authority mint ≠ user.pubkey :=
  nofun

theorem signers_of_touch {a : Action} {kind : MarketActionKind} {other : Signer}
    {mint : Pubkey} (acts : a.touch = some (kind, other, mint)) : a.signers = [other] := by
  cases a with
  | supply _ _ _ | withdraw _ _ _ _ _ | borrow _ _ _ _ _ | repay _ _ _ =>
      cases acts
      rfl
  | _ => cases acts

theorem Move.keeps {kind : MarketActionKind} {other : Signer} {mint : Pubkey}
    (move : Move rt s kind other mint s') (distinct : other.pubkey ≠ user.pubkey) :
    KeepsAccounts user.pubkey s s' := by
  have payer : (kind.payment other mint).authority ≠ user.pubkey := by
    cases kind with
    | supply | repay => exact distinct
    | withdraw | borrow => exact authority_ne mint user
  rw [move.result]
  exact ⟨lookup_insert_foreign distinct mint _, fun _ => rfl, rfl,
    (initAssociatedToken_keeps move.ready).trans (transferTokens_keeps move.paid payer)⟩

theorem LiquidateRun.keepsTokens {accounts : LiquidateAccounts} {remaining : List Pubkey}
    {repayAmount : U64} (run : LiquidateRun rt s accounts remaining repayAmount s')
    (distinct : accounts.liquidator.pubkey ≠ user.pubkey) :
    KeepsTokens user.pubkey s.tokens s'.tokens := by
  rw [run.result]
  exact (transferTokens_keeps run.paidIn distinct).trans
    (transferTokens_keeps run.paidOut (authority_ne _ user))

theorem step_keepsAccounts {a : Action} (bystander : Bystander user s a) (step : Step rt s a s') :
    KeepsAccounts user.pubkey s s' := by
  obtain ⟨unsigned, spared⟩ := bystander
  cases step_writes step with
  | opened _ _ _ _ _ _ _ run =>
      rw [run.result]
      exact ⟨fun _ => rfl, fun _ => rfl, rfl, keepsTokens_fresh _ run.newVault⟩
  | decreed _ _ _ _ _ _ result =>
      subst result
      exact ⟨fun _ => rfl, fun _ => rfl, rfl, .refl _ _⟩
  | claimed other mint acts run =>
      subst acts
      have distinct := pubkey_ne_of_unsigned unsigned
      have own := initAssociatedToken_own run.ready
      rw [run.result]
      refine ⟨fun _ => rfl, fun _ => lookup_insert_foreign distinct _ _ _, rfl, ?_⟩
      exact (initAssociatedToken_keeps run.ready).trans
        (keepsTokens_insert _ (foreign_of_owner own distinct))
  | moved kind other mint acts move =>
      rw [signers_of_touch acts] at unsigned
      exact move.keeps (pubkey_ne_of_unsigned unsigned)
  | liquidated accounts remaining repayAmount acts run =>
      subst acts
      have distinct := pubkey_ne_of_unsigned unsigned
      have borrower : accounts.borrower ≠ user.pubkey := fun same => spared (congrArg some same)
      have tokens := run.keepsTokens distinct
      rw [run.result] at tokens ⊢
      refine ⟨?_, fun _ => rfl, rfl, tokens⟩
      intro mint
      exact (lookup_insert_foreign borrower _ _ _).trans (lookup_insert_foreign borrower _ _ _)
  | counted other stats events acts _ _ result =>
      have distinct : other.pubkey ≠ user.pubkey := by
        obtain rfl | ⟨_, _, rfl⟩ := acts <;> exact pubkey_ne_of_unsigned unsigned
      subst result
      exact ⟨fun _ => rfl, fun _ => rfl, Finmap.lookup_insert_of_ne _ distinct.symm, .refl _ _⟩
  | held holder instruction acts ran =>
      subst acts
      have tokens := holderInstruction_keeps ran (pubkey_ne_of_unsigned unsigned)
      obtain ⟨_, _, rfl⟩ := holderInstruction_frame ran
      exact ⟨fun _ => rfl, fun _ => rfl, rfl, tokens⟩
  | passed _ _ _ _ result =>
      subst result
      exact ⟨fun _ => rfl, fun _ => rfl, rfl, .refl _ _⟩

theorem Wanes.refl (position : Position) : Wanes position position := ⟨rfl, id⟩

theorem KeepsAccounts.wallet (kept : KeepsAccounts user.pubkey s s') :
    KeepsWallet user.pubkey s s' where
  stays mint stored := by rwa [kept.positions]
  wanes mint position held := by
    rw [kept.positions] at held
    exact ⟨position, held, .refl _⟩
  tokens := kept.tokens

theorem KeepsWallet.trans {user : Pubkey} {s s' s'' : State} (first : KeepsWallet user s s')
    (second : KeepsWallet user s' s'') : KeepsWallet user s s'' where
  stays mint stored := second.stays mint (first.stays mint stored)
  wanes mint position'' held := by
    obtain ⟨position', held', wanes'⟩ := second.wanes mint position'' held
    obtain ⟨position, stored, wanes⟩ := first.wanes mint position' held'
    exact ⟨position, stored, wanes'.feedId.trans wanes.feedId, fun empty =>
      wanes'.empty (wanes.empty empty)⟩
  tokens := first.tokens.trans second.tokens

theorem wanes_of_accrued {position restated position' : Position} {market : Market}
    (accrued : restated = accruePosition position market)
    (feedId : position'.feedId = restated.feedId)
    (supplied : position'.supplied.val ≤ restated.supplied.val)
    (borrowed : position'.borrowed.val ≤ restated.borrowed.val) : Wanes position position' := by
  subst accrued
  refine ⟨feedId.trans (accruePosition_feedId position market), ?_⟩
  rintro ⟨unsupplied, debtless⟩
  rw [accruePosition_supplied, unsupplied] at supplied
  rw [accruePosition_debtless position market debtless, debtless] at borrowed
  exact ⟨Nat.le_zero.mp supplied, Nat.le_zero.mp borrowed⟩

theorem LiquidateRun.keepsWallet {accounts : LiquidateAccounts} {remaining : List Pubkey}
    {repayAmount : U64} (run : LiquidateRun rt s accounts remaining repayAmount s')
    (distinct : accounts.liquidator.pubkey ≠ user.pubkey)
    (borrower : accounts.borrower = user.pubkey) : KeepsWallet user.pubkey s s' := by
  have loaded := Liquidate.load_ok run.loaded
  have tokens := run.keepsTokens distinct
  rw [← borrower] at tokens ⊢
  rw [run.result] at tokens ⊢
  simp only [State.writeBackLiquidation] at tokens ⊢
  refine ⟨?_, ?_, tokens⟩
  · intro mint stored
    exact Finmap.lookup_isSome.mpr <| Finmap.mem_insert.mpr <| Or.inr <| Finmap.mem_insert.mpr <|
      Or.inr (Finmap.lookup_isSome.mp stored)
  · intro mint position' held
    by_cases atCollateral : mint = accounts.collateralMint
    · subst mint
      rw [Finmap.lookup_insert, Option.some.injEq] at held
      subst held
      exact ⟨_, loaded.collateralPosition,
        wanes_of_accrued run.accruedCollateralPosition rfl (Uint.saturatingSub_le _ _) le_rfl⟩
    · rw [Finmap.lookup_insert_of_ne _ (by simpa using atCollateral)] at held
      by_cases atDebt : mint = accounts.debtMint
      · subst mint
        rw [Finmap.lookup_insert, Option.some.injEq] at held
        subst held
        exact ⟨_, loaded.debtPosition,
          wanes_of_accrued run.accruedDebtPosition rfl le_rfl (Uint.saturatingSub_le _ _)⟩
      · rw [Finmap.lookup_insert_of_ne _ (by simpa using atDebt)] at held
        exact ⟨position', held, .refl _⟩

/-- A step somebody else signs leaves a wallet its tokens, and can seize from its
positions at most. -/
theorem step_keepsWallet {a : Action} (unsigned : Unsigned user s a) (step : Step rt s a s') :
    KeepsWallet user.pubkey s s' := by
  by_cases spared : a.borrower = some user.pubkey
  · cases a with
    | liquidate accounts remaining repayAmount =>
        obtain ⟨run⟩ := liquidate_ok step
        exact run.keepsWallet (pubkey_ne_of_unsigned unsigned) (Option.some.inj spared)
    | _ => cases spared
  · exact (step_keepsAccounts ⟨unsigned, spared⟩ step).wallet

theorem Leads.keepsWallet (later : Leads rt (Unsigned user) s s') : KeepsWallet user.pubkey s s' :=
  later.frame (fun s => (KeepsAccounts.refl _ s).wallet) (fun _ _ _ => KeepsWallet.trans)
    fun _ _ _ => step_keepsWallet

theorem Leads.keepsAccounts {guard : State → Action → Prop} (later : Leads rt guard s s')
    (apart : ∀ s a, guard s a → Bystander user s a) : KeepsAccounts user.pubkey s s' :=
  later.frame (KeepsAccounts.refl _) (fun _ _ _ => KeepsAccounts.trans)
    fun s a _ allowed step => step_keepsAccounts (apart s a allowed) step

/-- Nothing that others do to a ledger, from whatever state and in whatever order,
takes anything from a wallet or changes one of its records. -/
theorem bystander_accounts_kept (later : Leads rt (Bystander user) s s') :
    KeepsAccounts user.pubkey s s' :=
  later.keepsAccounts fun _ _ => id

end Steps

def othersGoOn : State :=
  replay devnet (Bystander bob) (ledger lenders)
    [borrowUsdc 8000000000000, reach 1000100 10000000000, .claimFaucet mallory usdc.pubkey,
      .supply mallory usdc.pubkey 1000000, .repay alice usdc.pubkey 5]

theorem bystander_accounts_kept_bob :
    KeepsAccounts bob.pubkey (ledger lenders) othersGoOn ∧
      othersGoOn.tokens.amountAt (.vault usdc.pubkey) = 32000001000005 :=
  ⟨bystander_accounts_kept (replay_leads devnet (Bystander bob) (ledger lenders) _),
    by decide +kernel⟩

end ShadowLend
