import ShadowLend.Locks

/-! What an instruction does depends on the accounts of its list and on the clock: two
ledgers that agree on these carry it out alike, down to the error it may end in. -/

namespace ShadowLend

open Outcome Isolation Table

section Dependence

variable {rt : Runtime} {region : Cell → Prop} {s t : State}
variable {user : Signer} {mint priceUpdate : Pubkey} {remaining : List Pubkey} {amount : U64}

theorem loadMarket_same (same : s.markets.lookup mint = t.markets.lookup mint) :
    loadMarket rt s mint = loadMarket rt t mint := by
  unfold loadMarket
  rw [same]

theorem loadMarketBySeeds_same (same : s.markets.lookup mint = t.markets.lookup mint) :
    loadMarketBySeeds rt s mint = loadMarketBySeeds rt t mint := by
  unfold loadMarketBySeeds
  rw [same]

theorem loadPosition_same {owner : Pubkey}
    (same : s.positions.lookup (owner, mint) = t.positions.lookup (owner, mint)) :
    loadPosition rt s owner mint = loadPosition rt t owner mint := by
  unfold loadPosition
  rw [same]

theorem loadTokenAccount_same {address : Pubkey}
    (same : s.tokens.lookup address = t.tokens.lookup address) :
    loadTokenAccount s address = loadTokenAccount t address := by
  unfold loadTokenAccount
  rw [same]

theorem checkLiquidatorAta_same {address owner : Pubkey}
    (same : s.tokens.lookup address = t.tokens.lookup address) :
    checkLiquidatorAta s address mint owner = checkLiquidatorAta t address mint owner := by
  unfold checkLiquidatorAta
  rw [loadTokenAccount_same same]

theorem loadPriceUpdate_same {address : Pubkey}
    (same : s.accountInfo address = t.accountInfo address) :
    loadPriceUpdate s address = loadPriceUpdate t address := by
  unfold loadPriceUpdate
  rw [same]

theorem log_append {events events' : List Event} {sender : Pubkey}
    (same : (events.filter fun event => event.sender = sender) =
      events'.filter fun event => event.sender = sender) (event : Event) :
    ((events ++ [event]).filter fun event => event.sender = sender) =
      (events' ++ [event]).filter fun event => event.sender = sender := by
  rw [List.filter_append, List.filter_append, same]

theorem modifyPosition_tokens
    (covered : Encloses region (ModifyPosition.locks user mint).accounts) :
    region (.tokenAccount (.vault mint)) ∧
      region (.tokenAccount (.associatedToken user.pubkey mint)) := by
  have listed key (member : key ∈ (ModifyPosition.locks user mint).accounts) :
      region (.tokenAccount key) := covered key member (.tokenAccount key) rfl
  exact ⟨listed _ (by simp [ModifyPosition.locks, Locks.accounts]),
    listed _ (by simp [ModifyPosition.locks, Locks.accounts])⟩

/-- A price and the accounts of the health check are all that the other context adds. -/
theorem encloses_parts
    (covered : Encloses region
      (ModifyPositionWithPrice.locks user mint priceUpdate remaining).accounts) :
    Encloses region (ModifyPosition.locks user mint).accounts ∧
      Encloses region (priceUpdate :: remaining) := by
  constructor
  · apply covered.smaller
    simp [ModifyPosition.locks, ModifyPositionWithPrice.locks, Locks.accounts]
  · intro key member
    rcases List.mem_cons.mp member with rfl | member
    · exact covered _ (by simp [ModifyPositionWithPrice.locks, Locks.accounts])
    · exact covered key (by simp [ModifyPositionWithPrice.locks, Locks.accounts, member])

variable (agrees : Agree State.view region s t)
include agrees

theorem agree_at {key : Pubkey} (inside : ∀ c : Cell, c.account = some key → region c)
    (c : Cell) (here : c.account = some key) : s.view c = t.view c :=
  agrees c (inside c here)

theorem remaining_same (covered : Encloses region remaining) :
    remaining.map s.accountInfo = remaining.map t.accountInfo :=
  List.map_congr_left fun key member => accountInfo_same (agree_at agrees (covered key member))

theorem agree_tokens : SameTokens region s.tokens t.tokens :=
  fun key inside => agrees (.tokenAccount key) inside

/-- What both contexts of a market action load besides the tokens. -/
theorem modifyPosition_same
    (covered : Encloses region (ModifyPosition.locks user mint).accounts) :
    s.markets.lookup mint = t.markets.lookup mint ∧
      s.positions.lookup (user.pubkey, mint) = t.positions.lookup (user.pubkey, mint) ∧
      s.mints.lookup mint = t.mints.lookup mint ∧
      s.tokens.lookup (.vault mint) = t.tokens.lookup (.vault mint) := by
  simp only [Encloses, ModifyPosition.locks, Locks.accounts, List.cons_append, List.nil_append,
    List.forall_mem_cons] at covered
  obtain ⟨_, market, position, vault, _, minted, _⟩ := covered
  exact ⟨agrees (.market mint) (market _ rfl),
    agrees (.position user.pubkey mint) (position _ rfl),
    agrees (.mintAccount mint) (minted _ rfl),
    agrees (.tokenAccount (.vault mint)) (vault _ rfl)⟩

theorem ModifyPosition.load_lockstep
    (covered : Encloses region (ModifyPosition.locks user mint).accounts) :
    Lockstep (fun ctx ctx' => ∃ tokens, ctx' = { ctx with tokens := tokens } ∧
        SameTokens region ctx.tokens tokens)
      (ModifyPosition.load rt s user mint) (ModifyPosition.load rt t user mint) := by
  obtain ⟨listed, held, issued, banked⟩ := modifyPosition_same agrees covered
  obtain ⟨_, wallet⟩ := modifyPosition_tokens covered
  unfold ModifyPosition.load
  rw [loadMarket_same listed, loadTokenAccount_same banked, held, issued]
  refine .bind_same fun loaded => .bind_same fun _ => .bind_same fun _ => .bind_same fun _ =>
    .bind_same fun _ => ?_
  refine (initAssociatedToken_lockstep (agree_tokens agrees) wallet).bind ?_
  exact fun tokens tokens' same => .pure ⟨tokens', rfl, same⟩

theorem ModifyPositionWithPrice.load_lockstep
    (covered : Encloses region
      (ModifyPositionWithPrice.locks user mint priceUpdate remaining).accounts) :
    Lockstep (fun ctx ctx' => ∃ tokens, ctx' = { ctx with tokens := tokens } ∧
        SameTokens region ctx.tokens tokens)
      (ModifyPositionWithPrice.load rt s user mint priceUpdate)
      (ModifyPositionWithPrice.load rt t user mint priceUpdate) := by
  obtain ⟨without, added⟩ := encloses_parts covered
  obtain ⟨listed, held, issued, banked⟩ := modifyPosition_same agrees without
  obtain ⟨_, wallet⟩ := modifyPosition_tokens without
  have priced := added priceUpdate List.mem_cons_self
  unfold ModifyPositionWithPrice.load
  rw [loadMarket_same listed, loadTokenAccount_same banked, loadPosition_same held, issued,
    loadPriceUpdate_same (accountInfo_same (agree_at agrees priced))]
  refine .bind_same fun loaded => .bind_same fun _ => .bind_same fun _ => .bind_same fun own =>
    .bind_same fun _ => .bind_same fun banked => .bind_same fun _ => ?_
  refine (initAssociatedToken_lockstep (agree_tokens agrees) wallet).bind ?_
  exact fun tokens tokens' same => .bind_same fun update => .pure ⟨tokens', rfl, same⟩

theorem Liquidate.load_same {accounts : LiquidateAccounts}
    (covered : Encloses region (Liquidate.locks accounts remaining).accounts) :
    Liquidate.load rt s accounts = Liquidate.load rt t accounts := by
  simp only [Encloses, Liquidate.locks, Locks.accounts, List.cons_append, List.nil_append,
    List.forall_mem_cons] at covered
  obtain ⟨_, debtMarket, debtPosition, debtVault, debtAta, collateralMarket, collateralPosition,
    collateralVault, collateralAta, _, debtUpdate, _, collateralUpdate, _⟩ := covered
  have debtListed : s.markets.lookup accounts.debtMint = t.markets.lookup accounts.debtMint :=
    agrees (.market accounts.debtMint) (debtMarket _ rfl)
  have collateralListed :
      s.markets.lookup accounts.collateralMint = t.markets.lookup accounts.collateralMint :=
    agrees (.market accounts.collateralMint) (collateralMarket _ rfl)
  have debtHeld : s.positions.lookup (accounts.borrower, accounts.debtMint) =
      t.positions.lookup (accounts.borrower, accounts.debtMint) :=
    agrees (.position accounts.borrower accounts.debtMint) (debtPosition _ rfl)
  have collateralHeld : s.positions.lookup (accounts.borrower, accounts.collateralMint) =
      t.positions.lookup (accounts.borrower, accounts.collateralMint) :=
    agrees (.position accounts.borrower accounts.collateralMint) (collateralPosition _ rfl)
  have tokens := agree_tokens agrees
  unfold Liquidate.load
  rw [loadMarketBySeeds_same debtListed, loadPosition_same debtHeld,
    loadTokenAccount_same (tokens _ (debtVault _ rfl)),
    loadPriceUpdate_same (accountInfo_same (agree_at agrees debtUpdate)),
    checkLiquidatorAta_same (tokens _ (debtAta _ rfl)), loadMarketBySeeds_same collateralListed,
    loadPosition_same collateralHeld, loadTokenAccount_same (tokens _ (collateralVault _ rfl)),
    loadPriceUpdate_same (accountInfo_same (agree_at agrees collateralUpdate)),
    checkLiquidatorAta_same (tokens _ (collateralAta _ rfl))]

theorem writeBack_agree {owner : Pubkey} {market : Market} {position : Position}
    {tokens tokens' : Tokens} {event : Event} (same : SameTokens region tokens tokens') :
    Agree State.view region (s.writeBack owner mint market position tokens event)
      (t.writeBack owner mint market position tokens' event) := by
  intro c inside
  have before := agrees c inside
  cases c with
  | market other => exact lookup_insert_congr before mint market
  | position other kind => exact lookup_insert_congr before (owner, mint) position
  | tokenAccount address => exact same address inside
  | log sender => exact log_append before event
  | _ => exact before

theorem writeBackLiquidation_agree {accounts : LiquidateAccounts}
    {debtMarket collateralMarket : Market} {debtPosition collateralPosition : Position}
    {tokens tokens' : Tokens} {event : Event} (same : SameTokens region tokens tokens') :
    Agree State.view region
      (s.writeBackLiquidation accounts debtMarket debtPosition collateralMarket collateralPosition
        tokens event)
      (t.writeBackLiquidation accounts debtMarket debtPosition collateralMarket collateralPosition
        tokens' event) := by
  intro c inside
  have before := agrees c inside
  cases c with
  | market other =>
      exact lookup_insert_congr (lookup_insert_congr before accounts.debtMint debtMarket) _ _
  | position other kind =>
      exact lookup_insert_congr (lookup_insert_congr before _ debtPosition) _ collateralPosition
  | tokenAccount address => exact same address inside
  | log sender => exact log_append before event
  | _ => exact before

theorem supply_lockstep (clock : region .clock)
    (covered : Encloses region (ModifyPosition.locks user mint).accounts) :
    Lockstep (Agree State.view region) (supply rt s user mint amount)
      (supply rt t user mint amount) := by
  have now : s.clock = t.clock := agrees .clock clock
  obtain ⟨vault, wallet⟩ := modifyPosition_tokens covered
  unfold supply
  rw [now]
  refine (ModifyPosition.load_lockstep agrees covered).bind ?_
  rintro ctx _ ⟨tokens, rfl, same⟩
  refine .bind_same fun _ => (transferTokens_lockstep same wallet vault).bind fun _ _ moved => ?_
  exact .bind_same fun supplied => .bind_same fun total => .pure (writeBack_agree agrees moved)

theorem repay_lockstep (clock : region .clock)
    (covered : Encloses region (ModifyPosition.locks user mint).accounts) :
    Lockstep (Agree State.view region) (repay rt s user mint amount)
      (repay rt t user mint amount) := by
  have now : s.clock = t.clock := agrees .clock clock
  obtain ⟨vault, wallet⟩ := modifyPosition_tokens covered
  unfold repay
  rw [now]
  refine (ModifyPosition.load_lockstep agrees covered).bind ?_
  rintro ctx _ ⟨tokens, rfl, same⟩
  refine .bind_same fun _ => .bind_same fun _ => ?_
  exact (transferTokens_lockstep same wallet vault).bind fun _ _ moved =>
    .pure (writeBack_agree agrees moved)

theorem withdraw_lockstep (clock : region .clock)
    (covered : Encloses region
      (ModifyPositionWithPrice.locks user mint priceUpdate remaining).accounts) :
    Lockstep (Agree State.view region) (withdraw rt s user mint priceUpdate remaining amount)
      (withdraw rt t user mint priceUpdate remaining amount) := by
  have now : s.clock = t.clock := agrees .clock clock
  obtain ⟨without, added⟩ := encloses_parts covered
  obtain ⟨vault, wallet⟩ := modifyPosition_tokens without
  have listed : Encloses region remaining := added.smaller (List.subset_cons_self _ _)
  unfold withdraw
  rw [now, remaining_same agrees listed]
  refine (ModifyPositionWithPrice.load_lockstep agrees covered).bind ?_
  rintro ctx _ ⟨tokens, rfl, same⟩
  refine .bind_same fun _ => .bind_same fun left => .bind_same fun price => ?_
  refine .bind_same fun first => .bind_same fun totals => .bind_same fun _ => ?_
  refine (transferTokens_lockstep same vault wallet).bind fun _ _ moved => ?_
  exact .bind_same fun total => .pure (writeBack_agree agrees moved)

theorem borrow_lockstep (clock : region .clock)
    (covered : Encloses region
      (ModifyPositionWithPrice.locks user mint priceUpdate remaining).accounts) :
    Lockstep (Agree State.view region) (borrow rt s user mint priceUpdate remaining amount)
      (borrow rt t user mint priceUpdate remaining amount) := by
  have now : s.clock = t.clock := agrees .clock clock
  obtain ⟨without, added⟩ := encloses_parts covered
  obtain ⟨vault, wallet⟩ := modifyPosition_tokens without
  have listed : Encloses region remaining := added.smaller (List.subset_cons_self _ _)
  unfold borrow
  rw [now, remaining_same agrees listed]
  refine (ModifyPositionWithPrice.load_lockstep agrees covered).bind ?_
  rintro ctx _ ⟨tokens, rfl, same⟩
  refine .bind_same fun _ => .bind_same fun _ => .bind_same fun owed => .bind_same fun _ => ?_
  refine .bind_same fun price => .bind_same fun first => .bind_same fun totals => ?_
  refine .bind_same fun _ => (transferTokens_lockstep same vault wallet).bind fun _ _ moved => ?_
  exact .bind_same fun total => .pure (writeBack_agree agrees moved)

theorem liquidate_lockstep {accounts : LiquidateAccounts} (clock : region .clock)
    (covered : Encloses region (Liquidate.locks accounts remaining).accounts) :
    Lockstep (Agree State.view region) (liquidate rt s accounts remaining amount)
      (liquidate rt t accounts remaining amount) := by
  have now : s.clock = t.clock := agrees .clock clock
  have debtVault := covered (.vault accounts.debtMint) (by simp [Liquidate.locks, Locks.accounts])
    (.tokenAccount _) rfl
  have debtAta := covered accounts.liquidatorDebtAta (by simp [Liquidate.locks, Locks.accounts])
    (.tokenAccount _) rfl
  have collateralVault := covered (.vault accounts.collateralMint)
    (by simp [Liquidate.locks, Locks.accounts]) (.tokenAccount _) rfl
  have collateralAta := covered accounts.liquidatorCollateralAta
    (by simp [Liquidate.locks, Locks.accounts]) (.tokenAccount _) rfl
  have listed : Encloses region remaining := fun key member => covered key
    (by simp [Liquidate.locks, Locks.accounts, member])
  unfold liquidate
  rw [Liquidate.load_same agrees covered, now, remaining_same agrees listed]
  refine .bind_same fun ctx => .bind_same fun _ => .bind_same fun _ => .bind_same fun _ => ?_
  refine .bind_same fun _ => .bind_same fun _ => .bind_same fun _ => .bind_same fun debtPrice => ?_
  refine .bind_same fun collatPrice => .bind_same fun first => .bind_same fun second => ?_
  refine .bind_same fun totals => .bind_same fun _ => .bind_same fun seize => .bind_same fun _ =>
    .bind_same fun _ => ?_
  refine (transferTokens_lockstep (agree_tokens agrees) debtAta debtVault).bind fun _ _ repaid => ?_
  refine (transferTokens_lockstep repaid collateralVault collateralAta).bind fun _ _ moved => ?_
  exact .pure (writeBackLiquidation_agree agrees moved)

theorem initializeMarket_lockstep {admin fresh : Signer} {amountPerClaim rate : U64}
    {maxLtvBps : U16} {feedId : FeedId} (clock : region .clock)
    (covered : Encloses region [.market fresh.pubkey, fresh.pubkey, .vault fresh.pubkey]) :
    Lockstep (Agree State.view region)
      (initializeMarket rt s admin fresh amountPerClaim maxLtvBps feedId rate)
      (initializeMarket rt t admin fresh amountPerClaim maxLtvBps feedId rate) := by
  have now : s.clock = t.clock := agrees .clock clock
  simp only [Encloses, List.forall_mem_cons] at covered
  obtain ⟨market, address, vault, _⟩ := covered
  have listed : s.markets.lookup fresh.pubkey = t.markets.lookup fresh.pubkey :=
    agrees (.market fresh.pubkey) (market _ rfl)
  have minted : s.mints.lookup fresh.pubkey = t.mints.lookup fresh.pubkey :=
    agrees (.mintAccount fresh.pubkey) (address _ rfl)
  have foreign : s.foreign fresh.id = t.foreign fresh.id :=
    agrees (.foreign fresh.id) (address _ rfl)
  have tokens := agree_tokens agrees
  unfold initializeMarket State.isVacant
  rw [now, listed, minted, foreign, tokens _ (address (.tokenAccount fresh.pubkey) rfl),
    tokens _ (vault (.tokenAccount _) rfl)]
  refine .bind_same fun _ => .bind_same fun _ => .bind_same fun _ => .bind_same fun _ =>
    .bind_same fun _ => .pure ?_
  intro c inside
  have before := agrees c inside
  cases c with
  | market other => exact lookup_insert_congr before _ _
  | mintAccount other => exact lookup_insert_congr before _ _
  | tokenAccount other => exact lookup_insert_congr before _ _
  | clock => rfl
  | _ => exact before

theorem setClaimAmount_lockstep {admin : Signer} (covered : Encloses region [.market mint]) :
    Lockstep (Agree State.view region) (setClaimAmount rt s admin mint amount)
      (setClaimAmount rt t admin mint amount) := by
  have listed : s.markets.lookup mint = t.markets.lookup mint :=
    agrees (.market mint) (covered _ List.mem_cons_self _ rfl)
  unfold setClaimAmount
  rw [loadMarketBySeeds_same listed]
  refine .bind_same fun market => .bind_same fun _ => .pure ?_
  intro c inside
  have before := agrees c inside
  cases c with
  | market other => exact lookup_insert_congr before _ _
  | _ => exact before

theorem claimFaucet_lockstep (clock : region .clock)
    (covered : Encloses region
      [.market mint, mint, .associatedToken user.pubkey mint, .claim user.pubkey mint]) :
    Lockstep (Agree State.view region) (claimFaucet rt s user mint)
      (claimFaucet rt t user mint) := by
  have now : s.clock = t.clock := agrees .clock clock
  simp only [Encloses, List.forall_mem_cons] at covered
  obtain ⟨market, minted, wallet, claim, _⟩ := covered
  have listed : s.markets.lookup mint = t.markets.lookup mint :=
    agrees (.market mint) (market _ rfl)
  have claimed : s.receipts.lookup (user.pubkey, mint) = t.receipts.lookup (user.pubkey, mint) :=
    agrees (.receipt user.pubkey mint) (claim _ rfl)
  have issued key (inside : region (.mintAccount key)) : s.mints.lookup key = t.mints.lookup key :=
    agrees (.mintAccount key) inside
  unfold claimFaucet
  rw [now, loadMarket_same listed, claimed]
  refine .bind_same fun loaded => .bind_same fun _ => .bind_same fun _ => ?_
  refine (initAssociatedToken_lockstep (agree_tokens agrees) (wallet _ rfl)).bind fun _ _ ready => ?_
  refine .bind_same fun _ => ?_
  refine (mintTokens_lockstep ready issued (minted _ rfl) (wallet _ rfl)).bind ?_
  rintro ⟨mints, tokens⟩ ⟨mints', tokens'⟩ ⟨supplies, credited⟩
  refine .bind_same fun claimCount => .pure ?_
  intro c inside
  have before := agrees c inside
  cases c with
  | market other => exact lookup_insert_congr before _ _
  | receipt other kind => exact lookup_insert_congr before _ _
  | mintAccount other => exact supplies other inside
  | tokenAccount other => exact credited other inside
  | log sender => exact log_append before _
  | clock => rfl
  | _ => exact before

theorem initUserStats_lockstep (clock : region .clock)
    (covered : Encloses region [.stats user.pubkey]) :
    Lockstep (Agree State.view region) (initUserStats rt s user) (initUserStats rt t user) := by
  have now : s.clock = t.clock := agrees .clock clock
  have opened : s.stats.lookup user.pubkey = t.stats.lookup user.pubkey :=
    agrees (.stats user.pubkey) (covered _ List.mem_cons_self _ rfl)
  unfold initUserStats
  rw [now, opened]
  refine .bind_same fun _ => .pure ?_
  intro c inside
  have before := agrees c inside
  cases c with
  | stats other => exact lookup_insert_congr before _ _
  | clock => rfl
  | _ => exact before

theorem recordAction_lockstep {kind : ActionKind} {healthBps : U16} (clock : region .clock)
    (covered : Encloses region [.stats user.pubkey]) :
    Lockstep (Agree State.view region) (recordAction rt s user kind healthBps)
      (recordAction rt t user kind healthBps) := by
  have now : s.clock = t.clock := agrees .clock clock
  have opened : s.stats.lookup user.pubkey = t.stats.lookup user.pubkey :=
    agrees (.stats user.pubkey) (covered _ List.mem_cons_self _ rfl)
  unfold recordAction
  rw [now, opened]
  refine .bind_same fun stats => .bind_same fun _ => .bind_same fun _ => .bind_same fun _ => ?_
  refine .bind_same fun counted => .pure ?_
  intro c inside
  have before := agrees c inside
  cases c with
  | stats other => exact lookup_insert_congr before _ _
  | log sender => exact log_append before _
  | clock => rfl
  | _ => exact before

theorem tokens_agree {tokens tokens' : Tokens} (same : SameTokens region tokens tokens') :
    Agree State.view region { s with tokens := tokens } { t with tokens := tokens' } := by
  intro c inside
  have before := agrees c inside
  cases c with
  | tokenAccount other => exact same other inside
  | _ => exact before

theorem holderInstruction_lockstep {holder : Signer} {instruction : HolderInstruction}
    {locks : Locks} (listed : instruction.locks holder = some locks)
    (covered : Encloses region locks.accounts) :
    Lockstep (Agree State.view region) (holderInstruction s holder instruction)
      (holderInstruction t holder instruction) := by
  have tokens := agree_tokens agrees
  have opens key (account : TokenAccount) :
      SameTokens region (s.tokens.insert key account) (t.tokens.insert key account) :=
    fun other inside => lookup_insert_congr (tokens other inside) _ _
  cases instruction with
  | transfer source destination amount =>
      cases listed
      simp only [Encloses, Locks.accounts, List.cons_append, List.nil_append,
        List.forall_mem_cons] at covered
      obtain ⟨from_, to_, _⟩ := covered
      unfold holderInstruction
      refine (transferTokens_lockstep tokens (from_ _ rfl) (to_ _ rfl)).bind fun _ _ moved => ?_
      exact .pure (tokens_agree agrees moved)
  | burn account amount => cases listed
  | setOwner account newOwner =>
      cases listed
      simp only [Encloses, Locks.accounts, List.cons_append, List.nil_append,
        List.forall_mem_cons] at covered
      unfold holderInstruction
      simp only [tokens account (covered.1 _ rfl)]
      refine .bind_same fun held => .bind_same fun _ => .pure ?_
      exact tokens_agree agrees (opens _ _)
  | createAccount address owner kind =>
      cases listed
      simp only [Encloses, Locks.accounts, List.cons_append, List.nil_append,
        List.forall_mem_cons] at covered
      obtain ⟨_, fresh, _, minted, _⟩ := covered
      have unminted : s.mints.lookup address.pubkey = t.mints.lookup address.pubkey :=
        agrees (.mintAccount address.pubkey) (fresh _ rfl)
      have foreign : s.foreign address.id = t.foreign address.id :=
        agrees (.foreign address.id) (fresh _ rfl)
      have issued : s.mints.lookup kind = t.mints.lookup kind :=
        agrees (.mintAccount kind) (minted _ rfl)
      unfold holderInstruction State.isVacant
      simp only [unminted, foreign, issued, tokens address.pubkey (fresh _ rfl)]
      refine .bind_same fun _ => .bind_same fun _ => .pure ?_
      exact tokens_agree agrees (opens _ _)
  | createAssociated owner kind =>
      cases listed
      simp only [Encloses, Locks.accounts, List.cons_append, List.nil_append,
        List.forall_mem_cons] at covered
      obtain ⟨_, wallet, _, minted, _⟩ := covered
      have issued : s.mints.lookup kind = t.mints.lookup kind :=
        agrees (.mintAccount kind) (minted _ rfl)
      unfold holderInstruction
      simp only [issued, tokens _ (wallet (.tokenAccount _) rfl)]
      refine .bind_same fun _ => .bind_same fun _ => .pure ?_
      exact tokens_agree agrees (opens _ _)

theorem burn_lockstep {holder : Signer} {account : Pubkey} (everywhere : ∀ c, region c) :
    Lockstep (Agree State.view region) (holderInstruction s holder (.burn account amount))
      (holderInstruction t holder (.burn account amount)) := by
  have tokens := agree_tokens agrees
  have mints key : s.mints.lookup key = t.mints.lookup key :=
    agrees (.mintAccount key) (everywhere _)
  unfold holderInstruction
  simp only [tokens account (everywhere _), mints]
  refine .bind_same fun held => .bind_same fun minted => .bind_same fun _ => ?_
  refine .bind_same fun left => .bind_same fun supply => .pure ?_
  intro c inside
  have before := agrees c inside
  cases c with
  | tokenAccount other => exact lookup_insert_congr before _ _
  | mintAccount other => exact lookup_insert_congr before _ _
  | _ => exact before

theorem advance_lockstep {later : Clock} {foreign : ℕ → Option ForeignAccount}
    (clock : region .clock) :
    Lockstep (Agree State.view region) (advance s later foreign) (advance t later foreign) := by
  have now : s.clock = t.clock := agrees .clock clock
  unfold advance
  rw [now]
  refine .bind_same fun _ => .pure ?_
  intro c inside
  have before := agrees c inside
  cases c with
  | clock => rfl
  | foreign id => rfl
  | _ => exact before

end Dependence

theorem touches_clock (a : Action) : lockFootprint.touches a .clock := by
  left
  show a.reads .clock
  unfold Action.reads
  split
  · exact Or.inl rfl
  · trivial

theorem touches_everything {a : Action} (unlisted : a.locks = none) (c : Cell) :
    lockFootprint.touches a c := by
  left
  show a.reads c
  unfold Action.reads
  rw [unlisted]
  trivial

theorem touches_accounts {a : Action} {locks : Locks} (listed : a.locks = some locks) :
    Encloses (lockFootprint.touches a) locks.accounts := by
  intro key member c here
  rcases List.mem_append.mp member with writable | readonly
  · right
    show a.writes c
    unfold Action.writes
    rw [listed]
    exact Or.inl ⟨key, writable, here⟩
  · left
    show a.reads c
    unfold Action.reads
    rw [listed]
    exact Or.inr ⟨key, readonly, here⟩

/-- Whatever region of the ledger holds the clock and the accounts of the list. -/
theorem apply_lockstep {rt : Runtime} {region : Cell → Prop} {s t : State} (a : Action)
    (agrees : Agree State.view region s t) (clock : region .clock)
    (covered : ∀ locks, a.locks = some locks → Encloses region locks.accounts)
    (everywhere : a.locks = none → ∀ c, region c) :
    Lockstep (Agree State.view region) (apply rt s a) (apply rt t a) := by
  cases a with
  | initializeMarket admin mint amountPerClaim maxLtvBps feedId rate =>
      exact initializeMarket_lockstep agrees clock ((covered _ rfl).smaller (by simp [Locks.accounts]))
  | setClaimAmount admin mint amount =>
      exact setClaimAmount_lockstep agrees ((covered _ rfl).smaller (by simp [Locks.accounts]))
  | claimFaucet user mint =>
      exact claimFaucet_lockstep agrees clock ((covered _ rfl).smaller (by simp [Locks.accounts]))
  | supply user mint amount => exact supply_lockstep agrees clock (covered _ rfl)
  | withdraw user mint priceUpdate remaining amount =>
      exact withdraw_lockstep agrees clock (covered _ rfl)
  | borrow user mint priceUpdate remaining amount =>
      exact borrow_lockstep agrees clock (covered _ rfl)
  | repay user mint amount => exact repay_lockstep agrees clock (covered _ rfl)
  | liquidate accounts remaining repayAmount =>
      exact liquidate_lockstep agrees clock (covered _ rfl)
  | initUserStats user =>
      exact initUserStats_lockstep agrees clock ((covered _ rfl).smaller (by simp [Locks.accounts]))
  | recordAction user kind healthBps =>
      exact recordAction_lockstep agrees clock ((covered _ rfl).smaller (by simp [Locks.accounts]))
  | holder wallet instruction =>
      cases listed : instruction.locks wallet with
      | some locks => exact holderInstruction_lockstep agrees listed (covered locks listed)
      | none =>
          cases instruction with
          | burn account amount => exact burn_lockstep agrees (everywhere listed)
          | _ => cases listed
  | environment later foreign => exact advance_lockstep agrees clock

end ShadowLend
