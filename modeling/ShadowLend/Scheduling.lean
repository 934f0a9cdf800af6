import ShadowLend.Dependence
import ShadowLend.Splitting

/-! Transactions side by side. An instruction writes only what its list lets it write, so
threads of instructions with lists that do not meet may be carried out in any order. -/

namespace ShadowLend

open Outcome Isolation Devnet

section Frames

variable {rt : Runtime} {s s' : State} {a : Action} {c : Cell}

theorem transferTokens_lookup {tokens after : Tokens} {source destination authority key : Pubkey}
    {amount : U64} (ran : transferTokens tokens source destination authority amount = .ok after)
    (sends : key ≠ source) (receives : key ≠ destination) : after.lookup key = tokens.lookup key := by
  by_cases same : source = destination
  · subst same
    rw [transferTokens_self ran]
  · obtain ⟨_, _, _, _, _, _, _, _, _, _, rfl⟩ := (transferTokens_ok same).mp ran
    rw [Finmap.lookup_insert_of_ne _ receives, Finmap.lookup_insert_of_ne _ sends]

/-- A cell none of whose accounts the instruction may write, and not its sender's log. -/
theorem outside_list {locks : Locks} (listed : a.locks = some locks) (outside : ¬ a.writes c) :
    (∀ key ∈ locks.writable, c.account ≠ some key) ∧
      ∀ sender, a.sender = some sender → c ≠ .log sender := by
  unfold Action.writes at outside
  rw [listed] at outside
  push Not at outside
  exact outside

theorem log_frame {sender : Pubkey} {event : Event} (other : Cell.log sender ≠ .log event.sender) :
    ((s.events ++ [event]).filter fun event => event.sender = sender) =
      s.events.filter fun event => event.sender = sender := by
  have foreign : ¬ event.sender = sender := fun same => other (congrArg Cell.log same.symm)
  rw [List.filter_append, List.filter_singleton, decide_eq_false foreign]
  exact List.append_nil _

theorem writeBack_frame {user mint : Pubkey} {market : Market} {position : Position}
    {tokens : Tokens} {event : Event} (markets : c.account ≠ some (.market mint))
    (positions : c.account ≠ some (.position user mint))
    (accounts : ∀ key, c = .tokenAccount key → tokens.lookup key = s.tokens.lookup key)
    (log : c ≠ .log event.sender) :
    (s.writeBack user mint market position tokens event).view c = s.view c := by
  cases c with
  | market other =>
      have elsewhere : other ≠ mint := fun same => markets (same ▸ rfl)
      exact Finmap.lookup_insert_of_ne _ elsewhere
  | position other kind =>
      have elsewhere : (other, kind) ≠ (user, mint) := by
        rintro ⟨⟩
        exact positions rfl
      exact Finmap.lookup_insert_of_ne _ elsewhere
  | tokenAccount key => exact accounts key rfl
  | log sender => exact log_frame log
  | _ => rfl

theorem writeBackLiquidation_frame {accounts : LiquidateAccounts}
    {debtMarket collateralMarket : Market} {debtPosition collateralPosition : Position}
    {tokens : Tokens} {event : Event} (debt : c.account ≠ some (.market accounts.debtMint))
    (collateral : c.account ≠ some (.market accounts.collateralMint))
    (owing : c.account ≠ some (.position accounts.borrower accounts.debtMint))
    (pledged : c.account ≠ some (.position accounts.borrower accounts.collateralMint))
    (held : ∀ key, c = .tokenAccount key → tokens.lookup key = s.tokens.lookup key)
    (log : c ≠ .log event.sender) :
    (s.writeBackLiquidation accounts debtMarket debtPosition collateralMarket collateralPosition
      tokens event).view c = s.view c := by
  cases c with
  | market other =>
      have offDebt : other ≠ accounts.debtMint := fun same => debt (same ▸ rfl)
      have offCollateral : other ≠ accounts.collateralMint := fun same => collateral (same ▸ rfl)
      exact (Finmap.lookup_insert_of_ne _ offCollateral).trans
        (Finmap.lookup_insert_of_ne _ offDebt)
  | position other kind =>
      have offDebt : (other, kind) ≠ (accounts.borrower, accounts.debtMint) := by
        rintro ⟨⟩
        exact owing rfl
      have offCollateral : (other, kind) ≠ (accounts.borrower, accounts.collateralMint) := by
        rintro ⟨⟩
        exact pledged rfl
      exact (Finmap.lookup_insert_of_ne _ offCollateral).trans
        (Finmap.lookup_insert_of_ne _ offDebt)
  | tokenAccount key => exact held key rfl
  | log sender => exact log_frame log
  | _ => rfl

/-- The wallet an instruction may open, then the two ends of its transfer. -/
theorem movedTokens_frame {prepared after : Tokens} {owner mint source destination authority : Pubkey}
    {amount : U64} (ready : initAssociatedToken s.tokens owner mint = .ok prepared)
    (moved : transferTokens prepared source destination authority amount = .ok after)
    (wallet : c.account ≠ some (.associatedToken owner mint)) (sends : c.account ≠ some source)
    (receives : c.account ≠ some destination) (key : Pubkey) (here : c = .tokenAccount key) :
    after.lookup key = s.tokens.lookup key := by
  subst here
  rw [transferTokens_lookup moved (fun same => sends (same ▸ rfl)) fun same => receives (same ▸ rfl)]
  exact initAssociatedToken_lookup ready fun same => wallet (same ▸ rfl)

theorem holderInstruction_frame_list {holder : Signer} {instruction : HolderInstruction}
    {locks : Locks} (listed : instruction.locks holder = some locks)
    (outside : ∀ key ∈ locks.writable, c.account ≠ some key)
    (ran : holderInstruction s holder instruction = .ok s') : s'.view c = s.view c := by
  have kept {tokens : Tokens}
      (same : ∀ key, c = .tokenAccount key → tokens.lookup key = s.tokens.lookup key) :
      ({ s with tokens := tokens } : State).view c = s.view c := by
    cases c with
    | tokenAccount key => exact same key rfl
    | _ => rfl
  have written {key : Pubkey} {account : TokenAccount} (off : c.account ≠ some key) :
      ∀ other, c = .tokenAccount other →
        (s.tokens.insert key account).lookup other = s.tokens.lookup other := by
    rintro other rfl
    exact Finmap.lookup_insert_of_ne _ fun same => off (same ▸ rfl)
  cases instruction with
  | transfer source destination amount =>
      cases listed
      simp only [List.forall_mem_cons] at outside
      obtain ⟨sends, receives, _⟩ := outside
      simp only [holderInstruction, bind_ok, pure_ok] at ran
      obtain ⟨tokens, moved, rfl⟩ := ran
      apply kept
      rintro key rfl
      exact transferTokens_lookup moved (fun same => sends (same ▸ rfl))
        fun same => receives (same ▸ rfl)
  | burn account amount => cases listed
  | setOwner account newOwner =>
      cases listed
      simp only [holderInstruction, bind_ok, okOr_ok, require_ok, pure_ok] at ran
      obtain ⟨_, _, _, _, rfl⟩ := ran
      exact kept (written (outside account (by simp)))
  | createAccount address owner mint =>
      cases listed
      simp only [holderInstruction, bind_ok, require_ok, pure_ok] at ran
      obtain ⟨_, _, _, _, rfl⟩ := ran
      exact kept (written (outside address.pubkey (by simp)))
  | createAssociated owner mint =>
      cases listed
      simp only [holderInstruction, bind_ok, require_ok, pure_ok] at ran
      obtain ⟨_, _, _, _, rfl⟩ := ran
      exact kept (written (outside (.associatedToken owner mint) (by simp)))

section Handlers

variable {user : Signer} {mint : Pubkey} {amount : U64}

theorem initializeMarket_frame {admin fresh : Signer} {amountPerClaim rate : U64}
    {maxLtvBps : U16} {feedId : FeedId}
    (ran : initializeMarket rt s admin fresh amountPerClaim maxLtvBps feedId rate = .ok s')
    (off : ∀ key ∈ [Pubkey.market fresh.pubkey, fresh.pubkey, .vault fresh.pubkey],
      c.account ≠ some key) : s'.view c = s.view c := by
  obtain ⟨run⟩ := initializeMarket_ok ran
  simp only [List.forall_mem_cons] at off
  obtain ⟨market, address, vault, _⟩ := off
  rw [run.result]
  cases c with
  | market other => exact Finmap.lookup_insert_of_ne _ fun same => market (same ▸ rfl)
  | mintAccount other => exact Finmap.lookup_insert_of_ne _ fun same => address (same ▸ rfl)
  | tokenAccount other => exact Finmap.lookup_insert_of_ne _ fun same => vault (same ▸ rfl)
  | _ => rfl

theorem setClaimAmount_frame {admin : Signer}
    (ran : setClaimAmount rt s admin mint amount = .ok s')
    (market : c.account ≠ some (.market mint)) : s'.view c = s.view c := by
  obtain ⟨_, _, _, rfl⟩ := setClaimAmount_ok ran
  cases c with
  | market other => exact Finmap.lookup_insert_of_ne _ fun same => market (same ▸ rfl)
  | _ => rfl

theorem claimFaucet_frame (ran : claimFaucet rt s user mint = .ok s')
    (off : ∀ key ∈ [.market mint, mint, .associatedToken user.pubkey mint,
      .claim user.pubkey mint], c.account ≠ some key)
    (unlogged : c ≠ .log user.pubkey) : s'.view c = s.view c := by
  obtain ⟨run⟩ := claimFaucet_ok ran
  simp only [List.forall_mem_cons] at off
  obtain ⟨market, minted, wallet, claim, _⟩ := off
  rw [run.result]
  cases c with
  | market other => exact Finmap.lookup_insert_of_ne _ fun same => market (same ▸ rfl)
  | mintAccount other => exact Finmap.lookup_insert_of_ne _ fun same => minted (same ▸ rfl)
  | tokenAccount other =>
      have elsewhere : other ≠ .associatedToken user.pubkey mint := fun same => wallet (same ▸ rfl)
      exact (Finmap.lookup_insert_of_ne _ elsewhere).trans
        (initAssociatedToken_lookup run.ready elsewhere)
  | receipt other kind =>
      have elsewhere : (other, kind) ≠ (user.pubkey, mint) := by
        rintro ⟨⟩
        exact claim rfl
      exact Finmap.lookup_insert_of_ne _ elsewhere
  | log sender => exact log_frame unlogged
  | _ => rfl

/-- `supply`, `withdraw`, `borrow` and `repay` list the same accounts to be written. -/
theorem Move.frame {kind : MarketActionKind} (move : Move rt s kind user mint s')
    (off : ∀ key ∈ [.market mint, .position user.pubkey mint, .vault mint,
      .associatedToken user.pubkey mint], c.account ≠ some key)
    (unlogged : c ≠ .log user.pubkey) : s'.view c = s.view c := by
  simp only [List.forall_mem_cons] at off
  obtain ⟨market, position, vault, wallet, _⟩ := off
  have moved := move.paid
  rw [move.result]
  refine writeBack_frame market position ?_ unlogged
  cases kind with
  | supply | repay => exact movedTokens_frame move.ready moved wallet wallet vault
  | withdraw | borrow => exact movedTokens_frame move.ready moved wallet vault wallet

theorem liquidate_frame {accounts : LiquidateAccounts} {remaining : List Pubkey}
    {repayAmount : U64} (ran : liquidate rt s accounts remaining repayAmount = .ok s')
    (off : ∀ key ∈ (Liquidate.locks accounts remaining).writable, c.account ≠ some key)
    (unlogged : c ≠ .log accounts.liquidator.pubkey) : s'.view c = s.view c := by
  obtain ⟨run⟩ := liquidate_ok ran
  simp only [Liquidate.locks, List.forall_mem_cons] at off
  obtain ⟨_, debt, owing, debtVault, debtAta, collateral, pledged, collateralVault,
    collateralAta, _⟩ := off
  rw [run.result]
  refine writeBackLiquidation_frame debt collateral owing pledged ?_ unlogged
  rintro key rfl
  rw [transferTokens_lookup run.paidOut (fun same => collateralVault (same ▸ rfl))
      fun same => collateralAta (same ▸ rfl),
    transferTokens_lookup run.paidIn (fun same => debtAta (same ▸ rfl))
      fun same => debtVault (same ▸ rfl)]

theorem initUserStats_frame (ran : initUserStats rt s user = .ok s')
    (stats : c.account ≠ some (.stats user.pubkey)) : s'.view c = s.view c := by
  obtain ⟨_, _, _, rfl⟩ := initUserStats_ok ran
  cases c with
  | stats other => exact Finmap.lookup_insert_of_ne _ fun same => stats (same ▸ rfl)
  | _ => rfl

theorem recordAction_frame {kind : ActionKind} {healthBps : U16}
    (ran : recordAction rt s user kind healthBps = .ok s')
    (stats : c.account ≠ some (.stats user.pubkey)) (unlogged : c ≠ .log user.pubkey) :
    s'.view c = s.view c := by
  obtain ⟨_, _, _, rfl⟩ := recordAction_ok ran
  cases c with
  | stats other => exact Finmap.lookup_insert_of_ne _ fun same => stats (same ▸ rfl)
  | log sender => exact log_frame unlogged
  | _ => rfl

end Handlers

theorem step_frame (step : Step rt s a s') {locks : Locks} (listed : a.locks = some locks)
    (outside : ¬ a.writes c) : s'.view c = s.view c := by
  obtain ⟨off, unlogged⟩ := outside_list listed outside
  cases a with
  | initializeMarket admin mint amountPerClaim maxLtvBps feedId rate =>
      cases listed
      exact initializeMarket_frame step (List.forall_mem_cons.mp off).2
  | setClaimAmount admin mint amount =>
      cases listed
      exact setClaimAmount_frame step (off _ List.mem_cons_self)
  | claimFaucet user mint =>
      cases listed
      exact claimFaucet_frame step (List.forall_mem_cons.mp off).2 (unlogged _ rfl)
  | supply _ _ _ | withdraw _ _ _ _ _ | borrow _ _ _ _ _ | repay _ _ _ =>
      cases listed
      obtain ⟨move⟩ := step_move rfl step
      exact move.frame (List.forall_mem_cons.mp off).2 (unlogged _ rfl)
  | liquidate accounts remaining repayAmount =>
      cases listed
      exact liquidate_frame step off (unlogged _ rfl)
  | initUserStats user =>
      cases listed
      exact initUserStats_frame step (off _ (by simp))
  | recordAction user kind healthBps =>
      cases listed
      exact recordAction_frame step (off _ List.mem_cons_self) (unlogged _ rfl)
  | holder wallet instruction => exact holderInstruction_frame_list listed off step
  | environment later foreign => cases listed

end Frames

theorem apply_confined (rt : Runtime) : Confined State.view lockFootprint (apply rt) where
  frame s a s' c ran outside := by
    cases listed : a.locks with
    | some locks => exact step_frame ran listed outside
    | none =>
        refine absurd ?_ outside
        show a.writes c
        unfold Action.writes
        rw [listed]
        trivial
  same s t a agrees := apply_lockstep a agrees (touches_clock a)
    (fun _ listed => touches_accounts listed) fun unlisted => touches_everything unlisted

/-- Two ledgers that are the same to a transaction's list carry it out alike, and a ledger
that carries it out keeps whatever is not on the list to be written. -/
theorem list_suffices {rt : Runtime} {s t : State} {a : Action} {locks : Locks}
    (listed : a.locks = some locks) (clock : s.clock = t.clock)
    (accounts : ∀ key ∈ locks.accounts, ∀ c : Cell, c.account = some key → s.view c = t.view c) :
    (∀ e, apply rt s a = .error e ↔ apply rt t a = .error e) ∧
      ∀ s', apply rt s a = .ok s' →
        (∃ t', apply rt t a = .ok t' ∧ ∀ key ∈ locks.accounts, ∀ c : Cell,
          c.account = some key → s'.view c = t'.view c) ∧
        ∀ c : Cell, (∀ key ∈ locks.writable, c.account ≠ some key) →
          (∀ sender, a.sender = some sender → c ≠ .log sender) → s'.view c = s.view c := by
  have agrees : Agree State.view
      (fun c => c = .clock ∨ ∃ key ∈ locks.accounts, c.account = some key) s t := by
    rintro c (rfl | ⟨key, inside, here⟩)
    · exact clock
    · exact accounts key inside c here
  have covered other (same : a.locks = some other) : Encloses
      (fun c => c = .clock ∨ ∃ key ∈ locks.accounts, c.account = some key) other.accounts := by
    rw [listed] at same
    cases same
    exact fun key inside c here => Or.inr ⟨key, inside, here⟩
  have unlisted (none_ : a.locks = none) : ∀ c : Cell,
      c = .clock ∨ ∃ key ∈ locks.accounts, c.account = some key := by
    rw [listed] at none_
    cases none_
  have steps : Lockstep _ (apply rt s a) (apply rt t a) :=
    apply_lockstep a agrees (Or.inl rfl) covered unlisted
  refine ⟨steps.error_iff, fun s' ran => ⟨?_, fun c off unlogged => ?_⟩⟩
  · rw [ran] at steps
    generalize apply rt t a = after at steps ⊢
    cases steps with
    | ok related => exact ⟨_, rfl, fun key inside c here => related c (Or.inr ⟨key, inside, here⟩)⟩
  · refine step_frame ran listed ?_
    show ¬ a.writes c
    unfold Action.writes
    rw [listed]
    rintro (⟨key, writable, here⟩ | ⟨sender, emits, here⟩)
    · exact off key writable here
    · exact unlogged sender emits here

theorem list_suffices_alice :
    ∃ s' t', apply devnet (ledger lenders) (borrowUsdc 8000000000000) = .ok s' ∧
      apply devnet { ledger lenders with events := [] } (borrowUsdc 8000000000000) = .ok t' ∧
      s'.markets.lookup usdc.pubkey = t'.markets.lookup usdc.pubkey ∧
      s'.markets.lookup btc.pubkey = (ledger lenders).markets.lookup btc.pubkey := by
  have lent : ∃ s', apply devnet (ledger lenders) (borrowUsdc 8000000000000) = .ok s' ∧
      s'.clock.slot = 100 := ok_where (by decide +kernel)
  obtain ⟨s', ran, _⟩ := lent
  have clock (s : State) : s.clock = ({ s with events := [] } : State).clock := rfl
  have accounts (s : State) (key : Pubkey) (c : Cell) (here : c.account = some key) :
      s.view c = ({ s with events := [] } : State).view c := by
    cases c with
    | clock => cases here
    | log sender => cases here
    | _ => rfl
  have taken : (borrowUsdc 8000000000000).locks = some (ModifyPositionWithPrice.locks alice
    usdc.pubkey usdcPrice (listed alice sol solPrice)) := rfl
  obtain ⟨⟨t', ran', same⟩, kept⟩ :=
    (list_suffices taken (clock _) fun key _ => accounts _ key).2 s' ran
  refine ⟨s', t', ran, ran', same (.market usdc.pubkey) (by decide) (.market usdc.pubkey) rfl, ?_⟩
  exact kept (.market btc.pubkey) (by decide) fun _ _ => nofun

section Lists

variable {a b : Action} {locks other : Locks}

/-- An instruction writes to the log of a wallet on its list, and either the wallet or its
counters are there to be written. -/
theorem sender_listed {sender : Pubkey} (emits : a.sender = some sender)
    (listed : a.locks = some locks) :
    sender ∈ locks.accounts ∧ (sender ∈ locks.writable ∨ .stats sender ∈ locks.writable) := by
  cases a with
  | claimFaucet user mint => cases emits; cases listed; simp [Locks.accounts]
  | supply user mint amount =>
      cases emits; cases listed; simp [Locks.accounts, ModifyPosition.locks]
  | withdraw user mint priceUpdate remaining amount =>
      cases emits; cases listed; simp [Locks.accounts, ModifyPositionWithPrice.locks]
  | borrow user mint priceUpdate remaining amount =>
      cases emits; cases listed; simp [Locks.accounts, ModifyPositionWithPrice.locks]
  | repay user mint amount =>
      cases emits; cases listed; simp [Locks.accounts, ModifyPosition.locks]
  | liquidate accounts remaining repayAmount =>
      cases emits; cases listed; simp [Locks.accounts, Liquidate.locks]
  | recordAction user kind healthBps => cases emits; cases listed; simp [Locks.accounts]
  | _ => cases emits

theorem Locks.Apart.log_apart (apart : locks.Apart other) {sender : Pubkey}
    (emits : a.sender = some sender) (emits' : b.sender = some sender)
    (listed : a.locks = some locks) (listed' : b.locks = some other) : False := by
  obtain ⟨inside, written⟩ := sender_listed emits listed
  obtain ⟨inside', written'⟩ := sender_listed emits' listed'
  rcases written with written | written
  · exact apart.1 sender written inside'
  · rcases written' with written' | written'
    · exact apart.2 sender written' inside
    · exact apart.1 _ written (List.mem_append_left _ written')

theorem apart_spares (apart : a.Apart b) : lockFootprint.Spares a b := by
  unfold Action.Apart at apart
  split at apart
  · rename_i locks other listed listed'
    intro c written touched
    replace written : a.writes c := written
    unfold Action.writes at written
    rw [listed] at written
    have read_or_written : b.reads c ∨ b.writes c := touched
    unfold Action.reads Action.writes at read_or_written
    rw [listed'] at read_or_written
    rcases written with ⟨key, writable, here⟩ | ⟨sender, emits, rfl⟩
    · have foreign := apart.1 key writable
      rcases read_or_written with (rfl | ⟨key', readonly, here'⟩) | ⟨key', writable', here'⟩ |
        ⟨sender, _, rfl⟩
      · cases here
      · rw [here, Option.some.injEq] at here'
        exact foreign (List.mem_append_right _ (here' ▸ readonly))
      · rw [here, Option.some.injEq] at here'
        exact foreign (List.mem_append_left _ (here' ▸ writable'))
      · cases here
    · rcases read_or_written with (impossible | ⟨_, _, here'⟩) | ⟨_, _, here'⟩ |
        ⟨sender', emits', same⟩
      · cases impossible
      · cases here'
      · cases here'
      · cases same
        exact apart.log_apart emits emits' listed listed'
  · cases apart

end Lists

/-- The same ledger, but for the order of what different wallets have emitted. -/
structure SameLedger (s t : State) : Prop where
  rest : t = { s with events := t.events }
  logs : ∀ sender, (s.events.filter fun event => event.sender = sender) =
    t.events.filter fun event => event.sender = sender

theorem sameLedger_of_view {s t : State} (same : ∀ c, s.view c = t.view c) : SameLedger s t where
  rest := by
    have clock : s.clock = t.clock := same .clock
    have markets : s.markets = t.markets := Finmap.ext_lookup fun mint => same (.market mint)
    have positions : s.positions = t.positions :=
      Finmap.ext_lookup fun key => same (.position key.1 key.2)
    have receipts : s.receipts = t.receipts :=
      Finmap.ext_lookup fun key => same (.receipt key.1 key.2)
    have stats : s.stats = t.stats := Finmap.ext_lookup fun user => same (.stats user)
    have mints : s.mints = t.mints := Finmap.ext_lookup fun key => same (.mintAccount key)
    have tokens : s.tokens = t.tokens := Finmap.ext_lookup fun key => same (.tokenAccount key)
    have foreign : s.foreign = t.foreign := funext fun id => same (.foreign id)
    rw [clock, markets, positions, receipts, stats, mints, tokens, foreign]
  logs sender := same (.log sender)

variable {τ : Type} [DecidableEq τ]

/-- Wallets whose transactions take accounts apart from each other's get the same results in
every interleaving of their sessions, each of them those of its session alone, and the
interleavings lead to one ledger. -/
theorem sessions_isolated (rt : Runtime) (s : State) {schedule other : List (τ × Action)}
    (apart : ∀ entry ∈ schedule, ∀ entry' ∈ schedule, entry.1 ≠ entry'.1 →
      entry.2.Apart entry'.2)
    (strands : ∀ session, strand session schedule = strand session other) :
    (∀ session, strand session (reports (apply rt) s other) =
        reports (apply rt) s (strand session schedule)) ∧
      (∀ entry ∈ schedule, ∀ locks, entry.2.locks = some locks → ∀ key ∈ locks.accounts,
        ∀ c : Cell, c.account = some key →
          (finish (apply rt) s schedule).view c =
            (finish (apply rt) s (strand entry.1 schedule)).view c) ∧
      SameLedger (finish (apply rt) s schedule) (finish (apply rt) s other) := by
  have separate : lockFootprint.Separate schedule := fun entry member entry' member' different =>
    apart_spares (apart entry member entry' member' different)
  obtain ⟨told, same⟩ := interleavings_agree (apply_confined rt) s separate strands
  refine ⟨fun session => ?_, ?_, sameLedger_of_view same⟩
  · rw [← told]
    exact (isolated (apply_confined rt) s separate session).1
  · intro entry member locks listed key inside c here
    exact (isolated (apply_confined rt) s separate entry.1).2 entry member rfl c
      (touches_accounts listed key inside c here)

namespace Devnet

def busy : List (Signer × Action) :=
  [(alice, borrowUsdc 8000000000000), (bob, .supply bob btc.pubkey 1000000),
    (alice, .repay alice usdc.pubkey 3000000000000), (mallory, .claimFaucet mallory sol.pubkey)]

def queued : List (Signer × Action) :=
  [(mallory, .claimFaucet mallory sol.pubkey), (bob, .supply bob btc.pubkey 1000000),
    (alice, borrowUsdc 8000000000000), (alice, .repay alice usdc.pubkey 3000000000000)]

end Devnet

theorem sessions_isolated_busy :
    SameLedger (finish (apply devnet) (ledger lenders) busy)
        (finish (apply devnet) (ledger lenders) queued) ∧
      strand alice (reports (apply devnet) (ledger lenders) queued) =
        [(alice, none), (alice, none)] := by
  have apart : ∀ entry ∈ busy, ∀ entry' ∈ busy, entry.1 ≠ entry'.1 → entry.2.Apart entry'.2 := by
    decide
  have strands session : strand session busy = strand session queued := by
    by_cases one : session = alice
    · subst one
      rfl
    · by_cases two : session = bob
      · subst two
        rfl
      · by_cases three : session = mallory
        · subst three
          rfl
        · simp [strand, busy, queued, Ne.symm one, Ne.symm two, Ne.symm three]
  obtain ⟨told, _, same⟩ := sessions_isolated devnet (ledger lenders) apart strands
  refine ⟨same, ?_⟩
  rw [told alice]
  decide +kernel

end ShadowLend
