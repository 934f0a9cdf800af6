import ShadowLend.Terms

/-! What a step writes, said once for all instructions. The laws about a single table of
the ledger are read off it. -/

namespace ShadowLend

open Outcome

structure Payment where
  source : Pubkey
  destination : Pubkey
  authority : Pubkey

def MarketActionKind.payment (user : Signer) (mint : Pubkey) : MarketActionKind → Payment
  | .supply | .repay => ⟨.associatedToken user.pubkey mint, .vault mint, user.pubkey⟩
  | .withdraw | .borrow => ⟨.vault mint, .associatedToken user.pubkey mint, .authority mint⟩

theorem payment_apart (kind : MarketActionKind) (user : Signer) (mint : Pubkey) :
    (kind.payment user mint).source ≠ (kind.payment user mint).destination := by
  cases kind <;> exact nofun

/-- `supply`, `withdraw`, `borrow` and `repay` write one market and one position, and pay
between a vault and the user's associated account. -/
structure Move (rt : Runtime) (s : State) (kind : MarketActionKind) (user : Signer)
    (mint : Pubkey) (s' : State) where
  market : Market
  position : Position
  prepared : Tokens
  tokens : Tokens
  amount : U64
  named : market.mint = mint
  marketTerms : s.marketTerms mint = some market.terms
  positionTerms : s.positionTerms (user.pubkey, mint) = some position.terms ∨
    kind = .supply ∧
      (∀ old, s.positions.lookup (user.pubkey, mint) = some old → old.user = .default) ∧
      position.terms = market.terms.opened rt user.pubkey mint
  ready : initAssociatedToken s.tokens user.pubkey mint = .ok prepared
  paid : transferTokens prepared (kind.payment user mint).source
    (kind.payment user mint).destination (kind.payment user mint).authority amount = .ok tokens
  result : s' = s.writeBack user.pubkey mint market position tokens
    (.marketAction user.pubkey market.mint kind position.supplied position.borrowed)

inductive Writes (rt : Runtime) (s : State) (a : Action) (s' : State) : Prop
  | opened (admin mint : Signer) (amountPerClaim : U64) (maxLtvBps : U16) (feedId : FeedId)
      (rate : U64) (acts : a = .initializeMarket admin mint amountPerClaim maxLtvBps feedId rate)
      (run : InitializeMarketRun rt s admin mint amountPerClaim maxLtvBps feedId rate s')
  | decreed (admin : Signer) (mint : Pubkey) (amount : U64) (market : Market)
      (acts : a = .setClaimAmount admin mint amount)
      (found : s.markets.lookup mint = some market)
      (result : s' =
        { s with markets := s.markets.insert mint { market with amountPerClaim := amount } })
  | claimed (user : Signer) (mint : Pubkey) (acts : a = .claimFaucet user mint)
      (run : ClaimFaucetRun rt s user mint s')
  | moved (kind : MarketActionKind) (user : Signer) (mint : Pubkey)
      (acts : a.touch = some (kind, user, mint)) (move : Move rt s kind user mint s')
  | liquidated (accounts : LiquidateAccounts) (remaining : List Pubkey) (repayAmount : U64)
      (acts : a = .liquidate accounts remaining repayAmount)
      (run : LiquidateRun rt s accounts remaining repayAmount s')
  | counted (user : Signer) (stats : UserStats) (events : List Event)
      (acts : a = .initUserStats user ∨ ∃ kind healthBps, a = .recordAction user kind healthBps)
      (named : stats.user = user.pubkey) (bump : stats.bump = rt.findBump (.stats user.pubkey))
      (result : s' =
        { s with stats := s.stats.insert user.pubkey stats, events := events })
  | held (holder : Signer) (instruction : HolderInstruction)
      (acts : a = .holder holder instruction)
      (ran : holderInstruction s holder instruction = .ok s')
  | passed (clock : Clock) (foreign : ℕ → Option ForeignAccount)
      (acts : a = .environment clock foreign) (forward : s.clock.slot.val ≤ clock.slot.val)
      (result : s' = { s with clock := clock, foreign := foreign })

section Steps

variable {rt : Runtime} {s s' : State}

section Moves

variable {user : Signer} {mint priceUpdate : Pubkey} {remaining : List Pubkey} {amount : U64}

theorem supply_move (ran : supply rt s user mint amount = .ok s') :
    Nonempty (Move rt s .supply user mint s') := by
  rcases supply_ok ran with ⟨run⟩
  have loaded := ModifyPosition.load_ok run.loaded
  have named : run.market.mint = mint := by
    rw [run.accruedMarket, accrueMarket_mint, loaded.named]
  have terms : run.market.terms = run.ctx.market.terms := by
    rw [run.accruedMarket, accrueMarket_terms]
  refine ⟨⟨{ run.market with totalSupplied := run.totalSupplied },
    { run.position with supplied := run.supplied }, _, run.tokens, amount, named,
    run.marketTerms, ?_, loaded.ready, run.paid, run.result⟩⟩
  rcases supply_terms run with ⟨old, found, _, same⟩ | ⟨unclaimed, opened, _⟩
  · left
    rw [positionTerms_of_lookup found, ← accruePosition_terms old run.market, ← same]
    rfl
  · right
    exact ⟨rfl, unclaimed, opened.trans (congrArg (·.opened rt user.pubkey mint) terms.symm)⟩

theorem repay_move (ran : repay rt s user mint amount = .ok s') :
    Nonempty (Move rt s .repay user mint s') := by
  rcases repay_ok ran with ⟨run⟩
  have loaded := ModifyPosition.load_ok run.loaded
  have named : run.market.mint = mint := by
    rw [run.accruedMarket, accrueMarket_mint, loaded.named]
  exact ⟨⟨{ run.market with totalBorrowed := run.market.totalBorrowed.saturatingSub run.pay },
    { run.position with borrowed := run.position.borrowed.saturatingSub run.pay }, _, run.tokens,
    run.pay, named, run.marketTerms, Or.inl run.positionTerms, loaded.ready, run.paid,
    run.result⟩⟩

theorem withdraw_move (ran : withdraw rt s user mint priceUpdate remaining amount = .ok s') :
    Nonempty (Move rt s .withdraw user mint s') := by
  rcases withdraw_ok ran with ⟨run⟩
  have loaded := ModifyPositionWithPrice.load_ok run.loaded
  have named : run.market.mint = mint := by
    rw [run.accruedMarket, accrueMarket_mint, loaded.named]
  exact ⟨⟨{ run.market with totalSupplied := run.totalSupplied },
    { run.position with supplied := run.newSupplied }, _, run.tokens, amount, named,
    run.marketTerms, Or.inl run.positionTerms, loaded.ready, run.paid, run.result⟩⟩

theorem borrow_move (ran : borrow rt s user mint priceUpdate remaining amount = .ok s') :
    Nonempty (Move rt s .borrow user mint s') := by
  rcases borrow_ok ran with ⟨run⟩
  have loaded := ModifyPositionWithPrice.load_ok run.loaded
  have named : run.market.mint = mint := by
    rw [run.accruedMarket, accrueMarket_mint, loaded.named]
  exact ⟨⟨{ run.market with totalBorrowed := run.totalBorrowed },
    { run.position with borrowed := run.newBorrowed }, _, run.tokens, amount, named,
    run.marketTerms, Or.inl run.positionTerms, loaded.ready, run.paid, run.result⟩⟩

end Moves

theorem step_move {a : Action} {kind : MarketActionKind} {user : Signer} {mint : Pubkey}
    (acts : a.touch = some (kind, user, mint)) (step : Step rt s a s') :
    Nonempty (Move rt s kind user mint s') := by
  cases a with
  | supply _ _ _ =>
      cases acts
      exact supply_move step
  | withdraw _ _ _ _ _ =>
      cases acts
      exact withdraw_move step
  | borrow _ _ _ _ _ =>
      cases acts
      exact borrow_move step
  | repay _ _ _ =>
      cases acts
      exact repay_move step
  | _ => cases acts

theorem step_writes {a : Action} (step : Step rt s a s') : Writes rt s a s' := by
  cases a with
  | initializeMarket admin mint amountPerClaim maxLtvBps feedId rate =>
      rcases initializeMarket_ok step with ⟨run⟩
      exact .opened _ _ _ _ _ _ rfl run
  | setClaimAmount admin mint amount =>
      rcases setClaimAmount_ok step with ⟨market, found, _, result⟩
      exact .decreed admin mint amount market rfl found result
  | claimFaucet user mint =>
      rcases claimFaucet_ok step with ⟨run⟩
      exact .claimed user mint rfl run
  | supply user mint amount =>
      rcases step_move rfl step with ⟨move⟩
      exact .moved .supply user mint rfl move
  | withdraw user mint priceUpdate remaining amount =>
      rcases step_move rfl step with ⟨move⟩
      exact .moved .withdraw user mint rfl move
  | borrow user mint priceUpdate remaining amount =>
      rcases step_move rfl step with ⟨move⟩
      exact .moved .borrow user mint rfl move
  | repay user mint amount =>
      rcases step_move rfl step with ⟨move⟩
      exact .moved .repay user mint rfl move
  | liquidate accounts remaining repayAmount =>
      rcases liquidate_ok step with ⟨run⟩
      exact .liquidated accounts remaining repayAmount rfl run
  | initUserStats user =>
      rcases initUserStats_ok step with ⟨stats, named, bump, result⟩
      exact .counted user stats s.events (Or.inl rfl) named bump result
  | recordAction user kind healthBps =>
      rcases recordAction_ok step with ⟨stats, named, bump, result⟩
      exact .counted user stats _ (Or.inr ⟨kind, healthBps, rfl⟩) named bump result
  | holder holder instruction => exact .held holder instruction rfl step
  | environment clock foreign =>
      rcases advance_ok step with ⟨forward, result⟩
      exact .passed clock foreign rfl forward result

/-- Time passes between instructions and never within one. -/
theorem step_clock {a : Action} (step : Step rt s a s') :
    s'.clock = s.clock ∨
      ∃ clock foreign, a = .environment clock foreign ∧ s.clock.slot.val ≤ clock.slot.val ∧
        s' = { s with clock := clock, foreign := foreign } := by
  cases step_writes step with
  | opened _ _ _ _ _ _ _ run =>
      left
      rw [run.result]
  | decreed _ _ _ _ _ _ result =>
      left
      rw [result]
  | claimed _ _ _ run =>
      left
      rw [run.result]
  | moved _ _ _ _ move =>
      left
      rw [move.result]
      rfl
  | liquidated _ _ _ _ run =>
      left
      rw [run.result]
      rfl
  | counted _ _ _ _ _ _ result =>
      left
      rw [result]
  | held _ _ _ ran =>
      rcases holderInstruction_frame ran with ⟨_, _, rfl⟩
      exact Or.inl rfl
  | passed clock foreign acts forward result =>
      exact Or.inr ⟨clock, foreign, acts, forward, result⟩

theorem step_slot_le {a : Action} (step : Step rt s a s') :
    s.clock.slot.val ≤ s'.clock.slot.val := by
  rcases step_clock step with same | ⟨clock, foreign, _, forward, rfl⟩
  · rw [same]
  · exact forward

/-- The mint of the market an action creates. -/
def Action.createdMint : Action → Option Pubkey
  | .initializeMarket _ mint _ _ _ _ => some mint.pubkey
  | _ => none

theorem createdMint_of_touch {a : Action} {kind : MarketActionKind} {user : Signer} {mint : Pubkey}
    (acts : a.touch = some (kind, user, mint)) : a.createdMint = none := by
  cases a with
  | initializeMarket _ _ _ _ _ _ => cases acts
  | _ => rfl

theorem createdMint_of_count {a : Action} {user : Signer}
    (acts : a = .initUserStats user ∨ ∃ kind healthBps, a = .recordAction user kind healthBps) :
    a.createdMint = none := by
  rcases acts with rfl | ⟨_, _, rfl⟩ <;> rfl

theorem supply_of_touch {a : Action} {user : Signer} {mint : Pubkey}
    (acts : a.touch = some (.supply, user, mint)) : ∃ amount, a = .supply user mint amount := by
  cases a with
  | supply _ _ amount =>
      cases acts
      exact ⟨amount, rfl⟩
  | _ => cases acts

theorem step_marketTerms {a : Action} (step : Step rt s a s') :
    (a.createdMint = none ∧ s'.marketTerms = s.marketTerms) ∨
      ∃ admin mint amountPerClaim maxLtvBps feedId rate terms,
        a = .initializeMarket admin mint amountPerClaim maxLtvBps feedId rate ∧
        s.markets.lookup mint.pubkey = none ∧
        terms = ⟨admin.pubkey, mint.pubkey, maxLtvBps, feedId, rate,
          rt.findBump (.market mint.pubkey), rt.findBump (.authority mint.pubkey)⟩ ∧
        0 < maxLtvBps.val ∧ maxLtvBps.val < 10000 ∧
        s'.marketTerms = Function.update s.marketTerms mint.pubkey (some terms) := by
  cases step_writes step with
  | opened admin mint amountPerClaim maxLtvBps feedId rate acts run =>
      right
      refine ⟨admin, mint, amountPerClaim, maxLtvBps, feedId, rate, _, acts, run.newMarket, rfl,
        run.ltv.1, run.ltv.2, ?_⟩
      rw [run.result]
      calc
        _ = Function.update s.marketTerms mint.pubkey (some run.market.terms) :=
          map_terms_insert s.markets Market.terms mint.pubkey run.market
        _ = _ := by
          rw [run.created]
          rfl
  | decreed admin mint amount market acts found result =>
      subst acts result
      have same := marketTerms_of_lookup found
      exact Or.inl ⟨rfl, map_terms_rewrite same⟩
  | claimed user mint acts run =>
      subst acts
      have same := marketTerms_of_lookup run.found
      rw [run.result]
      exact Or.inl ⟨rfl, map_terms_rewrite same⟩
  | moved kind user mint acts move =>
      rw [move.result]
      exact Or.inl ⟨createdMint_of_touch acts, writeBack_marketTerms move.marketTerms⟩
  | liquidated accounts remaining repayAmount acts run =>
      subst acts
      rw [run.result]
      exact Or.inl
        ⟨rfl, writeBackLiquidation_marketTerms run.debtMarketTerms run.collateralMarketTerms⟩
  | counted user stats events acts named bump result =>
      subst result
      exact Or.inl ⟨createdMint_of_count acts, rfl⟩
  | held holder instruction acts ran =>
      subst acts
      rcases holderInstruction_frame ran with ⟨_, _, rfl⟩
      exact Or.inl ⟨rfl, rfl⟩
  | passed clock foreign acts forward result =>
      subst acts result
      exact Or.inl ⟨rfl, rfl⟩

theorem step_positionTerms {a : Action} (step : Step rt s a s') :
    s'.positionTerms = s.positionTerms ∨
      ∃ user mint amount terms, a = .supply user mint amount ∧
        (∀ old, s.positions.lookup (user.pubkey, mint) = some old → old.user = .default) ∧
        s.marketTerms mint = some terms ∧
        s'.positionTerms = Function.update s.positionTerms (user.pubkey, mint)
          (some (terms.opened rt user.pubkey mint)) := by
  cases step_writes step with
  | opened _ _ _ _ _ _ _ run =>
      left
      rw [run.result]
      rfl
  | decreed _ _ _ _ _ _ result =>
      left
      rw [result]
      rfl
  | claimed _ _ _ run =>
      left
      rw [run.result]
      rfl
  | moved kind user mint acts move =>
      rcases move.positionTerms with same | ⟨rfl, unclaimed, opened⟩
      · left
        rw [move.result]
        exact writeBack_positionTerms same
      · right
        rcases supply_of_touch acts with ⟨amount, acts⟩
        refine ⟨user, mint, amount, _, acts, unclaimed, move.marketTerms, ?_⟩
        refine (congrArg State.positionTerms move.result).trans ?_
        rw [← opened]
        exact map_terms_insert s.positions Position.terms (user.pubkey, mint) _
  | liquidated accounts remaining repayAmount _ run =>
      left
      rw [run.result]
      exact writeBackLiquidation_positionTerms run.debtPositionTerms run.collateralPositionTerms
  | counted _ _ _ _ _ _ result =>
      left
      rw [result]
      rfl
  | held _ _ _ ran =>
      rcases holderInstruction_frame ran with ⟨_, _, rfl⟩
      exact Or.inl rfl
  | passed _ _ _ _ result =>
      left
      rw [result]
      rfl

end Steps

end ShadowLend
