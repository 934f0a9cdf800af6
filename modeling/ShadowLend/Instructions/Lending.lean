import ShadowLend.Contexts
import ShadowLend.Health
import ShadowLend.Interest

/-! `supply`, `withdraw`, `borrow` and `repay`. Each handler is followed by the
record of what its successful runs established, which is all later proofs use. -/

namespace ShadowLend

open Outcome

/-- Anchor writes the accounts back in the order of the struct's fields, after
the handler returns. -/
def State.writeBack (s : State) (user mint : Pubkey) (market : Market) (position : Position)
    (tokens : Tokens) (event : Event) : State :=
  { s with
    markets := s.markets.insert mint market
    positions := s.positions.insert (user, mint) position
    tokens := tokens
    events := s.events ++ [event] }

/-- The position `supply` goes on with: a fresh one takes its parameters from the
market, an old one is restated. -/
def openOrAccrue (rt : Runtime) (user : Signer) (mint : Pubkey) (market : Market)
    (position : Position) : Position :=
  if position.user = .default then
    { position with
      user := user.pubkey
      market := .market mint
      bump := rt.findBump (.position user.pubkey mint)
      feedId := market.feedId
      maxLtvBps := market.maxLtvBps
      decimals := mintDecimals
      borrowIndexSnapshotE18 := market.borrowIndexE18 }
  else
    accruePosition position market

def supply (rt : Runtime) (s : State) (user : Signer) (mint : Pubkey) (amount : U64) :
    Except ProgramError State := do
  let ctx ← ModifyPosition.load rt s user mint
  require (0 < amount.val) (.market .zeroAmount)
  let market := accrueMarket ctx.market s.clock
  let position := openOrAccrue rt user mint market ctx.position
  let tokens ← transferTokens ctx.tokens (.associatedToken user.pubkey mint) (.vault mint)
    user.pubkey amount
  let supplied ← okOr (position.supplied.checkedAdd amount) (.market .overflow)
  let totalSupplied ← okOr (market.totalSupplied.checkedAdd amount) (.market .overflow)
  pure (s.writeBack user.pubkey mint { market with totalSupplied := totalSupplied }
    { position with supplied := supplied } tokens
    (.marketAction user.pubkey market.mint .supply supplied position.borrowed))

def withdraw (rt : Runtime) (s : State) (user : Signer) (mint priceUpdate : Pubkey)
    (remaining : List Pubkey) (amount : U64) : Except ProgramError State := do
  let ctx ← ModifyPositionWithPrice.load rt s user mint priceUpdate
  require (0 < amount.val) (.market .zeroAmount)
  let market := accrueMarket ctx.market s.clock
  let position := accruePosition ctx.position market
  let newSupplied ← okOr (position.supplied.checkedSub amount) (.market .insufficientCollateral)
  let curPrice ← okOr (rt.getPriceNoOlderThan ctx.priceUpdate s.clock maxPriceAgeSec market.feedId)
    (.market .stalePrice)
  let totals ← accumulatePosition newSupplied position.borrowed curPrice position.decimals
    position.maxLtvBps .zero
  let totals ← accumulateRemaining rt (remaining.map s.accountInfo) user.pubkey
    (.position user.pubkey mint) s.clock totals
  require (totals.debt.val ≤ totals.collatAtLtv.val) (.market .wouldBeUnhealthy)
  let tokens ← transferTokens ctx.tokens (.vault mint) (.associatedToken user.pubkey mint)
    (.authority mint) amount
  let totalSupplied ← okOr (market.totalSupplied.checkedSub amount) (.market .overflow)
  pure (s.writeBack user.pubkey mint { market with totalSupplied := totalSupplied }
    { position with supplied := newSupplied } tokens
    (.marketAction user.pubkey market.mint .withdraw newSupplied position.borrowed))

def borrow (rt : Runtime) (s : State) (user : Signer) (mint priceUpdate : Pubkey)
    (remaining : List Pubkey) (amount : U64) : Except ProgramError State := do
  let ctx ← ModifyPositionWithPrice.load rt s user mint priceUpdate
  require (0 < amount.val) (.market .zeroAmount)
  let market := accrueMarket ctx.market s.clock
  let position := accruePosition ctx.position market
  require (position.supplied.val = 0) (.market .sameMintBorrow)
  let newBorrowed ← okOr (position.borrowed.checkedAdd amount) (.market .overflow)
  require (amount.val ≤ ctx.vault.amount.val) (.market .insufficientLiquidity)
  let curPrice ← okOr (rt.getPriceNoOlderThan ctx.priceUpdate s.clock maxPriceAgeSec market.feedId)
    (.market .stalePrice)
  let totals ← accumulatePosition position.supplied newBorrowed curPrice position.decimals
    position.maxLtvBps .zero
  let totals ← accumulateRemaining rt (remaining.map s.accountInfo) user.pubkey
    (.position user.pubkey mint) s.clock totals
  require (totals.debt.val ≤ totals.collatAtLtv.val) (.market .exceedsLtv)
  let tokens ← transferTokens ctx.tokens (.vault mint) (.associatedToken user.pubkey mint)
    (.authority mint) amount
  let totalBorrowed ← okOr (market.totalBorrowed.checkedAdd amount) (.market .overflow)
  pure (s.writeBack user.pubkey mint { market with totalBorrowed := totalBorrowed }
    { position with borrowed := newBorrowed } tokens
    (.marketAction user.pubkey market.mint .borrow position.supplied newBorrowed))

def repay (rt : Runtime) (s : State) (user : Signer) (mint : Pubkey) (amount : U64) :
    Except ProgramError State := do
  let ctx ← ModifyPosition.load rt s user mint
  require (0 < amount.val) (.market .zeroAmount)
  let market := accrueMarket ctx.market s.clock
  let position := accruePosition ctx.position market
  let pay := amount.least position.borrowed
  require (0 < pay.val) (.market .nothingToRepay)
  let tokens ← transferTokens ctx.tokens (.associatedToken user.pubkey mint) (.vault mint)
    user.pubkey pay
  let borrowed := position.borrowed.saturatingSub pay
  pure (s.writeBack user.pubkey mint
    { market with totalBorrowed := market.totalBorrowed.saturatingSub pay }
    { position with borrowed := borrowed } tokens
    (.marketAction user.pubkey market.mint .repay position.supplied borrowed))

section Runs

variable {rt : Runtime} {s s' : State} {user : Signer} {mint priceUpdate : Pubkey}
variable {remaining : List Pubkey} {amount : U64}

/-- In every record `market` and `position` are the copies after accrual. -/
structure SupplyRun (rt : Runtime) (s : State) (user : Signer) (mint : Pubkey) (amount : U64)
    (s' : State) where
  ctx : ModifyPosition
  market : Market
  position : Position
  tokens : Tokens
  supplied : U64
  totalSupplied : U64
  loaded : ModifyPosition.load rt s user mint = .ok ctx
  positive : 0 < amount.val
  accruedMarket : market = accrueMarket ctx.market s.clock
  accruedPosition : position = openOrAccrue rt user mint market ctx.position
  paid : transferTokens ctx.tokens (.associatedToken user.pubkey mint) (.vault mint)
    user.pubkey amount = .ok tokens
  grown : supplied.val = position.supplied.val + amount.val
  booked : totalSupplied.val = market.totalSupplied.val + amount.val
  result : s' = s.writeBack user.pubkey mint { market with totalSupplied := totalSupplied }
    { position with supplied := supplied } tokens
    (.marketAction user.pubkey market.mint .supply supplied position.borrowed)

theorem supply_ok (ran : supply rt s user mint amount = .ok s') :
    Nonempty (SupplyRun rt s user mint amount s') := by
  simp only [supply, bind_ok, require_ok, okOr_ok, pure_ok, Uint.checkedAdd_eq_some] at ran
  obtain ⟨ctx, loaded, _, positive, tokens, paid, supplied, grown, totalSupplied, booked, rfl⟩ := ran
  exact ⟨⟨ctx, _, _, tokens, supplied, totalSupplied, loaded, positive, rfl, rfl, paid, grown,
    booked, rfl⟩⟩

structure RepayRun (rt : Runtime) (s : State) (user : Signer) (mint : Pubkey) (amount : U64)
    (s' : State) where
  ctx : ModifyPosition
  market : Market
  position : Position
  tokens : Tokens
  pay : U64
  loaded : ModifyPosition.load rt s user mint = .ok ctx
  accruedMarket : market = accrueMarket ctx.market s.clock
  accruedPosition : position = accruePosition ctx.position market
  capped : pay.val = min amount.val position.borrowed.val
  positive : 0 < pay.val
  paid : transferTokens ctx.tokens (.associatedToken user.pubkey mint) (.vault mint)
    user.pubkey pay = .ok tokens
  result : s' = s.writeBack user.pubkey mint
    { market with totalBorrowed := market.totalBorrowed.saturatingSub pay }
    { position with borrowed := position.borrowed.saturatingSub pay } tokens
    (.marketAction user.pubkey market.mint .repay position.supplied
      (position.borrowed.saturatingSub pay))

theorem repay_ok (ran : repay rt s user mint amount = .ok s') :
    Nonempty (RepayRun rt s user mint amount s') := by
  simp only [repay, bind_ok, require_ok, pure_ok] at ran
  rcases ran with ⟨ctx, loaded, _, _, _, positive, tokens, paid, rfl⟩
  exact ⟨⟨ctx, _, _, tokens, _, loaded, rfl, rfl, Uint.val_least _ _, positive, paid, rfl⟩⟩

/-- The health check both `withdraw` and `borrow` make: the main position as the
instruction will leave it, then the listed ones as they are stored. -/
structure HealthRun (rt : Runtime) (s : State) (user : Signer) (mint : Pubkey)
    (remaining : List Pubkey) (main : Contribution) where
  listed : List Contribution
  totals : Totals
  counted : contributions rt (remaining.map s.accountInfo) user.pubkey
    (fun key => key = .position user.pubkey mint) s.clock = .ok listed
  summed : accumulateAll (main :: listed) .zero = .ok totals
  healthy : totals.debt.val ≤ totals.collatAtLtv.val

/-- Main position first, then the walk: one sum over one list. -/
theorem healthRun_of_totals {main : Contribution} {first totals : Totals}
    (start : main.accumulate .zero = .ok first)
    (walked : accumulateRemaining rt (remaining.map s.accountInfo) user.pubkey
      (.position user.pubkey mint) s.clock first = .ok totals)
    (healthy : totals.debt.val ≤ totals.collatAtLtv.val) :
    Nonempty (HealthRun rt s user mint remaining main) := by
  rcases walkRemaining_ok.mp walked with ⟨listed, counted, summed⟩
  have together : accumulateAll (main :: listed) .zero = .ok totals :=
    accumulateAll_cons.mpr ⟨first, start, summed⟩
  exact ⟨⟨listed, totals, counted, together, healthy⟩⟩

structure WithdrawRun (rt : Runtime) (s : State) (user : Signer) (mint priceUpdate : Pubkey)
    (remaining : List Pubkey) (amount : U64) (s' : State) where
  ctx : ModifyPositionWithPrice
  market : Market
  position : Position
  price : Price
  tokens : Tokens
  newSupplied : U64
  totalSupplied : U64
  loaded : ModifyPositionWithPrice.load rt s user mint priceUpdate = .ok ctx
  positive : 0 < amount.val
  accruedMarket : market = accrueMarket ctx.market s.clock
  accruedPosition : position = accruePosition ctx.position market
  taken : newSupplied.val + amount.val = position.supplied.val
  priced : rt.getPriceNoOlderThan ctx.priceUpdate s.clock maxPriceAgeSec market.feedId = some price
  health : HealthRun rt s user mint remaining
    (({ position with supplied := newSupplied } : Position).contribution
      (.position user.pubkey mint) price market.feedId)
  paid : transferTokens ctx.tokens (.vault mint) (.associatedToken user.pubkey mint)
    (.authority mint) amount = .ok tokens
  booked : totalSupplied.val + amount.val = market.totalSupplied.val
  result : s' = s.writeBack user.pubkey mint { market with totalSupplied := totalSupplied }
    { position with supplied := newSupplied } tokens
    (.marketAction user.pubkey market.mint .withdraw newSupplied position.borrowed)

theorem withdraw_ok (ran : withdraw rt s user mint priceUpdate remaining amount = .ok s') :
    Nonempty (WithdrawRun rt s user mint priceUpdate remaining amount s') := by
  simp only [withdraw, bind_ok, require_ok, okOr_ok, pure_ok, Uint.checkedSub_eq_some] at ran
  obtain ⟨ctx, loaded, _, positive, newSupplied, taken, price, priced, first, start, totals, walked,
    _, healthy, tokens, paid, totalSupplied, booked, rfl⟩ := ran
  generalize accruedMarket : accrueMarket ctx.market s.clock = market at *
  generalize accruedPosition : accruePosition ctx.position market = position at *
  have main : (({ position with supplied := newSupplied } : Position).contribution
      (.position user.pubkey mint) price market.feedId).accumulate .zero = .ok first := start
  rcases healthRun_of_totals main walked healthy with ⟨health⟩
  exact ⟨⟨ctx, market, position, price, tokens, newSupplied, totalSupplied, loaded, positive,
    accruedMarket.symm, accruedPosition.symm, taken, priced, health, paid, booked, rfl⟩⟩

structure BorrowRun (rt : Runtime) (s : State) (user : Signer) (mint priceUpdate : Pubkey)
    (remaining : List Pubkey) (amount : U64) (s' : State) where
  ctx : ModifyPositionWithPrice
  market : Market
  position : Position
  price : Price
  tokens : Tokens
  newBorrowed : U64
  totalBorrowed : U64
  loaded : ModifyPositionWithPrice.load rt s user mint priceUpdate = .ok ctx
  positive : 0 < amount.val
  accruedMarket : market = accrueMarket ctx.market s.clock
  accruedPosition : position = accruePosition ctx.position market
  unsupplied : position.supplied.val = 0
  grown : newBorrowed.val = position.borrowed.val + amount.val
  liquid : amount.val ≤ ctx.vault.amount.val
  priced : rt.getPriceNoOlderThan ctx.priceUpdate s.clock maxPriceAgeSec market.feedId = some price
  health : HealthRun rt s user mint remaining
    (({ position with borrowed := newBorrowed } : Position).contribution
      (.position user.pubkey mint) price market.feedId)
  paid : transferTokens ctx.tokens (.vault mint) (.associatedToken user.pubkey mint)
    (.authority mint) amount = .ok tokens
  booked : totalBorrowed.val = market.totalBorrowed.val + amount.val
  result : s' = s.writeBack user.pubkey mint { market with totalBorrowed := totalBorrowed }
    { position with borrowed := newBorrowed } tokens
    (.marketAction user.pubkey market.mint .borrow position.supplied newBorrowed)

theorem borrow_ok (ran : borrow rt s user mint priceUpdate remaining amount = .ok s') :
    Nonempty (BorrowRun rt s user mint priceUpdate remaining amount s') := by
  simp only [borrow, bind_ok, require_ok, okOr_ok, pure_ok, Uint.checkedAdd_eq_some] at ran
  obtain ⟨ctx, loaded, _, positive, _, unsupplied, newBorrowed, grown, _, liquid, price, priced,
    first, start, totals, walked, _, healthy, tokens, paid, totalBorrowed, booked, rfl⟩ := ran
  generalize accruedMarket : accrueMarket ctx.market s.clock = market at *
  generalize accruedPosition : accruePosition ctx.position market = position at *
  have main : (({ position with borrowed := newBorrowed } : Position).contribution
      (.position user.pubkey mint) price market.feedId).accumulate .zero = .ok first := start
  rcases healthRun_of_totals main walked healthy with ⟨health⟩
  exact ⟨⟨ctx, market, position, price, tokens, newBorrowed, totalBorrowed, loaded, positive,
    accruedMarket.symm, accruedPosition.symm, unsupplied, grown, liquid, priced, health, paid,
    booked, rfl⟩⟩

end Runs

end ShadowLend
