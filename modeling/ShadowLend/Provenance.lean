import ShadowLend.HealthCheck
import ShadowLend.Holdings
import ShadowLend.Listing
import ShadowLend.Devnet

/-! Where the entries of a health check come from: a position its own user opened
by a supply, and a recent quote of the feed of the market it is in. -/

namespace ShadowLend

open Outcome Devnet

def Action.checkedUser : Action → Option Pubkey
  | .withdraw user _ _ _ _ | .borrow user _ _ _ _ => some user.pubkey
  | .liquidate accounts _ _ => some accounts.borrower
  | _ => none

/-- A supply its user signed, at which the position did not exist before and since
which the ledger came to its present state. -/
def OpenedBySupply (rt : Runtime) (s : State) (user mint : Pubkey) : Prop :=
  ∃ signer amount before after, user = Signer.pubkey signer ∧ Reachable rt before ∧
    before.positions.lookup (user, mint) = none ∧
    Step rt before (.supply signer mint amount) after ∧ Leads rt (fun _ _ => True) after s

def QuotedBy (s : State) (address : Pubkey) (feedId : FeedId) (price : Price) : Prop :=
  ∃ update, (s.accountInfo address).owner = .pythReceiver ∧
    (s.accountInfo address).data.asPriceUpdate = some update ∧ update.feedId = feedId ∧
    update.price = price ∧
    s.clock.unixTimestamp.toInt ≤ price.publishTime.toInt + maxPriceAgeSec.val

structure Backed (rt : Runtime) (s : State) (a : Action) (e : Contribution) where
  user : Pubkey
  mint : Pubkey
  position : Position
  market : Market
  token : Mint
  priceUpdate : Pubkey
  checked : a.checkedUser = some user
  account : e.account = .position user mint
  stored : s.positions.lookup (user, mint) = some position
  opened : OpenedBySupply rt s user mint
  positionUser : position.user = user
  positionMarket : position.market = .market mint
  listed : s.markets.lookup mint = some market
  feed : e.feedId = market.feedId
  quoted : QuotedBy s priceUpdate market.feedId e.price
  ltv : e.maxLtvBps = market.maxLtvBps
  minted : s.mints.lookup mint = some token
  decimals : e.decimals = token.decimals

section Steps

variable {rt : Runtime} {s s' : State}

/-- Every stored position was opened by a supply of its own user. -/
theorem Reachable.opened (reached : Reachable rt s) {user mint : Pubkey} {position : Position}
    (found : s.positions.lookup (user, mint) = some position) : OpenedBySupply rt s user mint := by
  have law : ∀ terms, s.positionTerms (user, mint) = some terms →
      OpenedBySupply rt s user mint := by
    apply reached.invariant_under
      (P := fun s => ∀ terms, s.positionTerms (user, mint) = some terms →
        OpenedBySupply rt s user mint)
      (fun _ earlier => earlier)
    · rintro _ rfl terms named
      simp [State.positionTerms, State.empty] at named
    · intro s a s' earlier carried _ step terms named
      have kept (terms : PositionTerms) (named : s.positionTerms (user, mint) = some terms) :
          OpenedBySupply rt s' user mint := by
        obtain ⟨signer, amount, before, after, mine, origin, absent, first, rest⟩ :=
          carried terms named
        exact ⟨signer, amount, before, after, mine, origin, absent, first,
          .next rest trivial step⟩
      rcases step_positionTerms step with same |
        ⟨signer, opened, amount, opening, rfl, unclaimed, _, written⟩
      · rw [same] at named
        exact kept terms named
      · by_cases here : (user, mint) = (signer.pubkey, opened)
        · rcases Prod.mk.inj here with ⟨rfl, rfl⟩
          refine ⟨signer, amount, s, s', rfl, earlier, ?_, step, .start rfl⟩
          cases held : s.positions.lookup (signer.pubkey, mint) with
          | none => rfl
          | some old =>
              have claimed : old.user = signer.pubkey :=
                (Reachable.linked earlier).position_user held
              rw [unclaimed old held] at claimed
              exact absurd claimed.symm signer.pubkey_ne_default
        · rw [written, Function.update_of_ne here] at named
          exact kept terms named
  exact law _ (positionTerms_of_lookup found)

theorem backed_of_stored (reached : Reachable rt s) {a : Action} {user mint priceUpdate : Pubkey}
    {position : Position} {e : Contribution} (checked : a.checkedUser = some user)
    (stored : s.positions.lookup (user, mint) = some position)
    (account : e.account = .position user mint) (feed : e.feedId = position.feedId)
    (quoted : QuotedBy s priceUpdate position.feedId e.price)
    (ltv : e.maxLtvBps = position.maxLtvBps) (decimals : e.decimals = position.decimals) :
    Nonempty (Backed rt s a e) := by
  obtain ⟨_, opening, named, shape⟩ :=
    reached.linked.position user mint _ (positionTerms_of_lookup stored)
  rcases marketTerms_some named with ⟨market, listed, rfl⟩
  rcases reached.mint_decimals named with ⟨token, minted, same⟩
  have feeds : position.feedId = market.feedId := congrArg PositionTerms.feedId shape
  have ltvs : position.maxLtvBps = market.maxLtvBps := congrArg PositionTerms.maxLtvBps shape
  have digits : position.decimals = mintDecimals := congrArg PositionTerms.decimals shape
  exact ⟨⟨user, mint, position, market, token, priceUpdate, checked, account, stored,
    reached.opened stored, congrArg PositionTerms.user shape, congrArg PositionTerms.market shape,
    listed, feed.trans feeds, feeds ▸ quoted, ltv.trans ltvs, minted,
    decimals.trans (digits.trans same.symm)⟩⟩

theorem quotedBy_of_read (feeds : rt.ReadsFeeds) {address : Pubkey} {update : PriceUpdateV2}
    {feedId : FeedId} {price : Price}
    (owned : (s.accountInfo address).owner = .pythReceiver)
    (data : (s.accountInfo address).data.asPriceUpdate = some update)
    (priced : rt.getPriceNoOlderThan update s.clock maxPriceAgeSec feedId = some price) :
    QuotedBy s address feedId price := by
  rcases feeds.reads _ _ _ _ _ priced with ⟨held, feed, _, recent⟩
  exact ⟨update, owned, data, feed, held, recent⟩

theorem quotedBy_of_load (feeds : rt.ReadsFeeds) {address : Pubkey} {update : PriceUpdateV2}
    {feedId : FeedId} {price : Price} (loaded : loadPriceUpdate s address = .ok update)
    (priced : rt.getPriceNoOlderThan update s.clock maxPriceAgeSec feedId = some price) :
    QuotedBy s address feedId price := by
  simp only [loadPriceUpdate, bind_ok, require_ok, okOr_ok] at loaded
  rcases loaded with ⟨_, owned, data⟩
  exact quotedBy_of_read feeds owned data priced

theorem stored_terms (linked : Linked rt s) {user mint : Pubkey} {position : Position}
    {market : Market} (stored : s.positions.lookup (user, mint) = some position)
    (found : s.markets.lookup mint = some market) :
    position.feedId = market.feedId ∧ position.maxLtvBps = market.maxLtvBps ∧
      position.decimals = mintDecimals := by
  rcases linked.position user mint _ (positionTerms_of_lookup stored) with
    ⟨_, opening, named, shape⟩
  rw [marketTerms_of_lookup found, Option.some.injEq] at named
  subst opening
  exact ⟨congrArg PositionTerms.feedId shape, congrArg PositionTerms.maxLtvBps shape,
    congrArg PositionTerms.decimals shape⟩

theorem listed_backed (reached : Reachable rt s) (feeds : rt.ReadsFeeds) {a : Action}
    {user : Pubkey} {skip : Pubkey → Bool} {remaining : List Pubkey} {listed : List Contribution}
    (checked : a.checkedUser = some user)
    (walked : contributions rt (remaining.map s.accountInfo) user skip s.clock = .ok listed)
    {e : Contribution} (member : e ∈ listed) : Nonempty (Backed rt s a e) := by
  rcases contributions_mem walked member with ⟨keys, _, ran⟩
  obtain ⟨_, _, owner, mint, position, price, update, named, stored, mine, owned, data, priced,
    rfl⟩ := readKeys_some ran
  have owns : position.user = owner := reached.linked.position_user stored
  obtain rfl : user = owner := mine.symm.trans owns
  exact backed_of_stored reached checked stored named rfl (quotedBy_of_read feeds owned data priced)
    rfl rfl

/-- A main entry: the copy after accrual, with whatever amounts it is counted at. -/
theorem main_backed (reached : Reachable rt s) (feeds : rt.ReadsFeeds) {a : Action}
    {user mint priceUpdate : Pubkey} {position : Position} {market : Market}
    {update : PriceUpdateV2} {price : Price} (checked : a.checkedUser = some user)
    (found : s.markets.lookup mint = some market)
    (stored : s.positions.lookup (user, mint) = some position)
    (quote : loadPriceUpdate s priceUpdate = .ok update)
    (priced : rt.getPriceNoOlderThan update s.clock maxPriceAgeSec
      (accrueMarket market s.clock).feedId = some price) (b : Balances) :
    Nonempty (Backed rt s a
      (((accruePosition position (accrueMarket market s.clock)).rebalance b).contribution
        (.position user mint) price (accrueMarket market s.clock).feedId)) := by
  have feed := (stored_terms reached.linked stored found).1
  rw [accrueMarket_feedId, ← feed] at priced
  apply backed_of_stored reached checked stored rfl
  · rw [accrueMarket_feedId, ← feed]
    rfl
  · exact quotedBy_of_load feeds quote priced
  · exact accruePosition_maxLtvBps position _
  · exact accruePosition_decimals position _

theorem counted_backed (reached : Reachable rt s) (feeds : rt.ReadsFeeds) {a : Action}
    {log : List Contribution} (counted : a.counted rt s = .ok log) {e : Contribution}
    (member : e ∈ log) : Nonempty (Backed rt s a e) := by
  cases a with
  | withdraw user mint priceUpdate remaining amount =>
      simp only [Action.counted, bind_ok, okOr_ok, pure_ok] at counted
      rcases counted with ⟨ctx, loaded, supplied, _, price, priced, listed, walked, rfl⟩
      rcases ModifyPositionWithPrice.load_ok loaded with ⟨found, _, stored, _, _, _, quote⟩
      rcases List.mem_cons.mp member with rfl | member
      · exact main_backed reached feeds rfl found stored quote priced ⟨supplied, _, 0, 0⟩
      · exact listed_backed reached feeds rfl walked member
  | borrow user mint priceUpdate remaining amount =>
      simp only [Action.counted, bind_ok, okOr_ok, pure_ok] at counted
      rcases counted with ⟨ctx, loaded, borrowed, _, price, priced, listed, walked, rfl⟩
      rcases ModifyPositionWithPrice.load_ok loaded with ⟨found, _, stored, _, _, _, quote⟩
      rcases List.mem_cons.mp member with rfl | member
      · exact main_backed reached feeds rfl found stored quote priced ⟨_, borrowed, 0, 0⟩
      · exact listed_backed reached feeds rfl walked member
  | liquidate accounts remaining repayAmount =>
      simp only [Action.counted, bind_ok, okOr_ok, pure_ok] at counted
      obtain ⟨ctx, loaded, debtPrice, debtPriced, collatPrice, collatPriced, listed, walked, rfl⟩ :=
        counted
      have stored := Liquidate.load_ok loaded
      rcases List.mem_cons.mp member with rfl | member
      · exact main_backed reached feeds rfl stored.debtMarket stored.debtPosition
          stored.debtPriced debtPriced ⟨_, _, 0, 0⟩
      · rcases List.mem_cons.mp member with rfl | member
        · exact main_backed reached feeds rfl stored.collateralMarket stored.collateralPosition
            stored.collateralPriced collatPriced ⟨_, _, 0, 0⟩
        · exact listed_backed reached feeds rfl walked member
  | _ =>
      simp only [Action.counted, pure_ok] at counted
      subst log
      cases member

end Steps

/-- The totals a successful instruction compared are those of a list of entries
each of which rests on an own position and a quote of its market's feed. -/
theorem health_entries_backed {rt : Runtime} {s s' : State} (feeds : rt.ReadsFeeds)
    (reached : Reachable rt s) {a : Action} (step : Step rt s a s') :
    ∃ log totals, a.counted rt s = .ok log ∧ accumulateAll log .zero = .ok totals ∧
      a.passes totals ∧ ∀ e ∈ log, Nonempty (Backed rt s a e) := by
  rcases step_counted step with ⟨log, totals, counted, summed, passed⟩
  exact ⟨log, totals, counted, summed, passed, fun _ member =>
    counted_backed reached feeds counted member⟩

theorem health_entries_backed_loan :
    ∃ s' log totals, Step devnet (ledger lenders) (borrowUsdc 4000000000000) s' ∧
      (borrowUsdc 4000000000000).counted devnet (ledger lenders) = .ok log ∧
      accumulateAll log .zero = .ok totals ∧ log.length = 2 ∧
      ∀ e ∈ log, Nonempty (Backed devnet (ledger lenders) (borrowUsdc 4000000000000) e) := by
  have ran : ∃ s', Step devnet (ledger lenders) (borrowUsdc 4000000000000) s' ∧
      s'.userDebt (quoted 10000000000) alice.pubkey = 400000000000 := ok_where (by decide +kernel)
  have two : ∃ log, (borrowUsdc 4000000000000).counted devnet (ledger lenders) = .ok log ∧
      log.length = 2 := ok_where (by decide +kernel)
  rcases ran with ⟨s', ran, _⟩
  obtain ⟨log, totals, counted, summed, _, backed⟩ :=
    health_entries_backed devnet_readsFeeds (ledger_reachable lenders) ran
  rcases two with ⟨log', counted', length⟩
  rw [counted, Except.ok.injEq] at counted'
  subst log'
  exact ⟨s', log, totals, ran, counted, summed, length, backed⟩

end ShadowLend
