import ShadowLend.Client.Safety
import ShadowLend.Foreclosure

/-! The program's answer to the page. What decides it is the whole ledger by then, where
the page could read every position and its price accounts are still fresh. Nothing else
about the list or the prices it has chosen can have a transaction refused. -/

namespace ShadowLend

open Outcome Devnet

/-- The ledger, were one of its positions of these amounts. -/
def State.supposing (s : State) (key : Pubkey × Pubkey) (supplied borrowed : U64) : State :=
  match s.positions.lookup key with
  | some position =>
      { s with
        positions := s.positions.insert key
          { position with supplied := supplied, borrowed := borrowed } }
  | none => s

/-- What the books say a user owes is covered by the collateral at its LTV. -/
def State.covered (s : State) (prices : FeedId → Price) (user : Pubkey) : Prop :=
  min (s.bookedDebt prices user) (2 ^ 128 - 1) ≤ min (s.userCollateral prices user) (2 ^ 128 - 1)

instance (s : State) (prices : FeedId → Price) (user : Pubkey) :
    Decidable (s.covered prices user) := by
  unfold State.covered
  infer_instance

def State.countedMints (s : State) (user : Pubkey) (mains : List Pubkey) : Finset Pubkey :=
  ((s.positions.keys.filter fun key => key.1 = user).image Prod.snd).filter fun mint =>
    mint ∈ mains ∨ (s.positions.lookup (user, mint)).any fun position => ¬ position.isEmpty

def State.converts (s : State) (prices : FeedId → Price) (user : Pubkey) (mains : List Pubkey) :
    Prop :=
  ∀ mint ∈ s.countedMints user mains, ∀ position,
    s.positions.lookup (user, mint) = some position →
      (prices position.feedId).converts position.decimals

/-- A ledger for another, which differs in what a user has in the main markets. -/
structure Supposed (rt : Runtime) (user : Pubkey) (mains : List Pubkey) (s t : State) : Prop where
  linked : Linked rt t
  clock : t.clock = s.clock
  others : ∀ mint, mint ∉ mains →
    t.positions.lookup (user, mint) = s.positions.lookup (user, mint)
  prices : ∀ address, (s.accountInfo address).owner = .pythReceiver →
    t.accountInfo address = s.accountInfo address

section Ledger

variable {rt : Runtime} {s : State} {prices : FeedId → Price} {user : Pubkey}
variable {mains : List Pubkey} {key : Pubkey × Pubkey} {supplied borrowed : U64}

theorem mem_countedMints {mint : Pubkey} :
    mint ∈ s.countedMints user mains ↔ ∃ position,
      s.positions.lookup (user, mint) = some position ∧ (mint ∈ mains ∨ ¬ position.isEmpty) := by
  simp only [State.countedMints, Finset.mem_filter, Finset.mem_image, Prod.exists, Finmap.mem_keys,
    exists_eq_right]
  constructor
  · rintro ⟨stored, counts⟩
    obtain ⟨position, found⟩ := Option.isSome_iff_exists.mp (Finmap.lookup_isSome.mpr stored)
    rw [found] at counts
    exact ⟨position, found, by simpa using counts⟩
  · rintro ⟨position, found, counts⟩
    refine ⟨Finmap.lookup_isSome.mp (by rw [found]; rfl), ?_⟩
    rw [found]
    simpa using counts

theorem total_ofUser (mains : List Pubkey) (worth : Pubkey × Pubkey → Position → ℕ)
    (hollow : ∀ key position, position.isEmpty → worth key position = 0) :
    s.positions.total (ofUser user worth) =
      ∑ mint ∈ s.countedMints user mains, s.positions.share worth (user, mint) := by
  have apart : Set.InjOn (fun mint : Pubkey => (user, mint)) (s.countedMints user mains) :=
    fun _ _ _ _ same => (Prod.mk.inj same).2
  rw [Table.total, ← Finset.sum_image (f := fun key => s.positions.share worth key) apart]
  symm
  apply Finset.sum_subset_zero_on_sdiff
  · intro key inside
    obtain ⟨mint, counted, rfl⟩ := Finset.mem_image.mp inside
    obtain ⟨position, found, _⟩ := mem_countedMints.mp counted
    exact Finmap.mem_keys.mpr (Finmap.lookup_isSome.mp (by rw [found]; rfl))
  · intro key outside
    rw [share_ofUser]
    split
    · rename_i owned
      obtain ⟨owner, mint⟩ := key
      obtain rfl : owner = user := owned
      obtain ⟨stored, uncounted⟩ := Finset.mem_sdiff.mp outside
      obtain ⟨position, found⟩ :=
        Option.isSome_iff_exists.mp (Finmap.lookup_isSome.mpr (Finmap.mem_keys.mp stored))
      rw [Table.share_of_lookup found]
      apply hollow
      by_contra holds
      exact uncounted (Finset.mem_image_of_mem _ (mem_countedMints.mpr ⟨position, found, .inr holds⟩))
    · rfl
  · intro key inside
    obtain ⟨mint, _, rfl⟩ := Finset.mem_image.mp inside
    rw [share_ofUser, if_pos rfl]

theorem heldTotals_covered (mains : List Pubkey) :
    (s.heldTotals prices user (s.countedMints user mains)).debt.val ≤
        (s.heldTotals prices user (s.countedMints user mains)).collatAtLtv.val ↔
      s.covered prices user := by
  have debt : s.bookedDebt prices user = _ :=
    total_ofUser mains (storedDebtValue prices) fun _ _ empty => usdValue_zero _ _ empty.2
  have collateral : s.userCollateral prices user = _ :=
    total_ofUser mains (weightedValue prices) fun _ _ empty => collateralValue_zero _ _ _ empty.1
  rw [State.covered, debt, collateral]
  exact Iff.rfl

theorem supposing_of_lookup {position : Position} (found : s.positions.lookup key = some position) :
    s.supposing key supplied borrowed = { s with
      positions := s.positions.insert key
        { position with supplied := supplied, borrowed := borrowed } } := by
  rw [State.supposing, found]

theorem supposing_lookup_other {other : Pubkey × Pubkey} (distinct : other ≠ key) :
    (s.supposing key supplied borrowed).positions.lookup other = s.positions.lookup other := by
  unfold State.supposing
  split
  · exact Finmap.lookup_insert_of_ne _ distinct
  · rfl

theorem supposing_positionTerms (other : Pubkey × Pubkey) :
    (s.supposing key supplied borrowed).positionTerms other = s.positionTerms other := by
  by_cases same : other = key
  · subst other
    unfold State.supposing
    split
    · rename_i position found
      simp only [State.positionTerms, Finmap.lookup_insert, found]
      rfl
    · rfl
  · simp only [State.positionTerms, supposing_lookup_other same]

theorem supposing_frame (s : State) (key : Pubkey × Pubkey) (supplied borrowed : U64) :
    (s.supposing key supplied borrowed).clock = s.clock ∧
      (s.supposing key supplied borrowed).markets = s.markets ∧
      (s.supposing key supplied borrowed).tokens = s.tokens ∧
      (s.supposing key supplied borrowed).mints = s.mints ∧
      (s.supposing key supplied borrowed).foreign = s.foreign := by
  unfold State.supposing
  split <;> exact ⟨rfl, rfl, rfl, rfl, rfl⟩

theorem supposing_debtNow (other : Pubkey × Pubkey) (position : Position) :
    (s.supposing key supplied borrowed).debtNow other position = s.debtNow other position := by
  obtain ⟨clock, markets, _⟩ := supposing_frame s key supplied borrowed
  rw [State.debtNow, State.debtNow, clock, markets]

theorem Linked.supposing (linked : Linked rt s) :
    Linked rt (s.supposing key supplied borrowed) := by
  obtain ⟨_, markets, tokens, _⟩ := supposing_frame s key supplied borrowed
  have terms (mint : Pubkey) :
      (s.supposing key supplied borrowed).marketTerms mint = s.marketTerms mint := by
    rw [State.marketTerms, markets, State.marketTerms]
  refine ⟨?_, ?_, ?_⟩
  · intro mint opening found
    rw [terms] at found
    exact linked.market mint opening found
  · intro owner mint held found
    rw [supposing_positionTerms] at found
    rw [terms]
    exact linked.position owner mint held found
  · intro mint
    rw [tokens, terms]
    exact linked.vault mint

theorem supposing_priceInfo {address : Pubkey}
    (owned : (s.accountInfo address).owner = .pythReceiver) :
    (s.supposing key supplied borrowed).accountInfo address = s.accountInfo address := by
  obtain ⟨id, _, rfl, _⟩ := heldForeign_of_priced owned
  obtain ⟨_, _, tokens, mints, foreign⟩ := supposing_frame s key supplied borrowed
  simp only [State.accountInfo, tokens, mints, foreign]

theorem Linked.supposed (linked : Linked rt s) (mint : Pubkey) (supplied borrowed : U64) :
    Supposed rt user [mint] s (s.supposing (user, mint) supplied borrowed) where
  linked := linked.supposing
  clock := (supposing_frame s (user, mint) supplied borrowed).1
  others := by
    intro other elsewhere
    apply supposing_lookup_other
    rw [List.mem_singleton] at elsewhere
    exact fun same => elsewhere (Prod.mk.inj same).2
  prices := fun _ => supposing_priceInfo

theorem Supposed.quotes {t : State} (supposed : Supposed rt user mains s t) {address : Pubkey}
    {feedId : FeedId} {price : Price} (quotes : Quotes rt s address feedId price) :
    Quotes rt t address feedId price := by
  obtain ⟨update, owned, data, priced⟩ := quotes
  have same := supposed.prices address owned
  exact ⟨update, same ▸ owned, same ▸ data, supposed.clock ▸ priced⟩

theorem Supposed.positionInfo {t : State} (supposed : Supposed rt user mains s t) {mint : Pubkey}
    (elsewhere : mint ∉ mains) :
    t.accountInfo (.position user mint) = s.accountInfo (.position user mint) := by
  simp only [State.accountInfo, supposed.others mint elsewhere]

/-- A computation which accumulates the main entries and then walks the list comes to the
totals of the ledger, and does so exactly when every price it counts by converts. -/
theorem computes_iff (linked : Linked rt s) (skip : Pubkey → Bool)
    {places : List (Pubkey × Pubkey)} (heads : List Contribution)
    {computed : Except ProgramError Totals}
    (presents : Presents rt s prices user (s.countedMints user mains) mains places)
    (distinct : mains.Nodup) (skips : ∀ mint, skip (.position user mint) = true ↔ mint ∈ mains)
    (counted : List.Forall₂
      (fun mint e => mint ∈ s.countedMints user mains ∧ IsEntry s prices user mint e) mains heads)
    (computes : ∀ totals, computed = .ok totals ↔ ∃ listed,
      contributions rt ((flat places).map s.accountInfo) user skip s.clock = .ok listed ∧
        accumulateAll (heads ++ listed) .zero = .ok totals) (totals : Totals) :
    computed = .ok totals ↔ s.converts prices user mains ∧
      totals = s.heldTotals prices user (s.countedMints user mains) := by
  have agrees : Agrees s prices user (s.countedMints user mains) computed :=
    agrees_of_walk linked skip heads presents distinct skips counted computes
  constructor
  · intro ran
    refine ⟨?_, agrees.1 totals ran⟩
    obtain ⟨listed, walked, summed⟩ := (computes totals).mp ran
    have converts := accumulateAll_ok_iff.mp ⟨totals, summed⟩
    intro mint inside position found
    have entered : ∃ e ∈ heads ++ listed, e = storedEntry prices user mint position := by
      obtain ⟨position', found', counts⟩ := mem_countedMints.mp inside
      obtain rfl := Table.lookup_unique found found'
      by_cases main : mint ∈ mains
      · obtain ⟨e, member, _, held, stored, rfl⟩ := exists_image counted main
        obtain rfl := Table.lookup_unique found stored
        exact ⟨_, List.mem_append_left _ member, rfl⟩
      · have holds := counts.resolve_left main
        have once := presents.once mint inside main position found holds
        have present : .position user mint ∈ listedPositions (flat places) := by
          rw [listedPositions_flat]
          exact List.count_pos_iff.mp (by omega)
        have unskipped : skip (.position user mint) = false := by
          rw [← Bool.not_eq_true]
          exact fun skipped => main ((skips mint).mp skipped)
        obtain ⟨e, member, named⟩ := listed_counted walked found holds present unskipped
        obtain ⟨other, _, _, _, held, stored, rfl⟩ :=
          presents.listed_entry linked skips walked member
        obtain rfl : other = mint := (Pubkey.position.inj named).2
        obtain rfl := Table.lookup_unique found stored
        exact ⟨_, List.mem_append_right _ member, rfl⟩
    obtain ⟨e, member, rfl⟩ := entered
    have converting := converts _ member
    simpa only [storedEntry, Position.contribution] using converting
  · rintro ⟨converts, rfl⟩
    exact agrees.2 converts

end Ledger

theorem Quotes.unique {rt : Runtime} {s : State} {address : Pubkey} {feedId : FeedId}
    {price other : Price} (quotes : Quotes rt s address feedId price)
    (quotes' : Quotes rt s address feedId other) : price = other := by
  obtain ⟨update, loaded, priced⟩ := quotes_iff.mp quotes
  exact quotes'.price_eq loaded priced

section Lists

variable {client : Client} {node : Node} {rt : Runtime} {s t : State} {user : Pubkey}
variable {prices : FeedId → Price} {main : List String} {mains remaining : List Pubkey}

/-- The page has the feeds of the markets as they were opened with. -/
def FeedsAgree (client : Client) (s : State) : Prop :=
  ∀ m ∈ client.config.markets, ∀ market,
    s.markets.lookup m.mint = some market → market.feedId = m.feedHex

/-- The price accounts the page has found, as the program reads them in a ledger. -/
def StillQuotes (rt : Runtime) (client : Client) (node : Node) (prices : FeedId → Price)
    (s : State) : Prop :=
  ∀ m ∈ client.config.markets, ∀ address, node.resolvePriceUpdate m.feedHex = some address →
    Quotes rt s address m.feedHex (prices m.feedHex)

theorem StillQuotes.position {mint address : Pubkey} {m : MarketConfig}
    (quotes : StillQuotes rt client node prices s) (linked : Linked rt node.store)
    (feeds : FeedsAgree client node.store) (kept : KeepsWallet user node.store s)
    (member : m ∈ client.config.markets) (named : mint = m.mint)
    (resolved : node.resolvePriceUpdate m.feedHex = some address) {position : Position}
    (held : s.positions.lookup (user, mint) = some position) :
    Quotes rt s address position.feedId (prices position.feedId) := by
  obtain ⟨before, stored, wanes⟩ := kept.wanes mint position held
  rw [named] at stored
  obtain ⟨market, found⟩ := position_market linked stored
  rw [wanes.feedId, (stored_terms linked stored found).1, feeds m member market found]
  exact quotes m member address resolved

theorem crossAccounts_eq_flat (user : Pubkey) (places : List (MarketConfig × Pubkey)) :
    crossAccounts user places =
      flat (places.map fun place => (.position user place.1.mint, place.2)) := by
  rw [crossAccounts, flat, List.flatMap_map]

/-- The list of the page stands for everything its user has beside the main positions. -/
theorem Submits.presents (submitted : Submits client node user main remaining)
    (linked : Linked rt node.store) (configured : Configured client node.store user)
    (answered : Answered client node) (feeds : FeedsAgree client node.store)
    (quotes : StillQuotes rt client node prices s) (kept : KeepsWallet user node.store s)
    (named : ∀ m ∈ client.config.markets, m.mint ∈ mains ↔ m.id ∈ main)
    (supposed : Supposed rt user mains s t) :
    ∃ places, remaining = flat places ∧
      Presents rt t prices user (t.countedMints user mains) mains places ∧
      (flat places).map t.accountInfo = (flat places).map s.accountInfo := by
  have names := @submits_names _ _ _ _ _ submitted answered configured
  have once := submits_once submitted configured
  obtain ⟨places, rfl, markets, resolved⟩ := submits_list submitted
  rw [crossAccounts_eq_flat, listedPositions_flat] at names once
  -- What the page has listed may have been seized since; it is listed as empty then.
  have each (place : MarketConfig × Pubkey) (member : place ∈ places) :
      place.1.mint ∉ mains ∧ ∃ position,
        t.positions.lookup (user, place.1.mint) = some position ∧
        Quotes rt s place.2 position.feedId (prices position.feedId) := by
    have inside : place.1 ∈ places.map Prod.fst := List.mem_map_of_mem member
    rw [markets, List.mem_filter, othersHeld, List.mem_filter, decide_eq_true_eq] at inside
    obtain ⟨⟨configured, other, holds⟩, _⟩ := inside
    have elsewhere : place.1.mint ∉ mains := fun own => other ((named _ configured).mp own)
    rw [State.holdsIn, Option.any_eq_true] at holds
    obtain ⟨before, stored, _⟩ := holds
    have still := kept.stays place.1.mint (by rw [stored]; rfl)
    obtain ⟨position, found⟩ := Option.isSome_iff_exists.mp still
    exact ⟨elsewhere, position, (supposed.others _ elsewhere).trans found,
      quotes.position linked feeds kept configured rfl (resolved place member) found⟩
  refine ⟨_, crossAccounts_eq_flat user places, ⟨?_, ?_⟩, ?_⟩
  · intro place member
    obtain ⟨source, inside, rfl⟩ := List.mem_map.mp member
    obtain ⟨elsewhere, position, found, quote⟩ := each source inside
    refine Or.inr ⟨_, position, rfl, found, ?_⟩
    by_cases empty : position.isEmpty
    · exact Or.inl empty
    · exact Or.inr ⟨mem_countedMints.mpr ⟨position, found, .inr empty⟩, supposed.quotes quote⟩
  · intro mint _ elsewhere position found holds
    rw [supposed.others mint elsewhere] at found
    obtain ⟨before, stored, wanes⟩ := kept.wanes mint position found
    have present := names stored (holds ∘ wanes.empty) fun m member same own =>
      elsewhere (same ▸ (named m member).mpr own)
    have listed := List.count_pos_iff.mpr present
    have single := once (.position user mint)
    omega
  · apply List.map_congr_left
    intro address member
    obtain ⟨place, listed, here⟩ := List.mem_flatMap.mp member
    obtain ⟨source, inside, rfl⟩ := List.mem_map.mp listed
    obtain ⟨elsewhere, _, _, _, owned, _⟩ := each source inside
    obtain rfl | rfl : address = .position user source.1.mint ∨ address = source.2 := by
      simpa using here
    · exact supposed.positionInfo elsewhere
    · exact supposed.prices _ owned

end Lists

section Draws

variable {client : Client} {node : Node} {rt : Runtime} {s : State} {user : Signer}
variable {prices : FeedId → Price} {mint priceUpdate : Pubkey} {supplied borrowed : U64}

inductive State.DrawsTo (s : State) (key : Pubkey × Pubkey) (amount supplied borrowed : U64) :
    MarketActionKind → Prop
  | withdraw (taken : supplied.val + amount.val = s.deposited key)
      (owes : borrowed.val = s.owed key) : DrawsTo s key amount supplied borrowed .withdraw
  | borrow (unsupplied : s.deposited key = 0) (empty : supplied.val = 0)
      (grown : borrowed.val = s.owed key + amount.val)
      (room : s.totalBorrowed key.2 + amount.val < 2 ^ 64) :
      DrawsTo s key amount supplied borrowed .borrow

structure CanDraw (s : State) (prices : FeedId → Price) (user : Signer) (kind : MarketActionKind)
    (mint : Pubkey) (amount : U64) : Prop where
  opened : (s.positions.lookup (user.pubkey, mint)).isSome
  wallet : WalletUsable s user mint
  liquid : amount.val ≤ s.cash mint
  passes : ∃ supplied borrowed : U64,
    s.DrawsTo (user.pubkey, mint) amount supplied borrowed kind ∧
      (s.supposing (user.pubkey, mint) supplied borrowed).converts prices user.pubkey [mint] ∧
      (s.supposing (user.pubkey, mint) supplied borrowed).covered prices user.pubkey

theorem healthyAt_iff {places : List (Pubkey × Pubkey)} (linked : Linked rt s)
    (presents : Presents rt (s.supposing (user.pubkey, mint) supplied borrowed) prices user.pubkey
      ((s.supposing (user.pubkey, mint) supplied borrowed).countedMints user.pubkey [mint]) [mint]
      places)
    (infos : (flat places).map (s.supposing (user.pubkey, mint) supplied borrowed).accountInfo =
      (flat places).map s.accountInfo)
    (quotes : ∀ position, s.positions.lookup (user.pubkey, mint) = some position →
      Quotes rt s priceUpdate position.feedId (prices position.feedId)) :
    HealthyAt rt s user mint priceUpdate (flat places) supplied borrowed ↔
      (s.positions.lookup (user.pubkey, mint)).isSome ∧
      (s.supposing (user.pubkey, mint) supplied borrowed).converts prices user.pubkey [mint] ∧
      (s.supposing (user.pubkey, mint) supplied borrowed).covered prices user.pubkey := by
  have clock := (supposing_frame s (user.pubkey, mint) supplied borrowed).1
  rw [← heldTotals_covered [mint]]
  cases found : s.positions.lookup (user.pubkey, mint) with
  | none =>
      constructor
      · rintro ⟨position, _, _, held, _⟩
        rw [found] at held
        cases held
      · rintro ⟨opened, _⟩
        cases opened
  | some position =>
      have stored : (s.supposing (user.pubkey, mint) supplied borrowed).positions.lookup
          (user.pubkey, mint) =
          some { position with supplied := supplied, borrowed := borrowed } := by
        rw [supposing_of_lookup found]
        exact Finmap.lookup_insert _
      have inside := mem_countedMints.mpr ⟨_, stored, Or.inl (List.mem_singleton_self mint)⟩
      have computes (totals : Totals) : ownerTotals rt s user.pubkey mint
          { position with supplied := supplied, borrowed := borrowed } (prices position.feedId)
          (flat places) = .ok totals ↔
            (s.supposing (user.pubkey, mint) supplied borrowed).converts prices user.pubkey [mint] ∧
              totals = (s.supposing (user.pubkey, mint) supplied borrowed).heldTotals prices
                user.pubkey ((s.supposing (user.pubkey, mint) supplied borrowed).countedMints
                  user.pubkey [mint]) := by
        apply computes_iff linked.supposing (fun key => key = .position user.pubkey mint) [_]
          presents (List.nodup_singleton mint) (by simp) (.cons ⟨inside, _, stored, rfl⟩ .nil)
        intro totals
        simp only [ownerTotals, accumulateRemaining, bind_ok, walkRemaining_ok, List.cons_append,
          List.nil_append, accumulateAll_cons, infos, clock]
        constructor
        · rintro ⟨first, counted, listed, walked, summed⟩
          exact ⟨listed, walked, first, counted, summed⟩
        · rintro ⟨listed, walked, first, counted, summed⟩
          exact ⟨first, counted, listed, walked, summed⟩
      constructor
      · rintro ⟨held, price, totals, here, quote, ran, healthy⟩
        obtain rfl := Table.lookup_unique found here
        obtain rfl := quote.unique (quotes _ found)
        obtain ⟨converts, rfl⟩ := (computes totals).mp ran
        exact ⟨rfl, converts, healthy⟩
      · rintro ⟨_, converts, covered⟩
        exact ⟨position, _, _, found, quotes position found, (computes _).mpr ⟨converts, rfl⟩,
          covered⟩

/-- The page has priced and listed a draw so that its check is one over everything its
user has. -/
theorem page_healthyAt_iff (supplied borrowed : U64) (reached : Reachable rt node.store)
    (configured : Configured client node.store user.pubkey) (answered : Answered client node)
    (feeds : FeedsAgree client node.store)
    {method : MarketActionKind} {marketId : String} {uiAmount : List Char} {tx : ModifyTransaction}
    (draws : method = .borrow ∨ method = .withdraw)
    (sent : modifyPosition client node method marketId uiAmount = some tx)
    (signed : tx.user = user.pubkey) (later : Leads rt (Unsigned user) node.store s)
    (quotes : StillQuotes rt client node prices s) (priced : tx.priceUpdate = some priceUpdate) :
    HealthyAt rt s user tx.mint priceUpdate tx.remaining supplied borrowed ↔
      (s.positions.lookup (user.pubkey, tx.mint)).isSome ∧
      (s.supposing (user.pubkey, tx.mint) supplied borrowed).converts prices user.pubkey
        [tx.mint] ∧
      (s.supposing (user.pubkey, tx.mint) supplied borrowed).covered prices user.pubkey := by
  obtain ⟨cfg, found, names, _, connected, resolved⟩ := modifyPosition_names sent
  obtain ⟨member, identified⟩ := getMarketConfig_some found
  rw [signed] at connected
  have submitted : Submits client node user.pubkey [marketId] tx.remaining :=
    .modified connected draws sent
  have linked : Linked rt s := (reached.leads later).linked
  have kept := later.keepsWallet
  have named (m : MarketConfig) (inside : m ∈ client.config.markets) :
      m.mint ∈ [tx.mint] ↔ m.id ∈ [marketId] := by
    rw [List.mem_singleton, List.mem_singleton, names]
    constructor
    · intro same
      rw [List.inj_on_of_nodup_map configured.distinct inside member same, identified]
    · intro same
      rw [market_eq_of_id found inside same]
  obtain ⟨places, listed, presents, infos⟩ := submitted.presents reached.linked configured
    answered feeds quotes kept named (linked.supposed tx.mint supplied borrowed)
  rw [listed]
  apply healthyAt_iff linked presents infos
  intro position held
  exact quotes.position reached.linked feeds kept member names ((resolved draws).symm.trans priced)
    held

/-- Whether a draw the page has sent goes through, however late it is carried out, is a
matter of the vault, the wallet, the loan counter and the health of the whole ledger it
would leave. The list and the price account do not come into it. -/
theorem page_draw_succeeds_iff (reached : Reachable rt node.store)
    (configured : Configured client node.store user.pubkey) (answered : Answered client node)
    (feeds : FeedsAgree client node.store)
    {method : MarketActionKind} {marketId : String} {uiAmount : List Char} {tx : ModifyTransaction}
    (sent : modifyPosition client node method marketId uiAmount = some tx)
    (signed : tx.user = user.pubkey) (later : Leads rt (Unsigned user) node.store s)
    (quotes : StillQuotes rt client node prices s) {a : Action} (carries : tx.Carries user a)
    {amount : U64} (encoded : tx.amount = amount.val) :
    (∃ s', Step rt s a s') ↔ CanDraw s prices user method tx.mint amount := by
  have reached' := reached.leads later
  obtain ⟨_, _, _, kind, _⟩ := modifyPosition_names sent
  obtain ⟨_, _, _, _, positive, _⟩ := modifyPosition_ok sent
  have health (draws : method = .borrow ∨ method = .withdraw) {priceUpdate : Pubkey}
      (priced : tx.priceUpdate = some priceUpdate) (supplied borrowed : U64) :=
    page_healthyAt_iff supplied borrowed reached configured answered feeds draws sent signed later
      quotes priced
  have amounts {sent : U64} (same : tx.amount = sent.val) : sent = amount := by
    rw [encoded] at same
    exact Fin.ext (by exact_mod_cast same.symm)
  have nonzero : 0 < amount.val := by
    rw [encoded] at positive
    exact_mod_cast positive
  cases carries with
  | withdraw same priced encoded' =>
      obtain rfl := amounts encoded'
      obtain rfl : method = .withdraw := kind.symm.trans same
      constructor
      · rintro ⟨s', ran⟩
        obtain ⟨_, wallet, liquid, supplied, borrowed, taken, owes, healthy⟩ :=
          withdraw_needs reached'.linked ran
        obtain ⟨opened, converts, covered⟩ := (health (.inr rfl) priced _ _).mp healthy
        exact ⟨opened, wallet, liquid, supplied, borrowed, .withdraw taken owes, converts, covered⟩
      · rintro ⟨opened, wallet, liquid, supplied, borrowed, drawn, converts, covered⟩
        cases drawn with
        | withdraw taken owes =>
            have healthy := (health (.inr rfl) priced _ _).mpr ⟨opened, converts, covered⟩
            exact withdraw_exists reached'
              ⟨nonzero, wallet, liquid, supplied, borrowed, taken, owes, healthy⟩
  | borrow same priced encoded' =>
      obtain rfl := amounts encoded'
      obtain rfl : method = .borrow := kind.symm.trans same
      constructor
      · rintro ⟨s', ran⟩
        obtain ⟨_, wallet, liquid, room, unsupplied, borrowed, grown, healthy⟩ :=
          borrow_needs reached'.linked ran
        obtain ⟨opened, converts, covered⟩ := (health (.inl rfl) priced _ _).mp healthy
        exact ⟨opened, wallet, liquid, 0, borrowed, .borrow unsupplied rfl grown room, converts,
          covered⟩
      · rintro ⟨opened, wallet, liquid, supplied, borrowed, drawn, converts, covered⟩
        cases drawn with
        | borrow unsupplied empty grown room =>
            obtain rfl : supplied = 0 := Fin.ext empty
            have healthy := (health (.inl rfl) priced _ _).mpr ⟨opened, converts, covered⟩
            exact borrow_exists reached'
              ⟨nonzero, wallet, liquid, room, unsupplied, borrowed, grown, healthy⟩

end Draws

def State.restating (s : State) (key : Pubkey × Pubkey) : State :=
  match s.positions.lookup key with
  | some position => s.supposing key position.supplied (s.debtNow key position)
  | none => s

/-- The ledger a liquidation judges, with its two positions restated. -/
def State.judged (s : State) (accounts : LiquidateAccounts) : State :=
  (s.restating (accounts.borrower, accounts.debtMint)).restating
    (accounts.borrower, accounts.collateralMint)

section Restated

variable {rt : Runtime} {s t u : State} {user mint : Pubkey} {mains mains' : List Pubkey}
variable {key : Pubkey × Pubkey} {position : Position}

theorem Supposed.refl (linked : Linked rt s) : Supposed rt user mains s s :=
  ⟨linked, rfl, fun _ _ => rfl, fun _ _ => rfl⟩

theorem Supposed.trans (first : Supposed rt user mains s t) (second : Supposed rt user mains' t u) :
    Supposed rt user (mains ++ mains') s u where
  linked := second.linked
  clock := second.clock.trans first.clock
  others := by
    intro mint elsewhere
    rw [List.mem_append, not_or] at elsewhere
    exact (second.others mint elsewhere.2).trans (first.others mint elsewhere.1)
  prices := by
    intro address owned
    have same := first.prices address owned
    exact (second.prices address (same ▸ owned)).trans same

theorem Linked.restates (linked : Linked rt s) (user mint : Pubkey) :
    Supposed rt user [mint] s (s.restating (user, mint)) := by
  unfold State.restating
  split
  · exact linked.supposed mint _ _
  · exact .refl linked

theorem restating_lookup (found : s.positions.lookup key = some position) :
    (s.restating key).positions.lookup key =
      some { position with borrowed := s.debtNow key position } := by
  rw [State.restating, found]
  simp only [supposing_of_lookup found]
  exact Finmap.lookup_insert _

theorem restating_lookup_other {other : Pubkey × Pubkey} (distinct : other ≠ key) :
    (s.restating key).positions.lookup other = s.positions.lookup other := by
  unfold State.restating
  split
  · exact supposing_lookup_other distinct
  · rfl

theorem restating_debtNow (other : Pubkey × Pubkey) (position : Position) :
    (s.restating key).debtNow other position = s.debtNow other position := by
  unfold State.restating
  split
  · exact supposing_debtNow other position
  · rfl

theorem judged_supposed (linked : Linked rt s) (accounts : LiquidateAccounts) :
    Supposed rt accounts.borrower [accounts.debtMint, accounts.collateralMint] s
      (s.judged accounts) := by
  have first := linked.restates accounts.borrower accounts.debtMint
  exact first.trans (first.linked.restates accounts.borrower accounts.collateralMint)

theorem judged_lookup {accounts : LiquidateAccounts}
    (distinct : accounts.debtMint ≠ accounts.collateralMint)
    (main : mint ∈ [accounts.debtMint, accounts.collateralMint])
    (found : s.positions.lookup (accounts.borrower, mint) = some position) :
    (s.judged accounts).positions.lookup (accounts.borrower, mint) =
      some { position with borrowed := s.debtNow (accounts.borrower, mint) position } := by
  have apart : (accounts.borrower, accounts.collateralMint) ≠
      (accounts.borrower, accounts.debtMint) := fun same => distinct (Prod.mk.inj same).2.symm
  obtain rfl | rfl : mint = accounts.debtMint ∨ mint = accounts.collateralMint := by simpa using main
  · rw [State.judged, restating_lookup_other apart.symm, restating_lookup found]
  · rw [← restating_lookup_other apart] at found
    rw [State.judged, restating_lookup found, restating_debtNow]

end Restated

section Liquidations

variable {client : Client} {node : Node} {rt : Runtime} {s : State} {borrower : Signer}
variable {prices : FeedId → Price} {accounts : LiquidateAccounts} {repayAmount : U64}

theorem Side.counted {user mint priceUpdate : Pubkey} (side : Side rt s user mint priceUpdate)
    (priced : side.price = prices side.position.feedId) (totals : Totals) :
    accumulatePosition side.accrued.supplied side.accrued.borrowed side.price side.accrued.decimals
        side.accrued.maxLtvBps totals =
      (storedEntry prices user mint { side.position with
        borrowed := s.debtNow (user, mint) side.position }).accumulate totals := by
  rw [debtNow_of_lookup side.stored.market, priced]
  simp only [Side.accrued, accruePosition_supplied, accruePosition_decimals,
    accruePosition_maxLtvBps]
  rfl

theorem liquidationTotals_iff {places : List (Pubkey × Pubkey)} (linked : Linked rt s)
    (distinct : accounts.debtMint ≠ accounts.collateralMint)
    (presents : Presents rt (s.judged accounts) prices accounts.borrower
      ((s.judged accounts).countedMints accounts.borrower
        [accounts.debtMint, accounts.collateralMint])
      [accounts.debtMint, accounts.collateralMint] places)
    (infos : (flat places).map (s.judged accounts).accountInfo =
      (flat places).map s.accountInfo)
    (debt : DebtSide rt s accounts) (collateral : CollateralSide rt s accounts)
    (debtPriced : debt.price = prices debt.position.feedId)
    (priced : collateral.price = prices collateral.position.feedId) :
    (∃ totals, liquidationTotals rt s accounts debt.accrued debt.price collateral.accrued
        collateral.price (flat places) = .ok totals ∧ totals.collatAtLtv.val < totals.debt.val) ↔
      (s.judged accounts).converts prices accounts.borrower
          [accounts.debtMint, accounts.collateralMint] ∧
        ¬ (s.judged accounts).covered prices accounts.borrower := by
  have supposed := judged_supposed linked accounts
  have debtStored := judged_lookup distinct (by simp) debt.stored.position
  have stored := judged_lookup distinct (by simp) collateral.stored.position
  have debtInside : accounts.debtMint ∈ (s.judged accounts).countedMints accounts.borrower
      [accounts.debtMint, accounts.collateralMint] :=
    mem_countedMints.mpr ⟨_, debtStored, .inl (by simp)⟩
  have inside : accounts.collateralMint ∈ (s.judged accounts).countedMints accounts.borrower
      [accounts.debtMint, accounts.collateralMint] :=
    mem_countedMints.mpr ⟨_, stored, .inl (by simp)⟩
  have computes (totals : Totals) : liquidationTotals rt s accounts debt.accrued debt.price
      collateral.accrued collateral.price (flat places) = .ok totals ↔
        (s.judged accounts).converts prices accounts.borrower
            [accounts.debtMint, accounts.collateralMint] ∧
          totals = (s.judged accounts).heldTotals prices accounts.borrower
            ((s.judged accounts).countedMints accounts.borrower
              [accounts.debtMint, accounts.collateralMint]) := by
    apply computes_iff supposed.linked (fun key => accounts.skipKeys.any (· = key)) [_, _]
      presents (by simpa using distinct) ?_
      (.cons ⟨debtInside, _, debtStored, rfl⟩ (.cons ⟨inside, _, stored, rfl⟩ .nil))
    · intro totals
      simp only [liquidationTotals, accumulateRemainingSkip, bind_ok, walkRemaining_ok,
        List.cons_append, List.nil_append, accumulateAll_cons, infos, supposed.clock,
        debt.counted debtPriced, collateral.counted priced]
      constructor
      · rintro ⟨first, counted, second, next, listed, walked, summed⟩
        exact ⟨listed, walked, first, counted, second, next, summed⟩
      · rintro ⟨listed, walked, first, counted, second, next, summed⟩
        exact ⟨first, counted, second, next, listed, walked, summed⟩
    · intro mint
      simp only [LiquidateAccounts.skipKeys, List.any_cons, List.any_nil, Bool.or_false,
        Bool.or_eq_true, decide_eq_true_eq, Pubkey.position.injEq, true_and, List.mem_cons,
        List.not_mem_nil, or_false]
      exact or_congr eq_comm eq_comm
  rw [← heldTotals_covered [accounts.debtMint, accounts.collateralMint], not_le]
  constructor
  · rintro ⟨totals, ran, unhealthy⟩
    obtain ⟨converts, rfl⟩ := (computes totals).mp ran
    exact ⟨converts, unhealthy⟩
  · rintro ⟨converts, short⟩
    exact ⟨_, (computes _).mpr ⟨converts, rfl⟩, short⟩

/-- The borrower falls short in the ledger judged, and what the repayment seizes can be
paid for and paid out. -/
structure CanSeize (s : State) (prices : FeedId → Price) (accounts : LiquidateAccounts)
    (repayAmount : U64) : Prop where
  ready : LiquidatorReady s accounts
  converts : (s.judged accounts).converts prices accounts.borrower
    [accounts.debtMint, accounts.collateralMint]
  short : ¬ (s.judged accounts).covered prices accounts.borrower
  pays : ∃ debt collateral repaid seize,
    s.positions.lookup (accounts.borrower, accounts.debtMint) = some debt ∧
    s.positions.lookup (accounts.borrower, accounts.collateralMint) = some collateral ∧
    repaid = repayAmount.least (s.debtNow (accounts.borrower, accounts.debtMint) debt) ∧
    seizeAmount repaid (prices debt.feedId) (prices collateral.feedId) mintDecimals mintDecimals
      collateral.supplied = .ok seize ∧
    0 < seize.val ∧ seize.val ≤ s.cash accounts.collateralMint ∧
    repaid.val ≤ s.tokens.amountAt accounts.liquidatorDebtAta

theorem quotes_side (linked : Linked rt s) {user mint priceUpdate : Pubkey} {position : Position}
    (held : s.positions.lookup (user, mint) = some position)
    (quote : Quotes rt s priceUpdate position.feedId (prices position.feedId)) :
    ∃ side : Side rt s user mint priceUpdate,
      side.position = position ∧ side.price = prices position.feedId := by
  obtain ⟨market, found⟩ := position_market linked held
  rw [(stored_terms linked held found).1] at quote ⊢
  exact ⟨⟨market, position, _, ⟨found, held⟩, quote⟩, rfl, rfl⟩

theorem Side.price_eq (linked : Linked rt s) {user mint priceUpdate : Pubkey}
    (side : Side rt s user mint priceUpdate)
    (quote : Quotes rt s priceUpdate side.position.feedId (prices side.position.feedId)) :
    side.price = prices side.position.feedId := by
  have quoted := side.quoted
  rw [← (stored_terms linked side.stored.position side.stored.market).1] at quoted
  exact quoted.unique quote

/-- Whether a liquidation the page has sent goes through, however late it is carried out,
is a matter of the health of the whole ledger and of what the repayment seizes. -/
theorem page_liquidation_succeeds_iff (reached : Reachable rt node.store)
    (configured : Configured client node.store borrower.pubkey) (answered : Answered client node)
    (feeds : FeedsAgree client node.store)
    {debtMarketId collateralMarketId : String} (markets : debtMarketId ≠ collateralMarketId)
    {uiRepayAmount : List Char} {tx : LiquidateTransaction}
    (sent : sendLiquidate client node borrower.pubkey debtMarketId collateralMarketId
      uiRepayAmount = some tx)
    (later : Leads rt (Unsigned borrower) node.store s)
    (quotes : StillQuotes rt client node prices s) (carries : tx.Carries accounts) :
    (∃ s', liquidate rt s accounts tx.remaining repayAmount = .ok s') ↔
      CanSeize s prices accounts repayAmount := by
  obtain ⟨debt, collat, found, found', names, debtMarket, collateralMarket, debtFeed, collatFeed⟩ :=
    sendLiquidate_names sent
  obtain ⟨member, identified⟩ := getMarketConfig_some found
  obtain ⟨member', identified'⟩ := getMarketConfig_some found'
  have who : accounts.borrower = borrower.pubkey := carries.borrower.symm.trans names
  have debtMint : accounts.debtMint = debt.mint :=
    Pubkey.market.inj (carries.debtMarket.symm.trans debtMarket)
  have collateralMint : accounts.collateralMint = collat.mint :=
    Pubkey.market.inj (carries.collateralMarket.symm.trans collateralMarket)
  rw [carries.debtPriceUpdate] at debtFeed
  rw [carries.collateralPriceUpdate] at collatFeed
  have submitted : Submits client node borrower.pubkey [debtMarketId, collateralMarketId]
      tx.remaining := .liquidated sent
  have reached' := reached.leads later
  have linked : Linked rt s := reached'.linked
  have kept := later.keepsWallet
  rw [← who] at configured submitted kept
  have one {m m' : MarketConfig} (inside : m ∈ client.config.markets)
      (inside' : m' ∈ client.config.markets) : m.mint = m'.mint ↔ m.id = m'.id :=
    ⟨fun same => by rw [List.inj_on_of_nodup_map configured.distinct inside inside' same],
      fun same => by rw [List.inj_on_of_nodup_map client.config.distinct inside inside' same]⟩
  have distinct : accounts.debtMint ≠ accounts.collateralMint := by
    rw [debtMint, collateralMint, ne_eq, one member member', identified, identified']
    exact markets
  have named (m : MarketConfig) (inside : m ∈ client.config.markets) :
      m.mint ∈ [accounts.debtMint, accounts.collateralMint] ↔
        m.id ∈ [debtMarketId, collateralMarketId] := by
    simp only [List.mem_cons, List.not_mem_nil, or_false, debtMint, collateralMint,
      one inside member, one inside member', identified, identified']
  obtain ⟨places, listed, presents, infos⟩ := submitted.presents reached.linked configured
    answered feeds quotes kept named (judged_supposed linked accounts)
  have debtQuote {position : Position}
      (held : s.positions.lookup (accounts.borrower, accounts.debtMint) = some position) :=
    quotes.position reached.linked feeds kept member debtMint debtFeed held
  have quote {position : Position}
      (held : s.positions.lookup (accounts.borrower, accounts.collateralMint) = some position) :=
    quotes.position reached.linked feeds kept member' collateralMint collatFeed held
  rw [listed]
  constructor
  · rintro ⟨s', ran⟩
    obtain ⟨run⟩ := liquidate_ok ran
    obtain ⟨debt, collateral, can, _⟩ := run.foreclosable linked
    obtain ⟨short, seizes, something, liquid, funded⟩ := can
    have debtPriced := debt.price_eq linked (debtQuote debt.stored.position)
    have priced := collateral.price_eq linked (quote collateral.stored.position)
    rw [liquidationTotals_iff linked distinct presents infos debt collateral debtPriced priced]
      at short
    rw [debtPriced, priced] at seizes
    exact ⟨run.ready, short.1, short.2, _, _, _, _, debt.stored.position,
      collateral.stored.position, rfl, seizes, something, liquid, funded⟩
  · rintro ⟨ready, converts, short, debtHeld, held, repaid, seize, debtFound, found, rfl, seizes,
      something, liquid, funded⟩
    obtain ⟨debt, rfl, debtPriced⟩ := quotes_side linked debtFound (debtQuote debtFound)
    obtain ⟨collateral, rfl, priced⟩ := quotes_side linked found (quote found)
    rw [← debtPriced, ← priced] at seizes
    have totals := (liquidationTotals_iff linked distinct presents infos debt collateral debtPriced
      priced).mpr ⟨converts, short⟩
    have can : Foreclosable debt collateral (flat places) repayAmount seize :=
      ⟨totals, seizes, something, liquid, funded⟩
    obtain ⟨s', ran, _⟩ := can.liquidates reached' ready
    exact ⟨s', ran⟩

end Liquidations

theorem feedsAgree_of_known {client : Client} {s : State}
    (known : ∀ mint market, s.markets.lookup mint = some market →
      ∀ m ∈ client.config.markets, m.mint = mint → market.feedId = m.feedHex) :
    FeedsAgree client s :=
  fun m member market found => known m.mint market found m member rfl

theorem stillQuotes_of_read {rt : Runtime} {client : Client} {node : Node}
    {prices : FeedId → Price} {s : State}
    (computed : ∀ m ∈ client.config.markets, ∀ address ∈ node.resolvePriceUpdate m.feedHex,
      ((s.accountInfo address).data.asPriceUpdate.any fun update =>
        (s.accountInfo address).owner = .pythReceiver ∧
          rt.getPriceNoOlderThan update s.clock maxPriceAgeSec m.feedHex =
            some (prices m.feedHex)) = true) : StillQuotes rt client node prices s :=
  fun m member address resolved => quotes_of_read (computed m member address resolved)

theorem page_draw_succeeds_iff_alice :
    (∃ tx, modifyPosition page askingNode .borrow "btc" "0.05".toList = some tx ∧
      CanDraw arrived (quoted 10000000000) alice .borrow tx.mint 50000000) ∧
    ∃ tx, modifyPosition page askingNode .borrow "btc" "0.1".toList = some tx ∧
      ¬ CanDraw arrived (quoted 10000000000) alice .borrow tx.mint 100000000 := by
  have feeds : FeedsAgree page askingNode.store :=
    feedsAgree_of_known (by decide +kernel)
  have quotes : StillQuotes devnet page askingNode (quoted 10000000000) arrived :=
    stillQuotes_of_read (by decide +kernel)
  constructor
  · have lent : ∃ s', Step devnet arrived (.borrow alice btc.pubkey btcPrice bothListed 50000000)
        s' ∧ s'.bookedDebt (quoted 10000000000) alice.pubkey = 650000000000 :=
      ok_where (by decide +kernel)
    obtain ⟨tx, sent, signed, encoded, mint, remaining, carries⟩ :=
      asking_sends "0.05".toList 50000000 (by decide +kernel)
    rw [← mint, ← remaining] at lent
    obtain ⟨s', ran, _⟩ := lent
    exact ⟨tx, sent, (page_draw_succeeds_iff askingNode_reachable asking_configured
      (fun _ _ => rfl) feeds sent signed asking_later quotes carries encoded).mp ⟨s', ran⟩⟩
  · have refused : ¬ ∃ s', Step devnet arrived
        (.borrow alice btc.pubkey btcPrice bothListed 100000000) s' :=
      not_ok_of_refused (by decide +kernel)
    obtain ⟨tx, sent, signed, encoded, mint, remaining, carries⟩ :=
      asking_sends "0.1".toList 100000000 (by decide +kernel)
    rw [← mint, ← remaining] at refused
    refine ⟨tx, sent, fun can => refused ?_⟩
    exact (page_draw_succeeds_iff askingNode_reachable asking_configured (fun _ _ => rfl) feeds
      sent signed asking_later quotes carries encoded).mpr can

theorem page_liquidation_succeeds_iff_bob :
    ∃ tx, sendLiquidate watching watched alice.pubkey "usdc" "sol" "1000".toList = some tx ∧
      CanSeize (diversified 5000000000) (quoted 5000000000) (bobSeizes sol solPrice)
        1000000000000 := by
  have feeds : FeedsAgree watching watched.store :=
    feedsAgree_of_known (by decide +kernel)
  have quotes : StillQuotes devnet watching watched (quoted 5000000000) (diversified 5000000000) :=
    stillQuotes_of_read (by decide +kernel)
  obtain ⟨tx, s', sent, carries, ran⟩ := watching_sends
  exact ⟨tx, sent, (page_liquidation_succeeds_iff watched_reachable watching_configured
    (fun _ _ => rfl) feeds (by decide) sent watching_later quotes carries).mp ⟨s', ran⟩⟩

end ShadowLend
