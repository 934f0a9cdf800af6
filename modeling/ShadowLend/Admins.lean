import ShadowLend.Devnet
import ShadowLend.Listing

/-! Whose markets a health check counts. The walk asks which program owns a listed
position and whose it is, and never who set its market up. -/

namespace ShadowLend

open Outcome Devnet

/-- A market is only created by whoever set up all the others. -/
def SoleAdmin (s : State) (a : Action) : Prop :=
  match a with
  | .initializeMarket admin _ _ _ _ _ =>
      ∀ mint ∈ s.markets.keys, (s.marketTerms mint).map MarketTerms.admin = some admin.pubkey
  | _ => True

instance (s : State) (a : Action) : Decidable (SoleAdmin s a) := by
  unfold SoleAdmin
  split <;> infer_instance

def OneAdmin (s : State) : Prop :=
  ∀ mint other terms terms', s.marketTerms mint = some terms → s.marketTerms other = some terms' →
    terms.admin = terms'.admin

section Steps

variable {rt : Runtime} {s s' : State}

theorem ReachableBy.oneAdmin (reached : ReachableBy rt SoleAdmin s) : OneAdmin s := by
  apply reached.invariant
  · rintro _ rfl mint other terms terms' found
    simp [State.marketTerms, State.empty] at found
  · intro s a s' one guarded step mint other terms terms' found found'
    rcases step_marketTerms step with ⟨_, same⟩ | ⟨admin, created, _, _, _, _, new, rfl, _, shape,
      _, _, written⟩
    · rw [same] at found found'
      exact one mint other terms terms' found found'
    · have admins (key : Pubkey) (held : MarketTerms) (present : s'.marketTerms key = some held) :
          held.admin = admin.pubkey := by
        rw [written] at present
        by_cases here : key = created.pubkey
        · subst key
          rw [Function.update_self, Option.some.injEq] at present
          rw [← present, shape]
        · rw [Function.update_of_ne here] at present
          have member : key ∈ s.markets.keys := by
            rcases marketTerms_some present with ⟨market, stored, _⟩
            exact Finmap.mem_keys.mpr (Finmap.lookup_isSome.mp (by rw [stored]; rfl))
          have recorded := guarded key member
          rw [present] at recorded
          exact Option.some.inj recorded
      rw [admins mint terms found, admins other terms' found']

/-- In runs where one wallet creates all markets, a check counts positions in that
wallet's markets only. -/
theorem counted_admins (reached : ReachableBy rt SoleAdmin s) {a : Action}
    {kind : MarketActionKind} {user : Signer} {mint : Pubkey}
    (acts : a.touch = some (kind, user, mint)) (checked : kind = .withdraw ∨ kind = .borrow)
    (step : Step rt s a s') :
    ∃ log totals market, a.counted rt s = .ok log ∧ accumulateAll log .zero = .ok totals ∧
      a.passes totals ∧ s.markets.lookup mint = some market ∧
      ∀ e ∈ log, ∃ owner other position counted, e.account = .position owner other ∧
        s.positions.lookup (owner, other) = some position ∧ position.market = .market other ∧
        s.markets.lookup other = some counted ∧ counted.admin = market.admin := by
  have linked := Reachable.linked (ReachableBy.reachable reached)
  have one := ReachableBy.oneAdmin reached
  rcases owner_check acts checked step with ⟨_, _, ⟨check⟩⟩
  rcases check.accrued.ofMarket with ⟨market, found, _⟩
  rcases step_counted step with ⟨log, totals, counted, summed, passes⟩
  refine ⟨log, totals, market, counted, summed, passes, found, ?_⟩
  rcases counted_shape counted with ⟨_, mains, listed, rfl, shape, walked⟩
  have stored : ∀ e ∈ mains ++ listed, ∃ owner other position, e.account = .position owner other ∧
      s.positions.lookup (owner, other) = some position := by
    intro e member
    rcases List.mem_append.mp member with member | member
    · rcases exists_source shape member with ⟨key, _, named, position, _, held, _⟩
      exact ⟨key.1, key.2, position, named, held⟩
    · rcases listed_entry walked member with ⟨_, _, owner, other, position, _, named, held, _⟩
      exact ⟨owner, other, position, named, held⟩
  intro e member
  rcases stored e member with ⟨owner, other, position, named, held⟩
  rcases linked.position _ _ _ (positionTerms_of_lookup held) with ⟨_, opening, present, terms⟩
  rcases marketTerms_some present with ⟨counted, found', rfl⟩
  exact ⟨owner, other, position, counted, named, held, congrArg PositionTerms.market terms, found',
    one _ _ _ _ present (marketTerms_of_lookup found)⟩

end Steps

theorem counted_admins_borrow :
    ∃ s' log totals market, Step devnet (replay devnet SoleAdmin .empty lenders)
        (borrowUsdc 8000000000000) s' ∧
      (borrowUsdc 8000000000000).counted devnet (replay devnet SoleAdmin .empty lenders) =
        .ok log ∧
      accumulateAll log .zero = .ok totals ∧ (borrowUsdc 8000000000000).passes totals ∧
      (replay devnet SoleAdmin .empty lenders).markets.lookup usdc.pubkey = some market ∧
      ∀ e ∈ log, ∃ owner other position counted, e.account = .position owner other ∧
        (replay devnet SoleAdmin .empty lenders).positions.lookup (owner, other) =
          some position ∧
        position.market = .market other ∧
        (replay devnet SoleAdmin .empty lenders).markets.lookup other = some counted ∧
        counted.admin = market.admin := by
  have ran : ∃ s', Step devnet (replay devnet SoleAdmin .empty lenders)
      (borrowUsdc 8000000000000) s' ∧ s'.userDebt (quoted 10000000000) alice.pubkey =
        800000000000 := ok_where (by decide +kernel)
  rcases ran with ⟨s', ran, _⟩
  obtain ⟨log, totals, market, checked⟩ :=
    counted_admins (replay_reaches (.start rfl) lenders) rfl (Or.inr rfl) ran
  exact ⟨s', log, totals, market, ran, checked⟩

def fake : Signer := ⟨103⟩

/-- Mallory's own market pays her 1000 coins, takes them at 99.99% and prices each as one SOL. -/
def counterfeit : State :=
  ledger (lenders ++
    [.initializeMarket mallory fake 1000000000000 9999 solFeed 0,
      .claimFaucet mallory fake.pubkey, .supply mallory fake.pubkey 1000000000000] ++
    openPosition mallory usdc usdcPrice)

def borrowOnFake : Action :=
  .borrow mallory usdc.pubkey usdcPrice (listed mallory fake solPrice) 8000000000000

/-- Mallory borrows 8000 USDC of the admin's vault on the coins she issued. -/
theorem foreign_market_counted :
    ∃ s' log e market other, Reachable devnet counterfeit ∧
      Step devnet counterfeit borrowOnFake s' ∧
      borrowOnFake.counted devnet counterfeit = .ok log ∧ e ∈ log ∧
      e.account = .position mallory.pubkey fake.pubkey ∧ 0 < e.supplied.val ∧
      s'.userDebt (quoted 10000000000) mallory.pubkey = 800000000000 ∧
      counterfeit.markets.lookup usdc.pubkey = some market ∧
      counterfeit.markets.lookup fake.pubkey = some other ∧ other.admin ≠ market.admin := by
  have ran : ∃ s', Step devnet counterfeit borrowOnFake s' ∧
      s'.userDebt (quoted 10000000000) mallory.pubkey = 800000000000 :=
    ok_where (by decide +kernel)
  have counted : ∃ log, borrowOnFake.counted devnet counterfeit = .ok log ∧
      ∃ e ∈ log, e.account = .position mallory.pubkey fake.pubkey ∧ 0 < e.supplied.val :=
    ok_where (by decide +kernel)
  have lends : ∃ market, counterfeit.markets.lookup usdc.pubkey = some market ∧
      market.admin = admin.pubkey := some_where (by decide +kernel)
  have issues : ∃ other, counterfeit.markets.lookup fake.pubkey = some other ∧
      other.admin = mallory.pubkey := some_where (by decide +kernel)
  rcases ran with ⟨s', ran, owes⟩
  rcases counted with ⟨log, counted, e, member, named, supplied⟩
  rcases lends with ⟨market, found, hers⟩
  rcases issues with ⟨other, found', mallorys⟩
  refine ⟨s', log, e, market, other, ledger_reachable _, ran, counted, member, named, supplied,
    owes, found, found', ?_⟩
  rw [hers, mallorys]
  decide

end ShadowLend
