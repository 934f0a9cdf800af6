import ShadowLend.Journal

/-! The counters of a user against the log: each counts the recorded actions of its
kind, so none of the four can overflow before the total does. -/

namespace ShadowLend

open Outcome Devnet

def Tally.count (t : Tally) : ActionKind → ℕ
  | .supply => t.supplies
  | .borrow => t.borrows
  | .repay => t.repays
  | .liquidation => t.liquidations

def Event.records (user : Pubkey) (kind : ActionKind) : Event → Bool
  | .actionRecorded who what _ _ => who = user ∧ what = kind
  | _ => false

def StatsNamed (rt : Runtime) (s : State) : Prop :=
  ∀ user stats, s.stats.lookup user = some stats →
    stats.user = user ∧ stats.bump = rt.findBump (.stats user)

section Counts

theorem record_count (t : Tally) (kind other : ActionKind) (healthBps : U16) (at_ : Int64) :
    (t.record kind healthBps at_).count other = t.count other + if kind = other then 1 else 0 := by
  cases other <;> rfl

theorem play_count (m : Mirror) (event : Event) (user : Pubkey) (kind : ActionKind) :
    ((m.play event).tallies user).count kind =
      (m.tallies user).count kind + if event.records user kind then 1 else 0 := by
  cases event with
  | actionRecorded who what healthBps at_ =>
      by_cases mine : who = user
      · subst who
        simp [Mirror.play, Event.records, record_count]
      · simp [Mirror.play, Event.records, mine, Function.update_of_ne (Ne.symm mine)]
  | _ => simp [Mirror.play, Event.records]

theorem replay_count (events : List Event) (m : Mirror) (user : Pubkey) (kind : ActionKind) :
    ((events.foldl Mirror.play m).tallies user).count kind =
      (m.tallies user).count kind + events.countP (Event.records user kind) := by
  induction events generalizing m with
  | nil => simp
  | cons event rest ih =>
      rw [List.foldl_cons, ih, play_count, List.countP_cons]
      omega

def Tally.Adds (t : Tally) : Prop := t.proofs = t.supplies + t.borrows + t.repays + t.liquidations

theorem record_adds {t : Tally} (adds : t.Adds) (kind : ActionKind) (healthBps : U16)
    (at_ : Int64) : (t.record kind healthBps at_).Adds := by
  unfold Tally.Adds at *
  cases kind <;> simp [Tally.record, adds] <;> omega

theorem replay_adds (events : List Event) {m : Mirror} (adds : ∀ user, (m.tallies user).Adds)
    (user : Pubkey) : ((events.foldl Mirror.play m).tallies user).Adds := by
  induction events generalizing m with
  | nil => exact adds user
  | cons event rest ih =>
      apply ih
      intro other
      cases event with
      | actionRecorded who kind healthBps at_ =>
          simp only [Mirror.play, Function.update_apply]
          split
          · exact record_adds (adds who) kind healthBps at_
          · exact adds other
      | _ => exact adds other

end Counts

section Laws

variable {rt : Runtime} {s : State} {user : Pubkey} {stats : UserStats}

theorem tally_of_lookup (found : s.stats.lookup user = some stats) : s.tally user = stats.tally := by
  rw [State.tally, found]
  rfl

theorem Reachable.told (reached : Reachable rt s) (found : s.stats.lookup user = some stats) :
    (s.events.foldl Mirror.play .empty).tallies user = stats.tally := by
  rw [reached.mirrored.tallies user, tally_of_lookup found]

theorem Reachable.tally_adds (reached : Reachable rt s)
    (found : s.stats.lookup user = some stats) : stats.tally.Adds := by
  rw [← reached.told found]
  exact replay_adds s.events (m := .empty) (fun _ => rfl) user

/-- Each counter is the number of logged actions of its kind, and the total their sum. -/
theorem counters_add_up (reached : Reachable rt s) (found : s.stats.lookup user = some stats) :
    stats.proofsSubmitted.val = stats.supplies.val + stats.borrows.val + stats.repays.val +
        stats.liquidations.val ∧
      ∀ kind, stats.tally.count kind = s.events.countP (Event.records user kind) := by
  refine ⟨reached.tally_adds found, ?_⟩
  intro kind
  rw [← reached.told found, replay_count]
  cases kind <;> exact Nat.zero_add _

theorem increment_ok {counter more : U64} :
    increment counter = .ok more ↔ more.val = counter.val + 1 := by
  rw [increment, okOr_ok, Uint.checkedAdd_eq_some]
  rfl

/-- A step writes one user's stats, under that user's address, or none. -/
theorem step_stats {s' : State} {a : Action} (step : Step rt s a s') :
    s'.stats = s.stats ∨ ∃ (signer : Signer) (written : UserStats),
      s'.stats = s.stats.insert signer.pubkey written ∧ written.user = signer.pubkey ∧
        written.bump = rt.findBump (.stats signer.pubkey) := by
  cases step_writes step with
  | counted signer stats events _ named bump result =>
      exact Or.inr ⟨signer, stats, congrArg State.stats result, named, bump⟩
  | opened _ _ _ _ _ _ _ run =>
      rw [run.result]
      exact Or.inl rfl
  | decreed _ _ _ _ _ _ result =>
      subst result
      exact Or.inl rfl
  | claimed _ _ _ run =>
      rw [run.result]
      exact Or.inl rfl
  | moved _ _ _ _ move =>
      rw [move.result]
      exact Or.inl rfl
  | liquidated _ _ _ _ run =>
      rw [run.result]
      exact Or.inl rfl
  | held _ _ _ ran =>
      obtain ⟨_, _, rfl⟩ := holderInstruction_frame ran
      exact Or.inl rfl
  | passed _ _ _ _ result =>
      subst result
      exact Or.inl rfl

theorem Reachable.statsNamed (reached : Reachable rt s) : StatsNamed rt s := by
  apply reached.invariant
  · rintro _ rfl user stats found
    simp [State.empty] at found
  · intro s a s' named _ step user stats found
    obtain same | ⟨signer, written, same, mine, bump⟩ := step_stats step
    · exact named user stats (same ▸ found)
    · rw [same] at found
      by_cases here : user = signer.pubkey
      · rw [here, Finmap.lookup_insert, Option.some.injEq] at found
        rw [here, ← found]
        exact ⟨mine, bump⟩
      · rw [Finmap.lookup_insert_of_ne _ here] at found
        exact named user stats found

/-- An action can be recorded as long as the user has stats and the total has room: no
other check of `record_action` ever refuses. -/
theorem record_action_succeeds_iff (reached : Reachable rt s) {signer : Signer} {kind : ActionKind}
    {healthBps : U16} :
    (∃ s', recordAction rt s signer kind healthBps = .ok s') ↔
      ∃ stats, s.stats.lookup signer.pubkey = some stats ∧
        stats.proofsSubmitted.val + 1 < 2 ^ 64 := by
  constructor
  · rintro ⟨s', ran⟩
    simp only [recordAction, bind_ok, okOr_ok, require_ok, pure_ok] at ran
    obtain ⟨stats, found, _, _, _, _, proofs, grown, _⟩ := ran
    rw [increment_ok] at grown
    exact ⟨stats, found, grown ▸ proofs.isLt⟩
  · rintro ⟨stats, found, room⟩
    obtain ⟨mine, bump⟩ := reached.statsNamed _ _ found
    have total : stats.proofsSubmitted.val = stats.supplies.val + stats.borrows.val +
        stats.repays.val + stats.liquidations.val := reached.tally_adds found
    have counts (counter : U64) (part : counter.val ≤ stats.proofsSubmitted.val) :
        ∃ more, increment counter = .ok more :=
      ⟨⟨counter.val + 1, by omega⟩, increment_ok.mpr rfl⟩
    obtain ⟨proofs, grown⟩ := counts stats.proofsSubmitted le_rfl
    obtain ⟨supplies, suppliesGrow⟩ := counts stats.supplies (by omega)
    obtain ⟨borrows, borrowsGrow⟩ := counts stats.borrows (by omega)
    obtain ⟨repays, repaysGrow⟩ := counts stats.repays (by omega)
    obtain ⟨liquidations, liquidationsGrow⟩ := counts stats.liquidations (by omega)
    simp only [recordAction, bind_ok, okOr_ok, require_ok, pure_ok]
    cases kind with
    | supply => exact ⟨_, stats, found, (), bump, (), mine, proofs, grown, _,
        bind_ok.mpr ⟨supplies, suppliesGrow, rfl⟩, rfl⟩
    | borrow => exact ⟨_, stats, found, (), bump, (), mine, proofs, grown, _,
        bind_ok.mpr ⟨borrows, borrowsGrow, rfl⟩, rfl⟩
    | repay => exact ⟨_, stats, found, (), bump, (), mine, proofs, grown, _,
        bind_ok.mpr ⟨repays, repaysGrow, rfl⟩, rfl⟩
    | liquidation => exact ⟨_, stats, found, (), bump, (), mine, proofs, grown, _,
        bind_ok.mpr ⟨liquidations, liquidationsGrow, rfl⟩, rfl⟩

end Laws

theorem counters_add_up_bob :
    ∃ stats, eventful.stats.lookup bob.pubkey = some stats ∧ stats.proofsSubmitted = 1 ∧
      stats.tally.count .liquidation =
        eventful.events.countP (Event.records bob.pubkey .liquidation) := by
  have counted : ∃ stats, eventful.stats.lookup bob.pubkey = some stats ∧
      stats.proofsSubmitted = 1 := some_where (by decide +kernel)
  obtain ⟨stats, found, once⟩ := counted
  exact ⟨stats, found, once, (counters_add_up eventful_reachable found).2 .liquidation⟩

theorem record_action_succeeds_iff_bob :
    (∃ s', recordAction devnet eventful bob .supply 0 = .ok s') ∧
      ¬ ∃ s', recordAction devnet eventful alice .supply 0 = .ok s' := by
  have counted : ∃ stats, eventful.stats.lookup bob.pubkey = some stats ∧
      stats.proofsSubmitted.val + 1 < 2 ^ 64 := some_where (by decide +kernel)
  have absent : eventful.stats.lookup alice.pubkey = none :=
    Option.isNone_iff_eq_none.mp (by decide +kernel)
  refine ⟨(record_action_succeeds_iff eventful_reachable).mpr counted, ?_⟩
  intro recorded
  obtain ⟨stats, found, _⟩ := (record_action_succeeds_iff eventful_reachable).mp recorded
  rw [absent] at found
  cases found

end ShadowLend
