import ShadowLend.Ownership
import ShadowLend.Statistics

/-! What the page does with a submitted amount: the market instruction first, then a
record of it in the wallet's counters, each a transaction of its own. Anything may come
between the two, other submissions of the page and a change of its wallet included. -/

namespace ShadowLend

open Outcome Devnet

/-- `action !== "withdraw"`: what the page records, and as what. -/
def MarketActionKind.recordedAs : MarketActionKind → Option ActionKind
  | .supply => some .supply
  | .withdraw => none
  | .borrow => some .borrow
  | .repay => some .repay

/-- Where `submitTransaction` waits: for its instruction, for `appendHistory`, then inside
`recordAction` for `fetchUserStats`, `initUserStats` and the record itself. Each of the
three transactions is signed by the wallet of the moment and carried out later. It ends
`refused` when the instruction fails and `unrecorded` when anything after it does. -/
inductive Stage
  | signing
  | sent (sender : Signer)
  | refused
  | saving (sender : Signer)
  | reading (sender : Signer)
  | opening (sender : Signer)
  | openingSent (sender opener : Signer)
  | recording (sender : Signer)
  | recordSent (sender recorder : Signer)
  | unrecorded (sender : Signer)
  | recorded (sender recorder : Signer)
  deriving DecidableEq

/-- The wallet whose market instruction has been carried out. -/
def Stage.landedBy : Stage → Option Signer
  | .signing | .sent _ | .refused => none
  | .saving sender | .reading sender | .opening sender | .openingSent sender _
  | .recording sender | .recordSent sender _ | .unrecorded sender
  | .recorded sender _ => some sender

def Stage.recordedBy : Stage → Option Signer
  | .recorded _ recorder => some recorder
  | _ => none

def Stage.finished : Stage → Bool
  | .refused | .unrecorded _ | .recorded _ _ => true
  | _ => false

structure Submission where
  action : MarketActionKind
  stage : Stage
  deriving DecidableEq

/-- One step of a submission, with the instruction it has carried out, if any. -/
inductive Advance (wallet : Option Signer) (s : State) :
    Option Action → Submission → Submission → Prop
  | signed {action : MarketActionKind} {user : Signer} (connected : wallet = some user) :
      Advance wallet s none ⟨action, .signing⟩ ⟨action, .sent user⟩
  | unsigned {action : MarketActionKind} :
      Advance wallet s none ⟨action, .signing⟩ ⟨action, .refused⟩
  | landed {action : MarketActionKind} {sender : Signer} {mint : Pubkey} {a : Action}
      (sent : a.touch = some (action, sender, mint)) :
      Advance wallet s (some a) ⟨action, .sent sender⟩ ⟨action, .saving sender⟩
  | refused {action : MarketActionKind} {sender : Signer} :
      Advance wallet s none ⟨action, .sent sender⟩ ⟨action, .refused⟩
  | saved {action : MarketActionKind} {sender : Signer} (mirrored : action ≠ .withdraw) :
      Advance wallet s none ⟨action, .saving sender⟩ ⟨action, .reading sender⟩
  | ended {sender : Signer} :
      Advance wallet s none ⟨.withdraw, .saving sender⟩ ⟨.withdraw, .unrecorded sender⟩
  | found {action : MarketActionKind} {sender user : Signer} {stats : UserStats}
      (connected : wallet = some user) (stored : s.stats.lookup user.pubkey = some stats) :
      Advance wallet s none ⟨action, .reading sender⟩ ⟨action, .recording sender⟩
  | missing {action : MarketActionKind} {sender : Signer} :
      Advance wallet s none ⟨action, .reading sender⟩ ⟨action, .opening sender⟩
  | opens {action : MarketActionKind} {sender user : Signer} (connected : wallet = some user) :
      Advance wallet s none ⟨action, .opening sender⟩ ⟨action, .openingSent sender user⟩
  | opened {action : MarketActionKind} {sender opener : Signer} :
      Advance wallet s (some (.initUserStats opener)) ⟨action, .openingSent sender opener⟩
        ⟨action, .recording sender⟩
  | records {action : MarketActionKind} {sender user : Signer} (connected : wallet = some user) :
      Advance wallet s none ⟨action, .recording sender⟩ ⟨action, .recordSent sender user⟩
  | recorded {action : MarketActionKind} {sender recorder : Signer} {kind : ActionKind}
      {healthBps : U16} (as : action.recordedAs = some kind) :
      Advance wallet s (some (.recordAction recorder kind healthBps))
        ⟨action, .recordSent sender recorder⟩ ⟨action, .recorded sender recorder⟩
  | failed {action : MarketActionKind} {stage : Stage} {sender : Signer}
      (landed : stage.landedBy = some sender) (pending : stage.finished = false) :
      Advance wallet s none ⟨action, stage⟩ ⟨action, .unrecorded sender⟩

/-- An instruction that is no market action and no record of the wallet. -/
def Elsewhere (user : Signer) : Action → Bool
  | .recordAction signer _ _ => signer ≠ user
  | a => a.touch.all fun t => t.2.1 ≠ user

/-- The ledger and a page with its wallet and its submissions, finished ones included. -/
structure Desk where
  ledger : State
  wallet : Option Signer
  submissions : List Submission

inductive Deed
  | works
  | switches

/-- Everybody but a wallet goes on as they please; the wallet acts through the page. -/
inductive Desk.Step (rt : Runtime) (user : Signer) : Desk → Deed → Desk → Prop
  | submits {s : State} {wallet : Signer} {page : List Submission} (action : MarketActionKind) :
      Desk.Step rt user ⟨s, some wallet, page⟩ .works
        ⟨s, some wallet, page ++ [⟨action, .signing⟩]⟩
  | waits {s : State} {wallet : Option Signer} {before after : List Submission}
      {one next : Submission} (moved : Advance wallet s none one next) :
      Desk.Step rt user ⟨s, wallet, before ++ one :: after⟩ .works
        ⟨s, wallet, before ++ next :: after⟩
  | sends {s s' : State} {wallet : Option Signer} {before after : List Submission}
      {one next : Submission} {a : Action} (moved : Advance wallet s (some a) one next)
      (step : ShadowLend.Step rt s a s') :
      Desk.Step rt user ⟨s, wallet, before ++ one :: after⟩ .works
        ⟨s', wallet, before ++ next :: after⟩
  | others {s s' : State} {wallet : Option Signer} {page : List Submission} {a : Action}
      (elsewhere : Elsewhere user a) (step : ShadowLend.Step rt s a s') :
      Desk.Step rt user ⟨s, wallet, page⟩ .works ⟨s', wallet, page⟩
  | switches {s : State} {wallet : Option Signer} {page : List Submission}
      (connected : Option Signer) :
      Desk.Step rt user ⟨s, wallet, page⟩ .switches ⟨s, connected, page⟩

abbrev Desk.ReachedBy (rt : Runtime) (user : Signer) (guard : Desk → Deed → Prop) (d : Desk) :
    Prop :=
  Runs.Reaches (· = ⟨State.empty, none, []⟩) (Desk.Step rt user) guard d

abbrev Desk.Reached (rt : Runtime) (user : Signer) (d : Desk) : Prop :=
  Desk.ReachedBy rt user (fun _ _ => True) d

/-- The wallet changes only while no submission is under way. -/
def BetweenSubmissions (d : Desk) : Deed → Prop
  | .works => True
  | .switches => ∀ one ∈ d.submissions, one.stage.finished = true

def Event.confirms (user : Pubkey) (kind : ActionKind) : Event → Bool
  | .marketAction who _ action _ _ => who = user ∧ action.recordedAs = some kind
  | _ => false

def Action.recordsFor (user : Pubkey) (kind : ActionKind) : Action → Bool
  | .recordAction signer what _ => signer.pubkey = user ∧ what = kind
  | _ => false

def Action.confirmsFor (user : Pubkey) (kind : ActionKind) (a : Action) : Bool :=
  a.touch.any fun t => t.2.1.pubkey = user ∧ t.1.recordedAs = some kind

section Events

variable {rt : Runtime} {s s' : State} {a : Action}

theorem countP_append_one {events : List Event} {event : Event} {p : Event → Bool} {told : Bool}
    (same : p event = told) :
    (events ++ [event]).countP p = events.countP p + told.toNat := by
  rw [List.countP_append, List.countP_singleton, same]
  cases told <;> rfl

theorem recordsFor_of_touch {user : Pubkey} {kind : ActionKind}
    {touched : MarketActionKind × Signer × Pubkey} (acts : a.touch = some touched) :
    a.recordsFor user kind = false := by
  cases a with
  | recordAction _ _ _ => cases acts
  | _ => rfl

/-- What a step adds to the counts of the log. -/
theorem step_counts (step : Step rt s a s') (user : Pubkey) (kind : ActionKind) :
    s'.events.countP (Event.records user kind) =
        s.events.countP (Event.records user kind) + (a.recordsFor user kind).toNat ∧
      s'.events.countP (Event.confirms user kind) =
        s.events.countP (Event.confirms user kind) + (a.confirmsFor user kind).toNat := by
  cases step_writes step with
  | opened _ _ _ _ _ _ acts run =>
      subst acts
      rw [run.result]
      exact ⟨rfl, rfl⟩
  | decreed _ _ _ _ acts _ result =>
      subst acts result
      exact ⟨rfl, rfl⟩
  | claimed _ _ acts run =>
      subst acts
      rw [run.result]
      exact ⟨countP_append_one rfl, countP_append_one rfl⟩
  | moved action signer mint acts move =>
      rw [move.result, recordsFor_of_touch acts, Action.confirmsFor, acts]
      exact ⟨countP_append_one rfl, countP_append_one rfl⟩
  | liquidated _ _ _ acts run =>
      subst acts
      rw [run.result]
      exact ⟨countP_append_one rfl, countP_append_one rfl⟩
  | counted _ _ _ acts _ _ _ =>
      obtain rfl | ⟨_, _, rfl⟩ := acts
      · obtain ⟨_, _, _, rfl⟩ := initUserStats_ok step
        exact ⟨rfl, rfl⟩
      · obtain ⟨_, _, _, rfl⟩ := recordAction_ok step
        exact ⟨countP_append_one rfl, countP_append_one rfl⟩
  | held _ _ acts ran =>
      subst acts
      obtain ⟨_, _, rfl⟩ := holderInstruction_frame ran
      exact ⟨rfl, rfl⟩
  | passed _ _ acts _ result =>
      subst acts result
      exact ⟨rfl, rfl⟩

theorem step_keeps_stats (step : Step rt s a s') {user : Pubkey}
    (stored : (s.stats.lookup user).isSome) : (s'.stats.lookup user).isSome := by
  obtain same | ⟨signer, written, same, _⟩ := step_stats step
  · rw [same]
    exact stored
  · rw [same]
    by_cases here : user = signer.pubkey
    · rw [here, Finmap.lookup_insert]
      rfl
    · rw [Finmap.lookup_insert_of_ne _ here]
      exact stored

theorem Reachable.tally_count (reached : Reachable rt s) (user : Pubkey) (kind : ActionKind) :
    (s.tally user).count kind = s.events.countP (Event.records user kind) := by
  rw [← reached.mirrored.tallies user, replay_count]
  cases kind <;> exact Nat.zero_add _

end Events

def Submission.counted (user : Signer) (kind : ActionKind) (one : Submission) : Bool :=
  one.stage.recordedBy = some user && one.action.recordedAs = some kind

def Submission.confirmed (user : Signer) (kind : ActionKind) (one : Submission) : Bool :=
  one.stage.landedBy = some user && one.action.recordedAs = some kind

structure Desk.Sound (rt : Runtime) (user : Signer) (d : Desk) : Prop where
  reachable : Reachable rt d.ledger
  counted : ∀ kind, d.ledger.events.countP (Event.records user.pubkey kind) =
    d.submissions.countP (Submission.counted user kind)
  confirmed : ∀ kind, d.ledger.events.countP (Event.confirms user.pubkey kind) =
    d.submissions.countP (Submission.confirmed user kind)

/-- A submission under way was signed by the wallet the page still has, and one about to
be recorded has seen its counters. -/
def Stage.Steady (wallet : Option Signer) (s : State) : Stage → Prop
  | .signing | .refused | .unrecorded _ => True
  | .sent sender | .saving sender | .reading sender | .opening sender => wallet = some sender
  | .openingSent sender opener => wallet = some sender ∧ opener = sender
  | .recording sender => wallet = some sender ∧ (s.stats.lookup sender.pubkey).isSome
  | .recordSent sender recorder =>
      wallet = some sender ∧ recorder = sender ∧ (s.stats.lookup sender.pubkey).isSome
  | .recorded sender recorder => recorder = sender

def Desk.Steady (d : Desk) : Prop :=
  ∀ one ∈ d.submissions, one.stage.Steady d.wallet d.ledger

section Sessions

variable {rt : Runtime} {user : Signer} {d d' : Desk} {deed : Deed}

theorem countP_middle {before after : List Submission} {one : Submission}
    (p : Submission → Bool) :
    (before ++ one :: after).countP p = before.countP p + after.countP p + (p one).toNat := by
  rw [List.countP_append, List.countP_cons, ← Nat.add_assoc]
  cases p one <;> rfl

theorem forall_middle {before after : List Submission} {one next : Submission}
    {P Q : Submission → Prop} (all : ∀ other ∈ before ++ one :: after, P other)
    (kept : ∀ other, P other → Q other) (moved : P one → Q next) :
    ∀ other ∈ before ++ next :: after, Q other := by
  rw [List.forall_mem_append, List.forall_mem_cons] at all ⊢
  exact ⟨fun other member => kept other (all.1 other member), moved all.2.1,
    fun other member => kept other (all.2.2 other member)⟩

theorem recordedBy_of_pending {stage : Stage} (pending : stage.finished = false) :
    stage.recordedBy = none := by
  cases stage with
  | recorded _ _ => cases pending
  | _ => rfl

theorem advance_waits {wallet : Option Signer} {s : State} {one next : Submission}
    (moved : Advance wallet s none one next) (kind : ActionKind) :
    next.counted user kind = one.counted user kind ∧
      next.confirmed user kind = one.confirmed user kind := by
  cases moved with
  | @failed action stage sender landed pending =>
      simp only [Submission.counted, Submission.confirmed, recordedBy_of_pending pending, landed]
      exact ⟨rfl, rfl⟩
  | _ => exact ⟨rfl, rfl⟩

theorem advance_sends {wallet : Option Signer} {s : State} {one next : Submission} {a : Action}
    (moved : Advance wallet s (some a) one next) (kind : ActionKind) :
    (next.counted user kind).toNat =
        (one.counted user kind).toNat + (a.recordsFor user.pubkey kind).toNat ∧
      (next.confirmed user kind).toNat =
        (one.confirmed user kind).toNat + (a.confirmsFor user.pubkey kind).toNat := by
  cases moved with
  | landed sent =>
      rw [recordsFor_of_touch sent, Action.confirmsFor, sent]
      simp [Submission.counted, Submission.confirmed, Stage.landedBy, Stage.recordedBy,
        Signer.pubkey_injective.eq_iff]
  | opened => exact ⟨rfl, rfl⟩
  | recorded as =>
      refine ⟨?_, rfl⟩
      simp [Submission.counted, Stage.recordedBy, Action.recordsFor, as,
        Signer.pubkey_injective.eq_iff]

/-- What is under way goes on in the name of the one wallet. -/
theorem advance_steady {wallet : Option Signer} {s : State} {one next : Submission}
    (moved : Advance wallet s none one next) (steady : one.stage.Steady wallet s) :
    next.stage.Steady wallet s := by
  cases moved with
  | signed connected => exact connected
  | saved mirrored => exact steady
  | missing => exact steady
  | opens connected =>
      have same := Option.some.inj (connected.symm.trans steady)
      exact ⟨steady, same⟩
  | found connected stored =>
      obtain rfl := Option.some.inj (connected.symm.trans steady)
      exact ⟨connected, by rw [stored]; rfl⟩
  | records connected =>
      have same := Option.some.inj (connected.symm.trans steady.1)
      exact ⟨steady.1, same, steady.2⟩
  | _ => trivial

theorem Stage.Steady.later {wallet : Option Signer} {s s' : State} {stage : Stage}
    (steady : stage.Steady wallet s)
    (opened : ∀ user, (s.stats.lookup user).isSome → (s'.stats.lookup user).isSome) :
    stage.Steady wallet s' := by
  cases stage with
  | recording sender => exact ⟨steady.1, opened _ steady.2⟩
  | recordSent sender recorder => exact ⟨steady.1, steady.2.1, opened _ steady.2.2⟩
  | _ => exact steady

theorem advance_sends_steady {wallet : Option Signer} {s s' : State} {one next : Submission}
    {a : Action} (moved : Advance wallet s (some a) one next) (step : Step rt s a s')
    (steady : one.stage.Steady wallet s) : next.stage.Steady wallet s' := by
  cases moved with
  | landed sent => exact steady
  | opened =>
      obtain ⟨connected, rfl⟩ := steady
      obtain ⟨stats, _, _, rfl⟩ := initUserStats_ok step
      refine ⟨connected, ?_⟩
      rw [Finmap.lookup_insert]
      rfl
  | recorded as => exact steady.2.1

theorem elsewhere_uncounted {a : Action} (elsewhere : Elsewhere user a) (kind : ActionKind) :
    a.recordsFor user.pubkey kind = false ∧ a.confirmsFor user.pubkey kind = false := by
  cases acts : a.touch with
  | some touched =>
      have other : touched.2.1 ≠ user := by
        cases a <;> first | cases acts; exact of_decide_eq_true elsewhere | cases acts
      rw [recordsFor_of_touch acts, Action.confirmsFor, acts]
      simp [Signer.pubkey_injective.eq_iff, other]
  | none =>
      rw [Action.confirmsFor, acts]
      refine ⟨?_, rfl⟩
      cases a with
      | recordAction signer what healthBps =>
          have other : signer ≠ user := of_decide_eq_true elsewhere
          simp [Action.recordsFor, Signer.pubkey_injective.eq_iff, other]
      | _ => rfl

theorem desk_sound_step (sound : d.Sound rt user) (step : Desk.Step rt user d deed d') :
    d'.Sound rt user := by
  obtain ⟨reachable, counted, confirmed⟩ := sound
  cases step with
  | submits action =>
      refine ⟨reachable, fun kind => ?_, fun kind => ?_⟩
      · rw [List.countP_append]
        exact counted kind
      · rw [List.countP_append]
        exact confirmed kind
  | waits moved =>
      refine ⟨reachable, fun kind => ?_, fun kind => ?_⟩
      · rw [countP_middle, (advance_waits moved kind).1, ← countP_middle]
        exact counted kind
      · rw [countP_middle, (advance_waits moved kind).2, ← countP_middle]
        exact confirmed kind
  | sends moved step =>
      refine ⟨reachable.next trivial step, fun kind => ?_, fun kind => ?_⟩
      · have before_ := counted kind
        rw [countP_middle] at before_ ⊢
        rw [(step_counts step _ kind).1, (advance_sends moved kind).1, before_, Nat.add_assoc]
      · have before_ := confirmed kind
        rw [countP_middle] at before_ ⊢
        rw [(step_counts step _ kind).2, (advance_sends moved kind).2, before_, Nat.add_assoc]
  | others elsewhere step =>
      refine ⟨reachable.next trivial step, fun kind => ?_, fun kind => ?_⟩
      · rw [(step_counts step _ kind).1, (elsewhere_uncounted elsewhere kind).1]
        exact counted kind
      · rw [(step_counts step _ kind).2, (elsewhere_uncounted elsewhere kind).2]
        exact confirmed kind
  | switches connected => exact ⟨reachable, counted, confirmed⟩

theorem Desk.ReachedBy.sound {guard : Desk → Deed → Prop} (reached : d.ReachedBy rt user guard) :
    d.Sound rt user := by
  apply reached.invariant
  · rintro _ rfl
    exact ⟨.start rfl, fun _ => rfl, fun _ => rfl⟩
  · intro d _ d' sound _ step
    exact desk_sound_step sound step

theorem steady_of_finished {stage : Stage} {wallet connected : Option Signer} {s : State}
    (finished : stage.finished = true) (steady : stage.Steady wallet s) :
    stage.Steady connected s := by
  cases stage with
  | refused | unrecorded _ => trivial
  | recorded _ _ => exact steady
  | _ => cases finished

theorem desk_steady_step (steady : d.Steady) (between : BetweenSubmissions d deed)
    (step : Desk.Step rt user d deed d') : d'.Steady := by
  cases step with
  | submits action =>
      refine List.forall_mem_append.mpr ⟨steady, ?_⟩
      exact List.forall_mem_singleton.mpr trivial
  | waits moved => exact forall_middle steady (fun _ => id) (advance_steady moved)
  | sends moved step =>
      exact forall_middle steady (fun _ steady => steady.later fun _ => step_keeps_stats step)
        (advance_sends_steady moved step)
  | others elsewhere step =>
      exact fun one member => (steady one member).later fun _ => step_keeps_stats step
  | switches connected =>
      exact fun one member => steady_of_finished (between one member) (steady one member)

theorem Desk.ReachedBy.steady (reached : d.ReachedBy rt user BetweenSubmissions) : d.Steady := by
  apply reached.invariant
  · rintro _ rfl
    exact nofun
  · intro d _ d' steady between step
    exact desk_steady_step steady between step

theorem not_liquidation (action : MarketActionKind) : action.recordedAs ≠ some .liquidation := by
  cases action <;> exact nofun

theorem Desk.Sound.count (sound : d.Sound rt user) (kind : ActionKind) :
    (d.ledger.tally user.pubkey).count kind =
      d.submissions.countP (Submission.counted user kind) :=
  (sound.reachable.tally_count user.pubkey kind).trans (sound.counted kind)

/-- Whatever wallets the page goes through, a wallet that acts through it alone has each
counter at the number of submissions recorded for it, has signed the actions the log
confirms, and none is counted as a liquidation. If the wallet is changed between submissions
only, a counter may fall behind its actions and never runs ahead, and no record is sent
before the counters are there. -/
theorem page_records (rt : Runtime) (user : Signer) (d : Desk) :
    (d.Reached rt user →
      (∀ kind, (d.ledger.tally user.pubkey).count kind =
            d.submissions.countP (Submission.counted user kind) ∧
          d.ledger.events.countP (Event.confirms user.pubkey kind) =
            d.submissions.countP (Submission.confirmed user kind)) ∧
        (d.ledger.tally user.pubkey).liquidations = 0) ∧
      (d.ReachedBy rt user BetweenSubmissions →
        (∀ kind, (d.ledger.tally user.pubkey).count kind ≤
            d.ledger.events.countP (Event.confirms user.pubkey kind)) ∧
          ∀ one ∈ d.submissions, ∀ sender recorder, one.stage = .recordSent sender recorder →
            (d.ledger.stats.lookup recorder.pubkey).isSome) := by
  constructor
  · intro reached
    have sound := reached.sound
    refine ⟨fun kind => ⟨sound.count kind, sound.confirmed kind⟩, ?_⟩
    refine (sound.count .liquidation).trans (List.countP_eq_zero.mpr fun one _ recorded => ?_)
    simp only [Submission.counted, Bool.and_eq_true, decide_eq_true_eq] at recorded
    exact not_liquidation one.action recorded.2
  · intro reached
    have sound := reached.sound
    have steady := reached.steady
    constructor
    · intro kind
      rw [sound.count, sound.confirmed]
      apply List.countP_mono_left
      rintro ⟨action, stage⟩ member recorded
      cases stage with
      | recorded sender recorder =>
          obtain rfl : recorder = sender := steady _ member
          exact recorded
      | _ => cases recorded
    · rintro ⟨action, stage⟩ member sender recorder rfl
      obtain ⟨_, rfl, stored⟩ := steady _ member
      exact stored

section Runs

variable {guard : Desk → Deed → Prop} (works : ∀ d, guard d .works)
include works

theorem Desk.ReachedBy.idle {s : State} {wallet : Option Signer} {page : List Submission}
    (reached : Desk.ReachedBy rt user guard ⟨s, wallet, page⟩) (actions : List Action)
    (elsewhere : ∀ a ∈ actions, Elsewhere user a) :
    Desk.ReachedBy rt user guard ⟨replay rt (fun _ _ => True) s actions, wallet, page⟩ := by
  induction actions generalizing s with
  | nil => exact reached
  | cons head tail ih =>
      rw [replay, List.foldl_cons, if_pos trivial]
      refine ih ?_ fun a member => elsewhere a (List.mem_cons_of_mem _ member)
      cases ran : apply rt s head with
      | ok s' => exact reached.next (works _) (.others (elsewhere head List.mem_cons_self) ran)
      | error e => exact reached

theorem Desk.ReachedBy.wait {s : State} {wallet : Option Signer} {one next : Submission}
    (reached : Desk.ReachedBy rt user guard ⟨s, wallet, [one]⟩)
    (moved : Advance wallet s none one next) :
    Desk.ReachedBy rt user guard ⟨s, wallet, [next]⟩ :=
  reached.next (works _) (@Desk.Step.waits rt user s wallet [] [] one next moved)

theorem Desk.ReachedBy.send {s s' : State} {a : Action} {wallet : Option Signer}
    {one next : Submission} (reached : Desk.ReachedBy rt user guard ⟨s, wallet, [one]⟩)
    (moved : Advance wallet s (some a) one next) (step : ShadowLend.Step rt s a s') :
    Desk.ReachedBy rt user guard ⟨s', wallet, [next]⟩ :=
  reached.next (works _) (@Desk.Step.sends rt user s s' wallet [] [] one next a moved step)

end Runs

end Sessions

theorem ledger_step {actions : List Action} {a : Action}
    (ran : (apply devnet (ledger actions) a).toOption.isSome) :
    Step devnet (ledger actions) a (ledger (actions ++ [a])) := by
  have last : ledger (actions ++ [a]) = ((apply devnet (ledger actions) a).toOption).getD
      (ledger actions) := by
    rw [ledger, replay, List.foldl_append]
    rfl
  rw [last]
  cases done : apply devnet (ledger actions) a with
  | ok s' => exact done
  | error e =>
      rw [done] at ran
      cases ran

namespace Devnet

def newcomer : List Action := initializeMarkets ++ [.claimFaucet alice sol.pubkey]

def firstSupply : List Action := newcomer ++ [.supply alice sol.pubkey 1000]

def firstStats (user : Signer) : List Action := firstSupply ++ [.initUserStats user]

def firstRecord (user : Signer) : List Action :=
  firstStats user ++ [.recordAction user .supply 0]

section Runs

variable {user : Signer} {guard : Desk → Deed → Prop} (works : ∀ d, guard d .works)
include works

theorem saved_desk (elsewhere : ∀ a ∈ newcomer, Elsewhere user a)
    (connects : guard ⟨State.empty, none, []⟩ .switches) :
    Desk.ReachedBy devnet user guard
      ⟨ledger firstSupply, some alice, [⟨.supply, .reading alice⟩]⟩ := by
  have start : Desk.ReachedBy devnet user guard ⟨State.empty, none, []⟩ := .start rfl
  have connected : Desk.ReachedBy devnet user guard ⟨State.empty, some alice, []⟩ :=
    start.next connects (.switches _)
  have ready : Desk.ReachedBy devnet user guard ⟨ledger newcomer, some alice, []⟩ :=
    connected.idle works newcomer elsewhere
  have signing : Desk.ReachedBy devnet user guard
      ⟨ledger newcomer, some alice, [⟨.supply, .signing⟩]⟩ :=
    ready.next (works _) (.submits .supply)
  have sent := signing.wait works (.signed rfl)
  have saving : Desk.ReachedBy devnet user guard
      ⟨ledger firstSupply, some alice, [⟨.supply, .saving alice⟩]⟩ :=
    sent.send works (.landed rfl) (ledger_step (by decide +kernel))
  exact saving.wait works (.saved nofun)

theorem recorded_desk {wallet : Signer}
    (saved : Desk.ReachedBy devnet user guard
      ⟨ledger firstSupply, some wallet, [⟨.supply, .reading alice⟩]⟩)
    (opens : (apply devnet (ledger firstSupply) (.initUserStats wallet)).toOption.isSome)
    (records : (apply devnet (ledger (firstStats wallet))
      (.recordAction wallet .supply 0)).toOption.isSome) :
    Desk.ReachedBy devnet user guard
      ⟨ledger (firstRecord wallet), some wallet, [⟨.supply, .recorded alice wallet⟩]⟩ := by
  have opening := (saved.wait works .missing).wait works (.opens rfl)
  have recording : Desk.ReachedBy devnet user guard
      ⟨ledger (firstStats wallet), some wallet, [⟨.supply, .recording alice⟩]⟩ :=
    opening.send works .opened (ledger_step opens)
  exact (recording.wait works (.records rfl)).send works (.recorded rfl) (ledger_step records)

end Runs

end Devnet

/-- Alice's submission, and the same with Bob connected before it is recorded: the record
is in his counters, and he has signed no action. -/
theorem page_records_alice :
    ((ledger (firstRecord alice)).tally alice.pubkey).count .supply ≤
        (ledger (firstRecord alice)).events.countP (Event.confirms alice.pubkey .supply) ∧
      ((ledger (firstRecord bob)).tally bob.pubkey).count .supply = 1 ∧
      (ledger (firstRecord bob)).events.countP (Event.confirms bob.pubkey .supply) = 0 := by
  have alone : Desk.ReachedBy devnet alice BetweenSubmissions
      ⟨ledger (firstRecord alice), some alice, [⟨.supply, .recorded alice alice⟩]⟩ :=
    recorded_desk (fun _ => trivial) (saved_desk (fun _ => trivial) (by decide) nofun)
      (by decide +kernel) (by decide +kernel)
  have saved : Desk.Reached devnet bob
      ⟨ledger firstSupply, some alice, [⟨.supply, .reading alice⟩]⟩ :=
    saved_desk (fun _ => trivial) (by decide) trivial
  have switched : Desk.Reached devnet bob
      ⟨ledger (firstRecord bob), some bob, [⟨.supply, .recorded alice bob⟩]⟩ :=
    recorded_desk (fun _ => trivial) (saved.next trivial (.switches _)) (by decide +kernel)
      (by decide +kernel)
  have counts := ((page_records devnet bob _).1 switched).1 .supply
  exact ⟨((page_records devnet alice _).2 alone).1 .supply, counts.1, counts.2⟩

end ShadowLend
