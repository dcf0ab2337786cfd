import AegisFlow.Lts.Basic
import AegisFlow.Timer.TimerCore

/-!
# Periodic maintenance

Two components do their work in rounds: `BlacklistMaintenance` and `FeatureStateMaintenance`.  A
timer tick has a round submitted to the maintenance pool and the next tick scheduled; both can fail
for congestion.  Whoever finds no tick scheduled at the end of a round tries again.

* `scheduleNextLocked`, `submitRoundLocked`, `start`, `stop` : what the components share;
* `BlacklistMaintenance.tryPost`, `BlacklistMaintenance.runRound`,
  `FeatureStateMaintenance.tryPost`, `FeatureStateMaintenance.runRound` : ticks, and ends of rounds;
* `maintenance_continues_iff` : **the work goes on exactly as long as no step has both its timer and
  its round refused**;
* `congestion_ends_maintenance` : one such step ends it for ever.
-/

namespace AegisFlow

/-- A maintenance component, with what timer and pool have for it.  All of its functions run under
one mutex. -/
structure Maintenance where
  activeTimer : TimerId := {}
  activeSequence : ℕ := 0
  nextSequence : ℕ := 1
  running : Bool := false
  stopped : Bool := false
  roundInflight : Bool := false
  /-- A round is to be made up for; only `BlacklistMaintenance` has this. -/
  roundPending : Bool := false
  /-- The ticks that the timer has for the component. -/
  timers : List TimerEvent := []
  /-- The rounds that the pool accepted and that have not ended. -/
  rounds : ℕ := 0
  poolStopped : Bool := false
  deriving DecidableEq, Repr

/-- How timer and pool answer to a component. -/
structure Replies where
  status : TimerStatus
  id : TimerId
  accepted : Bool
  deriving DecidableEq, Repr

/-- The tick with a sequence number. -/
def tickEvent (kind : TimerEventKind) (sequence : ℕ) : TimerEvent where
  kind := kind
  targetId := 1
  targetSequence := sequence

namespace Maintenance

/-! ### What the components share -/

/-- Schedule the next tick.  Sequence numbers are 64 bits wide; 0 is not one. -/
def scheduleNextLocked (kind : TimerEventKind) (r : Replies) (m : Maintenance) :
    Bool × Maintenance :=
  if m.nextSequence = 0 ∨ r.status ≠ .ok then
    (false, { m with nextSequence := (m.nextSequence + 1) % 2 ^ 64 })
  else
    (true, { m with
      nextSequence := (m.nextSequence + 1) % 2 ^ 64
      activeTimer := r.id
      activeSequence := m.nextSequence
      timers := m.timers ++ [tickEvent kind m.nextSequence] })

/-- Submit a round. -/
def submitRoundLocked (r : Replies) (m : Maintenance) : Bool × Maintenance :=
  if r.accepted then (true, { m with roundInflight := true, rounds := m.rounds + 1 })
  else (false, m)

/-- Start with the first tick. -/
def start (kind : TimerEventKind) (r : Replies) (m : Maintenance) : Bool × Maintenance :=
  if m.stopped then (false, m)
  else if m.running then (true, m)
  else if (scheduleNextLocked kind r { m with running := true }).1 then
    (true, (scheduleNextLocked kind r { m with running := true }).2)
  else (false, { (scheduleNextLocked kind r { m with running := true }).2 with running := false })

/-- Stop; the tick that is scheduled is cancelled. -/
def stop (kind : TimerEventKind) (m : Maintenance) : Maintenance :=
  if m.stopped then m
  else { m with
    stopped := true
    running := false
    activeSequence := 0
    activeTimer := {}
    timers := if m.activeTimer.valid then m.timers.erase (tickEvent kind m.activeSequence)
      else m.timers }

/-- Whether a tick is the one that is waited for. -/
def awaits (kind : TimerEventKind) (event : TimerEvent) (m : Maintenance) : Bool :=
  m.running && event.kind == kind && event.targetSequence != 0 &&
    event.targetSequence == m.activeSequence

/-- The tick has come: schedule the next one. -/
def reschedule (kind : TimerEventKind) (r : Replies) (m : Maintenance) : Bool × Maintenance :=
  scheduleNextLocked kind r { m with activeTimer := {}, activeSequence := 0 }

/-- A round has ended: schedule a tick if there is none. -/
def roundEnded (kind : TimerEventKind) (r : Replies) (m : Maintenance) : Maintenance :=
  if m.running && !m.activeTimer.valid then
    (scheduleNextLocked kind r { m with roundInflight := false, rounds := m.rounds - 1 }).2
  else { m with roundInflight := false, rounds := m.rounds - 1 }

/-- Set the pending bit. -/
def withPending (m : Maintenance) (b : Bool) : Maintenance := { m with roundPending := b }

/-- Submit a round, or remember that it is to be made up for. -/
def submitOrRemember (r : Replies) (m : Maintenance) : Bool × Maintenance :=
  if (submitRoundLocked r (m.withPending false)).1 then submitRoundLocked r (m.withPending false)
  else (false, (submitRoundLocked r (m.withPending false)).2.withPending true)

end Maintenance

/-! ### The two components -/

open Maintenance

/-- A tick for the blacklist.  Ticks during a round are folded into one. -/
def BlacklistMaintenance.tryPost (event : TimerEvent) (r : Replies) (m : Maintenance) :
    Bool × Maintenance :=
  if !awaits .blacklistMaintenanceTick event m then (false, m)
  else if (reschedule .blacklistMaintenanceTick r m).2.roundInflight then
    (true, (reschedule .blacklistMaintenanceTick r m).2.withPending true)
  else
    ((reschedule .blacklistMaintenanceTick r m).1 ||
      (submitOrRemember r (reschedule .blacklistMaintenanceTick r m).2).1,
      (submitOrRemember r (reschedule .blacklistMaintenanceTick r m).2).2)

/-- The end of a round for the blacklist. -/
def BlacklistMaintenance.runRound (r : Replies) (m : Maintenance) : Maintenance :=
  if (roundEnded .blacklistMaintenanceTick r m).running &&
      (roundEnded .blacklistMaintenanceTick r m).roundPending then
    (submitOrRemember r (roundEnded .blacklistMaintenanceTick r m)).2
  else roundEnded .blacklistMaintenanceTick r m

/-- A tick for the feature states. -/
def FeatureStateMaintenance.tryPost (event : TimerEvent) (r : Replies) (m : Maintenance) :
    Bool × Maintenance :=
  if !awaits .cleanupTick event m then (false, m)
  else if (reschedule .cleanupTick r m).2.roundInflight then (true, (reschedule .cleanupTick r m).2)
  else
    ((reschedule .cleanupTick r m).1 ||
      (submitRoundLocked r (reschedule .cleanupTick r m).2).1,
      (submitRoundLocked r (reschedule .cleanupTick r m).2).2)

/-- The end of a round for the feature states; `stopSeen` says that the round found component or
pool stopped and did nothing. -/
def FeatureStateMaintenance.runRound (stopSeen : Bool) (r : Replies) (m : Maintenance) :
    Maintenance :=
  if stopSeen then { m with roundInflight := false, rounds := m.rounds - 1 }
  else roundEnded .cleanupTick r m

/-- The components that do their work in rounds. -/
inductive MaintenanceComponent
  | blacklist
  | featureState
  deriving DecidableEq, Repr

namespace MaintenanceComponent

def kind : MaintenanceComponent → TimerEventKind
  | blacklist => .blacklistMaintenanceTick
  | featureState => .cleanupTick

def tryPost : MaintenanceComponent → TimerEvent → Replies → Maintenance → Bool × Maintenance
  | blacklist => BlacklistMaintenance.tryPost
  | featureState => FeatureStateMaintenance.tryPost

def runRound : MaintenanceComponent → (stopSeen : Bool) → Replies → Maintenance → Maintenance
  | blacklist, _ => BlacklistMaintenance.runRound
  | featureState, stopSeen => FeatureStateMaintenance.runRound stopSeen

end MaintenanceComponent

/-! ### Runs -/

/-- What happens to a component. -/
inductive MaintenanceEvent
  | start (r : Replies)
  | stop
  | poolStop
  /-- The timer delivers a tick. -/
  | tick (event : TimerEvent) (r : Replies)
  | roundEnd (stopSeen : Bool) (r : Replies)

/-- The steps of a component.  A timer that is scheduled has a valid name. -/
inductive MaintenanceStep (c : MaintenanceComponent) :
    Maintenance → MaintenanceEvent → Maintenance → Prop
  | start {m : Maintenance} {r : Replies} (hid : r.status = .ok → r.id.valid = true) :
      MaintenanceStep c m (.start r) (m.start c.kind r).2
  | stop {m : Maintenance} : MaintenanceStep c m .stop (m.stop c.kind)
  | poolStop {m : Maintenance} : MaintenanceStep c m .poolStop { m with poolStopped := true }
  | tick {m : Maintenance} {event : TimerEvent} {r : Replies} (hevent : event ∈ m.timers)
      (hid : r.status = .ok → r.id.valid = true) :
      MaintenanceStep c m (.tick event r)
        (c.tryPost event r { m with timers := m.timers.erase event }).2
  | roundEnd {m : Maintenance} {stopSeen : Bool} {r : Replies} (hround : 0 < m.rounds)
      (hid : r.status = .ok → r.id.valid = true)
      (hseen : stopSeen = true → m.stopped = true ∨ m.poolStopped = true) :
      MaintenanceStep c m (.roundEnd stopSeen r) (c.runRound stopSeen r m)

/-- A component from its making on. -/
def maintenanceSystem (c : MaintenanceComponent) : System Maintenance MaintenanceEvent where
  init m := m = {}
  step := MaintenanceStep c

/-- A tick is scheduled, or a round is queued or running. -/
def Alive (c : MaintenanceComponent) (m : Maintenance) : Prop :=
  (m.activeTimer.valid = true ∧ m.activeSequence ≠ 0 ∧
    tickEvent c.kind m.activeSequence ∈ m.timers) ∨ 0 < m.rounds

/-- The step gets neither a tick scheduled nor a round accepted, and there is no other. -/
def Congested (c : MaintenanceComponent) (m : Maintenance) : MaintenanceEvent → Prop
  | .tick event r => awaits c.kind event m = true ∧ m.roundInflight = false ∧
      (m.nextSequence = 0 ∨ r.status ≠ .ok) ∧ r.accepted = false
  | .roundEnd _ r => m.activeTimer.valid = false ∧ (m.nextSequence = 0 ∨ r.status ≠ .ok) ∧
      ¬ (c = .blacklist ∧ m.roundPending = true ∧ r.accepted = true)
  | _ => False

/-- The runs without such a step, until somebody stops the component or the pool. -/
def steadySystem (c : MaintenanceComponent) : System Maintenance MaintenanceEvent where
  init m := m = {}
  step m l m' := MaintenanceStep c m l m' ∧ l ≠ .stop ∧ l ≠ .poolStop ∧ ¬ Congested c m l

/-! ### The invariant -/

/-- The records of a component agree with what timer and pool have. -/
structure Consistent (c : MaintenanceComponent) (m : Maintenance) : Prop where
  rounds : m.rounds = m.roundInflight.toNat
  running : m.running = true → m.stopped = false
  active : m.activeTimer.valid = true → m.running = true ∧ m.activeSequence ≠ 0 ∧
    tickEvent c.kind m.activeSequence ∈ m.timers

variable {c : MaintenanceComponent} {m : Maintenance} {r : Replies}

theorem Consistent.alive_iff (h : Consistent c m) :
    Alive c m ↔ m.activeTimer.valid = true ∨ m.roundInflight = true := by
  unfold Alive
  rw [h.rounds]
  refine or_congr ⟨fun hactive => hactive.1, fun hvalid => ⟨hvalid, (h.active hvalid).2⟩⟩ ?_
  cases m.roundInflight <;> simp

/-- The pending bit does not matter. -/
theorem Consistent.pending (h : Consistent c m) (b : Bool) :
    Consistent c (m.withPending b) := ⟨h.rounds, h.running, h.active⟩

/-- Scheduling touches nothing but the tick. -/
theorem scheduleNextLocked_frame (kind : TimerEventKind) (r : Replies) (m : Maintenance) :
    (scheduleNextLocked kind r m).2.running = m.running ∧
    (scheduleNextLocked kind r m).2.stopped = m.stopped ∧
    (scheduleNextLocked kind r m).2.roundInflight = m.roundInflight ∧
    (scheduleNextLocked kind r m).2.roundPending = m.roundPending ∧
    (scheduleNextLocked kind r m).2.poolStopped = m.poolStopped := by
  unfold scheduleNextLocked
  split <;> exact ⟨rfl, rfl, rfl, rfl, rfl⟩

theorem Consistent.schedule (h : Consistent c m) (hrunning : m.running = true) :
    Consistent c (scheduleNextLocked c.kind r m).2 := by
  unfold scheduleNextLocked
  split
  · exact ⟨h.rounds, h.running, h.active⟩
  · rename_i hok
    refine ⟨h.rounds, h.running, fun _ => ⟨hrunning, fun hzero => hok (.inl hzero), ?_⟩⟩
    exact List.mem_append_right _ List.mem_cons_self

/-- A component without a tick has one exactly if the timer takes it. -/
theorem scheduleNextLocked_valid (hid : r.status = .ok → r.id.valid = true)
    (hnone : m.activeTimer.valid = false) (kind : TimerEventKind) :
    (scheduleNextLocked kind r m).2.activeTimer.valid = true ↔
      ¬ (m.nextSequence = 0 ∨ r.status ≠ .ok) := by
  unfold scheduleNextLocked
  split
  · rename_i hfail
    simp [hnone, hfail]
  · rename_i hok
    have hstatus : r.status = .ok := by
      by_contra hne
      exact hok (.inr hne)
    simp only [hok, not_false_eq_true, iff_true]
    exact hid hstatus

/-- The component with its tick taken. -/
theorem Consistent.taken (h : Consistent c m) (timers : List TimerEvent) :
    Consistent c { m with timers, activeTimer := {}, activeSequence := 0 } :=
  ⟨h.rounds, h.running, fun hvalid => absurd hvalid (by simp [TimerId.valid])⟩

theorem Consistent.submit (h : Consistent c m) (hnone : m.roundInflight = false) :
    Consistent c (submitRoundLocked r m).2 := by
  have hrounds := h.rounds
  unfold submitRoundLocked
  split
  · refine ⟨?_, h.running, h.active⟩
    simp [hrounds, hnone]
  · exact h

theorem submitRoundLocked_frame (r : Replies) (m : Maintenance) :
    (submitRoundLocked r m).2.activeTimer = m.activeTimer ∧
    (submitRoundLocked r m).2.roundInflight = (r.accepted || m.roundInflight) ∧
    (submitRoundLocked r m).2.running = m.running ∧
    (submitRoundLocked r m).2.poolStopped = m.poolStopped := by
  unfold submitRoundLocked
  split <;> simp_all

theorem submitOrRemember_eq (r : Replies) (m : Maintenance) :
    (submitOrRemember r m).2 = (submitRoundLocked r m).2.withPending (!r.accepted) := by
  unfold submitOrRemember submitRoundLocked
  cases r.accepted <;> rfl

theorem reschedule_roundInflight (kind : TimerEventKind) (r : Replies) (m : Maintenance) :
    (reschedule kind r m).2.roundInflight = m.roundInflight :=
  (scheduleNextLocked_frame kind r _).2.2.1

/-- What a tick does, but for the pending bit. -/
theorem tryPost_eq (c : MaintenanceComponent) (event : TimerEvent) (r : Replies)
    (m : Maintenance) :
    ∃ b, (c.tryPost event r m).2 =
      if awaits c.kind event m then
        if m.roundInflight then (reschedule c.kind r m).2.withPending b
        else (submitRoundLocked r (reschedule c.kind r m).2).2.withPending b
      else m := by
  cases c with
  | blacklist =>
    refine ⟨m.roundInflight || !r.accepted, ?_⟩
    simp only [MaintenanceComponent.tryPost, MaintenanceComponent.kind,
      BlacklistMaintenance.tryPost, reschedule_roundInflight, submitOrRemember_eq]
    by_cases hawaits : awaits .blacklistMaintenanceTick event m = true
    · by_cases hflight : m.roundInflight = true <;> simp [hawaits, hflight]
    · simp [hawaits]
  | featureState =>
    refine ⟨m.roundPending, ?_⟩
    have hpending : (reschedule .cleanupTick r m).2.roundPending = m.roundPending :=
      (scheduleNextLocked_frame .cleanupTick r _).2.2.2.1
    have hsubmit : (submitRoundLocked r (reschedule .cleanupTick r m).2).2.roundPending =
        m.roundPending := by
      rw [← hpending]
      unfold submitRoundLocked
      split <;> rfl
    simp only [MaintenanceComponent.tryPost, MaintenanceComponent.kind,
      FeatureStateMaintenance.tryPost, reschedule_roundInflight]
    by_cases hawaits : awaits .cleanupTick event m = true
    · by_cases hflight : m.roundInflight = true
      · simp [hawaits, hflight, withPending, ← hpending]
      · simp [hawaits, hflight, withPending, ← hsubmit]
    · simp [hawaits]

/-! ### Steps -/

/-- What a step does: the records stay in agreement, and a running component has work ahead exactly
if the step is not congested. -/
structure Continues (c : MaintenanceComponent) (m m' : Maintenance) (l : MaintenanceEvent) :
    Prop where
  consistent : Consistent c m'
  running : m'.running = m.running
  poolStopped : m'.poolStopped = m.poolStopped
  alive : m.running = true → Alive c m → (Alive c m' ↔ ¬ Congested c m l)

/-- The component after its tick has come, which may be gone from the timer. -/
theorem Consistent.reschedule (h : Consistent c m) (hrunning : m.running = true)
    (hid : r.status = .ok → r.id.valid = true) (timers : List TimerEvent) :
    ∃ m₁, (Maintenance.reschedule c.kind r { m with timers }).2 = m₁ ∧ Consistent c m₁ ∧
      m₁.running = m.running ∧ m₁.roundInflight = m.roundInflight ∧
      m₁.poolStopped = m.poolStopped ∧
      (m₁.activeTimer.valid = true ↔ ¬ (m.nextSequence = 0 ∨ r.status ≠ .ok)) := by
  obtain ⟨hrun, -, hflight, -, hpool⟩ := scheduleNextLocked_frame c.kind r
    { m with timers, activeTimer := {}, activeSequence := 0 }
  exact ⟨_, rfl, (h.taken timers).schedule hrunning, hrun, hflight, hpool,
    scheduleNextLocked_valid
      (m := { m with timers, activeTimer := {}, activeSequence := 0 }) hid rfl
      c.kind⟩

section

variable (h : Consistent c m) (hid : r.status = .ok → r.id.valid = true)
include h hid

theorem Consistent.tick {event : TimerEvent} :
    Continues c m (c.tryPost event r { m with timers := m.timers.erase event }).2
      (.tick event r) := by
  obtain ⟨b, heq⟩ := tryPost_eq c event r { m with timers := m.timers.erase event }
  rw [heq]
  change Continues c m (if awaits c.kind event m then _ else _) _
  by_cases hawaits : awaits c.kind event m = true
  · rw [if_pos hawaits]
    have hrunning : m.running = true := by
      simp only [awaits, Bool.and_eq_true] at hawaits
      exact hawaits.1.1.1
    obtain ⟨m₁, hm₁, hscheduled, hrun, hflight, hpool, hvalid⟩ :=
      h.reschedule hrunning hid (m.timers.erase event)
    rw [hm₁]
    by_cases hinflight : m.roundInflight = true
    · rw [if_pos hinflight]
      refine ⟨hscheduled.pending b, hrun, hpool, fun _ _ => ?_⟩
      rw [(hscheduled.pending b).alive_iff]
      refine iff_of_true (.inr (hflight.trans hinflight)) fun hcongested => ?_
      exact absurd (hcongested.2.1.symm.trans hinflight) (by simp)
    · rw [if_neg hinflight]
      rw [Bool.not_eq_true] at hinflight
      have hsubmitted := (hscheduled.submit (r := r) (hflight.trans hinflight)).pending b
      obtain ⟨hactive, haccepted, hrun', hpool'⟩ := submitRoundLocked_frame r m₁
      rw [hflight, hinflight, Bool.or_false] at haccepted
      refine ⟨hsubmitted, hrun'.trans hrun, hpool'.trans hpool, fun _ _ => ?_⟩
      rw [hsubmitted.alive_iff]
      change (submitRoundLocked r m₁).2.activeTimer.valid = true ∨
        (submitRoundLocked r m₁).2.roundInflight = true ↔ _
      rw [hactive, haccepted]
      refine (or_congr_left hvalid).trans ?_
      simp only [Congested, hawaits, hinflight, true_and]
      cases r.accepted <;> simp
  · rw [if_neg hawaits]
    -- A stale tick: the one that is awaited stays with the timer thread.
    refine ⟨⟨h.rounds, h.running, fun hvalid => ?_⟩, rfl, rfl, fun _ halive => ?_⟩
    · obtain ⟨hrunning, hsequence, hmem⟩ := h.active hvalid
      refine ⟨hrunning, hsequence, (List.mem_erase_of_ne fun hsame => hawaits ?_).mpr hmem⟩
      simp [awaits, ← hsame, tickEvent, hrunning, hsequence]
    · refine iff_of_true ?_ fun hcongested => hawaits hcongested.1
      rcases halive with ⟨hvalid, hsequence, hmem⟩ | hround
      · refine .inl ⟨hvalid, hsequence, (List.mem_erase_of_ne fun hsame => hawaits ?_).mpr hmem⟩
        simp [awaits, ← hsame, tickEvent, (h.active hvalid).1, hsequence]
      · exact .inr hround

/-- The component after a round has ended, before a further one is submitted. -/
theorem Consistent.roundEnded :
    ∃ m₁, Maintenance.roundEnded c.kind r m = m₁ ∧ Consistent c m₁ ∧ m₁.running = m.running ∧
      m₁.roundInflight = false ∧ m₁.roundPending = m.roundPending ∧
      m₁.poolStopped = m.poolStopped ∧ (m.running = true → (m₁.activeTimer.valid = true ↔
        ¬ (m.activeTimer.valid = false ∧ (m.nextSequence = 0 ∨ r.status ≠ .ok)))) := by
  refine ⟨_, rfl, ?_⟩
  have hended : Consistent c { m with roundInflight := false, rounds := m.rounds - 1 } := by
    refine ⟨?_, h.running, h.active⟩
    have hrounds := h.rounds
    have hle : m.roundInflight.toNat ≤ 1 := m.roundInflight.toNat_le
    change m.rounds - 1 = 0
    omega
  unfold Maintenance.roundEnded
  split
  · rename_i hnone
    simp only [Bool.and_eq_true, Bool.not_eq_true'] at hnone
    obtain ⟨hrun, -, hflight, hpending, hpool⟩ := scheduleNextLocked_frame c.kind r
      { m with roundInflight := false, rounds := m.rounds - 1 }
    refine ⟨hended.schedule hnone.1, hrun, hflight, hpending, hpool, fun _ => ?_⟩
    refine (scheduleNextLocked_valid (m := { m with
      roundInflight := false, rounds := m.rounds - 1 }) hid hnone.2 c.kind).trans ?_
    simp [hnone.2]
  · rename_i hactive
    refine ⟨hended, rfl, rfl, rfl, rfl, fun hrunning => ?_⟩
    have hvalid : m.activeTimer.valid = true := by simpa [hrunning] using hactive
    simp [hvalid]

theorem Consistent.roundEnd {stopSeen : Bool} (hseen : stopSeen = true → m.stopped = true) :
    Continues c m (c.runRound stopSeen r m) (.roundEnd stopSeen r) := by
  obtain ⟨m₁, hm₁, hended, hrun, hflight, hpending, hpool, hvalid⟩ := h.roundEnded hid
  cases c with
  | blacklist =>
    unfold MaintenanceComponent.runRound BlacklistMaintenance.runRound
    change Maintenance.roundEnded .blacklistMaintenanceTick r m = m₁ at hm₁
    simp only [hm₁, hrun, hpending, submitOrRemember_eq, Bool.and_eq_true]
    split
    · rename_i hagain
      have hsubmitted := (hended.submit (r := r) hflight).pending (!r.accepted)
      obtain ⟨hactive, haccepted, hrun', hpool'⟩ := submitRoundLocked_frame r m₁
      rw [hflight, Bool.or_false] at haccepted
      refine ⟨hsubmitted, hrun'.trans hrun, hpool'.trans hpool, fun hrunning _ => ?_⟩
      rw [hsubmitted.alive_iff]
      change (submitRoundLocked r m₁).2.activeTimer.valid = true ∨
        (submitRoundLocked r m₁).2.roundInflight = true ↔ _
      rw [hactive, haccepted, hvalid hrunning]
      simp only [Congested, hagain.2, true_and]
      grind
    · rename_i honce
      refine ⟨hended, hrun, hpool, fun hrunning _ => ?_⟩
      have hpendingNot : m.roundPending = false := by simpa [hrunning] using honce
      rw [hended.alive_iff, hvalid hrunning, hflight]
      simp [Congested, hpendingNot]
  | featureState =>
    unfold MaintenanceComponent.runRound FeatureStateMaintenance.runRound
    change Maintenance.roundEnded .cleanupTick r m = m₁ at hm₁
    simp only [hm₁]
    split
    · rename_i hstop
      -- The round returned early, so the component is stopped and nothing is promised.
      have hrunning : m.running = false := by
        by_contra hrunning
        have := h.running (by simpa using hrunning)
        exact absurd (this.symm.trans (hseen hstop)) (by simp)
      refine ⟨⟨?_, h.running, h.active⟩, rfl, rfl, fun hrun => ?_⟩
      · have hrounds := h.rounds
        have hle : m.roundInflight.toNat ≤ 1 := m.roundInflight.toNat_le
        change m.rounds - 1 = 0
        omega
      · exact absurd (hrun.symm.trans hrunning) (by simp)
    · refine ⟨hended, hrun, hpool, fun hrunning _ => ?_⟩
      rw [hended.alive_iff, hvalid hrunning, hflight]
      simp [Congested]

/-- A component that starts has a tick scheduled. -/
theorem Consistent.start (halive : m.running = true → Alive c m) :
    Consistent c (m.start c.kind r).2 ∧
      ((m.start c.kind r).2.running = true → Alive c (m.start c.kind r).2) ∧
      (m.start c.kind r).2.poolStopped = m.poolStopped := by
  unfold Maintenance.start
  split
  · exact ⟨h, halive, rfl⟩
  · rename_i hstopped
    split
    · exact ⟨h, halive, rfl⟩
    · rename_i hrunning
      rw [Bool.not_eq_true] at hstopped hrunning
      have hnone : m.activeTimer.valid = false := by
        by_contra hvalid
        exact absurd ((h.active (by simpa using hvalid)).1.symm.trans hrunning) (by simp)
      have hgoing : Consistent c { m with running := true } :=
        ⟨h.rounds, fun _ => hstopped, fun hvalid => absurd (hvalid.symm.trans hnone) (by simp)⟩
      have hscheduled := hgoing.schedule (r := r) rfl
      obtain ⟨hrun, -, hflight, -, hpool⟩ := scheduleNextLocked_frame c.kind r
        { m with running := true }
      split
      · rename_i hok
        refine ⟨hscheduled, fun _ => hscheduled.alive_iff.mpr (.inl ?_), hpool⟩
        refine (scheduleNextLocked_valid (m := { m with running := true }) hid hnone c.kind).mpr
          fun hfail => ?_
        unfold scheduleNextLocked at hok
        rw [if_pos hfail] at hok
        cases hok
      · rename_i hfail
        refine ⟨⟨hscheduled.rounds, fun hrunning => absurd hrunning (by simp), fun hvalid => ?_⟩,
          fun hrunning => absurd hrunning (by simp), hpool⟩
        refine absurd hvalid ?_
        unfold scheduleNextLocked at hfail ⊢
        split
        · simpa using hnone
        · rename_i hok
          rw [if_neg hok] at hfail
          exact absurd rfl hfail

end

/-! ### Whole runs -/

/-- What holds along runs without a congested step. -/
structure Steady (c : MaintenanceComponent) (m : Maintenance) : Prop where
  consistent : Consistent c m
  poolRuns : m.poolStopped = false
  alive : m.running = true → Alive c m

theorem Steady.continues (h : Steady c m) {m' : Maintenance} {l : MaintenanceEvent}
    (hst : MaintenanceStep c m l m') (hstop : l ≠ .stop) (hpool : l ≠ .poolStop)
    (hstart : ∀ r, l ≠ .start r) : Continues c m m' l := by
  cases hst with
  | start hid => exact absurd rfl (hstart _)
  | stop => exact absurd rfl hstop
  | poolStop => exact absurd rfl hpool
  | tick hevent hid => exact h.consistent.tick hid
  | roundEnd hround hid hseen =>
    refine h.consistent.roundEnd hid fun hsaw => (hseen hsaw).resolve_right fun hpool => ?_
    exact absurd (h.poolRuns.symm.trans hpool) (by simp)

theorem steady_of_reachable (h : (steadySystem c).Reachable m) : Steady c m := by
  refine h.invariant (fun m hinit => ?_) fun m l m' _ hm ⟨hst, hstop, hpool, hcongested⟩ => ?_
  · obtain rfl : m = {} := hinit
    exact ⟨⟨rfl, by simp, by simp [TimerId.valid]⟩, rfl, by simp⟩
  · by_cases hstart : ∃ r, l = .start r
    · obtain ⟨r, rfl⟩ := hstart
      cases hst with
      | start hid =>
        obtain ⟨hconsistent, halive, hsame⟩ := hm.consistent.start hid hm.alive
        exact ⟨hconsistent, hsame.trans hm.poolRuns, halive⟩
    · have hcontinues := hm.continues hst hstop hpool fun r hr => hstart ⟨r, hr⟩
      refine ⟨hcontinues.consistent, hcontinues.poolStopped.trans hm.poolRuns, fun hrunning => ?_⟩
      rw [hcontinues.running] at hrunning
      exact (hcontinues.alive hrunning (hm.alive hrunning)).mpr hcongested

/-- **Maintenance goes on exactly as long as no step is congested.**  In every run in which no step
has both its timer and its round refused, a component that was started has a tick scheduled or a
round queued or running; and a further step leaves it so exactly if it is not such a step. -/
theorem maintenance_continues_iff (h : (steadySystem c).Reachable m) (hrunning : m.running = true) :
    Alive c m ∧ ∀ l m', MaintenanceStep c m l m' → l ≠ .stop → l ≠ .poolStop →
      (Alive c m' ↔ ¬ Congested c m l) := by
  have hsteady := steady_of_reachable h
  have halive := hsteady.alive hrunning
  refine ⟨halive, fun l m' hst hstop hpool => ?_⟩
  by_cases hstart : ∃ r, l = .start r
  · obtain ⟨r, rfl⟩ := hstart
    cases hst with
    | start hid =>
      have hsame : (m.start c.kind r).2 = m := by
        simp [Maintenance.start, hrunning, hsteady.consistent.running hrunning]
      rw [hsame]
      exact iff_of_true halive id
  · exact (hsteady.continues hst hstop hpool fun r hr => hstart ⟨r, hr⟩).alive hrunning halive

/-- A component after a start that went well. -/
def startedMaintenance (c : MaintenanceComponent) : Maintenance :=
  (start c.kind ⟨.ok, ⟨1, 1⟩, true⟩ {}).2

/-- A component whose first tick was delivered while the timer was full; `accepted` says whether
the pool took the round. -/
def tickedMaintenance (c : MaintenanceComponent) (accepted : Bool) : Maintenance :=
  (c.tryPost (tickEvent c.kind 1) ⟨.queueFull, {}, accepted⟩ { startedMaintenance c with
    timers := (startedMaintenance c).timers.erase (tickEvent c.kind 1) }).2

theorem steady_tickedMaintenance (c : MaintenanceComponent) :
    (steadySystem c).Reachable (tickedMaintenance c true) := by
  refine .step (.step (.init rfl) ⟨.start (r := ⟨.ok, ⟨1, 1⟩, true⟩) fun _ => rfl, by simp, by simp,
    id⟩) ⟨.tick ?_ ?_, by simp, by simp, fun h => absurd h.2.2.2 (by simp)⟩
  · cases c <;> decide
  · decide

/-- The round keeps the components alive, unless the timer is still full when it ends. -/
theorem maintenance_continues_deferred :
    (Alive .blacklist (tickedMaintenance .blacklist true) ∧ ¬ Alive .blacklist
      (BlacklistMaintenance.runRound ⟨.queueFull, {}, true⟩ (tickedMaintenance .blacklist true))) ∧
    Alive .featureState (tickedMaintenance .featureState true) ∧ ¬ Alive .featureState
      (FeatureStateMaintenance.runRound false ⟨.queueFull, {}, true⟩
        (tickedMaintenance .featureState true)) := by
  have hblacklist := maintenance_continues_iff (steady_tickedMaintenance .blacklist) rfl
  have hfeature := maintenance_continues_iff (steady_tickedMaintenance .featureState) rfl
  refine ⟨⟨hblacklist.1, fun h => ?_⟩, hfeature.1, fun h => ?_⟩
  · exact (hblacklist.2 (.roundEnd false _) _ (.roundEnd (by decide) (by decide) (by simp))
      (by simp) (by simp)).mp h ⟨rfl, .inr (by decide), by decide⟩
  · exact (hfeature.2 (.roundEnd false _) _ (.roundEnd (by decide) (by decide) (by simp)) (by simp)
      (by simp)).mp h ⟨rfl, .inr (by decide), by decide⟩

/-- The component still runs, but it has neither tick nor round, and gets none until it is
stopped. -/
structure Stranded (c : MaintenanceComponent) (m : Maintenance) : Prop where
  /-- Some run leads here. -/
  reachable : (maintenanceSystem c).Reachable m
  running : m.running = true
  notStopped : m.stopped = false
  poolRuns : m.poolStopped = false
  /-- It is never alive again. -/
  never : ∀ m', (maintenanceSystem c).LeadsBy (fun l => l ≠ .stop ∧ l ≠ .poolStop) m m' →
    ¬ Alive c m'

theorem stranded_tickedMaintenance (c : MaintenanceComponent) :
    Stranded c (tickedMaintenance c false) := by
  have hreach : (maintenanceSystem c).Reachable (tickedMaintenance c false) := by
    refine .step (.step (.init rfl) (.start (r := ⟨.ok, ⟨1, 1⟩, true⟩) fun _ => rfl)) (.tick ?_ ?_)
    · cases c <;> decide
    · decide
  have htimers : (tickedMaintenance c false).timers = [] := by cases c <;> rfl
  have hrounds : (tickedMaintenance c false).rounds = 0 := by cases c <;> rfl
  refine ⟨hreach, by cases c <;> rfl, by cases c <;> rfl, by cases c <;> rfl, fun m' hm' => ?_⟩
  -- without tick and round only a start can happen, which does nothing
  have hsame : m' = tickedMaintenance c false := by
    refine hm'.invariant (I := fun m => m = tickedMaintenance c false) hreach rfl ?_
    rintro m l m' - rfl ⟨hstop, hpool⟩ hst
    cases hst with
    | start hid => cases c <;> rfl
    | stop => exact absurd rfl hstop
    | poolStop => exact absurd rfl hpool
    | tick hevent hid => simp [htimers] at hevent
    | roundEnd hround hid hseen => simp [hrounds] at hround
  rw [hsame]
  unfold Alive
  simp [htimers, hrounds]

/-- **One congested tick ends maintenance for ever**, in both components. -/
theorem congestion_ends_maintenance :
    (∃ m, Stranded .blacklist m) ∧ ∃ m, Stranded .featureState m :=
  ⟨⟨_, stranded_tickedMaintenance .blacklist⟩, ⟨_, stranded_tickedMaintenance .featureState⟩⟩

end AegisFlow
