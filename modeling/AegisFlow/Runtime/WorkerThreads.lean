import AegisFlow.Collections.Basic
import AegisFlow.Collections.Ring
import AegisFlow.Lts.Basic
import AegisFlow.Runtime.WorkerPool

/-!
# The worker pool and its threads

`WorkerPoolState` is the pool as its threads see it: the ring of waiting tasks with its head, tail
and size, the counter of tasks under way, and where every worker thread and every caller of
`drainUntil` stands.  Every step is one critical section.

* `workerPool` : the workers, any number of threads that submit, close and drain, and a thread that
  joins the workers;
* `WorkerPoolState.Accounted` : what every step keeps;
* `pool_accounting` : **every accepted task runs once or is cancelled once**, in the order of
  acceptance, and the counter counts exactly the tasks under way;
* `WorkerPoolState.abstracts_step` : the pool refines `BoundedWorkerPool`.
-/

namespace AegisFlow

/-! ### The pool -/

/-- Where a worker thread stands. -/
inductive WorkerPhase (τ : Type)
  /-- Waits for a task. -/
  | waiting
  | running (task : τ)
  | exited
  deriving DecidableEq, Repr

/-- The task a worker is in. -/
def WorkerPhase.task {τ : Type} : WorkerPhase τ → Option τ
  | .running t => some t
  | _ => none

/-- Where a thread stands with `drainUntil`. -/
inductive DrainPhase
  | outside
  /-- It has closed the pool. -/
  | closed
  /-- It waits for the pool to run dry, or for its deadline. -/
  | waiting
  deriving DecidableEq, Repr

/-- The state of a pool. -/
inductive WorkerPoolPhase
  | running
  | closing
  | stopped
  deriving DecidableEq, Repr

/-- What happens to tasks. -/
inductive WorkerPoolEvent (τ ι : Type)
  | accepted (task : τ)
  | taken (task : τ)
  /-- A worker returned from its task, normally or by an exception. -/
  | finished (task : τ)
  /-- `drainUntil` returned `Ok`. -/
  | drained (thread : ι)
  /-- `drainUntil` cancelled the waiting tasks and returned `DeadlineExceeded`. -/
  | cancelled (thread : ι) (tasks : List τ)
  deriving DecidableEq, Repr

/-- A pool of `threads` workers with `capacity` slots. -/
structure WorkerPoolState (τ ι : Type) (threads capacity : ℕ) where
  queue : Ring τ capacity
  /-- Tasks accepted and not finished yet. -/
  inflight : ℕ
  accepting : Bool
  phase : WorkerPoolPhase
  joinInProgress : Bool
  workers : Fin threads → WorkerPhase τ
  drains : ι → DrainPhase
  /-- What happened so far. -/
  history : List (WorkerPoolEvent τ ι)

namespace WorkerPoolState

variable {τ ι : Type} {threads capacity : ℕ} [NeZero capacity]

/-- A new pool. -/
def create : WorkerPoolState τ ι threads capacity :=
  ⟨.empty, 0, true, .running, false, fun _ => .waiting, fun _ => .outside, []⟩

variable (s : WorkerPoolState τ ι threads capacity)

/-- Submit a task; `none` is a null pointer. -/
def trySubmit (task : Option τ) : WorkerSubmitStatus × WorkerPoolState τ ι threads capacity :=
  if !s.accepting then (.closed, s)
  else match task with
    | none => (.rejected, s)
    | some t =>
      if capacity ≤ s.queue.size then (.rejected, s)
      else (.accepted, { s with
        queue := s.queue.push t
        inflight := s.inflight + 1
        history := s.history ++ [.accepted t] })

/-- Accept no further tasks. -/
def close : WorkerPoolState τ ι threads capacity :=
  if !s.accepting then s else { s with accepting := false, phase := .closing }

/-- The worker has taken the task at the head. -/
def take (w : Fin threads) (t : τ) : WorkerPoolState τ ι threads capacity :=
  { s with
    queue := s.queue.pop.2
    workers := Function.update s.workers w (.running t)
    history := s.history ++ [.taken t] }

/-- The worker has returned from its task. -/
def finish (w : Fin threads) (t : τ) : WorkerPoolState τ ι threads capacity :=
  { s with
    inflight := s.inflight - 1
    workers := Function.update s.workers w .waiting
    history := s.history ++ [.finished t] }

/-- The worker thread ends. -/
def exit (w : Fin threads) : WorkerPoolState τ ι threads capacity :=
  { s with workers := Function.update s.workers w .exited }

theorem history_take (w : Fin threads) (t : τ) :
    (s.take w t).history = s.history ++ [.taken t] := rfl

omit [NeZero capacity] in
theorem history_finish (w : Fin threads) (t : τ) :
    (s.finish w t).history = s.history ++ [.finished t] := rfl

variable [DecidableEq ι] (i : ι)

/-- The thread goes to another place in `drainUntil`. -/
def drainGoes (phase : DrainPhase) : WorkerPoolState τ ι threads capacity :=
  { s with drains := Function.update s.drains i phase }

/-- `drainUntil` returns `Ok`. -/
def drainOk : WorkerPoolState τ ι threads capacity :=
  { s.drainGoes i .outside with history := s.history ++ [.drained i] }

/-- The deadline of `drainUntil` has passed: the waiting tasks are moved out and cancelled. -/
def drainExpire : WorkerPoolState τ ι threads capacity :=
  { s.drainGoes i .outside with
    queue := s.queue.drain.2
    inflight := s.inflight - s.queue.size
    history := s.history ++ [.cancelled i (s.queue.drain.1.filterMap id)] }

omit [NeZero capacity] in
theorem history_drainOk : (s.drainOk i).history = s.history ++ [.drained i] := rfl

end WorkerPoolState

/-- The critical sections of a pool. -/
inductive WorkerPoolAct (τ ι : Type) (threads : ℕ)
  | submit (task : Option τ)
  | close
  | take (w : Fin threads)
  | finish (w : Fin threads)
  | exit (w : Fin threads)
  | drain (i : ι)
  | joinBegin
  | joinEnd

section System

variable {τ ι : Type} {threads capacity : ℕ} [NeZero capacity] [DecidableEq ι]

/-- The steps of a pool.  A thread may find its deadline passed at any time. -/
inductive WorkerPoolStep : WorkerPoolState τ ι threads capacity → WorkerPoolAct τ ι threads →
    WorkerPoolState τ ι threads capacity → Prop
  | submit {s} (task : Option τ) : WorkerPoolStep s (.submit task) (s.trySubmit task).2
  | close {s} : WorkerPoolStep s .close s.close
  | take {s} {w : Fin threads} {t : τ} : s.workers w = .waiting → s.queue.size ≠ 0 →
      s.queue.pop.1 = some t → WorkerPoolStep s (.take w) (s.take w t)
  | finish {s} {w : Fin threads} {t : τ} : s.workers w = .running t →
      WorkerPoolStep s (.finish w) (s.finish w t)
  | exit {s} {w : Fin threads} : s.workers w = .waiting → s.queue.size = 0 →
      s.accepting = false → WorkerPoolStep s (.exit w) (s.exit w)
  /-- `drainUntil` closes the pool first. -/
  | drainClose {s} {i : ι} : s.drains i = .outside →
      WorkerPoolStep s (.drain i) (s.close.drainGoes i .closed)
  | drainDry {s} {i : ι} : s.drains i = .closed → s.phase = .stopped ∨ s.inflight = 0 →
      WorkerPoolStep s (.drain i) (s.drainOk i)
  | drainWait {s} {i : ι} : s.drains i = .closed → ¬ (s.phase = .stopped ∨ s.inflight = 0) →
      WorkerPoolStep s (.drain i) (s.drainGoes i .waiting)
  | drainDone {s} {i : ι} : s.drains i = .waiting → s.inflight = 0 →
      WorkerPoolStep s (.drain i) (s.drainOk i)
  | drainExpire {s} {i : ι} : s.drains i = .waiting → s.inflight ≠ 0 →
      WorkerPoolStep s (.drain i) (s.drainExpire i)
  | joinBegin {s} : s.phase = .closing → s.joinInProgress = false →
      WorkerPoolStep s .joinBegin { s with joinInProgress := true }
  | joinEnd {s} : s.joinInProgress = true → (∀ w, s.workers w = .exited) →
      WorkerPoolStep s .joinEnd { s with phase := .stopped, joinInProgress := false }

/-- A pool and its threads. -/
def workerPool (τ ι : Type) (threads capacity : ℕ) [NeZero capacity] [DecidableEq ι] :
    System (WorkerPoolState τ ι threads capacity) (WorkerPoolAct τ ι threads) :=
  ⟨fun s => s = .create, WorkerPoolStep⟩

end System

/-! ### What happened to the tasks -/

section History

variable {τ ι : Type}

/-- The tasks accepted, in order. -/
def acceptedTasks (history : List (WorkerPoolEvent τ ι)) : List τ :=
  history.filterMap fun | .accepted t => some t | _ => none

/-- The tasks the workers took, in order. -/
def takenTasks (history : List (WorkerPoolEvent τ ι)) : List τ :=
  history.filterMap fun | .taken t => some t | _ => none

/-- The tasks that ran to their end. -/
def finishedTasks (history : List (WorkerPoolEvent τ ι)) : List τ :=
  history.filterMap fun | .finished t => some t | _ => none

/-- The tasks cancelled by calls of `drainUntil` that returned `DeadlineExceeded`. -/
def cancelledTasks (history : List (WorkerPoolEvent τ ι)) : List τ :=
  history.flatMap fun | .cancelled _ ts => ts | _ => []

/-- A call of `drainUntil` has returned `Ok`. -/
def DrainedOk (history : List (WorkerPoolEvent τ ι)) : Prop := ∃ i, .drained i ∈ history

/-- The parts of a history with one more event. -/
structure Extends (h h' : List (WorkerPoolEvent τ ι)) (accepted taken finished cancelled : List τ) :
    Prop where
  accepted : acceptedTasks h' = acceptedTasks h ++ accepted
  taken : takenTasks h' = takenTasks h ++ taken
  finished : finishedTasks h' = finishedTasks h ++ finished
  cancelled : cancelledTasks h' = cancelledTasks h ++ cancelled

variable {h : List (WorkerPoolEvent τ ι)} {t : τ} {i : ι} {ts : List τ}

theorem extends_accepted : Extends h (h ++ [.accepted t]) [t] [] [] [] := by
  constructor <;> simp [acceptedTasks, takenTasks, finishedTasks, cancelledTasks]

theorem extends_taken : Extends h (h ++ [.taken t]) [] [t] [] [] := by
  constructor <;> simp [acceptedTasks, takenTasks, finishedTasks, cancelledTasks]

theorem extends_finished : Extends h (h ++ [.finished t]) [] [] [t] [] := by
  constructor <;> simp [acceptedTasks, takenTasks, finishedTasks, cancelledTasks]

theorem extends_drained : Extends h (h ++ [.drained i]) [] [] [] [] := by
  constructor <;> simp [acceptedTasks, takenTasks, finishedTasks, cancelledTasks]

theorem extends_cancelled : Extends h (h ++ [.cancelled i ts]) [] [] [] ts := by
  constructor <;> simp [acceptedTasks, takenTasks, finishedTasks, cancelledTasks]

@[simp] theorem drainedOk_append {e : WorkerPoolEvent τ ι} :
    DrainedOk (h ++ [e]) ↔ DrainedOk h ∨ ∃ i, e = .drained i := by
  simp only [DrainedOk, List.mem_append, List.mem_singleton, exists_or]
  simp only [eq_comm]

end History

namespace WorkerPoolState

variable {τ ι : Type} {threads capacity : ℕ}

/-- The tasks the workers are in. -/
def runningTasks (s : WorkerPoolState τ ι threads capacity) : List τ :=
  (List.finRange threads).filterMap fun w => (s.workers w).task

variable {s s' : WorkerPoolState τ ι threads capacity} {queued : List τ} {w : Fin threads} {t : τ}

theorem task_update (f : Fin threads → WorkerPhase τ) (phase : WorkerPhase τ) :
    (fun v => (Function.update f w phase v).task) =
      Function.update (fun v => (f v).task) w phase.task := by
  funext v
  by_cases hv : v = w
  · subst hv
    simp
  · simp [Function.update_of_ne hv]

/-- A worker that takes a task is in one more. -/
theorem runningTasks_start (hw : (s.workers w).task = none)
    (hs' : s'.workers = Function.update s.workers w (.running t)) :
    s'.runningTasks.Perm (t :: s.runningTasks) := by
  rw [runningTasks, hs', task_update]
  exact List.filterMap_update_perm (List.nodup_finRange _) (List.mem_finRange w) hw t

/-- A worker that returns from its task is in one less. -/
theorem runningTasks_end {phase : WorkerPhase τ} (hw : s.workers w = .running t)
    (hphase : phase.task = none) (hs' : s'.workers = Function.update s.workers w phase) :
    s.runningTasks.Perm (t :: s'.runningTasks) := by
  refine runningTasks_start (w := w) ?_ ?_
  · rw [hs', Function.update_self, hphase]
  · rw [hs', Function.update_idem, ← hw, Function.update_eq_self]

/-- A worker without a task may change its phase. -/
theorem runningTasks_idle {phase : WorkerPhase τ} (hw : (s.workers w).task = none)
    (hphase : phase.task = none) (hs' : s'.workers = Function.update s.workers w phase) :
    s'.runningTasks = s.runningTasks := by
  rw [runningTasks, hs', task_update, hphase, ← hw, Function.update_eq_self]
  rfl

theorem close_accepting (s : WorkerPoolState τ ι threads capacity) :
    s.close.accepting = false := by
  unfold WorkerPoolState.close
  split_ifs with hclosed
  · simpa using hclosed
  · rfl

/-! ### What every step keeps -/

variable [NeZero capacity]

/-- The books of a pool whose ring holds the tasks `queued`. -/
structure Accounted (s : WorkerPoolState τ ι threads capacity) (queued : List τ) : Prop where
  ring : s.queue.Represents queued
  inflight : s.inflight = queued.length + s.runningTasks.length
  /-- Tasks leave in the order of acceptance. -/
  order : acceptedTasks s.history = takenTasks s.history ++ cancelledTasks s.history ++ queued
  runs : (takenTasks s.history).Perm (finishedTasks s.history ++ s.runningTasks)
  /-- Tasks are cancelled all at once, and none comes after. -/
  cancelled : cancelledTasks s.history ≠ [] → s.accepting = false ∧ queued = []
  /-- A worker ends only when there will be no more tasks. -/
  exited : ∀ w, s.workers w = .exited → s.accepting = false ∧ queued = []
  phase : s.phase ≠ .running → s.accepting = false
  joining : s.joinInProgress = true → s.phase = .closing
  stopped : s.phase = .stopped → ∀ w, s.workers w = .exited
  drains : ∀ i, s.drains i ≠ .outside → s.accepting = false
  drained : DrainedOk s.history → s.accepting = false ∧ s.inflight = 0

theorem accounted_create : (create : WorkerPoolState τ ι threads capacity).Accounted [] := by
  have hrunning : (create : WorkerPoolState τ ι threads capacity).runningTasks = [] := by
    simp [runningTasks, create, WorkerPhase.task]
  refine ⟨Ring.represents_empty, ?_, rfl, ?_, fun h => absurd rfl h, fun w h => ?_, fun h => ?_,
    fun h => ?_, fun h => ?_, fun i h => absurd rfl h, ?_⟩
  · rw [hrunning]
    rfl
  · rw [hrunning]
    exact .refl []
  · cases h
  · exact absurd rfl h
  · cases h
  · cases h
  · rintro ⟨i, hi⟩
    exact absurd hi List.not_mem_nil

theorem Accounted.close (h : s.Accounted queued) : s.close.Accounted queued := by
  unfold WorkerPoolState.close
  split_ifs with hclosed
  · exact h
  · have hopen : s.accepting = true := by simpa using hclosed
    have hrunning : s.phase = .running := by
      by_contra hne
      rw [h.phase hne] at hopen
      cases hopen
    refine ⟨h.ring, h.inflight, h.order, h.runs, fun hc => ⟨rfl, (h.cancelled hc).2⟩,
      fun w hw => ⟨rfl, (h.exited w hw).2⟩, fun _ => rfl, fun _ => rfl, fun hs => ?_,
      fun _ _ => rfl, fun hd => ⟨rfl, (h.drained hd).2⟩⟩
    cases hs

/-- A submission is refused, or the task comes last. -/
theorem trySubmit_cases (s : WorkerPoolState τ ι threads capacity) (task : Option τ) :
    ((s.trySubmit task).1 ≠ .accepted ∧ (s.trySubmit task).2 = s) ∨
    (∃ t, task = some t ∧ s.accepting = true ∧ s.queue.size < capacity ∧
      s.trySubmit task = (.accepted, { s with
        queue := s.queue.push t
        inflight := s.inflight + 1
        history := s.history ++ [.accepted t] })) := by
  unfold WorkerPoolState.trySubmit
  by_cases hopen : s.accepting = true
  · cases task with
    | none => exact .inl (by simp [hopen])
    | some t =>
      by_cases hfull : capacity ≤ s.queue.size
      · exact .inl (by simp [hopen, hfull])
      · exact .inr ⟨t, rfl, hopen, Nat.lt_of_not_le hfull, by simp [hopen, hfull]⟩
  · exact .inl (by simp [hopen])

section

variable (h : s.Accounted queued)
include h

theorem Accounted.trySubmit (task : Option τ) :
    ∃ queued', (s.trySubmit task).2.Accounted queued' := by
  rcases s.trySubmit_cases task with ⟨-, hsame⟩ | ⟨t, -, hopen, hroom, heq⟩
  · rw [hsame]
    exact ⟨queued, h⟩
  · rw [heq]
    have hnone : cancelledTasks s.history = [] := by
      by_contra hne
      rw [(h.cancelled hne).1] at hopen
      cases hopen
    obtain ⟨haccepted, htaken, hfinished, hcancelled⟩ := @extends_accepted _ _ s.history t
    have hinflight := h.inflight
    refine ⟨queued ++ [t], h.ring.push hroom, ?_, ?_, ?_, fun hc => ?_, fun w hw => ?_,
      h.phase, h.joining, h.stopped, h.drains, fun hd => ?_⟩
    · show s.inflight + 1 = (queued ++ [t]).length + s.runningTasks.length
      rw [List.length_append, List.length_singleton]
      omega
    · rw [haccepted, htaken, hcancelled, h.order]
      simp
    · rw [htaken, hfinished, List.append_nil, List.append_nil]
      exact h.runs
    · rw [hcancelled, List.append_nil] at hc
      exact absurd hnone hc
    · rw [(h.exited w hw).1] at hopen
      cases hopen
    · rw [drainedOk_append] at hd
      rcases hd with hd | ⟨i, hi⟩
      · rw [(h.drained hd).1] at hopen
        cases hopen
      · cases hi

/-- The ring gives the oldest of the tasks queued. -/
theorem Accounted.queued_eq (hsize : s.queue.size ≠ 0) :
    ∃ t rest, queued = t :: rest ∧ s.queue.pop.1 = some t ∧ s.queue.pop.2.Represents rest := by
  cases queued with
  | nil => exact absurd h.ring.size hsize
  | cons t rest => exact ⟨t, rest, rfl, h.ring.pop⟩

theorem Accounted.take (hw : s.workers w = .waiting) (hsize : s.queue.size ≠ 0)
    (ht : s.queue.pop.1 = some t) : ∃ queued', (s.take w t).Accounted queued' := by
  obtain ⟨t', rest, rfl, hpop, hring⟩ := h.queued_eq hsize
  obtain rfl : t' = t := Option.some.inj (hpop.symm.trans ht)
  have hnone : cancelledTasks s.history = [] := by
    by_contra hne
    cases (h.cancelled hne).2
  have hstart : (s.take w t').runningTasks.Perm (t' :: s.runningTasks) :=
    runningTasks_start (by rw [hw]; rfl) rfl
  have hlength := hstart.length_eq
  have hinflight := h.inflight
  have horder := h.order
  obtain ⟨haccepted, htaken, hfinished, hcancelled⟩ := @extends_taken _ _ s.history t'
  have hworkers : ∀ v, (s.take w t').workers v = .exited → s.workers v = .exited := by
    intro v hv
    by_cases hvw : v = w
    · subst hvw
      simp [WorkerPoolState.take] at hv
    · simpa [WorkerPoolState.take, Function.update_of_ne hvw] using hv
  refine ⟨rest, hring, ?_, ?_, ?_, fun hc => ?_, fun v hv => ?_, h.phase, h.joining,
    fun hs v => ?_, h.drains, fun hd => ?_⟩
  · show s.inflight = _
    rw [List.length_cons] at hlength hinflight
    omega
  · rw [hnone, List.append_nil] at horder
    rw [history_take, haccepted, htaken, hcancelled, hnone, horder]
    simp
  · rw [history_take, htaken, hfinished, List.append_nil]
    exact ((h.runs.append_right [t']).trans (by
      rw [List.append_assoc]
      exact (List.perm_append_singleton _ _).append_left _)).trans (hstart.symm.append_left _)
  · exact absurd ((hcancelled.trans (List.append_nil _)).trans hnone) hc
  · cases (h.exited v (hworkers v hv)).2
  · have hex := h.stopped hs w
    rw [hw] at hex
    cases hex
  · rw [history_take, drainedOk_append] at hd
    rcases hd with hd | ⟨i, hi⟩
    · exact h.drained hd
    · cases hi

theorem Accounted.finish (hw : s.workers w = .running t) : (s.finish w t).Accounted queued := by
  have hend : s.runningTasks.Perm (t :: (s.finish w t).runningTasks) :=
    runningTasks_end hw rfl rfl
  have hlength := hend.length_eq
  rw [List.length_cons] at hlength
  have hinflight := h.inflight
  obtain ⟨haccepted, htaken, hfinished, hcancelled⟩ := @extends_finished _ _ s.history t
  have hworkers : ∀ v, (s.finish w t).workers v = .exited → s.workers v = .exited := by
    intro v hv
    by_cases hvw : v = w
    · subst hvw
      simp [WorkerPoolState.finish] at hv
    · simpa [WorkerPoolState.finish, Function.update_of_ne hvw] using hv
  refine ⟨h.ring, ?_, ?_, ?_, fun hc => ?_, fun v hv => h.exited v (hworkers v hv), h.phase,
    h.joining, fun hs v => ?_, h.drains, fun hd => ?_⟩
  · show s.inflight - 1 = _
    omega
  · rw [history_finish, haccepted, htaken, hcancelled]
    simpa using h.order
  · rw [history_finish, htaken, hfinished, List.append_nil, List.append_assoc]
    exact h.runs.trans (hend.append_left _)
  · refine h.cancelled ?_
    rwa [history_finish, hcancelled, List.append_nil] at hc
  · have hex := h.stopped hs w
    rw [hw] at hex
    cases hex
  · rw [history_finish, drainedOk_append] at hd
    rcases hd with hd | ⟨i, hi⟩
    · obtain ⟨hclosed, hzero⟩ := h.drained hd
      exact ⟨hclosed, by show s.inflight - 1 = 0; omega⟩
    · cases hi

theorem Accounted.exit (hw : s.workers w = .waiting) (hsize : s.queue.size = 0)
    (hclosed : s.accepting = false) : (s.exit w).Accounted queued := by
  have hidle : (s.exit w).runningTasks = s.runningTasks :=
    runningTasks_idle (by rw [hw]; rfl) rfl rfl
  have hnil : queued = [] := List.length_eq_zero_iff.1 (h.ring.size.symm.trans hsize)
  refine { h with
    inflight := ?_, runs := ?_, exited := fun v _ => ⟨hclosed, hnil⟩, stopped := fun hs v => ?_ }
  · rw [hidle]
    exact h.inflight
  · rw [hidle]
    exact h.runs
  · have hex := h.stopped hs w
    rw [hw] at hex
    cases hex

/-- A pool whose workers have ended has no task under way. -/
theorem Accounted.inflight_of_stopped [NeZero threads] (hs : s.phase = .stopped) :
    s.inflight = 0 := by
  have hexited := h.stopped hs
  have hnil := (h.exited 0 (hexited 0)).2
  have hnone : s.runningTasks = [] := by
    rw [runningTasks, List.filterMap_eq_nil_iff]
    intro w _
    rw [hexited w]
    rfl
  rw [h.inflight, hnil, hnone]
  rfl

end

section Drain

variable [DecidableEq ι] {i : ι}

theorem Accounted.drainGoes (h : s.Accounted queued) (hclosed : s.accepting = false)
    (phase : DrainPhase) : (s.drainGoes i phase).Accounted queued :=
  { h with drains := fun _ _ => hclosed }

theorem Accounted.drainOk (h : s.Accounted queued) (hclosed : s.accepting = false)
    (hzero : s.inflight = 0) : (s.drainOk i).Accounted queued := by
  obtain ⟨haccepted, htaken, hfinished, hcancelled⟩ := @extends_drained τ _ s.history i
  simp only [List.append_nil] at haccepted htaken hfinished hcancelled
  refine ⟨h.ring, h.inflight, ?_, ?_, fun hc => ?_, h.exited, h.phase, h.joining, h.stopped,
    fun _ _ => hclosed, fun _ => ⟨hclosed, hzero⟩⟩
  · rw [history_drainOk, haccepted, htaken, hcancelled]
    exact h.order
  · rw [history_drainOk, htaken, hfinished]
    exact h.runs
  · exact h.cancelled fun hnil => hc (hcancelled.trans hnil)

omit [NeZero capacity] in
theorem drainedOk_drainOk (s : WorkerPoolState τ ι threads capacity) (i : ι) :
    DrainedOk (s.drainOk i).history :=
  ⟨i, List.mem_concat_self⟩

/-- What is cancelled is what the ring held. -/
theorem Accounted.drainExpire (h : s.Accounted queued) (hclosed : s.accepting = false) :
    (s.drainExpire i).Accounted [] := by
  obtain ⟨hout, hring⟩ := h.ring.drain
  have hevent : (s.drainExpire i).history = s.history ++ [.cancelled i queued] := by
    show s.history ++ [.cancelled i (s.queue.drain.1.filterMap id)] = _
    rw [hout, List.filterMap_map]
    simp
  obtain ⟨haccepted, htaken, hfinished, hcancelled⟩ := @extends_cancelled τ _ s.history i queued
  simp only [List.append_nil] at haccepted htaken hfinished
  have hinflight := h.inflight
  have hsize := h.ring.size
  refine ⟨hring, ?_, ?_, ?_, fun _ => ⟨hclosed, rfl⟩, fun v hv => ⟨hclosed, rfl⟩, h.phase,
    h.joining, h.stopped, fun _ _ => hclosed, fun hd => ?_⟩
  · show s.inflight - s.queue.size = 0 + s.runningTasks.length
    omega
  · rw [hevent, haccepted, htaken, hcancelled, h.order]
    simp
  · rw [hevent, htaken, hfinished]
    exact h.runs
  · rw [hevent, drainedOk_append] at hd
    rcases hd with hd | ⟨j, hj⟩
    · refine ⟨hclosed, ?_⟩
      show s.inflight - s.queue.size = 0
      rw [(h.drained hd).2, Nat.zero_sub]
    · cases hj

variable [NeZero threads]

/-- Every step keeps the books. -/
theorem Accounted.step {act : WorkerPoolAct τ ι threads} (h : s.Accounted queued)
    (hstep : WorkerPoolStep s act s') : ∃ queued', s'.Accounted queued' := by
  cases hstep with
  | submit task => exact h.trySubmit task
  | close => exact ⟨_, h.close⟩
  | take hw hsize ht => exact h.take hw hsize ht
  | finish hw => exact ⟨_, h.finish hw⟩
  | exit hw hsize hclosed => exact ⟨_, h.exit hw hsize hclosed⟩
  | drainClose _ => exact ⟨_, h.close.drainGoes s.close_accepting _⟩
  | drainDry hi hdry =>
    have hclosed := h.drains _ (by rw [hi]; decide)
    exact ⟨_, h.drainOk hclosed (hdry.elim h.inflight_of_stopped id)⟩
  | drainWait hi _ => exact ⟨_, h.drainGoes (h.drains _ (by rw [hi]; decide)) _⟩
  | drainDone hi hzero => exact ⟨_, h.drainOk (h.drains _ (by rw [hi]; decide)) hzero⟩
  | drainExpire hi _ => exact ⟨_, h.drainExpire (h.drains _ (by rw [hi]; decide))⟩
  | joinBegin hphase _ =>
    exact ⟨_, { h with joining := fun _ => hphase }⟩
  | joinEnd hjoin hall =>
    have hclosed := h.phase (by rw [h.joining hjoin]; decide)
    exact ⟨_, { h with
      phase := fun _ => hclosed, joining := nofun, stopped := fun _ => hall }⟩

theorem accounted_of_reachable (hr : (workerPool τ ι threads capacity).Reachable s) :
    ∃ queued, s.Accounted queued := by
  induction hr with
  | init hi =>
    obtain rfl := hi
    exact ⟨[], accounted_create⟩
  | step _ hstep ih =>
    obtain ⟨queued, h⟩ := ih
    exact h.step hstep

/-- **The books of the worker pool.**  In every reachable state of a pool, whatever its threads do:
the counter counts the tasks in the ring and those the workers are in; the ring never holds more
than its capacity, and a worker that finds it occupied gets a task; the tasks accepted are, in this
order, those taken by workers, those cancelled by calls of `drainUntil` that returned
`DeadlineExceeded`, and those that wait; every task taken has run to its end once or is running
now, so every accepted task is in one place only; and once `drainUntil` has returned `Ok`, every
task ever accepted has run to its end or was cancelled and the counter is zero. -/
theorem pool_accounting [DecidableEq τ] (hr : (workerPool τ ι threads capacity).Reachable s) :
    s.inflight = s.queue.size + s.runningTasks.length ∧
    s.queue.size ≤ capacity ∧
    (s.queue.size ≠ 0 → s.queue.pop.1 ≠ none) ∧
    (∃ queued, s.queue.Represents queued ∧
      acceptedTasks s.history = takenTasks s.history ++ cancelledTasks s.history ++ queued ∧
      (takenTasks s.history).Perm (finishedTasks s.history ++ s.runningTasks) ∧
      ∀ t, (acceptedTasks s.history).count t =
        (finishedTasks s.history).count t + s.runningTasks.count t +
          (cancelledTasks s.history).count t + queued.count t) ∧
    (DrainedOk s.history → s.inflight = 0 ∧
      acceptedTasks s.history = takenTasks s.history ++ cancelledTasks s.history ∧
      (takenTasks s.history).Perm (finishedTasks s.history)) := by
  obtain ⟨queued, h⟩ := accounted_of_reachable hr
  have hinflight := h.inflight
  refine ⟨by rw [h.ring.size]; exact hinflight, h.ring.size_le, fun hsize => ?_,
    ⟨queued, h.ring, h.order, h.runs, fun t => ?_⟩, fun hd => ?_⟩
  · obtain ⟨t, rest, -, hpop, -⟩ := h.queued_eq hsize
    rw [hpop]
    exact Option.some_ne_none t
  · rw [h.order, List.count_append, List.count_append, h.runs.count_eq, List.count_append]
  · have hzero := (h.drained hd).2
    have hqueued : queued = [] := List.length_eq_zero_iff.1 (by omega)
    have hrunning : s.runningTasks = [] := List.length_eq_zero_iff.1 (by omega)
    have horder := h.order
    have hruns := h.runs
    rw [hqueued, List.append_nil] at horder
    rw [hrunning, List.append_nil] at hruns
    exact ⟨hzero, horder, hruns⟩

end Drain

/-- One worker is in the first of two tasks when the deadline of `drainUntil` passes; the second
task is cancelled, and a later call finds the pool dry. -/
theorem pool_accounting_cancelled :
    ∃ s : WorkerPoolState ℕ Unit 1 2, (workerPool ℕ Unit 1 2).Reachable s ∧ DrainedOk s.history ∧
      takenTasks s.history = [7] ∧ cancelledTasks s.history = [8] ∧ s.inflight = 0 := by
  have h₀ : (workerPool ℕ Unit 1 2).Reachable .create := .init rfl
  have h₁ := (h₀.step (.submit (some 7))).step (.submit (some 8))
  have h₂ := h₁.step (.take (w := 0) (t := 7) rfl (by decide) rfl)
  have h₃ := (h₂.step (.drainClose (i := ()) rfl)).step (.drainWait (i := ()) rfl (by decide))
  have h₄ := (h₃.step (.drainExpire (i := ()) rfl (by decide))).step (.finish (w := 0) (t := 7) rfl)
  have h₅ := (h₄.step (.drainClose (i := ()) rfl)).step (.drainDry (i := ()) rfl (.inr rfl))
  obtain ⟨-, -, -, -, hdry⟩ := pool_accounting h₅
  exact ⟨_, h₅, drainedOk_drainOk _ _, by decide, by decide, (hdry (drainedOk_drainOk _ _)).1⟩

/-! ### The pool without threads -/

/-- The pool as `BoundedWorkerPool` has it: the tasks in the ring as a list, and the tasks the
workers are in without saying which worker is in which. -/
structure Abstracts (s : WorkerPoolState τ ι threads capacity) (pool : BoundedWorkerPool τ) :
    Prop where
  threadCount : pool.threadCount = threads
  queueCapacity : pool.queueCapacity = capacity
  queue : s.queue.Represents pool.queue
  running : pool.running.Perm s.runningTasks
  inflight : pool.inflight = s.inflight
  accepting : pool.accepting = s.accepting

variable {pool : BoundedWorkerPool τ}

omit [NeZero capacity] in
theorem length_runningTasks_le (s : WorkerPoolState τ ι threads capacity) :
    s.runningTasks.length ≤ threads := by
  simpa [runningTasks] using List.length_filterMap_le (fun w => (s.workers w).task)
    (List.finRange threads)

section

variable (h : s.Abstracts pool)
include h

theorem Abstracts.close : s.close.Abstracts pool.close := by
  unfold WorkerPoolState.close
  split_ifs with hclosed
  · have hfalse : s.accepting = false := by simpa using hclosed
    exact ⟨h.threadCount, h.queueCapacity, h.queue, h.running, h.inflight, hfalse.symm⟩
  · exact ⟨h.threadCount, h.queueCapacity, h.queue, h.running, h.inflight, rfl⟩

theorem Abstracts.trySubmit (task : Option τ) :
    (pool.trySubmit task).1 = (s.trySubmit task).1 ∧
      (s.trySubmit task).2.Abstracts (pool.trySubmit task).2 := by
  have hsize := h.queue.size
  have hcapacity := h.queueCapacity
  unfold WorkerPoolState.trySubmit BoundedWorkerPool.trySubmit
  rw [h.accepting]
  by_cases hopen : s.accepting = true
  · cases task with
    | none => exact ⟨by simp [hopen], by simpa [hopen] using h⟩
    | some t =>
      by_cases hfull : capacity ≤ s.queue.size
      · have hfull' : pool.queueCapacity ≤ pool.queue.length := by omega
        simp only [hopen, hfull, hfull', Bool.not_true, Bool.false_eq_true, if_false, if_true,
          dite_true]
        exact ⟨trivial, h⟩
      · have hfull' : ¬ pool.queueCapacity ≤ pool.queue.length := by omega
        simp only [hopen, hfull, hfull', Bool.not_true, Bool.false_eq_true, if_false, dite_false]
        exact ⟨trivial, h.threadCount, h.queueCapacity, h.queue.push (by omega), h.running,
          congrArg (· + 1) h.inflight, rfl⟩
  · simp only [hopen, Bool.not_false, if_true]
    exact ⟨trivial, h⟩

theorem Abstracts.take (hw : s.workers w = .waiting) (hsize : s.queue.size ≠ 0)
    (ht : s.queue.pop.1 = some t) :
    ∃ pool', pool.take = some pool' ∧ (s.take w t).Abstracts pool' := by
  have hstart : (s.take w t).runningTasks.Perm (t :: s.runningTasks) :=
    runningTasks_start (by rw [hw]; rfl) rfl
  have hroom : pool.running.length < pool.threadCount := by
    have hle := (s.take w t).length_runningTasks_le
    rw [hstart.length_eq, List.length_cons] at hle
    rw [h.threadCount, h.running.length_eq]
    exact hle
  have hqueue := h.queue
  unfold BoundedWorkerPool.take
  split
  · next hnil =>
    rw [hnil] at hqueue
    exact absurd hqueue.size hsize
  · next t' rest hcons =>
    rw [hcons] at hqueue
    obtain ⟨hpop, hring⟩ := hqueue.pop
    obtain rfl : t' = t := Option.some.inj (hpop.symm.trans ht)
    rw [dif_pos hroom]
    exact ⟨_, rfl, h.threadCount, h.queueCapacity, hring,
      (h.running.cons t').trans hstart.symm, h.inflight, h.accepting⟩

theorem Abstracts.finish [DecidableEq τ] (hw : s.workers w = .running t) :
    ∃ pool', pool.finish t = some pool' ∧ (s.finish w t).Abstracts pool' := by
  have hend : s.runningTasks.Perm (t :: (s.finish w t).runningTasks) :=
    runningTasks_end hw rfl rfl
  have hmem : t ∈ pool.running := (h.running.trans hend).symm.subset List.mem_cons_self
  rw [BoundedWorkerPool.finish, dif_pos hmem]
  refine ⟨_, rfl, h.threadCount, h.queueCapacity, h.queue, ?_, congrArg (· - 1) h.inflight,
    h.accepting⟩
  have herase := (h.running.trans hend).erase t
  rwa [List.erase_cons_head] at herase

theorem Abstracts.drainExpire [DecidableEq ι] {i : ι} (hclosed : s.accepting = false) :
    (s.drainExpire i).Abstracts pool.cancelQueued := by
  refine ⟨h.threadCount, h.queueCapacity, h.queue.drain.2, h.running, ?_, hclosed.symm⟩
  show pool.inflight - pool.queue.length = s.inflight - s.queue.size
  rw [h.inflight, h.queue.size]

end

/-- What a step of the threads is to the pool without threads. -/
inductive PoolMove [DecidableEq τ] (pool : BoundedWorkerPool τ) : BoundedWorkerPool τ → Prop
  | stay : PoolMove pool pool
  | submit (task : Option τ) : PoolMove pool (pool.trySubmit task).2
  | close : PoolMove pool pool.close
  | take {pool'} : pool.take = some pool' → PoolMove pool pool'
  | finish {pool'} (t : τ) : pool.finish t = some pool' → PoolMove pool pool'
  | cancel : PoolMove pool pool.cancelQueued

/-- **The pool refines `BoundedWorkerPool`**: every critical section is one of its operations, or
cannot be seen in it. -/
theorem abstracts_step [DecidableEq τ] [DecidableEq ι] [NeZero threads]
    {act : WorkerPoolAct τ ι threads} (hr : (workerPool τ ι threads capacity).Reachable s)
    (h : s.Abstracts pool) (hstep : WorkerPoolStep s act s') :
    ∃ pool', PoolMove pool pool' ∧ s'.Abstracts pool' := by
  obtain ⟨queued, hbooks⟩ := accounted_of_reachable hr
  have hsame {s' : WorkerPoolState τ ι threads capacity} (hqueue : s'.queue = s.queue)
      (hworkers : s'.runningTasks = s.runningTasks) (hinflight : s'.inflight = s.inflight)
      (haccepting : s'.accepting = s.accepting) : s'.Abstracts pool :=
    ⟨h.threadCount, h.queueCapacity, hqueue ▸ h.queue, hworkers ▸ h.running,
      hinflight ▸ h.inflight, haccepting ▸ h.accepting⟩
  cases hstep with
  | submit task => exact ⟨_, .submit task, (h.trySubmit task).2⟩
  | close => exact ⟨_, .close, h.close⟩
  | take hw hsize ht =>
    obtain ⟨pool', htake, h'⟩ := h.take hw hsize ht
    exact ⟨pool', .take htake, h'⟩
  | finish hw =>
    obtain ⟨pool', hfinish, h'⟩ := h.finish hw
    exact ⟨pool', .finish _ hfinish, h'⟩
  | exit hw _ _ =>
    exact ⟨_, .stay, hsame rfl (runningTasks_idle (by rw [hw]; rfl) rfl rfl) rfl rfl⟩
  | drainClose _ =>
    obtain ⟨hthreads, hcapacity, hqueue, hrunning, hinflight, haccepting⟩ := h.close
    exact ⟨_, .close, hthreads, hcapacity, hqueue, hrunning, hinflight, haccepting⟩
  | drainExpire hi _ =>
    exact ⟨_, .cancel, h.drainExpire (hbooks.drains _ (by rw [hi]; decide))⟩
  | drainDry _ _ => exact ⟨_, .stay, hsame rfl rfl rfl rfl⟩
  | drainWait _ _ => exact ⟨_, .stay, hsame rfl rfl rfl rfl⟩
  | drainDone _ _ => exact ⟨_, .stay, hsame rfl rfl rfl rfl⟩
  | joinBegin _ _ => exact ⟨_, .stay, hsame rfl rfl rfl rfl⟩
  | joinEnd _ _ => exact ⟨_, .stay, hsame rfl rfl rfl rfl⟩

theorem abstracts_create :
    (create : WorkerPoolState τ ι threads capacity).Abstracts (.empty threads capacity) := by
  refine ⟨rfl, rfl, Ring.represents_empty, ?_, rfl, rfl⟩
  have hnone : (create : WorkerPoolState τ ι threads capacity).runningTasks = [] := by
    simp [runningTasks, create, WorkerPhase.task]
  rw [hnone]
  exact .refl []

/-- **Every run of the threads is one of `BoundedWorkerPool`**, and a submitter is told what
`BoundedWorkerPool` tells. -/
theorem threads_refine_pool [DecidableEq τ] [DecidableEq ι] [NeZero threads]
    (hr : (workerPool τ ι threads capacity).Reachable s) :
    ∃ pool, Relation.ReflTransGen PoolMove (.empty threads capacity) pool ∧ s.Abstracts pool ∧
      ∀ task, (pool.trySubmit task).1 = (s.trySubmit task).1 := by
  have hrun : ∃ pool, Relation.ReflTransGen PoolMove (.empty threads capacity) pool ∧
      s.Abstracts pool := by
    refine hr.invariant (I := fun s => ∃ pool, Relation.ReflTransGen PoolMove
      (.empty threads capacity) pool ∧ s.Abstracts pool) ?_ ?_
    · rintro s rfl
      exact ⟨_, .refl, abstracts_create⟩
    · intro s act s' hr ih hstep
      obtain ⟨pool, hmoves, habs⟩ := ih
      obtain ⟨pool', hmove, habs'⟩ := abstracts_step hr habs hstep
      exact ⟨pool', hmoves.tail hmove, habs'⟩
  obtain ⟨pool, hmoves, habs⟩ := hrun
  exact ⟨pool, hmoves, habs, fun task => (habs.trySubmit task).1⟩

/-- A task waits for the only worker. -/
theorem threads_refine_pool_waiting : ∃ s : WorkerPoolState ℕ Unit 1 2, s.queue.size = 1 ∧
    ∃ pool, Relation.ReflTransGen PoolMove (.empty 1 2) pool ∧ s.Abstracts pool := by
  have hr : (workerPool ℕ Unit 1 2).Reachable _ :=
    (System.Reachable.init rfl).step (.submit (some 7))
  obtain ⟨pool, hmoves, habs, -⟩ := threads_refine_pool hr
  exact ⟨_, rfl, pool, hmoves, habs⟩

end WorkerPoolState

end AegisFlow
