import AegisFlow.App.MaintenanceCore
import AegisFlow.Interaction.Pool
import AegisFlow.Runtime.WorkerPool

/-!
# From business tasks to the store

The candidate queue between its producers and its consumer.  Business tasks run in a bounded
worker pool and submit candidates; the maintenance worker makes calls of the maintenance core,
interleaved with the producers at every operation, against a backend that may answer anything
or throw.  `FlowWorld` records, next to the queue and the pool, what happened so far: which
candidates were accepted and from which task, and which batches the backend acknowledged.

* `candidateFlow` : the transition system;
* `coreContract` : what the code of the core promises: a batch is written only as it was
  reserved, acknowledged only after the backend confirmed it, and a reset barrier is completed
  only if the queue was seen empty after no business task was seen under way.
-/

namespace AegisFlow

variable [Inet]

/-! ### The world of the core -/

/-- The queue, the business pool, and the history of a run. -/
structure FlowWorld where
  queue : CandidateQueue
  /-- The pool of business tasks, which are numbered in the order of acceptance. -/
  pool : BoundedWorkerPool ℕ
  /-- How many business tasks were accepted so far. -/
  taskCount : ℕ
  /-- The candidates the queue accepted, oldest first, with the task they came from; `none` for
  a producer outside of the pool. -/
  accepted : List (Option ℕ × BlacklistMutation)
  /-- The batches the backend confirmed with a revision. -/
  applied : List (List BlacklistMutation)
  /-- How many business tasks had been accepted when the core last asked for their number. -/
  observed : ℕ
  /-- The rest of the queue was thrown away on shutdown. -/
  discarded : Bool

/-- What producers, business workers and the shutdown do. -/
inductive FlowEvent
  | submitTask
  | takeTask
  | finishTask (task : ℕ)
  | cancelTasks
  | closePool
  | submitCandidate (source : Option ℕ) (candidate : BlacklistMutation)
  | closeQueue
  | discardRemaining

namespace FlowWorld

/-- The world after a candidate was submitted. -/
def submitted (w : FlowWorld) (source : Option ℕ) (candidate : BlacklistMutation) : FlowWorld :=
  { w with
    queue := (w.queue.trySubmit candidate).2
    accepted :=
      if (w.queue.trySubmit candidate).1 = .accepted then w.accepted ++ [(source, candidate)]
      else w.accepted }

/-- The effect of an event; `none` if it cannot happen. -/
def next (w : FlowWorld) : FlowEvent → Option FlowWorld
  | .submitTask =>
    some { w with
      pool := (w.pool.trySubmit (some w.taskCount)).2
      taskCount :=
        if (w.pool.trySubmit (some w.taskCount)).1 = .accepted then w.taskCount + 1
        else w.taskCount }
  | .takeTask => w.pool.take.map fun pool => { w with pool := pool }
  | .finishTask task => (w.pool.finish task).map fun pool => { w with pool := pool }
  | .cancelTasks => some { w with pool := w.pool.cancelQueued }
  | .closePool => some { w with pool := w.pool.close }
  | .submitCandidate source candidate =>
    -- a business task submits its candidates while it runs
    if ∀ task ∈ source, task ∈ w.pool.running then some (w.submitted source candidate) else none
  | .closeQueue => some { w with queue := w.queue.close }
  | .discardRemaining =>
    some { w with queue := w.queue.discardRemainingOnShutdown.2, discarded := true }

/-- The backend confirmed a batch. -/
def confirmed : Option StoreResult → Bool
  | some ⟨.ok, some _⟩ => true
  | _ => false

/-- How the operations of the core are answered.  The backend answers as it likes. -/
def serve (w : FlowWorld) : (op : CoreOp) → op.Reply → FlowWorld → Prop
  | .businessInflight, n, w' =>
    n = w.pool.inflightCount ∧ w' = { w with observed := w.taskCount }
  | .queueEmpty, b, w' => b = w.queue.empty ∧ w' = w
  | .reserveBatch maxBatchSize, batch, w' =>
    batch = (w.queue.reserveBatch maxBatchSize).1 ∧
      w' = { w with queue := (w.queue.reserveBatch maxBatchSize).2 }
  | .acknowledgeReserved, _, w' => w' = { w with queue := w.queue.acknowledgeReserved }
  | .takeDroppedSinceLastReport, n, w' =>
    n = w.queue.takeDroppedSinceLastReport.1 ∧
      w' = { w with queue := w.queue.takeDroppedSinceLastReport.2 }
  | .applyCandidates batch, r, w' =>
    w' = if confirmed r then { w with applied := w.applied ++ [batch] } else w
  | _, _, w' => w' = w

end FlowWorld

/-! ### What the core knows -/

/-- The view of the maintenance worker. -/
structure CoreView where
  /-- The batch it reserved and has not acknowledged. -/
  batch : List BlacklistMutation
  /-- The backend confirmed that batch. -/
  written : Bool
  /-- No business task was under way when it last asked. -/
  quiet : Bool
  /-- Since then, it saw the queue empty. -/
  drained : Bool

namespace CoreView

/-- The view after an operation. -/
@[simp] def upd (v : CoreView) : (op : CoreOp) → op.Reply → CoreView
  | .businessInflight, n => { v with quiet := n == 0, drained := false }
  | .queueEmpty, b => { v with drained := v.drained || (v.quiet && b) }
  | .reserveBatch _, batch => { v with batch := batch, written := false }
  | .acknowledgeReserved, _ => { v with batch := [], written := false }
  | .applyCandidates batch, r => { v with written := FlowWorld.confirmed r && batch == v.batch }
  | _, _ => v

/-- The operations the core may perform. -/
@[simp] def allow (v : CoreView) : CoreOp → Prop
  | .applyCandidates batch => batch = v.batch ∧ batch ≠ []
  | .acknowledgeReserved => v.written = true
  | .completeResetBarrier _ => v.drained = true
  | _ => True

end CoreView

/-- The maintenance worker and its producers. -/
def candidateFlow (config : BlacklistMaintenanceConfig) :
    Pool CoreSig Unit CoreCall FlowEvent FlowWorld CoreView CoreState (Option Bool) where
  init w v _ := w.queue.queued = [] ∧ w.queue.reservedBatch = [] ∧ w.pool.queue = [] ∧
    w.pool.running = [] ∧ w.taskCount = 0 ∧ w.accepted = [] ∧ w.applied = [] ∧ w.observed = 0 ∧
    w.discarded = false ∧ v () = ⟨[], false, false, false⟩
  may _ _ := True
  code := CoreCall.code config
  serve _ := FlowWorld.serve
  env w e w' := w.next e = some w'
  enter _ v := v
  upd := CoreView.upd

/-! ### The code of the core keeps its contract -/

/-- The procedure performs only operations that the view allows. -/
abbrev Keeps {α : Type} (v : CoreView) (c : CoreState) (m : Core α) : Prop :=
  Proc.Meets CoreView.upd CoreView.allow (fun _ _ _ => True) v c m

theorem Keeps.bind {α β : Type} {v : CoreView} {c : CoreState} {m : Core α} {f : α → Core β}
    (hm : Keeps v c m) (hf : ∀ v c a, Keeps v c (f a)) : Keeps v c (m >>= f) :=
  Proc.Meets.bind hm (fun v c a _ => hf v c a) fun _ _ _ => trivial

theorem Keeps.tryCatch {α : Type} {v : CoreView} {c : CoreState} {m h : Core α}
    (hm : Keeps v c m) (hh : ∀ v c, Keeps v c h) : Keeps v c (Proc.tryCatch m h) :=
  Proc.Meets.tryCatch hm (fun _ _ _ h => h) fun v c _ => hh v c

section Keeps

variable (config : BlacklistMaintenanceConfig) (v : CoreView) (c : CoreState)

theorem keeps_ensureBackend : Keeps v c Core.ensureBackend := by
  simp [Core.ensureBackend, CoreView.allow, CoreView.upd, -bind_pure_comp]

theorem keeps_flushOneCandidateBatch : Keeps v c (Core.flushOneCandidateBatch config) := by
  simp only [Core.flushOneCandidateBatch, Core.applyCandidates, bind_assoc,
    Proc.meets_perform_bind, Proc.meets_ofOption_bind, Proc.meets_ite, Proc.meets_pure,
    implies_true, and_true, true_and, CoreView.allow, CoreView.upd]
  rintro - - batch hne
  refine ⟨by simpa using hne, ?_⟩
  rintro - ⟨status, revision⟩ rfl hok
  -- the batch is acknowledged only if the reply confirms it
  simp only [ne_eq, not_or, not_not, Option.isNone_iff_eq_none] at hok
  obtain ⟨rev, rfl⟩ := Option.ne_none_iff_exists'.mp hok.2
  simp [FlowWorld.confirmed, hok.1]

theorem keeps_drainLoop (fuel : ℕ) : Keeps v c (Core.drainLoop config fuel) := by
  induction fuel generalizing v c with
  | zero => simp [Core.drainLoop]
  | succ n ih =>
    simp only [Core.drainLoop, Proc.meets_perform_bind, Proc.meets_ite, Proc.meets_pure,
      implies_true, true_and, CoreView.allow, CoreView.upd]
    intro _ _ _ _
    refine (keeps_flushOneCandidateBatch config _ c).bind fun v c flushed => ?_
    simp [CoreView.allow, CoreView.upd, ih]

theorem keeps_drainCandidatesUntil (fuel : ℕ) :
    Keeps v c (Core.drainCandidatesUntil config fuel) := by
  simp only [Core.drainCandidatesUntil, Proc.meets_perform_bind, CoreView.allow, CoreView.upd,
    true_and]
  intro _
  refine (keeps_ensureBackend v c).bind fun v c ready => ?_
  simp only [Proc.meets_ite, Proc.meets_pure, implies_true, and_true]
  intro _
  refine (keeps_drainLoop config v c fuel).tryCatch fun v c => ?_
  simp [Core.resetBackend, -bind_pure_comp]

theorem keeps_handleResetBarrier (fuel : ℕ) (barrier : ResetReadResult) :
    Keeps v c (Core.handleResetBarrier config fuel barrier) := by
  simp only [Core.handleResetBarrier, Proc.meets_perform_bind, Proc.meets_ite, Proc.meets_pure,
    CoreView.allow, CoreView.upd, true_and, implies_true]
  intro _ n _
  refine (keeps_drainCandidatesUntil config _ c fuel).bind fun v c drained => ?_
  -- the second observation of no task under way, then the empty queue, allow the completion
  simp [Core.completeResetBarrier, CoreView.allow, CoreView.upd, -bind_pure_comp]

theorem keeps_removeExpired (expired : List BlacklistEntry) (cleanupDue : Bool)
    (revision nowMs : ℕ) : Keeps v c (Core.removeExpired expired cleanupDue revision nowMs) := by
  simp only [Core.removeExpired, Core.removeExpiredFields, bind_assoc, Proc.meets_perform_bind,
    Proc.meets_ofOption_bind, Proc.meets_ite, Proc.meets_pure, implies_true, and_true, true_and,
    CoreView.allow, CoreView.upd]
  intro _ _ removed _
  split <;> simp [CoreView.allow, CoreView.upd]

theorem keeps_publishActive (active : List BlacklistEntry) (publishedRevision : ℕ)
    (cleanupDue : Bool) (nowMs steadyNow : ℕ) :
    Keeps v c (Core.publishActive config active publishedRevision cleanupDue nowMs steadyNow) := by
  unfold Core.publishActive
  split <;> simp [CoreView.allow, CoreView.upd]

theorem keeps_refreshSnapshotAndExpiry (nowMs steadyNow : ℕ) :
    Keeps v c (Core.refreshSnapshotAndExpiry config nowMs steadyNow) := by
  simp only [Core.refreshSnapshotAndExpiry, Core.readRevision, bind_assoc,
    Proc.meets_perform_bind, Proc.meets_ofOption_bind, Proc.meets_ite, Proc.meets_pure,
    implies_true, and_true, true_and, CoreView.allow, CoreView.upd]
  intro _ _ _ read _
  split
  · simp only [Core.loadStableSnapshot, bind_assoc, Proc.meets_get_bind, Proc.meets_perform_bind,
      Proc.meets_ofOption_bind, Proc.meets_ite, Proc.meets_pure, implies_true, and_true, true_and,
      CoreView.allow, CoreView.upd]
    intro _ _ snapshot _ _ _ _
    split
    · simp
    · refine (keeps_removeExpired v c _ _ _ _).bind fun v c published => ?_
      split
      · simp
      · exact keeps_publishActive config v c _ _ _ _ _
  · simp

theorem keeps_retryPublishedRevision : Keeps v c Core.retryPublishedRevision := by
  simp [Core.retryPublishedRevision, Core.setPublishedRevision, CoreView.allow, CoreView.upd]

theorem keeps_deleteInvalid (ids : List Bytes) : Keeps v c (Core.deleteInvalid ids) := by
  simp [Core.deleteInvalid, Core.deletePending, CoreView.allow, CoreView.upd, -bind_pure_comp]

theorem keeps_flushOnePendingBatch : Keeps v c (Core.flushOnePendingBatch config) := by
  simp only [Core.flushOnePendingBatch, Core.readPending, bind_assoc, Proc.meets_perform_bind,
    Proc.meets_ofOption_bind, Proc.meets_ite, Proc.meets_pure, implies_true, and_true, true_and,
    CoreView.allow, CoreView.upd]
  intro _ _ _ pending _ _
  refine (keeps_deleteInvalid v c _).bind fun v c deleted => ?_
  simp [Core.deletePending, Core.applyMysqlMutations, CoreView.allow, CoreView.upd,
    -bind_pure_comp]

theorem keeps_roundBody (fuel nowMs steadyNow : ℕ) :
    Keeps v c (Core.roundBody config fuel nowMs steadyNow) := by
  simp only [Core.roundBody, Core.readResetBarrier, bind_assoc, Proc.meets_perform_bind,
    Proc.meets_ofOption_bind, Proc.meets_ite, Proc.meets_pure, implies_true, and_true, true_and,
    CoreView.allow, CoreView.upd]
  intro _ barrier _ _
  have hrest : ∀ (v : CoreView) (c : CoreState) (flushed : Bool), Keeps v c (if flushed then do
      Core.refreshSnapshotAndExpiry config nowMs steadyNow
      Core.retryPublishedRevision
      Core.flushOnePendingBatch config else pure ()) := by
    intro v c flushed
    simp only [Proc.meets_ite, Proc.meets_pure, implies_true, and_true]
    intro _
    refine (keeps_refreshSnapshotAndExpiry config v c nowMs steadyNow).bind fun v c _ => ?_
    refine (keeps_retryPublishedRevision v c).bind fun v c _ => ?_
    exact keeps_flushOnePendingBatch config v c
  exact ⟨fun _ => (keeps_handleResetBarrier config v c fuel barrier).bind hrest,
    fun _ => (keeps_flushOneCandidateBatch config v c).bind hrest⟩

theorem keeps_runRound (fuel nowMs steadyNow : ℕ) :
    Keeps v c (Core.runRound config fuel nowMs steadyNow) := by
  simp only [Core.runRound, Proc.meets_modify_bind, Proc.meets_perform_bind, CoreView.allow,
    CoreView.upd, true_and]
  intro _
  refine (keeps_ensureBackend v _).bind fun v c ready => ?_
  simp only [Proc.meets_perform_bind, Proc.meets_ite, Proc.meets_pure, implies_true, and_true,
    true_and, CoreView.allow, CoreView.upd]
  intro _ _ _
  exact (keeps_roundBody config v c fuel nowMs steadyNow).tryCatch fun v c => trivial

theorem keeps_code (call : CoreCall) : Keeps v c (call.code config) := by
  cases call with
  | runRound fuel nowMs steadyNow =>
    exact (keeps_runRound config v c fuel nowMs steadyNow).bind fun _ _ _ => trivial
  | drainCandidatesUntil fuel =>
    exact (keeps_drainCandidatesUntil config v c fuel).bind fun _ _ _ => trivial

end Keeps

/-- **The contract of the core**: batches are written as they were reserved, acknowledged only
once confirmed, and a barrier is completed only if the queue was seen empty after no business
task was seen under way. -/
def coreContract (config : BlacklistMaintenanceConfig) : Contract (candidateFlow config) where
  idle _ _ := True
  allow := CoreView.allow
  post _ _ _ _ := True
  init_idle _ _ := trivial
  meets {_ call v c} _ _ := (keeps_code config v c call).mono fun _ _ _ _ => ⟨trivial, trivial⟩

end AegisFlow
