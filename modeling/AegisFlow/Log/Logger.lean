import AegisFlow.Base.Text
import AegisFlow.Lts.Basic
import Mathlib.Algebra.BigOperators.Group.List.Basic
import Mathlib.Data.List.Basic

/-!
# The logger

Any number of threads put records into a bounded queue; one worker takes the whole queue as a batch
and writes it to a file.  A record that finds the queue full is dropped and counted, and after the
next record that could be written the worker writes a summary with the count.  The worker moves the
count out before it writes the summary and back if that fails.

* `Logger.log`, `Logger.stop` : what is done under the mutex, hence in one step;
* `LoggerRun.Step` : the threads, the worker and what the file system does, step by step;
* `LoggerRun.Conserved` : the invariant: where the accepted records and the dropped ones are;
* `LoggerRun.records_conserved` : **no record and no drop is lost or counted twice**.
-/

namespace AegisFlow

/-- How important a record is. -/
inductive LogLevel
  | debug
  | info
  | warn
  | error
  deriving DecidableEq, Repr

/-- The value of the enumerator. -/
def LogLevel.rank : LogLevel → ℕ
  | .debug => 0
  | .info => 1
  | .warn => 2
  | .error => 3

/-- A record of the log. -/
structure LogRecord where
  timestamp : ℕ := 0
  level : LogLevel := .info
  threadId : ℕ := 0
  file : Bytes := []
  line : ℕ := 0
  message : Bytes := []
  deriving DecidableEq, Repr

/-- The life of a logger. -/
inductive LoggerState
  | constructed
  | initialized
  | running
  | stopping
  | stopped
  | failed
  deriving DecidableEq, Repr

/-- Results of `init` and `start`. -/
inductive LoggerStatus
  | ok
  | invalidConfig
  | configConflict
  | invalidState
  | fileOpenFailed
  | threadStartFailed
  deriving DecidableEq, Repr

/-- Results of `log`. -/
inductive LogSubmitStatus
  | accepted
  | filtered
  | queueFull
  | notRunning
  | allocationFailed
  deriving DecidableEq, Repr

/-- How to log. -/
structure LoggerConfig where
  level : LogLevel := .info
  file : Bytes := ascii "logs/aegisflow.log"
  queueCapacity : ℕ := 4096
  flushIntervalMs : ℤ := 200
  deriving DecidableEq, Repr

/-- The state that the mutex of a logger protects, and its counters. -/
structure Logger where
  config : Option LoggerConfig := none
  queue : List LogRecord := []
  minimumLevel : LogLevel := .info
  state : LoggerState := .constructed
  acceptedCount : ℕ := 0
  droppedCount : ℕ := 0
  /-- Dropped records no summary was written for. -/
  pendingDropped : ℕ := 0
  deriving DecidableEq, Repr

namespace Logger

def validConfig (config : LoggerConfig) : Bool :=
  config.file != [] && decide (0 < config.queueCapacity) && decide (0 < config.flushIntervalMs) &&
    decide (config.flushIntervalMs ≤ 24 * 60 * 60 * 1000)

/-- Configure the logger, once; `outOfMemory` says that the configuration cannot be copied. -/
def init (logger : Logger) (config : LoggerConfig) (outOfMemory : Bool) : LoggerStatus × Logger :=
  if !validConfig config then (.invalidConfig, logger)
  else match logger.config with
  | some old => (if old = config then .ok else .configConflict, logger)
  | none =>
    if logger.state ≠ .constructed then (.invalidState, logger)
    else if outOfMemory then (.invalidConfig, logger)
    else (.ok, { logger with
      config := some config, minimumLevel := config.level, state := .initialized })

/-- Open the file and start the worker.  The arguments say whether the directory is there or can be
made, whether the file can be opened and whether the thread can be started. -/
def start (logger : Logger) (directory opened started : Bool) : LoggerStatus × Logger :=
  if logger.state = .running then (.ok, logger)
  else if logger.state ≠ .initialized ∨ logger.config.isNone then (.invalidState, logger)
  else if !directory ∨ !opened then (.fileOpenFailed, { logger with state := .failed })
  else if !started then (.threadStartFailed, { logger with state := .failed })
  else (.ok, { logger with state := .running })

/-- What `log` checks before it takes the mutex; `none` if it goes on. -/
def precheck (logger : Logger) (level : LogLevel) : Option LogSubmitStatus :=
  if logger.state ≠ .running then some .notRunning
  else if level.rank < logger.minimumLevel.rank then some .filtered
  else none

/-- `log` with the mutex; `outOfMemory` says that the queue cannot grow. -/
def log (logger : Logger) (record : LogRecord) (outOfMemory : Bool) : LogSubmitStatus × Logger :=
  if logger.state ≠ .running then (.notRunning, logger)
  else if (logger.config.elim 0 LoggerConfig.queueCapacity) ≤ logger.queue.length then
    (.queueFull, { logger with
      pendingDropped := (logger.pendingDropped + 1) % 2 ^ 64
      droppedCount := (logger.droppedCount + 1) % 2 ^ 64 })
  else if outOfMemory then (.allocationFailed, logger)
  else (.accepted, { logger with
    queue := logger.queue ++ [record]
    acceptedCount := (logger.acceptedCount + 1) % 2 ^ 64 })

/-- Ask the worker to write what is queued and to end. -/
def stop (logger : Logger) : Logger :=
  if logger.state = .initialized then { logger with state := .stopped }
  else if logger.state ≠ .running then logger
  else { logger with state := .stopping }

/-- The worker puts a count back for which it could not write a summary. -/
def restorePending (logger : Logger) (pending : ℕ) : Logger :=
  if 2 ^ 64 - 1 - logger.pendingDropped < pending then { logger with pendingDropped := 2 ^ 64 - 1 }
  else { logger with pendingDropped := logger.pendingDropped + pending }

end Logger

/-- Where the worker is. -/
inductive LogWorker
  /-- It has not been started. -/
  | absent
  /-- At the top of its loop. -/
  | waiting
  /-- The batch is still to be written; `stopping` was read with the batch. -/
  | writing (batch : List LogRecord) (stopping : Bool)
  /-- A record was written, in `writePendingDroppedSummary`. -/
  | collecting (batch : List LogRecord) (stopping : Bool)
  /-- The count was moved out, in `writeDroppedSummary`. -/
  | summarizing (pending : ℕ) (batch : List LogRecord) (stopping : Bool)
  /-- The summary could not be written. -/
  | restoring (pending : ℕ) (batch : List LogRecord) (stopping : Bool)
  /-- At the end of its loop, having read that the logger is stopping. -/
  | deciding
  /-- After its loop. -/
  | closing
  | ended
  deriving DecidableEq, Repr

namespace LogWorker

/-- Records taken from the queue and not handed to `writeRecord` yet. -/
def batch : LogWorker → List LogRecord
  | .writing batch _ | .collecting batch _ | .summarizing _ batch _ | .restoring _ batch _ => batch
  | _ => []

/-- The count the worker has moved out for a summary. -/
def held : LogWorker → ℕ
  | .summarizing pending _ _ | .restoring pending _ _ => pending
  | _ => 0

/-- The worker has read that the logger is stopping. -/
def sawStop : LogWorker → Bool
  | .writing _ stopping | .collecting _ stopping | .summarizing _ _ stopping
  | .restoring _ _ stopping => stopping
  | .deciding | .closing | .ended => true
  | _ => false

/-- The loop of the worker has ended. -/
def left : LogWorker → Bool
  | .closing | .ended => true
  | _ => false

end LogWorker

/-- A logger, its threads `Tid`, its worker, and what happened so far. -/
structure LoggerRun (Tid : Type) where
  logger : Logger := {}
  /-- The record of a thread that is in `log` and about to take the mutex. -/
  calls : Tid → Option LogRecord := fun _ => none
  worker : LogWorker := .absent
  /-- Records for which `log` returned `Accepted`. -/
  accepted : List LogRecord := []
  /-- Records handed to `writeRecord`. -/
  handed : List LogRecord := []
  /-- The counts in the summaries written successfully. -/
  summaries : List ℕ := []
  /-- How often `log` returned `QueueFull`. -/
  dropped : ℕ := 0

/-- What the threads and the worker do. -/
inductive LoggerLabel (Tid : Type)
  | init
  | start
  | stop
  /-- A thread enters `log`. -/
  | enter (tid : Tid) (record : LogRecord)
  /-- The record could not be built. -/
  | abandon (tid : Tid)
  /-- The thread takes the mutex. -/
  | submit (tid : Tid)
  | worker

namespace LoggerRun

variable {Tid : Type} [DecidableEq Tid]

/-- The state after the part of `log` that holds the mutex. -/
def submitted (s : LoggerRun Tid) (tid : Tid) (record : LogRecord) (outOfMemory : Bool) :
    LoggerRun Tid :=
  { s with
    logger := (s.logger.log record outOfMemory).2
    calls := Function.update s.calls tid none
    accepted := if (s.logger.log record outOfMemory).1 = .accepted then s.accepted ++ [record]
      else s.accepted
    dropped := if (s.logger.log record outOfMemory).1 = .queueFull then s.dropped + 1
      else s.dropped }

/-- The worker takes the queue. -/
def batchTaken (s : LoggerRun Tid) : LoggerRun Tid :=
  { s with
    logger := { s.logger with queue := [] }
    worker := .writing s.logger.queue (s.logger.state = .stopping) }

/-- The worker moves the count of dropped records out. -/
def collected (s : LoggerRun Tid) (batch : List LogRecord) (stopping : Bool) : LoggerRun Tid :=
  { s with
    logger := { s.logger with pendingDropped := 0 }
    worker := if s.logger.pendingDropped = 0 then .writing batch stopping
      else .summarizing s.logger.pendingDropped batch stopping }

/-- The steps of threads and worker; each critical section is one step. -/
inductive Step : LoggerRun Tid → LoggerLabel Tid → LoggerRun Tid → Prop
  | init (s : LoggerRun Tid) (config : LoggerConfig) (outOfMemory : Bool) :
      Step s .init { s with logger := (s.logger.init config outOfMemory).2 }
  /-- The worker is there if the start succeeds. -/
  | start (s : LoggerRun Tid) (directory opened started : Bool) :
      Step s .start { s with
        logger := (s.logger.start directory opened started).2
        worker := if s.logger.state ≠ .running ∧
            (s.logger.start directory opened started).1 = .ok then .waiting
          else s.worker }
  | stop (s : LoggerRun Tid) : Step s .stop { s with logger := s.logger.stop }
  | enter {s : LoggerRun Tid} {tid : Tid} (record : LogRecord) (hidle : s.calls tid = none)
      (hpass : s.logger.precheck record.level = none) :
      Step s (.enter tid record) { s with calls := Function.update s.calls tid (some record) }
  | abandon {s : LoggerRun Tid} {tid : Tid} {record : LogRecord} (h : s.calls tid = some record) :
      Step s (.abandon tid) { s with calls := Function.update s.calls tid none }
  | submit {s : LoggerRun Tid} {tid : Tid} {record : LogRecord} (outOfMemory : Bool)
      (h : s.calls tid = some record) : Step s (.submit tid) (s.submitted tid record outOfMemory)
  /-- There are records, the logger is stopping or it is time to flush. -/
  | takeBatch {s : LoggerRun Tid} (h : s.worker = .waiting) : Step s .worker s.batchTaken
  | writeRecord {s : LoggerRun Tid} {record : LogRecord} {batch : List LogRecord} {stopping : Bool}
      (written : Bool) (h : s.worker = .writing (record :: batch) stopping) :
      Step s .worker { s with
        handed := s.handed ++ [record]
        worker := if written then .collecting batch stopping else .writing batch stopping }
  | collect {s : LoggerRun Tid} {batch : List LogRecord} {stopping : Bool}
      (h : s.worker = .collecting batch stopping) : Step s .worker (s.collected batch stopping)
  | summaryWritten {s : LoggerRun Tid} {pending : ℕ} {batch : List LogRecord} {stopping : Bool}
      (h : s.worker = .summarizing pending batch stopping) :
      Step s .worker { s with
        summaries := s.summaries ++ [pending], worker := .writing batch stopping }
  | summaryFailed {s : LoggerRun Tid} {pending : ℕ} {batch : List LogRecord} {stopping : Bool}
      (h : s.worker = .summarizing pending batch stopping) :
      Step s .worker { s with worker := .restoring pending batch stopping }
  | restore {s : LoggerRun Tid} {pending : ℕ} {batch : List LogRecord} {stopping : Bool}
      (h : s.worker = .restoring pending batch stopping) :
      Step s .worker { s with
        logger := s.logger.restorePending pending, worker := .writing batch stopping }
  | endBatch {s : LoggerRun Tid} {stopping : Bool} (h : s.worker = .writing [] stopping) :
      Step s .worker { s with worker := if stopping then .deciding else .waiting }
  | decide {s : LoggerRun Tid} (h : s.worker = .deciding) :
      Step s .worker { s with worker := if s.logger.queue = [] then .closing else .waiting }
  | close {s : LoggerRun Tid} (h : s.worker = .closing) :
      Step s .worker { s with logger := { s.logger with state := .stopped }, worker := .ended }

end LoggerRun

/-- Any number of threads, and the worker, on a logger that was just made. -/
def loggerSystem (Tid : Type) [DecidableEq Tid] : System (LoggerRun Tid) (LoggerLabel Tid) where
  init s := s = {}
  step := LoggerRun.Step

/-! ### What the operations do -/

variable {pending : ℕ}

namespace Logger

variable {logger : Logger}

/-- A record is refused, dropped or queued; only a logger that runs drops or queues it. -/
theorem log_cases (logger : Logger) (record : LogRecord) (outOfMemory : Bool) :
    ((logger.log record outOfMemory).1 ≠ .accepted ∧
      (logger.log record outOfMemory).1 ≠ .queueFull ∧
      (logger.log record outOfMemory).2 = logger) ∨
    (logger.state = .running ∧ logger.log record outOfMemory =
      (.queueFull, { logger with
        pendingDropped := (logger.pendingDropped + 1) % 2 ^ 64
        droppedCount := (logger.droppedCount + 1) % 2 ^ 64 })) ∨
    (logger.state = .running ∧ logger.log record outOfMemory =
      (.accepted, { logger with
        queue := logger.queue ++ [record]
        acceptedCount := (logger.acceptedCount + 1) % 2 ^ 64 })) := by
  unfold log
  by_cases hstate : logger.state ≠ .running
  · rw [if_pos hstate]
    exact .inl ⟨nofun, nofun, rfl⟩
  rw [if_neg hstate]
  split
  · exact .inr (.inl ⟨not_not.mp hstate, rfl⟩)
  · split
    · exact .inl ⟨nofun, nofun, rfl⟩
    · exact .inr (.inr ⟨not_not.mp hstate, rfl⟩)

/-- Configuring changes the configuration and the state of a new logger only. -/
theorem init_cases (logger : Logger) (config : LoggerConfig) (outOfMemory : Bool) :
    (logger.init config outOfMemory).2 = logger ∨
    (logger.state = .constructed ∧ (logger.init config outOfMemory).2 =
      { logger with
        config := some config, minimumLevel := config.level, state := .initialized }) := by
  unfold init
  split
  · exact .inl rfl
  · split
    · exact .inl rfl
    · split
      · exact .inl rfl
      · split
        · exact .inl rfl
        case isFalse hstate _ => exact .inr ⟨not_not.mp hstate, rfl⟩

/-- Starting changes the state of an initialised logger only; it runs if the start succeeds. -/
theorem start_cases (logger : Logger) (directory opened started : Bool) :
    ((logger.start directory opened started).2 = logger ∧
      (logger.state = .running ∨ (logger.start directory opened started).1 ≠ .ok)) ∨
    (logger.state = .initialized ∧ (logger.start directory opened started).1 ≠ .ok ∧
      (logger.start directory opened started).2 = { logger with state := .failed }) ∨
    (logger.state = .initialized ∧
      logger.start directory opened started = (.ok, { logger with state := .running })) := by
  unfold start
  by_cases hrunning : logger.state = .running
  · rw [if_pos hrunning]
    exact .inl ⟨rfl, .inl hrunning⟩
  rw [if_neg hrunning]
  by_cases hstate : logger.state ≠ .initialized ∨ logger.config.isNone = true
  · rw [if_pos hstate]
    exact .inl ⟨rfl, .inr nofun⟩
  rw [if_neg hstate]
  have hinitialized : logger.state = .initialized := not_not.mp (not_or.mp hstate).1
  split
  · exact .inr (.inl ⟨hinitialized, nofun, rfl⟩)
  · split
    · exact .inr (.inl ⟨hinitialized, nofun, rfl⟩)
    · exact .inr (.inr ⟨hinitialized, rfl⟩)

/-- Stopping changes the state only, and does not start the logger again. -/
theorem stop_cases (logger : Logger) :
    logger.stop = logger ∨
    (logger.state = .initialized ∧ logger.stop = { logger with state := .stopped }) ∨
    (logger.state = .running ∧ logger.stop = { logger with state := .stopping }) := by
  unfold stop
  by_cases hinitialized : logger.state = .initialized
  · rw [if_pos hinitialized]
    exact .inr (.inl ⟨hinitialized, rfl⟩)
  rw [if_neg hinitialized]
  by_cases hrunning : logger.state ≠ .running
  · rw [if_pos hrunning]
    exact .inl rfl
  · rw [if_neg hrunning]
    exact .inr (.inr ⟨not_not.mp hrunning, rfl⟩)

/-- Only the count changes. -/
theorem restorePending_same (logger : Logger) (pending : ℕ) :
    (logger.restorePending pending).queue = logger.queue ∧
      (logger.restorePending pending).state = logger.state := by
  unfold restorePending
  split <;> exact ⟨rfl, rfl⟩

/-- A count that fits is added. -/
theorem restorePending_eq (h : logger.pendingDropped + pending < 2 ^ 64) :
    logger.restorePending pending =
      { logger with pendingDropped := logger.pendingDropped + pending } :=
  if_neg (by omega)

end Logger

namespace LoggerRun

variable {Tid : Type} {s : LoggerRun Tid} {batch : List LogRecord} {stopping : Bool}

/-! ### What every step keeps -/

/-- Where the accepted and the dropped records are. -/
structure Conserved (s : LoggerRun Tid) : Prop where
  /-- Accepted records were handed over, or are in the batch or the queue, in this order. -/
  records : s.accepted = s.handed ++ s.worker.batch ++ s.logger.queue
  /-- Drops are counted once: by a summary, by the worker or as pending. -/
  drops : s.dropped < 2 ^ 64 → s.logger.droppedCount = s.dropped ∧
    s.logger.pendingDropped + s.worker.held + s.summaries.sum = s.dropped
  /-- The worker is not started before the logger runs. -/
  absent : s.logger.state = .constructed ∨ s.logger.state = .initialized → s.worker = .absent
  /-- A logger does not run again once the worker has read that it is stopping. -/
  stopping : s.worker.sawStop = true → s.logger.state = .stopping ∨ s.logger.state = .stopped
  /-- The worker leaves its loop with an empty queue. -/
  empty : s.worker.left = true → s.logger.queue = []

theorem sawStop_of_left {worker : LogWorker} (h : worker.left = true) :
    worker.sawStop = true := by
  cases worker <;> first | rfl | cases h

section

variable (h : s.Conserved)
include h

/-- A change of the state of the logger that respects where the worker is. -/
theorem Conserved.setState {logger : Logger}
    (hsame : logger.queue = s.logger.queue ∧ logger.droppedCount = s.logger.droppedCount ∧
      logger.pendingDropped = s.logger.pendingDropped)
    (habsent : logger.state = .constructed ∨ logger.state = .initialized → s.worker = .absent)
    (hstopping : s.worker.sawStop = true → logger.state = .stopping ∨ logger.state = .stopped) :
    ({ s with logger } : LoggerRun Tid).Conserved where
  records := h.records.trans (by rw [hsame.1])
  drops hlt := by
    rw [hsame.2.1, hsame.2.2]
    exact h.drops hlt
  absent := habsent
  stopping := hstopping
  empty hleft := hsame.1.trans (h.empty hleft)

theorem Conserved.init (config : LoggerConfig) (outOfMemory : Bool) :
    ({ s with logger := (s.logger.init config outOfMemory).2 } : LoggerRun Tid).Conserved := by
  rcases s.logger.init_cases config outOfMemory with hsame | ⟨hstate, hinit⟩
  · rw [hsame]
    exact h
  · have habsent := h.absent (.inl hstate)
    rw [hinit]
    refine h.setState ⟨rfl, rfl, rfl⟩ (fun _ => habsent) fun hsaw => ?_
    rw [habsent] at hsaw
    cases hsaw

theorem Conserved.stop : ({ s with logger := s.logger.stop } : LoggerRun Tid).Conserved := by
  rcases s.logger.stop_cases with hsame | ⟨hstate, hstop⟩ | ⟨hstate, hstop⟩
  · rw [hsame]
    exact h
  · rw [hstop]
    exact h.setState ⟨rfl, rfl, rfl⟩ (by simp) fun _ => .inr rfl
  · rw [hstop]
    exact h.setState ⟨rfl, rfl, rfl⟩ (by simp) fun _ => .inl rfl

theorem Conserved.start (directory opened started : Bool) :
    ({ s with
      logger := (s.logger.start directory opened started).2
      worker := if s.logger.state ≠ .running ∧
          (s.logger.start directory opened started).1 = .ok then .waiting
        else s.worker } : LoggerRun Tid).Conserved := by
  rcases s.logger.start_cases directory opened started with
    ⟨hsame, hrefused⟩ | ⟨hstate, hfailed, hstart⟩ | ⟨hstate, hstart⟩
  · rw [hsame, if_neg (fun hok => hrefused.elim hok.1 fun hne => hne hok.2)]
    exact h
  · have habsent := h.absent (.inr hstate)
    rw [hstart, if_neg (fun hok => hfailed hok.2)]
    refine h.setState ⟨rfl, rfl, rfl⟩ (by simp) fun hsaw => ?_
    rw [habsent] at hsaw
    cases hsaw
  · -- The worker was absent, so it has no batch and holds no count.
    have habsent := h.absent (.inr hstate)
    have hrecords := h.records
    have hdrops := h.drops
    rw [habsent] at hrecords hdrops
    rw [hstart, if_pos ⟨by rw [hstate]; nofun, rfl⟩]
    exact ⟨hrecords, hdrops, by simp, nofun, nofun⟩

/-- The worker moves on; its batch and the count it holds stay. -/
theorem Conserved.setWorker {worker : LogWorker} (hbatch : worker.batch = s.worker.batch)
    (hheld : worker.held = s.worker.held) (hpresent : s.worker ≠ .absent)
    (hstopping : worker.sawStop = true → s.worker.sawStop = true)
    (hempty : worker.left = true → s.logger.queue = []) :
    ({ s with worker } : LoggerRun Tid).Conserved where
  records := h.records.trans (by rw [hbatch])
  drops hlt := by
    rw [hheld]
    exact h.drops hlt
  absent hstate := absurd (h.absent hstate) hpresent
  stopping hsaw := h.stopping (hstopping hsaw)
  empty := hempty

theorem Conserved.submitted [DecidableEq Tid] (tid : Tid) (record : LogRecord)
    (outOfMemory : Bool) : (s.submitted tid record outOfMemory).Conserved := by
  unfold LoggerRun.submitted
  rcases s.logger.log_cases record outOfMemory with
    ⟨hna, hnf, hsame⟩ | ⟨hstate, hfull⟩ | ⟨hstate, haccepted⟩
  · rw [hsame, if_neg hna, if_neg hnf]
    exact ⟨h.records, h.drops, h.absent, h.stopping, h.empty⟩
  · rw [hfull, if_neg (by nofun), if_pos rfl]
    refine ⟨h.records, ?_, h.absent, h.stopping, h.empty⟩
    intro hlt
    change s.dropped + 1 < 2 ^ 64 at hlt
    obtain ⟨hcount, hsum⟩ := h.drops (by omega)
    have hpending : s.logger.pendingDropped ≤ s.dropped := by omega
    constructor
    · change (s.logger.droppedCount + 1) % 2 ^ 64 = s.dropped + 1
      rw [hcount]
      exact Nat.mod_eq_of_lt hlt
    · change (s.logger.pendingDropped + 1) % 2 ^ 64 + s.worker.held + s.summaries.sum =
        s.dropped + 1
      rw [Nat.mod_eq_of_lt (by omega)]
      omega
  · rw [haccepted, if_pos rfl, if_neg (by nofun)]
    refine ⟨?_, h.drops, h.absent, h.stopping, ?_⟩
    · change s.accepted ++ [record] = s.handed ++ s.worker.batch ++ (s.logger.queue ++ [record])
      rw [h.records, List.append_assoc _ s.logger.queue]
    · -- The logger runs, so the worker is in its loop.
      intro hleft
      have hstopped := h.stopping (sawStop_of_left hleft)
      rw [hstate] at hstopped
      simp at hstopped

theorem Conserved.batchTaken (hworker : s.worker = .waiting) : s.batchTaken.Conserved := by
  obtain ⟨hrecords, hdrops, habsent, -, -⟩ := h
  rw [hworker] at hrecords hdrops habsent
  refine ⟨?_, hdrops, fun hstate => absurd (habsent hstate) nofun, ?_, nofun⟩
  · change s.accepted = s.handed ++ s.logger.queue ++ []
    rw [hrecords, List.append_nil]
    exact congrArg (· ++ s.logger.queue) (List.append_nil s.handed)
  · intro hsaw
    exact .inl (of_decide_eq_true hsaw)

/-- The next record of the batch is handed over. -/
theorem Conserved.handed {record : LogRecord}
    (hworker : s.worker = .writing (record :: batch) stopping) (written : Bool) :
    ({ s with
      handed := s.handed ++ [record]
      worker := if written then .collecting batch stopping else .writing batch stopping } :
      LoggerRun Tid).Conserved := by
  obtain ⟨hrecords, hdrops, habsent, hstopping, -⟩ := h
  rw [hworker] at hrecords hdrops habsent hstopping
  have hnext : s.accepted = s.handed ++ [record] ++ batch ++ s.logger.queue := by
    rw [List.append_assoc s.handed]
    exact hrecords
  cases written with
  | true => exact ⟨hnext, hdrops, fun hstate => absurd (habsent hstate) nofun, hstopping, nofun⟩
  | false => exact ⟨hnext, hdrops, fun hstate => absurd (habsent hstate) nofun, hstopping, nofun⟩

/-- The count moves from the logger to the worker. -/
theorem Conserved.collected (hworker : s.worker = .collecting batch stopping) :
    (s.collected batch stopping).Conserved := by
  obtain ⟨hrecords, hdrops, habsent, hstopping, -⟩ := h
  rw [hworker] at hrecords hdrops habsent hstopping
  unfold LoggerRun.collected
  split
  case isTrue hnone =>
    rw [hnone] at hdrops
    exact ⟨hrecords, hdrops, fun hstate => absurd (habsent hstate) nofun, hstopping, nofun⟩
  case isFalse =>
    refine ⟨hrecords, fun hlt => ?_, fun hstate => absurd (habsent hstate) nofun, hstopping, nofun⟩
    obtain ⟨hcount, hsum⟩ := hdrops hlt
    refine ⟨hcount, ?_⟩
    change 0 + s.logger.pendingDropped + s.summaries.sum = s.dropped
    rw [Nat.zero_add]
    exact hsum

/-- The count moves from the worker to the summaries. -/
theorem Conserved.summarized (hworker : s.worker = .summarizing pending batch stopping) :
    ({ s with summaries := s.summaries ++ [pending], worker := .writing batch stopping } :
      LoggerRun Tid).Conserved := by
  obtain ⟨hrecords, hdrops, habsent, hstopping, -⟩ := h
  rw [hworker] at hrecords hdrops habsent hstopping
  refine ⟨hrecords, fun hlt => ?_, fun hstate => absurd (habsent hstate) nofun, hstopping, nofun⟩
  obtain ⟨hcount, hsum⟩ := hdrops hlt
  refine ⟨hcount, ?_⟩
  change s.logger.pendingDropped + pending + s.summaries.sum = s.dropped at hsum
  change s.logger.pendingDropped + 0 + (s.summaries ++ [pending]).sum = s.dropped
  rw [List.sum_append, List.sum_singleton]
  omega

/-- The count moves back from the worker to the logger. -/
theorem Conserved.restored (hworker : s.worker = .restoring pending batch stopping) :
    ({ s with logger := s.logger.restorePending pending, worker := .writing batch stopping } :
      LoggerRun Tid).Conserved := by
  obtain ⟨hrecords, hdrops, habsent, hstopping, -⟩ := h
  rw [hworker] at hrecords hdrops habsent hstopping
  obtain ⟨hqueue, hstate⟩ := s.logger.restorePending_same pending
  refine ⟨?_, fun hlt => ?_, fun hnew => ?_, fun hsaw => ?_, nofun⟩
  · rw [hqueue]
    exact hrecords
  · obtain ⟨hcount, hsum⟩ := hdrops hlt
    change s.dropped < 2 ^ 64 at hlt
    change s.logger.pendingDropped + pending + s.summaries.sum = s.dropped at hsum
    -- Both counts are of drops that happened, so their sum does not saturate.
    rw [Logger.restorePending_eq (by omega)]
    exact ⟨hcount, hsum⟩
  · rw [hstate] at hnew
    exact absurd (habsent hnew) nofun
  · rw [hstate]
    exact hstopping hsaw

theorem Conserved.step [DecidableEq Tid] {s' : LoggerRun Tid} {l : LoggerLabel Tid}
    (hst : Step s l s') : s'.Conserved := by
  cases hst with
  | init config outOfMemory => exact h.init config outOfMemory
  | start directory opened started => exact h.start directory opened started
  | stop => exact h.stop
  | enter record hidle hpass => exact ⟨h.records, h.drops, h.absent, h.stopping, h.empty⟩
  | abandon hcall => exact ⟨h.records, h.drops, h.absent, h.stopping, h.empty⟩
  | submit outOfMemory hcall => exact h.submitted _ _ outOfMemory
  | takeBatch hworker => exact h.batchTaken hworker
  | writeRecord written hworker => exact h.handed hworker written
  | collect hworker => exact h.collected hworker
  | summaryWritten hworker => exact h.summarized hworker
  | summaryFailed hworker =>
    refine h.setWorker ?_ ?_ ?_ ?_ nofun
    all_goals rw [hworker]
    · rfl
    · rfl
    · nofun
    · exact id
  | restore hworker => exact h.restored hworker
  | @endBatch stopping hworker =>
    cases stopping with
    | true =>
      refine h.setWorker ?_ ?_ ?_ ?_ nofun
      all_goals rw [hworker]
      · rfl
      · rfl
      · nofun
      · exact id
    | false =>
      refine h.setWorker ?_ ?_ ?_ nofun nofun
      all_goals rw [hworker]
      · rfl
      · rfl
      · nofun
  -- The worker leaves its loop only with an empty queue.
  | decide hworker =>
    by_cases hqueue : s.logger.queue = []
    · rw [if_pos hqueue]
      refine h.setWorker ?_ ?_ ?_ ?_ fun _ => hqueue
      all_goals rw [hworker]
      · rfl
      · rfl
      · nofun
      · exact id
    · rw [if_neg hqueue]
      refine h.setWorker ?_ ?_ ?_ nofun nofun
      all_goals rw [hworker]
      · rfl
      · rfl
      · nofun
  | close hworker =>
    obtain ⟨hrecords, hdrops, -, -, hempty⟩ := h
    rw [hworker] at hrecords hdrops hempty
    exact ⟨hrecords, hdrops, by simp, fun _ => .inr rfl, fun _ => hempty rfl⟩

end

/-! ### Runs -/

theorem conserved [DecidableEq Tid] (h : (loggerSystem Tid).Reachable s) : s.Conserved := by
  refine h.invariant (I := Conserved) (fun s hinit => ?_) fun s l s' _ hs hst => hs.step hst
  obtain rfl : s = {} := hinit
  exact ⟨rfl, fun _ => ⟨rfl, rfl⟩, fun _ => rfl, nofun, nofun⟩

/-- The worker is about to write a summary, or to put the count back. -/
def inSummary (s : LoggerRun Tid) : Bool :=
  match s.worker with
  | .summarizing .. | .restoring .. => true
  | _ => false

/-- **No record and no drop is lost or counted twice**, for any threads, any failures of the writes
and any time of `stop`.  The accepted records were handed to `writeRecord` once each and in their
order, but for those in the batch of the worker and in the queue; when the worker has left its
loop all of them were, and the queue is empty.  Outside of a summary the number of dropped records
is the pending count and the counts in the summaries. -/
theorem records_conserved [DecidableEq Tid] (h : (loggerSystem Tid).Reachable s) :
    s.accepted = s.handed ++ s.worker.batch ++ s.logger.queue ∧
    (s.worker.left = true → s.handed = s.accepted ∧ s.logger.queue = []) ∧
    (s.dropped < 2 ^ 64 → s.inSummary = false →
      s.logger.droppedCount = s.logger.pendingDropped + s.summaries.sum) := by
  have hs := conserved h
  refine ⟨hs.records, fun hleft => ?_, fun hlt houtside => ?_⟩
  · have hqueue := hs.empty hleft
    have hbatch : s.worker.batch = [] := by
      cases hworker : s.worker <;> rw [hworker] at hleft <;> first | rfl | cases hleft
    refine ⟨?_, hqueue⟩
    rw [hs.records, hbatch, hqueue, List.append_nil, List.append_nil]
  · have hheld : s.worker.held = 0 := by
      unfold inSummary at houtside
      cases hworker : s.worker <;> rw [hworker] at houtside <;> first | rfl | cases houtside
    obtain ⟨hcount, hsum⟩ := hs.drops hlt
    rw [hheld, Nat.add_zero] at hsum
    exact hcount.trans hsum.symm

/-- A queue for one record: the second one is dropped, the logger is stopped, and the summary
cannot be written. -/
theorem exists_dropped_run : ∃ s : LoggerRun Unit, (loggerSystem Unit).Reachable s ∧
    s.worker = .closing ∧ s.accepted = [{}] ∧ s.dropped = 1 := by
  have hstart : (loggerSystem Unit).Reachable _ :=
    .step (.step (.init rfl) (.init {} { queueCapacity := 1 } false)) (.start _ true true true)
  have haccepted : (loggerSystem Unit).Reachable _ :=
    .step (.step hstart (@Step.enter _ _ _ () {} rfl rfl))
      (@Step.submit _ _ _ () {} false rfl)
  have hdropped : (loggerSystem Unit).Reachable _ :=
    .step (.step haccepted (@Step.enter _ _ _ () {} rfl rfl))
      (@Step.submit _ _ _ () {} false rfl)
  have hwritten : (loggerSystem Unit).Reachable _ :=
    .step (.step (.step hdropped (.stop _)) (.takeBatch rfl)) (.writeRecord true rfl)
  have hrestored : (loggerSystem Unit).Reachable _ :=
    .step (.step (.step hwritten (.collect rfl)) (.summaryFailed rfl)) (.restore rfl)
  exact ⟨_, .step (.step hrestored (.endBatch rfl)) (.decide rfl), rfl, rfl, rfl⟩

theorem records_conserved_dropped : ∃ s : LoggerRun Unit, s.worker = .closing ∧
    s.handed = [{}] ∧ s.logger.queue = [] ∧
    s.logger.droppedCount = s.logger.pendingDropped + s.summaries.sum := by
  obtain ⟨s, hreachable, hworker, haccepted, hdropped⟩ := exists_dropped_run
  obtain ⟨-, hleft, hdrops⟩ := records_conserved hreachable
  obtain ⟨hhanded, hqueue⟩ := hleft (by rw [hworker]; rfl)
  refine ⟨s, hworker, hhanded.trans haccepted, hqueue, hdrops ?_ ?_⟩
  · rw [hdropped]
    decide
  · unfold inSummary
    rw [hworker]

end LoggerRun

end AegisFlow
