import AegisFlow.Collections.Basic
import AegisFlow.Lts.Basic
import AegisFlow.Timer.Types
import Mathlib.Data.Prod.Lex
import Std.Data.TreeMap.Lemmas

/-!
# The timer core

Timers wait in a queue of commands until the timer thread moves them into a heap, and the thread
takes them out of the heap when they are due.  Which timers are still wanted is decided by a
table of *reservations* alone: `cancel` removes the reservation of a timer and leaves its node
where it is.

* `TimerCore.scheduleAt`, `cancel`, `requestStop`, `processCommands` : each runs under the mutex of
  the core, hence is one step;
* `TimerCore.takeDue` : the critical section of an iteration of `runReady`;
* `timerSystem` : any number of clients and one timer thread.  `runReady` gives up the mutex
  between its iterations and posts without it, so clients (sinks among them) come in between.
-/

namespace AegisFlow

/-- Results of the operations of a timer core. -/
inductive TimerStatus
  | ok
  | invalidConfig
  | configConflict
  | notInitialized
  | stopped
  | queueFull
  | timerLimit
  | sinkExpired
  | invalidEvent
  | idExhausted
  | notFound
  | generationMismatch
  | internalError
  deriving DecidableEq, Repr

/-- The bounds of a timer core. -/
structure TimerCoreConfig where
  commandCapacity : ℕ := 4096
  timerCapacity : ℕ := 65536
  deriving DecidableEq, Repr

/-- A timer that is wanted. -/
structure Reservation where
  generation : ℕ := 0
  cancelled : Bool := false
  deriving DecidableEq, Repr

/-- A timer: when it is due, its number, and what to post where. -/
structure HeapNode (Sink : Type) where
  deadline : ℕ
  sequence : ℕ
  id : TimerId
  sink : Sink
  event : TimerEvent
  deriving DecidableEq, Repr

/-- Timers come by deadline, and in the order of scheduling among equal deadlines. -/
def HeapNode.key {Sink : Type} (node : HeapNode Sink) : ℕ ×ₗ ℕ :=
  toLex (node.deadline, node.sequence)

/-- A command to the timer thread. -/
inductive TimerCommand (Sink : Type)
  | schedule (node : HeapNode Sink)
  | stop
  deriving DecidableEq, Repr

/-- The state that the mutex of the core protects. -/
structure TimerCore (Sink : Type) where
  config : Option TimerCoreConfig := none
  commands : List (TimerCommand Sink) := []
  heap : MinQueue (@HeapNode.key Sink) := .empty
  reservations : Std.TreeMap ℕ Reservation := ∅
  nextIdValue : ℕ := 1
  nextGeneration : ℕ := 1
  nextSequence : ℕ := 0
  accepting : Bool := false
  stopRequested : Bool := false
  stopped : Bool := false

namespace TimerCore

variable {Sink : Type}

/-! ### Configuration -/

def validConfig (config : TimerCoreConfig) : Bool :=
  decide (0 < config.commandCapacity) && decide (0 < config.timerCapacity)

def validEventKind : TimerEventKind → Bool
  | .idleTimeout | .readTimeout | .writeTimeout | .businessTimeout | .cleanupTick
  | .blacklistMaintenanceTick => true

variable (core : TimerCore Sink)

/-- Configure the core, once; `outOfMemory` says that the tables cannot be allocated. -/
def init (config : TimerCoreConfig) (outOfMemory : Bool) : TimerStatus × TimerCore Sink :=
  if !validConfig config then (.invalidConfig, core)
  else match core.config with
  | some old => (if old = config then .ok else .configConflict, core)
  | none =>
    if outOfMemory then (.internalError, core)
    else (.ok, { core with
      config := some config, accepting := true, stopRequested := false, stopped := false })

/-! ### Clients -/

/-- The timer to be scheduled next. -/
def nextNode (deadline : ℕ) (sink : Sink) (event : TimerEvent) : HeapNode Sink where
  deadline := deadline
  sequence := core.nextSequence
  id := ⟨core.nextIdValue, core.nextGeneration⟩
  sink := sink
  event := event

/-- The core with a timer reserved and on its way to the heap. -/
def reserve (node : HeapNode Sink) : TimerCore Sink :=
  { core with
    reservations := core.reservations.insert node.id.value ⟨node.id.generation, false⟩
    commands := core.commands ++ [.schedule node]
    nextIdValue := core.nextIdValue + 1
    nextGeneration := core.nextGeneration + 1
    nextSequence := core.nextSequence + 1 }

/-- Schedule a timer.  `expired` says that the sink no longer exists, `outOfMemory` that the
reservation or the command cannot be allocated. -/
def scheduleAt (deadline : ℕ) (sink : Sink) (expired : Bool)
    (event : TimerEvent) (outOfMemory : Bool) : TimerStatus × TimerId × TimerCore Sink :=
  match core.config with
  | none => (.notInitialized, {}, core)
  | some config =>
    if !core.accepting then (.stopped, {}, core)
    else if !validEventKind event.kind then (.invalidEvent, {}, core)
    else if expired then (.sinkExpired, {}, core)
    else if config.commandCapacity ≤ core.commands.length then (.queueFull, {}, core)
    else if config.timerCapacity ≤ core.reservations.size then (.timerLimit, {}, core)
    else if core.nextIdValue = 2 ^ 64 - 1 ∨ core.nextGeneration = 2 ^ 64 - 1 ∨
        core.nextSequence = 2 ^ 64 - 1 then (.idExhausted, {}, core)
    else if outOfMemory ∨ core.reservations.contains core.nextIdValue then
      (.internalError, {}, core)
    else
      let node := core.nextNode deadline sink event
      (.ok, node.id, core.reserve node)

/-- Cancel a timer: its reservation goes, its node is skipped later. -/
def cancel (id : TimerId) : TimerStatus × TimerCore Sink :=
  if core.config.isNone then (.notInitialized, core)
  else if !core.accepting then (.stopped, core)
  else match core.reservations[id.value]? with
  | none => (.notFound, core)
  | some reservation =>
    if reservation.generation ≠ id.generation then (.generationMismatch, core)
    else (.ok, { core with reservations := core.reservations.erase id.value })

/-- Ask the timer thread to stop. -/
def requestStop (outOfMemory : Bool) : TimerStatus × TimerCore Sink :=
  if core.config.isNone then (.notInitialized, core)
  else if core.stopRequested then (.ok, core)
  else if outOfMemory then (.internalError, core)
  else (.ok, { core with
    commands := core.commands ++ [.stop], accepting := false, stopRequested := true })

/-! ### The timer thread -/

/-- Whether a timer is reserved and not cancelled. -/
def active (id : TimerId) : Bool :=
  match core.reservations[id.value]? with
  | none => false
  | some reservation => reservation.generation == id.generation && !reservation.cancelled

/-- Forget the reservation of a timer that was cancelled by a stop. -/
def dropCancelled (id : TimerId) : TimerCore Sink :=
  match core.reservations[id.value]? with
  | none => core
  | some reservation =>
    if reservation.generation = id.generation ∧ reservation.cancelled = true then
      { core with reservations := core.reservations.erase id.value }
    else core

/-- Remove timers that are not wanted from the front of the heap, which holds `entries`. -/
def cleanup (core : TimerCore Sink) : (entries : List (HeapNode Sink)) →
    (entries.Pairwise fun a b => a.key ≤ b.key) → TimerCore Sink
  | [], h => { core with heap := ⟨[], h⟩ }
  | node :: rest, h =>
    if core.active node.id then { core with heap := ⟨node :: rest, h⟩ }
    else (core.dropCancelled node.id).cleanup rest h.of_cons

/-- Remove timers that are not wanted from the front of the heap. -/
def cleanupStaleLocked : TimerCore Sink :=
  core.cleanup core.heap.entries core.heap.sorted

/-- Every reservation is cancelled. -/
def cancelAll : TimerCore Sink :=
  { core with
    reservations := core.reservations.map fun _ reservation =>
      { reservation with cancelled := true }
    stopped := true }

/-- Carry out commands; the heap has memory for `memory` more timers.  A command that fails stays
in the queue, with those after it. -/
def consume (core : TimerCore Sink) : (memory : ℕ) → List (TimerCommand Sink) →
    TimerStatus × TimerCore Sink
  | _, [] => (.ok, { core with commands := [] })
  | memory, .stop :: rest => core.cancelAll.consume memory rest
  | memory, .schedule node :: rest =>
    if !core.active node.id then core.consume memory rest
    else match memory with
    | 0 => (.internalError, { core with commands := .schedule node :: rest })
    | memory + 1 => { core with heap := core.heap.push node }.consume memory rest

/-- Carry out the commands. -/
def processCommands (memory : ℕ) : TimerStatus × TimerCore Sink :=
  if core.config.isNone then (.notInitialized, core)
  else
    let consumed := core.consume memory core.commands
    (consumed.1, consumed.2.cleanupStaleLocked)

/-- What an iteration of `runReady` finds. -/
inductive DueTimer (Sink : Type)
  /-- Nothing is due, or the thread is to stop. -/
  | nothing
  /-- The timer was not wanted. -/
  | stale
  | timer (node : HeapNode Sink)
  deriving DecidableEq, Repr

/-- Take the first timer out of the heap if it is due. -/
def takeDue (core : TimerCore Sink) (now : ℕ) : DueTimer Sink × TimerCore Sink :=
  if core.stopRequested then (.nothing, core)
  else
    let core := core.cleanupStaleLocked
    match core.heap.top? with
    | none => (.nothing, core)
    | some node =>
      if now < node.deadline then (.nothing, core)
      else if core.active node.id then
        (.timer node, { core with
          heap := core.heap.pop, reservations := core.reservations.erase node.id.value })
      else (.stale, { core with heap := core.heap.pop })

end TimerCore

/-! ### The transition system -/

/-- Where the timer thread is. -/
inductive TimerPhase (Sink : Type)
  | idle
  /-- In `runReady`, the commands are carried out and the clock comes next. -/
  | sampling
  /-- In the loop of `runReady`. -/
  | dispatching (now : ℕ)
  /-- Holding a timer that is due, outside of the mutex. -/
  | posting (now : ℕ) (node : HeapNode Sink)
  /-- After the loop of `runReady`. -/
  | finishing
  deriving DecidableEq, Repr

/-- A timer that was posted: by which call of `runReady`, and the clock reading of that call. -/
structure PostedTimer (Sink : Type) where
  cycle : ℕ
  now : ℕ
  node : HeapNode Sink
  deriving DecidableEq, Repr

/-- The core, the timer thread and what happened so far. -/
structure TimerState (Sink : Type) where
  core : TimerCore Sink := {}
  phase : TimerPhase Sink := .idle
  /-- How often `runReady` was called. -/
  cycle : ℕ := 0
  /-- The timers that were scheduled successfully. -/
  issued : List (HeapNode Sink) := []
  /-- The timers that were cancelled successfully. -/
  cancelled : List TimerId := []
  posted : List (PostedTimer Sink) := []

/-- What clients and the timer thread do. -/
inductive TimerLabel (Sink : Type)
  | init (config : TimerCoreConfig) (outOfMemory : Bool)
  | schedule (deadline : ℕ) (sink : Sink) (expired : Bool) (event : TimerEvent)
      (outOfMemory : Bool)
  | cancel (id : TimerId)
  | requestStop (outOfMemory : Bool)
  /-- `processCommands`, not as a part of `runReady`. -/
  | processCommands (memory : ℕ)
  /-- `runReady` begins. -/
  | runReady (memory : ℕ)
  | sampleNow (now : ℕ)
  /-- An iteration of the loop of `runReady`. -/
  | takeDue
  /-- The timer is posted, if its sink still exists. -/
  | post (expired : Bool)
  /-- The end of `runReady`. -/
  | finish

namespace TimerState

variable {Sink : Type}

/-- The state after a call of `scheduleAt`. -/
def scheduled (s : TimerState Sink) (deadline : ℕ) (sink : Sink) (expired : Bool)
    (event : TimerEvent) (outOfMemory : Bool) : TimerState Sink :=
  { s with
    core := (s.core.scheduleAt deadline sink expired event outOfMemory).2.2
    issued := if (s.core.scheduleAt deadline sink expired event outOfMemory).1 = .ok then
        s.issued ++ [s.core.nextNode deadline sink event]
      else s.issued }

/-- The state after a call of `cancel`. -/
def cancelledBy (s : TimerState Sink) (id : TimerId) : TimerState Sink :=
  { s with
    core := (s.core.cancel id).2
    cancelled := if (s.core.cancel id).1 = .ok then s.cancelled ++ [id] else s.cancelled }

/-- The state after the first part of `runReady`. -/
def started (s : TimerState Sink) (memory : ℕ) : TimerState Sink :=
  { s with
    core := (s.core.processCommands memory).2
    cycle := s.cycle + 1
    phase := if (s.core.processCommands memory).1 = .ok then .sampling else .idle }

/-- The state after an iteration of `runReady`. -/
def taken (s : TimerState Sink) (now : ℕ) : TimerState Sink :=
  match s.core.takeDue now with
  | (.nothing, core) => { s with core, phase := .finishing }
  | (.stale, core) => { s with core }
  | (.timer node, core) => { s with core, phase := .posting now node }

/-- The state after a timer was posted. -/
def delivered (s : TimerState Sink) (now : ℕ) (node : HeapNode Sink) (expired : Bool) :
    TimerState Sink :=
  { s with
    phase := .dispatching now
    posted := if expired then s.posted else s.posted ++ [⟨s.cycle, now, node⟩] }

/-- The steps of clients and timer thread. -/
inductive Step : TimerState Sink → TimerLabel Sink → TimerState Sink → Prop
  | init (s : TimerState Sink) (config : TimerCoreConfig) (outOfMemory : Bool) :
      Step s (.init config outOfMemory) { s with core := (s.core.init config outOfMemory).2 }
  | schedule (s : TimerState Sink) (deadline : ℕ) (sink : Sink) (expired : Bool)
      (event : TimerEvent) (outOfMemory : Bool) :
      Step s (.schedule deadline sink expired event outOfMemory)
        (s.scheduled deadline sink expired event outOfMemory)
  | cancel (s : TimerState Sink) (id : TimerId) : Step s (.cancel id) (s.cancelledBy id)
  | requestStop (s : TimerState Sink) (outOfMemory : Bool) :
      Step s (.requestStop outOfMemory) { s with core := (s.core.requestStop outOfMemory).2 }
  | processCommands {s : TimerState Sink} (hidle : s.phase = .idle) (memory : ℕ) :
      Step s (.processCommands memory) { s with core := (s.core.processCommands memory).2 }
  | runReady {s : TimerState Sink} (hidle : s.phase = .idle) (memory : ℕ) :
      Step s (.runReady memory) (s.started memory)
  | sampleNow {s : TimerState Sink} (hphase : s.phase = .sampling) (now : ℕ) :
      Step s (.sampleNow now) { s with phase := .dispatching now }
  | takeDue {s : TimerState Sink} {now : ℕ} (hphase : s.phase = .dispatching now) :
      Step s .takeDue (s.taken now)
  | post {s : TimerState Sink} {now : ℕ} {node : HeapNode Sink}
      (hphase : s.phase = .posting now node) (expired : Bool) :
      Step s (.post expired) (s.delivered now node expired)
  | finish {s : TimerState Sink} (hphase : s.phase = .finishing) :
      Step s .finish { s with core := s.core.cleanupStaleLocked, phase := .idle }

end TimerState

/-- Any number of clients and one timer thread on a core that was just made. -/
def timerSystem (Sink : Type) : System (TimerState Sink) (TimerLabel Sink) where
  init s := s = {}
  step := TimerState.Step

end AegisFlow
