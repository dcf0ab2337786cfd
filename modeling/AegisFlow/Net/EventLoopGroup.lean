import AegisFlow.Net.ConnectionQuota
import AegisFlow.Net.Responses
import Mathlib.Algebra.BigOperators.Fin

/-!
# A group of event loops

The acceptor hands new connections to the loops of a group in turn.  A connection takes a place
under the limit of its loop and under the limit of the group when it is dispatched, waits in the
registration mailbox of the loop, and gives the place back when the loop is done with it.  The
loops serve their connections at the same time, and any thread may drain or stop the group.

* `checkedGroupConfig`, `CheckedGroupConfig` : the configurations a group accepts;
* `ConnectionMailbox`, `ConnectionLoadCounter`, `LoadCounters` : the mailbox and the counters;
* `Dispatch`, `Closer` : where `tryDispatch` is, which holds the mutex of the group, and where the
  threads are that run `closeRegistrationMailboxes`, which do not.  A counter of a loop and the
  counter of the group are changed one after the other, so each is a step of its own;
* `GroupWorld.serve`, `GroupWorld.move`, `groupPool` : the system.  The loops make any calls of
  `pollOnce` and `shutdown`, of which `loopMain` makes some, and what is not a connection is
  answered in any way.
-/

namespace AegisFlow

/-! ### Configuration -/

/-- The configuration of a group. -/
structure EventLoopGroupConfig where
  loopCount : ℕ := 1
  maxConnections : ℕ := 65536
  maxConnectionsPerLoop : ℕ := 65536
  connectionQueueCapacity : ℕ := 1024
  eventLoop : EventLoopConfig := {}
  deriving DecidableEq, Repr

/-- The configuration, if it makes sense. -/
def checkedGroupConfig (config : EventLoopGroupConfig) : Option EventLoopGroupConfig :=
  let connectionTopologyOverflows := config.loopCount != 0 &&
    decide (sizeMax / config.loopCount < config.maxConnectionsPerLoop)
  if config.loopCount = 0 ∨ 2 ^ 32 - 1 < config.loopCount ∨ config.maxConnections = 0 ∨
      config.maxConnectionsPerLoop = 0 ∨ config.connectionQueueCapacity = 0 ∨
      config.maxConnectionsPerLoop < config.connectionQueueCapacity ∨
      (!connectionTopologyOverflows &&
        decide (config.loopCount * config.maxConnectionsPerLoop < config.maxConnections)) then none
  else some config

/-- A configuration of machine integers that a group accepts. -/
structure CheckedGroupConfig extends EventLoopGroupConfig where
  accepted : checkedGroupConfig toEventLoopGroupConfig = some toEventLoopGroupConfig
  maxConnections_le : maxConnections ≤ sizeMax
  maxConnectionsPerLoop_le : maxConnectionsPerLoop ≤ sizeMax

/-! ### The registration mailbox -/

/-- The bounded queue of connections a loop is to adopt. -/
structure ConnectionMailbox where
  capacity : ℕ
  /-- Descriptors, oldest first. -/
  queue : List ℤ := []
  accepting : Bool := true
  length_le : queue.length ≤ capacity := by simp

namespace ConnectionMailbox

variable (mailbox : ConnectionMailbox)

/-- Post a connection; `signalled` says that the loop could be woken, and if not the post is
undone. -/
def tryPost (socket : ℤ) (signalled : Bool) : Bool × ConnectionMailbox :=
  if socket < 0 then (false, mailbox)
  else if !mailbox.accepting then (false, mailbox)
  else if hfull : mailbox.queue.length = mailbox.capacity then (false, mailbox)
  else if !signalled then (false, mailbox)
  else (true, { mailbox with
    queue := mailbox.queue ++ [socket]
    length_le := by
      have := mailbox.length_le
      simp only [List.length_append, List.length_singleton]
      omega })

/-- Take the oldest connection. -/
def tryPop : Option ℤ × ConnectionMailbox :=
  match hqueue : mailbox.queue with
  | [] => (none, mailbox)
  | socket :: rest => (some socket, { mailbox with
      queue := rest
      length_le := by
        have := mailbox.length_le
        rw [hqueue, List.length_cons] at this
        omega })

/-- Accept nothing any more and drop what waits; the result says how much that was. -/
def close : ℕ × ConnectionMailbox :=
  (mailbox.queue.length,
    { mailbox with queue := [], accepting := false, length_le := Nat.zero_le _ })

/-- A post is in the queue, or has changed nothing. -/
theorem tryPost_length (socket : ℤ) (signalled : Bool) :
    (mailbox.tryPost socket signalled).2.queue.length =
      mailbox.queue.length + (mailbox.tryPost socket signalled).1.toNat := by
  unfold tryPost
  split_ifs <;> simp

theorem tryPop_length :
    mailbox.queue.length = mailbox.tryPop.2.queue.length + mailbox.tryPop.1.toList.length := by
  unfold tryPop
  split <;> simp_all

end ConnectionMailbox

/-! ### Counters -/

namespace ConnectionLoadCounter

/-- Count one more. -/
def reserve (load : ℕ) : ℕ := (load + 1) % 2 ^ 64

/-- Count `count` less, but not less than nothing: the new value, and how much it is less.  The
loop of the source ends with the exchange that finds the value it computed with. -/
def release (current count : ℕ) : ℕ × ℕ :=
  let next := if current ≤ count then 0 else current - count
  (next, current - next)

theorem reserve_of_lt {load limit : ℕ} (h : load < limit) (hlimit : limit ≤ sizeMax) :
    reserve load = load + 1 := Nat.mod_eq_of_lt (by unfold sizeMax at hlimit; omega)

theorem release_of_le {current count : ℕ} (h : count ≤ current) :
    release current count = (current - count, count) := by
  unfold release
  split_ifs with hle
  · obtain rfl := Nat.le_antisymm hle h
    simp
  · simp only [Prod.mk.injEq, true_and]
    omega

end ConnectionLoadCounter

/-! ### The group -/

/-- The states of a group. -/
inductive EventLoopGroupState
  | constructed
  | starting
  | running
  | draining
  | stopping
  | stopped
  | failed
  deriving DecidableEq, Repr

/-- Where the thread in `tryDispatch` is, among `n` loops. -/
inductive Dispatch (n : ℕ)
  /-- No thread is in `tryDispatch`. -/
  | idle
  /-- The socket is valid and the group running. -/
  | entered (socket : ℤ)
  /-- The group was below its limit, and it is the turn of `target`. -/
  | chosen (socket : ℤ) (target : Fin n)
  /-- The loop was below its limit, too. -/
  | admitted (socket : ℤ) (target : Fin n)
  /-- The loop counts the connection, the group does not yet. -/
  | half (socket : ℤ) (target : Fin n)
  /-- The connection is about to be posted. -/
  | reserved (socket : ℤ) (target : Fin n)
  /-- The mailbox refused the connection. -/
  | refused (target : Fin n)
  /-- The loop counts `count` less, the group does not yet. -/
  | returning (count : ℕ)
  deriving DecidableEq, Repr

/-- Where a thread in `closeRegistrationMailboxes` is; `rest` are the loops it still has to look
at. -/
inductive Closer (n : ℕ)
  | closing (rest : List (Fin n))
  /-- It dropped `count` connections that waited for the loop. -/
  | discarding (loop : Fin n) (count : ℕ) (rest : List (Fin n))
  /-- The loop counts `count` less, the group does not yet. -/
  | returning (count : ℕ) (rest : List (Fin n))
  deriving DecidableEq, Repr

/-- The counters of `n` loops and of their group. -/
structure LoadCounters (n : ℕ) where
  connectionLoad : Fin n → ℕ := fun _ => 0
  globalLoad : ℕ := 0
  /-- History: how often a place was reserved at a loop. -/
  reserved : Fin n → ℕ := fun _ => 0
  /-- History: how many places were released at a loop. -/
  released : Fin n → ℕ := fun _ => 0
  /-- History: what releases were to take off a counter and did not, because it was too low. -/
  shortfall : ℕ := 0

namespace LoadCounters

variable {n : ℕ}

/-- `reserve` on the counter of loop `i`. -/
def reserveAt (c : LoadCounters n) (i : Fin n) : LoadCounters n :=
  { c with
    connectionLoad := Function.update c.connectionLoad i
      (ConnectionLoadCounter.reserve (c.connectionLoad i))
    reserved := Function.update c.reserved i (c.reserved i + 1) }

/-- `reserve` goes on with the counter of the group. -/
def reserveGlobal (c : LoadCounters n) : LoadCounters n :=
  { c with globalLoad := ConnectionLoadCounter.reserve c.globalLoad }

/-- How much `release count` takes off the counter of loop `i`. -/
def releasedAt (c : LoadCounters n) (i : Fin n) (count : ℕ) : ℕ :=
  (ConnectionLoadCounter.release (c.connectionLoad i) count).2

/-- `release count` on the counter of loop `i`. -/
def releaseAt (c : LoadCounters n) (i : Fin n) (count : ℕ) : LoadCounters n :=
  { c with
    connectionLoad := Function.update c.connectionLoad i
      (ConnectionLoadCounter.release (c.connectionLoad i) count).1
    released := Function.update c.released i (c.released i + c.releasedAt i count)
    shortfall := c.shortfall + (count - c.releasedAt i count) }

/-- `release` goes on with the counter of the group, unless nothing was released. -/
def releaseGlobal (c : LoadCounters n) (count : ℕ) : LoadCounters n :=
  if count ≠ 0 then
    { c with
      globalLoad := (ConnectionLoadCounter.release c.globalLoad count).1
      shortfall := c.shortfall + (count - (ConnectionLoadCounter.release c.globalLoad count).2) }
  else c

end LoadCounters

/-- A group of `n` loops. -/
structure GroupWorld (n : ℕ) extends LoadCounters n where
  state : EventLoopGroupState
  stopRequested : Bool
  nextLoopIndex : Fin n
  registrations : Fin n → ConnectionMailbox
  dispatch : Dispatch n
  closers : List (Closer n)
  /-- What the loops have taken off their own counter and not yet off the counter of the group. -/
  returning : Fin n → ℕ

namespace GroupWorld

variable {n : ℕ}

/-- The loop after the next one. -/
def advance (i : Fin n) : Fin n := ⟨(i + 1) % n, Nat.mod_lt _ (Nat.zero_lt_of_lt i.isLt)⟩

/-- Another mailbox for loop `i`. -/
def setRegistrations (w : GroupWorld n) (i : Fin n) (mailbox : ConnectionMailbox) : GroupWorld n :=
  { w with registrations := Function.update w.registrations i mailbox }

/-- The next step of the thread in `tryDispatch`, which holds the mutex; `signalled` says whether
the loop can be woken. -/
def dispatchStep (config : EventLoopGroupConfig) (signalled : Bool) (w : GroupWorld n) :
    GroupWorld n :=
  match w.dispatch with
  | .idle => w
  | .entered socket =>
    if config.maxConnections ≤ w.globalLoad then { w with dispatch := .idle }
    else
      { w with
        dispatch := .chosen socket w.nextLoopIndex
        nextLoopIndex := advance w.nextLoopIndex }
  | .chosen socket target =>
    if config.maxConnectionsPerLoop ≤ w.connectionLoad target then { w with dispatch := .idle }
    else { w with dispatch := .admitted socket target }
  | .admitted socket target =>
    { w with toLoadCounters := w.reserveAt target, dispatch := .half socket target }
  | .half socket target =>
    { w with toLoadCounters := w.reserveGlobal, dispatch := .reserved socket target }
  | .reserved socket target =>
    let posted := (w.registrations target).tryPost socket signalled
    { w.setRegistrations target posted.2 with
      dispatch := if posted.1 then .idle else .refused target }
  | .refused target =>
    { w with
      toLoadCounters := w.releaseAt target 1
      dispatch := .returning (w.releasedAt target 1) }
  | .returning count => { w with toLoadCounters := w.releaseGlobal count, dispatch := .idle }

/-- The next step of a thread in `closeRegistrationMailboxes`, and where it is then. -/
def closerStep (w : GroupWorld n) : Closer n → GroupWorld n × Closer n
  | .closing [] => (w, .closing [])
  | .closing (i :: rest) =>
    let closed := (w.registrations i).close
    (w.setRegistrations i closed.2,
      if closed.1 ≠ 0 then .discarding i closed.1 rest else .closing rest)
  | .discarding i count rest =>
    ({ w with toLoadCounters := w.releaseAt i count }, .returning (w.releasedAt i count) rest)
  | .returning count rest => ({ w with toLoadCounters := w.releaseGlobal count }, .closing rest)

/-- A thread starts to close the mailboxes. -/
def closeRegistrationMailboxes (w : GroupWorld n) : GroupWorld n :=
  { w with closers := .closing (List.finRange n) :: w.closers }

/-- `stop`. -/
def stop (w : GroupWorld n) : GroupWorld n :=
  match w.state with
  | .constructed =>
    { w with stopRequested := true, state := .stopped }.closeRegistrationMailboxes
  | .starting | .running | .draining =>
    { w with stopRequested := true, state := .stopping }.closeRegistrationMailboxes
  | .failed => { w with stopRequested := true }.closeRegistrationMailboxes
  | .stopping | .stopped => w

/-- `beginDrain`. -/
def beginDrain (w : GroupWorld n) : GroupWorld n :=
  if w.state = .running then { w with state := .draining }.closeRegistrationMailboxes else w

/-- The first step of `tryDispatch`. -/
def tryDispatch (w : GroupWorld n) (socket : ℤ) : GroupWorld n :=
  if socket < 0 then w
  else if w.state ≠ .running then w
  else { w with dispatch := .entered socket }

end GroupWorld

/-- What the other threads do. -/
inductive GroupMove (n : ℕ)
  /-- `start` launches the threads of the loops. -/
  | start
  /-- All loops are ready. -/
  | started
  /-- A loop could not be made. -/
  | startFailed
  /-- The loops that were launched have ended after all. -/
  | startFailedJoined
  | stop
  | beginDrain
  /-- A loop failed, and its thread stops the others. -/
  | loopFailed
  /-- `join` has seen all threads end. -/
  | joined
  | tryDispatch (socket : ℤ)
  /-- The thread in `tryDispatch` takes a step. -/
  | dispatchStep (signalled : Bool)
  /-- A thread in `closeRegistrationMailboxes` takes a step. -/
  | closerStep (before : List (Closer n)) (closer : Closer n) (after : List (Closer n))
  /-- The thread of a loop goes on in `release` with the counter of the group. -/
  | returnGlobal (i : Fin n)
  deriving DecidableEq, Repr

namespace GroupWorld

variable {n : ℕ}

/-- How the other threads change the group.  What takes the mutex waits for `tryDispatch`. -/
def move (config : EventLoopGroupConfig) (w : GroupWorld n) : GroupMove n → GroupWorld n → Prop
  | .start, w' => w.dispatch = .idle ∧ w.state = .constructed ∧
    w' = { w with state := .starting, stopRequested := false }
  | .started, w' => w.dispatch = .idle ∧ w.state = .starting ∧ w.stopRequested = false ∧
    w' = { w with state := .running }
  | .startFailed, w' => w.dispatch = .idle ∧ (w.state = .starting ∨ w.state = .stopping) ∧
    w' = { w with stopRequested := true, state := .stopping }.closeRegistrationMailboxes
  | .startFailedJoined, w' => w.dispatch = .idle ∧ (w.state = .stopping ∨ w.state = .stopped) ∧
    w' = { w with state := .failed }
  | .stop, w' => w.dispatch = .idle ∧ w' = w.stop
  | .beginDrain, w' => w.dispatch = .idle ∧ w' = w.beginDrain
  | .loopFailed, w' => w.dispatch = .idle ∧ w.state ≠ .constructed ∧ w.state ≠ .starting ∧
    w' = { w with stopRequested := true, state := .failed }.closeRegistrationMailboxes
  | .joined, w' => w.dispatch = .idle ∧ (w.state = .stopping ∨ w.state = .stopped) ∧
    w' = { w with state := .stopped }
  | .tryDispatch socket, w' => w.dispatch = .idle ∧ w' = w.tryDispatch socket
  | .dispatchStep signalled, w' => w' = w.dispatchStep config signalled
  | .closerStep before closer after, w' => w.closers = before ++ closer :: after ∧
    w' = { (w.closerStep closer).1 with
      closers := before ++ (w.closerStep closer).2 :: after }
  | .returnGlobal i, w' =>
    w' = { w with
      toLoadCounters := w.releaseGlobal (w.returning i)
      returning := Function.update w.returning i 0 }

/-- How the group answers the operations of loop `i`; while its thread is in `release`, it does
not. -/
def serve (i : Fin n) (w : GroupWorld n) (op : LoopOp) (r : op.Reply) (w' : GroupWorld n) : Prop :=
  w.returning i = 0 ∧
  match op, r with
  | .popConnection, r =>
    r = (w.registrations i).tryPop.1 ∧ w' = w.setRegistrations i (w.registrations i).tryPop.2
  | .closeMailboxes, r =>
    r = (w.registrations i).close.1 ∧ w' = w.setRegistrations i (w.registrations i).close.2
  | .releaseConnection, _ =>
    w' = { w with
      toLoadCounters := w.releaseAt i 1
      returning := Function.update w.returning i (w.releasedAt i 1) }
  | _, _ => w' = w

end GroupWorld

/-! ### The system -/

/-- The calls that the thread of a loop makes. -/
structure GroupCall (n : ℕ) where
  loop : Fin n
  call : LoopCall
  deriving DecidableEq, Repr

/-- The configuration of loop `i`. -/
def EventLoopGroupConfig.loopConfig (config : EventLoopGroupConfig) (i : ℕ) : EventLoopConfig :=
  { config.eventLoop with
    loopId := i, maxConnections := config.maxConnectionsPerLoop, hasConnectionMailbox := true }

/-- A new group and its loops. -/
def groupPool (config : CheckedGroupConfig) : Pool LoopSig (Fin config.loopCount)
    (GroupCall config.loopCount) (GroupMove config.loopCount) (GroupWorld config.loopCount)
    QuotaView LoopState EventLoopStatus where
  init w v x := w.state = .constructed ∧ w.stopRequested = false ∧ w.nextLoopIndex.val = 0 ∧
    (∀ i, w.registrations i = { capacity := config.connectionQueueCapacity }) ∧
    w.toLoadCounters = {} ∧ w.dispatch = .idle ∧ w.closers = [] ∧
    w.returning = (fun _ => 0) ∧ v = (fun _ => {}) ∧ x = (fun _ => {})
  may i c := c.loop = i ∧ ∀ fd, c.call ≠ .adopt fd
  code c := c.call.code (config.loopConfig c.loop)
  serve := GroupWorld.serve
  env := GroupWorld.move config.toEventLoopGroupConfig
  enter _ v := v
  upd := QuotaView.upd

end AegisFlow
