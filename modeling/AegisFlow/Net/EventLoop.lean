import AegisFlow.Interaction.Proc
import AegisFlow.Net.Completion
import AegisFlow.Runtime.WorkerPool
import Std.Data.TreeMap.Lemmas

/-!
# The event loop

An `EventLoop` owns the sessions of its connections.  It waits on an edge-triggered epoll
instance, reads and writes the sockets, hands requests to the worker pool and takes completions,
timeouts and new connections out of its mailboxes.  All of this happens on one thread; what other
threads and the kernel do shows in the replies to the loop's operations.

* `LoopOp`, `LoopSig` : the operations: system calls, the clock, the timer, the worker pool and
  the mailboxes;
* `LoopState`, `SessionEntry` : the loop's own state;
* `adopt`, `handleRead`, `handleWrite`, `dispatchRequest`, `applyCompletion`,
  `handleTimeoutEvent`, `applyGracefulDrain`, `handleSocketEvent`, `drainMailboxes`, `pollOnce`,
  `forceShutdown` : the loop's code.

`handleRead`, `handleWrite` and the loops over mailboxes have no bound on their iterations.  Their
definitions take one, and a call that reaches it performs `LoopOp.spin`, which is never answered:
such a call is one that is still running.
-/

namespace AegisFlow

/-! ### Configuration and state -/

/-- The deadlines of the states of a session, in milliseconds. -/
structure SessionDeadlineConfig where
  enabled : Bool := false
  idleTimeout : ℕ := 0
  readTimeout : ℕ := 0
  writeTimeout : ℕ := 0
  businessTimeout : ℕ := 0
  deriving DecidableEq, Repr

/-- The configuration of a loop. -/
structure EventLoopConfig where
  loopId : ℕ := 0
  maxConnections : ℕ := 65536
  /-- Events that one `epoll_wait` returns at most. -/
  maxEvents : ℕ := 64
  readScratchBytes : ℕ := 4096
  /-- Completions that may wait for the loop. -/
  completionCapacity : ℕ := 1024
  /-- Bytes of their frames. -/
  completionByteCapacity : ℕ := 16 * 1024 * 1024
  maxCompletionBytes : ℕ := kFrameHeaderSize + kMaxPayloadSize
  /-- The response to a request the worker pool refuses; empty for none. -/
  overloadResponseFrame : Bytes := []
  /-- The response to a request that took too long; empty for none. -/
  businessTimeoutResponseFrame : Bytes := []
  deadlines : SessionDeadlineConfig := {}
  session : SessionConfig := {}
  hasConnectionMailbox : Bool := true
  deriving DecidableEq, Repr

/-- The configuration, if it makes sense. -/
def checkedEventLoopConfig (config : EventLoopConfig) : Option EventLoopConfig :=
  if config.maxEvents = 0 ∨ config.readScratchBytes = 0 ∨ config.maxConnections = 0 ∨
      config.completionCapacity = 0 ∨ config.completionByteCapacity = 0 ∨
      config.maxCompletionBytes ≤ kFrameHeaderSize ∨
      config.session.maxOutputBufferBytes < config.maxCompletionBytes then none
  else some config

/-- A set of epoll events. -/
structure EpollEvents where
  edgeTriggered : Bool := false
  input : Bool := false
  output : Bool := false
  readHangup : Bool := false
  error : Bool := false
  hangup : Bool := false
  deriving DecidableEq, Repr

/-- What to register for a session's interest. -/
def epollEventsFor (interest : SessionInterest) : EpollEvents :=
  { edgeTriggered := true, input := interest.read, output := interest.write,
    readHangup := interest.peerReadClose }

/-- What an operation of the loop returns. -/
inductive EventLoopStatus
  | ok
  | invalidArgument
  | alreadyRegistered
  | generationExhausted
  | connectionLimit
  | timerScheduleFailed
  | systemCallFailed
  | stopped
  deriving DecidableEq, Repr

/-- What the loop keeps for a connection. -/
structure SessionEntry where
  session : Session
  registeredEvents : EpollEvents
  /-- Number of the current deadline. -/
  deadlineSequence : ℕ := 0
  deadlineKind : TimerEventKind := .idleTimeout
  deadlineAt : ℕ := 0
  deadlineActive : Bool := false
  /-- The outstanding request took too long: its result is to be ignored. -/
  businessExpired : Bool := false
  deriving DecidableEq, Repr

/-- The state of a loop. -/
structure LoopState where
  sessions : Std.TreeMap ℤ SessionEntry := ∅
  /-- The descriptor a generation, which is what epoll reports, stands for. -/
  eventToFd : Std.TreeMap ℕ ℤ := ∅
  /-- The next generation; zero when they are used up. -/
  nextGeneration : ℕ := 1
  epollOpen : Bool := true
  stopped : Bool := false
  routerBound : Bool := true

/-- Set the entry for a descriptor. -/
abbrev LoopState.put (st : LoopState) (fd : ℤ) (entry : SessionEntry) : LoopState :=
  { st with sessions := st.sessions.insert fd entry }

/-! ### Operations -/

/-- The three mailboxes of a loop. -/
inductive LoopWake
  | completion
  | timeout
  | connection
  deriving DecidableEq, Repr

/-- What the loop does to the world. -/
inductive LoopOp
  | recv (fd : ℤ) (capacity : ℕ)
  | send (fd : ℤ) (bytes : Bytes)
  | epollAdd (fd : ℤ) (events : EpollEvents) (generation : ℕ)
  | epollMod (fd : ℤ) (events : EpollEvents) (generation : ℕ)
  | epollDel (fd : ℤ)
  | epollWait
  | closeEpoll
  /-- `getsockopt(SO_ERROR)`. -/
  | socketError (fd : ℤ)
  | closeSocket (fd : ℤ)
  | now
  | scheduleAt (deadline : ℕ) (event : TimerEvent)
  | cancelTimer (id : TimerId)
  | drainRequested
  /-- Make a task of the request and submit it to the worker pool. -/
  | trySubmit (request : BusinessRequest)
  /-- Whether the memory needed at this place is not there. -/
  | outOfMemory
  | drainWakeSignal (mailbox : LoopWake)
  | popCompletion
  | popTimeout
  | takeRescanRequest
  | popConnection
  | closeMailboxes
  | releaseConnection
  /-- Run on for ever. -/
  | spin
  deriving DecidableEq, Repr

/-- What `recv` returns. -/
inductive RecvResult
  | data (bytes : Bytes)
  | closed
  | interrupted
  | again
  | failed
  deriving DecidableEq, Repr

/-- What `send` returns. -/
inductive SendResult
  | sent (count : ℕ)
  | interrupted
  | again
  | failed
  deriving DecidableEq, Repr

/-- The replies to the operations. -/
@[reducible] def LoopOp.Reply : LoopOp → Type
  | recv .. => RecvResult
  | send .. => SendResult
  -- whether the call succeeded
  | epollAdd .. | epollMod .. => Bool
  | epollDel .. | closeEpoll | closeSocket .. | cancelTimer .. | releaseConnection => Unit
  -- the events that are ready, by generation; zero stands for the mailboxes
  | epollWait => Option (List (ℕ × EpollEvents))
  -- the error of the socket, if the query succeeded
  | socketError .. => Option ℕ
  | now => ℕ
  | scheduleAt .. => Option TimerId
  -- nothing if an exception was thrown
  | trySubmit .. => Option WorkerSubmitStatus
  | drainRequested | outOfMemory | drainWakeSignal .. | takeRescanRequest => Bool
  | popCompletion => Option BusinessCompletion
  | popTimeout => Option TimerEvent
  | popConnection => Option ℤ
  -- how many connections were waiting
  | closeMailboxes => ℕ
  | spin => Empty

/-- The signature of the loop's operations. -/
@[reducible] def LoopSig : Sig where
  Op := LoopOp
  Reply := LoopOp.Reply

/-- Code of the event loop. -/
abbrev Loop := Proc LoopSig LoopState

namespace EventLoop

/-- The call is still running. -/
def diverge {α : Type} : Loop α := do
  let never ← Proc.perform (E := LoopSig) .spin
  nomatch never

/-- The entry for a descriptor. -/
def find (fd : ℤ) : Loop (Option SessionEntry) := do
  return (← Proc.get).sessions[fd]?

/-- Set the entry for a descriptor. -/
def put (fd : ℤ) (entry : SessionEntry) : Loop Unit := Proc.modify fun st => st.put fd entry

variable (config : EventLoopConfig)

/-! ### Deadlines -/

/-- The timer event for a session. -/
def sessionTimerEvent (kind : TimerEventKind) (token : ConnectionToken) (sequence : ℕ) :
    TimerEvent where
  kind := kind
  targetId := token.fd.toNat
  targetLoopId := token.loopId
  targetFd := token.fd
  targetGeneration := token.generation
  targetSequence := sequence

/-- The slot of a session for a kind of event. -/
def sessionTimerKind : TimerEventKind → SessionTimerKind
  | .idleTimeout => .idle
  | .readTimeout => .read
  | .writeTimeout => .write
  | .businessTimeout => .business
  | .cleanupTick | .blacklistMaintenanceTick => .idle

/-- The timeout for a kind of event. -/
def timeoutFor : TimerEventKind → ℕ
  | .idleTimeout => config.deadlines.idleTimeout
  | .readTimeout => config.deadlines.readTimeout
  | .writeTimeout => config.deadlines.writeTimeout
  | .businessTimeout => config.deadlines.businessTimeout
  | .cleanupTick | .blacklistMaintenanceTick => 0

/-- The deadline a session has in its state. -/
def deadlineKindFor (session : Session) : TimerEventKind :=
  match session.state with
  | .reading => if session.bufferedInputBytes = 0 then .idleTimeout else .readTimeout
  | .processing => .businessTimeout
  | .writing => .writeTimeout
  | .closing | .closed => .idleTimeout

/-- Cancel a timer, if it is one. -/
def cancelTimerId (id : TimerId) : Loop Unit :=
  Proc.when id.valid (Proc.perform (E := LoopSig) (.cancelTimer id))

/-- Cancel the deadline of a session. -/
def cancelDeadline (fd : ℤ) : Loop Unit := do
  match ← find fd with
  | none => pure ()
  | some entry =>
    if entry.deadlineActive then do
      let slot := sessionTimerKind entry.deadlineKind
      put fd { entry with
        session := (entry.session.replaceTimer slot {}).2, deadlineActive := false }
      cancelTimerId (entry.session.replaceTimer slot {}).1
    else pure ()

/-- Schedule the next deadline of a session; clock readings are in nanoseconds. -/
def armDeadline (fd : ℤ) (kind : TimerEventKind) : Loop Bool := do
  if !config.deadlines.enabled then return true
  else
    cancelDeadline fd
    match ← find fd with
    | none => return false
    | some entry =>
      if entry.deadlineSequence = 2 ^ 64 - 1 then return false
      else
        let sequence := entry.deadlineSequence + 1
        put fd { entry with deadlineSequence := sequence }
        let now ← Proc.perform (E := LoopSig) .now
        let deadline := now + 1000000 * timeoutFor config kind
        match ← Proc.perform (E := LoopSig)
          (.scheduleAt deadline (sessionTimerEvent kind entry.session.token sequence)) with
        | none => return false
        | some id =>
          put fd { entry with
            session := (entry.session.replaceTimer (sessionTimerKind kind) id).2
            deadlineSequence := sequence
            deadlineKind := kind
            deadlineAt := deadline
            deadlineActive := true }
          return true

/-- Make the deadline of a session the one its state asks for. -/
def syncDeadline (fd : ℤ) : Loop Bool := do
  match ← find fd with
  | none => return false
  | some entry =>
    if !config.deadlines.enabled then return true
    else if entry.session.state = .closing ∨ entry.session.state = .closed then
      cancelDeadline fd
      return true
    else
      let desired := deadlineKindFor entry.session
      if entry.deadlineActive = true ∧ entry.deadlineKind = desired then return true
      else armDeadline config fd desired

/-! ### Connections -/

/-- Register the events a session waits for, if they changed. -/
def modifyInterest (fd : ℤ) : Loop Bool := do
  match ← find fd with
  | none => return false
  | some entry =>
    if entry.session.state = .closing ∨ entry.session.state = .closed then return false
    else
      let desired := epollEventsFor entry.session.interest
      if desired = entry.registeredEvents then return true
      else if ← Proc.perform (E := LoopSig)
          (.epollMod fd desired entry.session.token.generation) then
        put fd { entry with registeredEvents := desired }
        return true
      else return false

/-- Remove a connection from epoll.  This comes before anything else, so that a closing session
gets no events. -/
def unregister (fd : ℤ) (generation : ℕ) : Loop Unit := do
  Proc.when (← Proc.get).epollOpen (Proc.perform (E := LoopSig) (.epollDel fd))
  Proc.modify fun st => { st with eventToFd := st.eventToFd.erase generation }

/-- Close the descriptor of a session that is closing and forget the session. -/
def finalize (fd : ℤ) (session : Session) : Loop Unit := do
  let timers := session.releaseTimersForClose.1
  cancelTimerId timers.idle
  cancelTimerId timers.read
  cancelTimerId timers.write
  cancelTimerId timers.business
  Proc.when (!session.connectionClosed) (Proc.perform (E := LoopSig) (.closeSocket fd))
  Proc.modify fun st => { st with sessions := st.sessions.erase fd }

/-- Close a session. -/
def closeSession (fd : ℤ) (reason : SessionCloseReason) (notifyReleaseObserver : Bool) :
    Loop Unit := do
  match ← find fd with
  | none => pure ()
  | some entry =>
    put fd { entry with session := (entry.session.beginClose reason).2 }
    unregister fd entry.session.token.generation
    cancelDeadline fd
    match ← find fd with
    | none => pure ()
    | some entry =>
      finalize fd entry.session
      Proc.when notifyReleaseObserver (Proc.perform (E := LoopSig) .releaseConnection)

/-- The next generation, if there is one. -/
def allocateGeneration : Loop (Option ℕ) := do
  let st ← Proc.get
  if st.nextGeneration = 0 then return none
  else
    Proc.modify fun st => { st with
      nextGeneration := if st.nextGeneration = 2 ^ 64 - 1 then 0 else st.nextGeneration + 1 }
    return some st.nextGeneration

/-- Take over a connection; a socket that is not taken over is closed, if it is one. -/
def adopt (fd : ℤ) : Loop EventLoopStatus := do
  let refuse (status : EventLoopStatus) : Loop EventLoopStatus := do
    Proc.when (decide (0 ≤ fd)) (Proc.perform (E := LoopSig) (.closeSocket fd))
    return status
  let st ← Proc.get
  if st.stopped then refuse .stopped
  else if fd < 0 then return .invalidArgument
  else if st.sessions.contains fd then refuse .alreadyRegistered
  else if config.maxConnections ≤ st.sessions.size then refuse .connectionLimit
  else match ← allocateGeneration with
  | none => refuse .generationExhausted
  | some generation =>
    if ← Proc.perform (E := LoopSig) .outOfMemory then refuse .systemCallFailed
    else match Session.create ⟨config.loopId, fd, generation⟩ config.session fd with
    | none => refuse .systemCallFailed
    | some session =>
      if st.eventToFd.contains generation then refuse .systemCallFailed
      else
        let registeredEvents := epollEventsFor session.interest
        put fd { session, registeredEvents }
        Proc.modify fun st => { st with eventToFd := st.eventToFd.insert generation fd }
        if ← Proc.perform (E := LoopSig) (.epollAdd fd registeredEvents generation) then
          if ← syncDeadline config fd then return .ok
          else
            closeSession fd .resourceExhausted false
            return .timerScheduleFailed
        else
          Proc.modify fun st => { st with
            eventToFd := st.eventToFd.erase generation, sessions := st.sessions.erase fd }
          refuse .systemCallFailed

/-! ### Requests, reading and writing -/

/-- Register the session's events, or close it if that fails. -/
def settleInterest (fd : ℤ) : Loop Unit := do
  if ← modifyInterest fd then pure () else closeSession fd .ioError true

/-- A new request is outstanding. -/
def clearBusinessExpired (fd : ℤ) : Loop Unit := do
  match ← find fd with
  | none => pure ()
  | some entry => put fd { entry with businessExpired := false }

/-- Hand a request to the worker pool.  If the pool refuses it the overload response is sent, by
`handleWrite`; the reply says whether the request was accepted. -/
def dispatchRequest (handleWrite : ℤ → Loop Unit) (token : ConnectionToken) (request : Bytes) :
    Loop Bool := do
  let refuse (reason : SessionCloseReason) : Loop Bool := do
    closeSession token.fd reason true
    return false
  if ← Proc.perform (E := LoopSig) .drainRequested then refuse .localShutdown
  else if (← Proc.perform (E := LoopSig) (.trySubmit ⟨token, request⟩)) = some .accepted then
    clearBusinessExpired token.fd
    if ← syncDeadline config token.fd then return true
    else refuse .resourceExhausted
  else if ← Proc.perform (E := LoopSig) .drainRequested then refuse .localShutdown
  else match ← find token.fd with
  | none => refuse .businessQueueRejected
  | some entry =>
    if !entry.session.matchesToken token || config.overloadResponseFrame == [] then
      refuse .businessQueueRejected
    else if ← Proc.perform (E := LoopSig) .outOfMemory then refuse .outputLimitExceeded
    else
      let queued := entry.session.queueResponse token config.overloadResponseFrame
      put token.fd { entry with session := queued.2 }
      if queued.1 = .ok then
        if ← syncDeadline config token.fd then
          handleWrite token.fd
          return false
        else refuse .resourceExhausted
      else if queued.1 = .outputLimitExceeded then refuse .outputLimitExceeded
      else refuse .businessQueueRejected

/-- Write the response of a session for as long as the socket takes it. -/
def handleWrite : (fuel : ℕ) → (fd : ℤ) → Loop Unit
  | 0, _ => diverge
  | fuel + 1, fd => do
    match ← find fd with
    | none => pure ()
    | some entry =>
      if entry.session.state = .closing then closeSession fd entry.session.closeReason true
      else if entry.session.state ≠ .writing then settleInterest fd
      else if entry.session.pendingOutput = [] then closeSession fd .ioError true
      else match ← Proc.perform (E := LoopSig) (.send fd entry.session.pendingOutput) with
      | .sent count =>
        if count = 0 then closeSession fd .ioError true
        else if ← Proc.perform (E := LoopSig) .outOfMemory then
          closeSession fd .resourceExhausted true
        else
          let progress := entry.session.onBytesWritten count
          put fd { entry with session := progress.2 }
          match progress.1.request with
          | some request =>
            if ← dispatchRequest config (handleWrite fuel) entry.session.token request then
              handleWrite fuel fd
            else pure ()
          | none =>
            if ← syncDeadline config fd then handleWrite fuel fd
            else closeSession fd .resourceExhausted true
      | .interrupted => handleWrite fuel fd
      | .again => settleInterest fd
      | .failed => closeSession fd .ioError true

/-- After input was taken and a request, if there was one, accepted: close, stop, or read on. -/
def afterInput (fd : ℤ) (drainPeerClose : Bool) (readOn : Loop Unit) : Loop Unit := do
  match ← find fd with
  | none => pure ()
  | some entry =>
    if entry.session.state = .closing then closeSession fd entry.session.closeReason true
    else
      let synced ← if entry.session.state = .reading then syncDeadline config fd else pure true
      if !synced then closeSession fd .resourceExhausted true
      else if !drainPeerClose && !entry.session.interest.read then settleInterest fd
      else readOn

/-- The peer has closed its side. -/
def peerClosed (fd : ℤ) : Loop Unit := do
  match ← find fd with
  | none => pure ()
  | some entry =>
    let session := entry.session.onPeerReadClosed.2
    put fd { entry with session }
    if session.state = .closing then closeSession fd session.closeReason true
    else settleInterest fd

/-- Read a socket until it has no more data. -/
def handleRead : (fuel : ℕ) → (fd : ℤ) → (drainPeerClose : Bool) → Loop Unit
  | 0, _, _ => diverge
  | fuel + 1, fd, drainPeerClose => do
    match ← find fd with
    | none => pure ()
    | some entry =>
      match ← Proc.perform (E := LoopSig) (.recv fd config.readScratchBytes) with
      | .data bytes =>
        if ← Proc.perform (E := LoopSig) .outOfMemory then
          closeSession fd .resourceExhausted true
        else
          let result := entry.session.onInput bytes
          put fd { entry with session := result.2 }
          match result.1.request with
          | none => afterInput config fd drainPeerClose (handleRead fuel fd drainPeerClose)
          | some request =>
            if ← dispatchRequest config (handleWrite config fuel) entry.session.token request then
              afterInput config fd drainPeerClose (handleRead fuel fd drainPeerClose)
            else pure ()
      | .closed => peerClosed fd
      | .interrupted => handleRead fuel fd drainPeerClose
      | .again => settleInterest fd
      | .failed => closeSession fd .ioError true

/-! ### Timeouts and completions -/

/-- The outstanding request took too long: answer for it and close after that. -/
def expireBusiness (fuel : ℕ) (fd : ℤ) (entry : SessionEntry) : Loop Unit := do
  put fd { entry with businessExpired := true }
  if config.businessTimeoutResponseFrame = [] then closeSession fd .businessTimeout true
  else if ← Proc.perform (E := LoopSig) .outOfMemory then closeSession fd .businessTimeout true
  else
    let queued :=
      entry.session.queueResponse entry.session.token config.businessTimeoutResponseFrame
    put fd { entry with session := queued.2, businessExpired := true }
    if queued.1 = .ok then
      let closing := queued.2.closeAfterWrite .businessTimeout
      put fd { entry with session := closing.2, businessExpired := true }
      if closing.1 ≠ .ok then closeSession fd .businessTimeout true
      else if ← syncDeadline config fd then handleWrite config fuel fd
      else closeSession fd .resourceExhausted true
    else closeSession fd .businessTimeout true

/-- A timer was due. -/
def handleTimeoutEvent (fuel : ℕ) (event : TimerEvent) : Loop Unit := do
  match ← find event.targetFd with
  | none => pure ()
  | some entry =>
    let token := entry.session.token
    -- token and sequence number filter out timers that were cancelled too late
    if event.targetLoopId ≠ token.loopId ∨ event.targetFd ≠ token.fd ∨
        event.targetGeneration ≠ token.generation ∨ entry.deadlineActive = false ∨
        event.targetSequence ≠ entry.deadlineSequence ∨ event.kind ≠ entry.deadlineKind then
      pure ()
    else if event.kind ≠ deadlineKindFor entry.session then pure ()
    else if (← Proc.perform (E := LoopSig) .now) < entry.deadlineAt then pure ()
    else
      let entry := { entry with
        session := (entry.session.replaceTimer (sessionTimerKind event.kind) {}).2
        deadlineActive := false }
      put event.targetFd entry
      match event.kind with
      | .idleTimeout => closeSession event.targetFd .idleTimeout true
      | .readTimeout => closeSession event.targetFd .readTimeout true
      | .writeTimeout => closeSession event.targetFd .writeTimeout true
      | .businessTimeout => expireBusiness config fuel event.targetFd entry
      | .cleanupTick | .blacklistMaintenanceTick => pure ()

/-- Why a session without a response is closed. -/
def completionCloseReason : BusinessCompletionStatus → SessionCloseReason
  | .invalidRequest => .protocolError
  | .outputLimitExceeded => .outputLimitExceeded
  | .response | .failed | .cancelled => .businessError

/-- Queue the response of a completion and write it. -/
def respond (fuel : ℕ) (completion : BusinessCompletion) : Loop Unit := do
  let fd := completion.token.fd
  match ← find fd with
  | none => pure ()
  | some entry =>
    let queued := entry.session.queueResponse completion.token completion.responseFrame
    put fd { entry with session := queued.2 }
    if queued.1 ≠ .ok then
      closeSession fd
        (if queued.1 = .outputLimitExceeded then .outputLimitExceeded else .businessError) true
    else
      Proc.when (← Proc.perform (E := LoopSig) .drainRequested)
        (put fd { entry with session := (queued.2.closeAfterWrite .localShutdown).2 })
      if ← syncDeadline config fd then handleWrite config fuel fd
      else closeSession fd .resourceExhausted true

/-- Whether the business deadline of a session has passed. -/
def businessDeadlinePassed (entry : SessionEntry) : Loop Bool := do
  if config.deadlines.enabled = true ∧ entry.deadlineActive = true ∧
      entry.deadlineKind = .businessTimeout then
    return decide (entry.deadlineAt ≤ (← Proc.perform (E := LoopSig) .now))
  else return false

/-- A task has ended: only the session whose token it carries is concerned. -/
def applyCompletion (fuel : ℕ) (completion : BusinessCompletion) : Loop Unit := do
  match ← find completion.token.fd with
  | none => pure ()
  | some entry =>
    if !entry.session.matchesToken completion.token then pure ()
    else if entry.businessExpired then pure ()
    else if ← businessDeadlinePassed config entry then
      handleTimeoutEvent config fuel
        (sessionTimerEvent .businessTimeout completion.token entry.deadlineSequence)
    else
      cancelDeadline completion.token.fd
      if completion.status ≠ .response then
        closeSession completion.token.fd (completionCloseReason completion.status) true
      else if ← Proc.perform (E := LoopSig) .outOfMemory then
        closeSession completion.token.fd .resourceExhausted true
      else respond config fuel completion

/-! ### The top level -/

/-- On shutdown: close the sessions that wait for input, let the others finish writing. -/
def applyGracefulDrain (fuel : ℕ) : Loop Unit := do
  if ← Proc.perform (E := LoopSig) .drainRequested then
    let descriptors := ((← Proc.get).sessions.toList.filter fun (_, entry) =>
      entry.session.state == .reading || entry.session.state == .writing).map Prod.fst
    Proc.forEach (fun fd => do
      match ← find fd with
      | none => pure ()
      | some entry =>
        if entry.session.state = .reading then closeSession fd .localShutdown true
        else if entry.session.state = .writing then
          put fd { entry with session := (entry.session.closeAfterWrite .localShutdown).2 }
          handleWrite config fuel fd
        else pure ()) descriptors

/-- Take completions until there is none. -/
def drainCompletions : (fuel : ℕ) → Loop Unit
  | 0 => diverge
  | fuel + 1 => do
    match ← Proc.perform (E := LoopSig) .popCompletion with
    | none => pure ()
    | some completion =>
      applyCompletion config fuel completion
      drainCompletions fuel

/-- Take timeouts until there is none. -/
def drainTimeouts : (fuel : ℕ) → Loop Unit
  | 0 => diverge
  | fuel + 1 => do
    match ← Proc.perform (E := LoopSig) .popTimeout with
    | none => pure ()
    | some event =>
      handleTimeoutEvent config fuel event
      drainTimeouts fuel

/-- Some timeouts did not fit into the mailbox: look at every session's deadline. -/
def rescanDeadlines (fuel : ℕ) : Loop Bool := do
  if ← Proc.perform (E := LoopSig) .outOfMemory then return false
  else
    let now ← Proc.perform (E := LoopSig) .now
    let expired := ((← Proc.get).sessions.toList.filter fun (_, entry) =>
      entry.deadlineActive && decide (entry.deadlineAt ≤ now)).map fun (_, entry) =>
        sessionTimerEvent entry.deadlineKind entry.session.token entry.deadlineSequence
    Proc.forEach (handleTimeoutEvent config fuel) expired
    return true

/-- Serve the timeout mailbox. -/
def drainTimeoutMailbox (fuel : ℕ) : Loop Bool := do
  if !config.deadlines.enabled then return true
  else if ← Proc.perform (E := LoopSig) (.drainWakeSignal .timeout) then
    drainTimeouts config fuel
    if ← Proc.perform (E := LoopSig) .takeRescanRequest then rescanDeadlines config fuel
    else return true
  else return false

/-- Take new connections until there is none. -/
def drainConnections : (fuel : ℕ) → Loop Unit
  | 0 => diverge
  | fuel + 1 => do
    match ← Proc.perform (E := LoopSig) .popConnection with
    | none => pure ()
    | some fd =>
      Proc.when ((← adopt config fd) != .ok) (Proc.perform (E := LoopSig) .releaseConnection)
      drainConnections fuel

/-- Serve the mailboxes. -/
def drainMailboxes (fuel : ℕ) : Loop Bool := do
  if ← Proc.perform (E := LoopSig) (.drainWakeSignal .completion) then
    drainCompletions config fuel
    if ← drainTimeoutMailbox config fuel then
      if !config.hasConnectionMailbox then return true
      else if ← Proc.perform (E := LoopSig) (.drainWakeSignal .connection) then
        drainConnections config fuel
        applyGracefulDrain config fuel
        return true
      else return false
    else return false
  else return false

/-- Serve an event of a socket. -/
def handleSocketEvent (fuel : ℕ) (generation : ℕ) (events : EpollEvents) : Loop Unit := do
  match (← Proc.get).eventToFd[generation]? with
  | none => pure ()
  | some fd =>
    if events.error || events.hangup then
      let socketError ← Proc.perform (E := LoopSig) (.socketError fd)
      closeSession fd
        (if events.error = true ∨ socketError ≠ some 0 then .ioError else .peerClosed) true
    else
      let entry ← find fd
      let readInterested := entry.any fun entry => entry.session.interest.read
      Proc.when (events.readHangup || (events.input && readInterested))
        (handleRead config fuel fd events.readHangup)
      Proc.when ((← find fd).isSome && events.output) (handleWrite config fuel fd)

/-- Serve what epoll reports. -/
def serveEvents (fuel : ℕ) : List (ℕ × EpollEvents) → Loop EventLoopStatus
  | [] => return .ok
  | (generation, events) :: rest => do
    if generation = 0 then
      if ← drainMailboxes config fuel then serveEvents fuel rest
      else return .systemCallFailed
    else
      handleSocketEvent config fuel generation events
      serveEvents fuel rest

/-- Wait for events and serve them. -/
def pollOnce (fuel : ℕ) (timeoutMs : ℤ) : Loop EventLoopStatus := do
  let st ← Proc.get
  if st.stopped || !st.epollOpen then return .stopped
  else if timeoutMs < -1 then return .invalidArgument
  else match ← Proc.perform (E := LoopSig) .epollWait with
  | none => return .systemCallFailed
  | some ready => serveEvents config fuel ready

/-- Close everything. -/
def forceShutdown : Loop Unit := do
  let st ← Proc.get
  if st.stopped && !st.epollOpen then pure ()
  else
    Proc.modify fun st => { st with routerBound := false }
    let discarded ← Proc.perform (E := LoopSig) .closeMailboxes
    Proc.forEach (fun _ => Proc.perform (E := LoopSig) .releaseConnection)
      (List.replicate discarded ())
    Proc.forEach (fun fd => closeSession fd .localShutdown true) (← Proc.get).sessions.keys
    Proc.when (← Proc.get).epollOpen (Proc.perform (E := LoopSig) .closeEpoll)
    Proc.modify fun st => { st with epollOpen := false, stopped := true }

end EventLoop

end AegisFlow
