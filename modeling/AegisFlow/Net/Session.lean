import AegisFlow.Net.Codec
import AegisFlow.Timer.Types

/-!
# A connection's session

A `Session` owns what is known of one connection: the decoder, the bytes received ahead of their
turn, the response being written and why the connection is to be closed.  It is in one of five
states.  In `reading` the bytes go to the decoder; when a request is complete the session is in
`processing` until its response is queued, then in `writing` until that is written, and bytes
that arrive meanwhile wait in a bounded buffer.  `closing` and `closed` are final.

* `Session.onInput`, `queueResponse`, `onBytesWritten`, `onPeerReadClosed`, `closeAfterWrite`,
  `beginClose`, `finalizeClose` : the operations;
* `Session.interest` : the events the session wants to hear of;
* `Session.consumeReadingBytes` : the loop that feeds the decoder one header or body at a time.
-/

namespace AegisFlow

/-- Difference of two `std::size_t` values. -/
def sizeSub (a b : ℕ) : ℕ := if b ≤ a then a - b else a + 2 ^ 64 - b

theorem sizeSub_of_le {a b : ℕ} (h : b ≤ a) : sizeSub a b = a - b := if_pos h

/-! ### Types -/

/-- What identifies a connection: descriptors are reused, generations are not. -/
structure ConnectionToken where
  loopId : ℕ := 0
  fd : ℤ := -1
  generation : ℕ := 0
  deriving DecidableEq, Repr

/-- Whether it can name a connection. -/
def ConnectionToken.valid (token : ConnectionToken) : Bool :=
  decide (0 ≤ token.fd) && token.generation != 0

/-- The states of a session. -/
inductive SessionState
  | reading
  | processing
  | writing
  | closing
  | closed
  deriving DecidableEq, Repr

/-- What the operations report. -/
inductive SessionStatus
  | ok
  | buffered
  | requestReady
  | invalidState
  | invalidArgument
  | staleToken
  | inputLimitExceeded
  | outputLimitExceeded
  | protocolError
  | truncatedFrame
  | writeProgressExceeded
  | closing
  | closed
  deriving DecidableEq, Repr

/-- Why a session is closed. -/
inductive SessionCloseReason
  | none
  | localShutdown
  | protocolError
  | inputLimitExceeded
  | outputLimitExceeded
  | peerClosed
  | peerTruncatedFrame
  | writeInvariantViolation
  | ioError
  | businessQueueRejected
  | businessError
  | idleTimeout
  | readTimeout
  | writeTimeout
  | businessTimeout
  | resourceExhausted
  deriving DecidableEq, Repr

/-- A set of the events a session can wait for. -/
structure SessionInterest where
  read : Bool := false
  write : Bool := false
  peerReadClose : Bool := false
  deriving DecidableEq, Repr

/-- The deadlines of a session. -/
inductive SessionTimerKind
  | idle
  | read
  | write
  | business
  deriving DecidableEq, Repr

/-- The timers scheduled for a session. -/
structure SessionTimers where
  idle : TimerId := {}
  read : TimerId := {}
  write : TimerId := {}
  business : TimerId := {}
  deriving DecidableEq, Repr

/-- The limits of a session. -/
structure SessionConfig where
  maxFramePayloadBytes : ℕ := kMaxPayloadSize
  inputSoftWatermarkBytes : ℕ := 64 * 1024
  maxInputBufferBytes : ℕ := kFrameHeaderSize + kMaxPayloadSize
  outputSoftWatermarkBytes : ℕ := 64 * 1024
  maxOutputBufferBytes : ℕ := kFrameHeaderSize + kMaxPayloadSize
  deriving DecidableEq, Repr

/-- The limits a session accepts. -/
def SessionConfig.validConfig (config : SessionConfig) : Bool :=
  decide (0 < config.maxFramePayloadBytes) &&
    decide (config.maxFramePayloadBytes ≤ kMaxPayloadSize) &&
    decide (0 < config.inputSoftWatermarkBytes) &&
    decide (config.inputSoftWatermarkBytes ≤ config.maxInputBufferBytes) &&
    decide (config.maxFramePayloadBytes ≤ config.maxInputBufferBytes) &&
    decide (0 < config.outputSoftWatermarkBytes) &&
    decide (config.outputSoftWatermarkBytes ≤ config.maxOutputBufferBytes)

/-- What an operation on the input returns. -/
structure SessionResult where
  status : SessionStatus := .ok
  request : Option Bytes := none
  bytesAccepted : ℕ := 0
  protocolError : ProtocolError := .none
  deriving DecidableEq, Repr

/-- A session. -/
structure Session where
  token : ConnectionToken
  config : SessionConfig
  codec : LengthPrefixedCodec := .create
  /-- Bytes that arrived while a request was outstanding. -/
  pendingInput : Bytes := []
  /-- How many of them were given to the decoder since. -/
  pendingInputOffset : ℕ := 0
  /-- The response being written. -/
  output : Bytes := []
  /-- How much of it is written. -/
  outputOffset : ℕ := 0
  timers : SessionTimers := {}
  state : SessionState := .reading
  closeReason : SessionCloseReason := .none
  peerReadClosed : Bool := false
  closeAfterWriteFlag : Bool := false
  connectionClosed : Bool := false
  deriving DecidableEq, Repr

namespace Session

/-- A session for a connection whose descriptor is `connectionFd`. -/
def create (token : ConnectionToken) (config : SessionConfig) (connectionFd : ℤ) :
    Option Session :=
  if !token.valid || !config.validConfig || connectionFd != token.fd then none
  else some { token, config }

/-! ### Observers -/

variable (s : Session)

/-- Whether `other` is the session's own token. -/
def matchesToken (other : ConnectionToken) : Bool := s.token == other

/-- Neither closing nor closed. -/
def isOpen : Prop := s.state ≠ .closing ∧ s.state ≠ .closed

instance (s : Session) : Decidable s.isOpen := by unfold isOpen; infer_instance

/-- Bytes waiting for their turn. -/
def pendingInputBytes : ℕ := sizeSub s.pendingInput.length s.pendingInputOffset

/-- Bytes held in all. -/
def bufferedInputBytes : ℕ := s.codec.bufferedBytes + s.pendingInputBytes

/-- Whether input should pause. -/
def inputAtOrAboveSoftWatermark : Bool :=
  decide (s.config.inputSoftWatermarkBytes ≤ s.bufferedInputBytes)

/-- Bytes of the response still to be written. -/
def remainingOutputBytes : ℕ := sizeSub s.output.length s.outputOffset

/-- The part of the response still to be written. -/
def pendingOutput : Bytes := s.output.drop s.outputOffset

/-- Whether output is slow. -/
def outputAtOrAboveSoftWatermark : Bool :=
  decide (s.config.outputSoftWatermarkBytes ≤ s.remainingOutputBytes)

/-- Above a soft watermark an open session with a request outstanding does not read. -/
def readPausedByBackpressure : Bool :=
  if s.peerReadClosed || (s.state != .processing && s.state != .writing) then false
  else s.inputAtOrAboveSoftWatermark || s.outputAtOrAboveSoftWatermark

/-- The events the session waits for. -/
def interest : SessionInterest :=
  if s.state = .closing ∨ s.state = .closed then {}
  else
    let interests : SessionInterest := { write := s.state == .writing }
    if s.peerReadClosed then interests
    else
      let interests := { interests with peerReadClose := true }
      if s.state == .reading || !s.readPausedByBackpressure then
        { interests with read := true }
      else interests

/-- Bytes the decoder needs to complete the header or the body it is in. -/
def bytesNeededByCodec : ℕ :=
  match s.codec.nextState with
  | .needHeader => sizeSub kFrameHeaderSize s.codec.bufferedBytes
  | .needBody => sizeSub s.codec.expectedPayloadBytes s.codec.bufferedBytes
  | _ => 0

/-! ### Closing and timers -/

/-- Freeze the session before its descriptor is closed. -/
def beginClose (reason : SessionCloseReason) : SessionStatus × Session :=
  if s.state = .closed then (.closed, s)
  else if s.state = .closing then (.closing, s)
  else if reason = .none then (.invalidArgument, s)
  else (.closing, { s with state := .closing, closeReason := reason })

/-- Close the descriptor, once. -/
def finalizeClose : SessionStatus × Session :=
  if s.state = .closed then (.closed, s)
  else
    let s := if s.state ≠ .closing then (s.beginClose .localShutdown).2 else s
    (.ok, { s with connectionClosed := true, state := .closed })

/-- Close once the current response is written. -/
def closeAfterWrite (reason : SessionCloseReason) : SessionStatus × Session :=
  if s.state = .closing then (.closing, s)
  else if s.state = .closed then (.closed, s)
  else if s.state ≠ .writing ∨ reason = .none then (.invalidState, s)
  else (.ok, { s with closeReason := reason, closeAfterWriteFlag := true })

/-- The peer has shut its side: no more input will come. -/
def onPeerReadClosed : SessionStatus × Session :=
  if s.state = .closing then (.closing, s)
  else if s.state = .closed then (.closed, s)
  else
    let s := { s with peerReadClosed := true }
    if s.state = .processing ∨ s.state = .writing then
      (.ok, { s with closeReason := .peerClosed })
    else if s.bufferedInputBytes ≠ 0 then (.truncatedFrame, (s.beginClose .peerTruncatedFrame).2)
    else (.closing, (s.beginClose .peerClosed).2)

/-- The timer of a kind. -/
def timerSlot : SessionTimerKind → TimerId
  | .idle => s.timers.idle
  | .read => s.timers.read
  | .write => s.timers.write
  | .business => s.timers.business

/-- Store a timer and return the one it replaces. -/
def replaceTimer (kind : SessionTimerKind) (timerId : TimerId) : TimerId × Session :=
  (s.timerSlot kind, { s with timers :=
    match kind with
    | .idle => { s.timers with idle := timerId }
    | .read => { s.timers with read := timerId }
    | .write => { s.timers with write := timerId }
    | .business => { s.timers with business := timerId } })

/-- Hand all timers over to be cancelled. -/
def releaseTimersForClose : SessionTimers × Session :=
  (s.timers, { s with timers := {} })

/-! ### Input -/

/-- Keep bytes for later; the ones already decoded are dropped first. -/
def appendPendingInput (input : Bytes) : Session :=
  if input = [] then s
  else { s with pendingInput := s.pendingInput.drop s.pendingInputOffset ++ input,
                pendingInputOffset := 0 }

/-- Forget the waiting bytes once all of them are decoded. -/
def clearConsumedPendingInput : Session :=
  if s.pendingInputOffset = s.pendingInput.length then
    { s with pendingInput := [], pendingInputOffset := 0 }
  else s

/-- The state of the loop of `consumeReadingBytes`. -/
structure Reading where
  session : Session
  /-- How many bytes of the input were used. -/
  offset : ℕ
  result : SessionResult
  /-- The loop was left by a `return`. -/
  returned : Bool

/-- Close the session and leave the loop. -/
def Reading.refuse (r : Reading) (reason : SessionCloseReason) (status : SessionStatus)
    (error : ProtocolError) : Reading :=
  { r with
    session := (r.session.beginClose reason).2
    result := { r.result with status := status, protocolError := error }
    returned := true }

/-- What an iteration does with the decoder's answer. -/
def Reading.decoded (r : Reading) (codecResult : CodecConsumeResult) (codec : LengthPrefixedCodec) :
    Reading :=
  let r := { r with
    session := { r.session with codec := codec }
    offset := r.offset + codecResult.bytesConsumed }
  if codecResult.state = .error then r.refuse .protocolError .protocolError codecResult.error
  else if codec.nextState = .needBody ∧
      r.session.config.maxFramePayloadBytes < codec.expectedPayloadBytes then
    r.refuse .inputLimitExceeded .inputLimitExceeded .none
  else
    match codecResult.frames with
    | [] => r
    | [frame] => { r with
        session := { r.session with state := .processing }
        result := { r.result with request := some frame, status := .requestReady } }
    | _ => r.refuse .protocolError .protocolError .multipleRequests

/-- One iteration: give the decoder the bytes it needs for the header or the body it is in. -/
def readStep (storeRemainder : Bool) (input : Bytes) (r : Reading) : Reading :=
  let consumeCount := min r.session.bytesNeededByCodec (input.length - r.offset)
  if storeRemainder = true ∧
      sizeSub r.session.config.maxInputBufferBytes r.session.bufferedInputBytes <
        consumeCount then
    r.refuse .inputLimitExceeded .inputLimitExceeded .none
  else
    let consumed := r.session.codec.consume ((input.drop r.offset).take consumeCount)
    r.decoded consumed.1 consumed.2

/-- The loop of `consumeReadingBytes`; every iteration that goes on uses at least one byte, so
the length of the input is enough fuel. -/
def readLoop (storeRemainder : Bool) (input : Bytes) : (fuel : ℕ) → Reading → Reading
  | 0, r => r
  | fuel + 1, r =>
    if r.returned = false ∧ r.offset < input.length ∧ r.session.state = .reading then
      readLoop storeRemainder input fuel (readStep storeRemainder input r)
    else r

/-- What follows the loop: the bytes behind a complete request are kept. -/
def finishReading (storeRemainder : Bool) (input : Bytes) (r : Reading) :
    SessionResult × Session :=
  if r.returned = false ∧ storeRemainder = true ∧ r.offset < input.length then
    if sizeSub r.session.config.maxInputBufferBytes r.session.bufferedInputBytes <
        input.length - r.offset then
      ({ r.result with
          status := .inputLimitExceeded, request := none, bytesAccepted := r.offset },
        (r.session.beginClose .inputLimitExceeded).2)
    else
      ({ r.result with bytesAccepted := input.length },
        r.session.appendPendingInput (input.drop r.offset))
  else ({ r.result with bytesAccepted := r.offset }, r.session)

/-- Decode bytes until a request is complete. -/
def consumeReadingBytes (s : Session) (input : Bytes) (storeRemainder : Bool) :
    SessionResult × Session :=
  finishReading storeRemainder input
    (readLoop storeRemainder input input.length ⟨s, 0, { status := .buffered }, false⟩)

/-- The decoder took `count` of the bytes that waited. -/
def advancePendingInput (s : Session) (count : ℕ) : Session :=
  { s with pendingInputOffset := s.pendingInputOffset + count }.clearConsumedPendingInput

/-- Decode the bytes that waited. -/
def consumePendingInput (s : Session) : SessionResult × Session :=
  if s.state ≠ .reading ∨ s.pendingInputBytes = 0 then ({ status := .buffered }, s)
  else
    let consumed := s.consumeReadingBytes (s.pendingInput.drop s.pendingInputOffset) false
    (consumed.1, consumed.2.advancePendingInput consumed.1.bytesAccepted)

/-- Bytes arrived. -/
def onInput (s : Session) (input : Bytes) : SessionResult × Session :=
  if s.state = .closing then ({ status := .closing }, s)
  else if s.state = .closed then ({ status := .closed }, s)
  else if input = [] then ({ status := .buffered }, s)
  else if s.state ≠ .reading then
    -- only one request of a connection is outstanding: later bytes wait, up to the limit
    if sizeSub s.config.maxInputBufferBytes s.bufferedInputBytes < input.length then
      ({ status := .inputLimitExceeded }, (s.beginClose .inputLimitExceeded).2)
    else ({ status := .buffered, bytesAccepted := input.length }, s.appendPendingInput input)
  else s.consumeReadingBytes input true

/-! ### Output -/

/-- Accept the response to the outstanding request. -/
def queueResponse (s : Session) (token : ConnectionToken) (response : Bytes) :
    SessionStatus × Session :=
  -- descriptors are reused: a late result for an earlier connection has another generation
  if !s.matchesToken token then (.staleToken, s)
  else if s.state = .closing then (.closing, s)
  else if s.state = .closed then (.closed, s)
  else if s.state ≠ .processing then (.invalidState, s)
  else if response = [] then (.invalidArgument, s)
  else if s.config.maxOutputBufferBytes < response.length then
    (.outputLimitExceeded, (s.beginClose .outputLimitExceeded).2)
  else (.ok, { s with output := response, outputOffset := 0, state := .writing })

/-- The response is written: close, or go on with the bytes that waited. -/
def onResponseWritten (s : Session) : SessionResult × Session :=
  if s.closeAfterWriteFlag || s.peerReadClosed then
    let reason := if s.closeAfterWriteFlag then s.closeReason else .peerClosed
    ({ status := .closing }, ({ s with output := [], outputOffset := 0 }.beginClose reason).2)
  else
    let consumed :=
      { s with output := [], outputOffset := 0, state := .reading }.consumePendingInput
    (if consumed.1.status = .buffered then { consumed.1 with status := .ok } else consumed.1,
      consumed.2)

/-- Some bytes of the response were written. -/
def onBytesWritten (s : Session) (bytesWritten : ℕ) : SessionResult × Session :=
  if s.state = .closing then ({ status := .closing }, s)
  else if s.state = .closed then ({ status := .closed }, s)
  else if s.state ≠ .writing then ({ status := .invalidState }, s)
  else if s.remainingOutputBytes < bytesWritten then
    ({ status := .writeProgressExceeded }, (s.beginClose .writeInvariantViolation).2)
  else if sizeSub s.output.length (s.outputOffset + bytesWritten) ≠ 0 then
    -- a short write only moves the offset
    ({ status := .ok }, { s with outputOffset := s.outputOffset + bytesWritten })
  else s.onResponseWritten

/-- What a session that wants to read waits for. -/
theorem interest_of_read {s : Session} (h : s.interest.read = true) :
    s.interest = ⟨true, s.state == .writing, true⟩ := by
  unfold interest at h ⊢
  dsimp only at h ⊢
  split_ifs at h ⊢
  rfl

/-- Once the peer has closed its side, a session does not want to read. -/
theorem interest_onPeerReadClosed (s : Session) : s.onPeerReadClosed.2.interest.read = false := by
  simp only [onPeerReadClosed]
  split_ifs with hclosing hclosed hbusy hbuffered
  · simp [interest, hclosing]
  · simp [interest, hclosed]
  · simp only [interest]
    split_ifs <;> rfl
  · simp only [beginClose]
    split_ifs <;> simp_all [interest]
  · simp only [beginClose]
    split_ifs <;> simp_all [interest]

/-! ### What operations leave alone -/

/-- Neither the token nor the configuration changed, no timer was set, and the descriptor was not
closed. -/
structure Frame (s s' : Session) : Prop where
  token : s'.token = s.token
  config : s'.config = s.config
  timers : s'.timers = s.timers
  connectionClosed : s'.connectionClosed = s.connectionClosed

theorem Frame.refl (s : Session) : Frame s s := ⟨rfl, rfl, rfl, rfl⟩

theorem Frame.trans {s₁ s₂ s₃ : Session} (h : Frame s₁ s₂) (h' : Frame s₂ s₃) : Frame s₁ s₃ :=
  ⟨h'.token.trans h.token, h'.config.trans h.config, h'.timers.trans h.timers,
    h'.connectionClosed.trans h.connectionClosed⟩

theorem frame_beginClose (reason : SessionCloseReason) : Frame s (s.beginClose reason).2 := by
  unfold beginClose
  split_ifs <;> exact ⟨rfl, rfl, rfl, rfl⟩

theorem frame_closeAfterWrite (reason : SessionCloseReason) :
    Frame s (s.closeAfterWrite reason).2 := by
  unfold closeAfterWrite
  split_ifs <;> exact ⟨rfl, rfl, rfl, rfl⟩

theorem frame_onPeerReadClosed : Frame s s.onPeerReadClosed.2 := by
  have hmark : Frame s { s with peerReadClosed := true } := ⟨rfl, rfl, rfl, rfl⟩
  simp only [onPeerReadClosed]
  split_ifs
  · exact .refl s
  · exact .refl s
  · exact ⟨rfl, rfl, rfl, rfl⟩
  · exact hmark.trans (frame_beginClose _ _)
  · exact hmark.trans (frame_beginClose _ _)

theorem frame_queueResponse (token : ConnectionToken) (response : Bytes) :
    Frame s (s.queueResponse token response).2 := by
  unfold queueResponse
  split_ifs
  · exact .refl s
  · exact .refl s
  · exact .refl s
  · exact .refl s
  · exact .refl s
  · exact frame_beginClose _ _
  · exact ⟨rfl, rfl, rfl, rfl⟩

theorem frame_appendPendingInput (input : Bytes) : Frame s (s.appendPendingInput input) := by
  unfold appendPendingInput
  split_ifs <;> exact ⟨rfl, rfl, rfl, rfl⟩

theorem frame_advancePendingInput (count : ℕ) : Frame s (s.advancePendingInput count) := by
  unfold advancePendingInput clearConsumedPendingInput
  split_ifs <;> exact ⟨rfl, rfl, rfl, rfl⟩

theorem frame_decoded (r : Reading) (result : CodecConsumeResult) (codec : LengthPrefixedCodec) :
    Frame r.session (r.decoded result codec).session := by
  have hcodec : Frame r.session { r.session with codec := codec } := ⟨rfl, rfl, rfl, rfl⟩
  simp only [Reading.decoded, Reading.refuse]
  split_ifs
  · exact hcodec.trans (frame_beginClose _ _)
  · exact hcodec.trans (frame_beginClose _ _)
  · split
    · exact hcodec
    · exact ⟨rfl, rfl, rfl, rfl⟩
    · exact hcodec.trans (frame_beginClose _ _)

theorem frame_readLoop (storeRemainder : Bool) (input : Bytes) (fuel : ℕ) (r : Reading) :
    Frame r.session (readLoop storeRemainder input fuel r).session := by
  induction fuel generalizing r with
  | zero => exact .refl _
  | succ fuel ih =>
    unfold readLoop
    split_ifs
    · refine Frame.trans ?_ (ih _)
      simp only [readStep]
      split_ifs
      · exact frame_beginClose _ _
      · exact frame_decoded _ _ _
    · exact .refl _

theorem frame_consumeReadingBytes (input : Bytes) (storeRemainder : Bool) :
    Frame s (s.consumeReadingBytes input storeRemainder).2 := by
  have hloop := frame_readLoop storeRemainder input input.length
    ⟨s, 0, { status := .buffered }, false⟩
  unfold consumeReadingBytes finishReading
  split_ifs
  · exact hloop.trans (frame_beginClose _ _)
  · exact hloop.trans (frame_appendPendingInput _ _)
  · exact hloop

theorem frame_onInput (input : Bytes) : Frame s (s.onInput input).2 := by
  unfold onInput
  split_ifs
  · exact .refl s
  · exact .refl s
  · exact .refl s
  · exact frame_beginClose _ _
  · exact frame_appendPendingInput _ _
  · exact frame_consumeReadingBytes _ _ _

theorem frame_consumePendingInput : Frame s s.consumePendingInput.2 := by
  unfold consumePendingInput
  split_ifs
  · exact .refl s
  · exact (frame_consumeReadingBytes _ _ _).trans (frame_advancePendingInput _ _)

theorem frame_onResponseWritten : Frame s s.onResponseWritten.2 := by
  have hdone : Frame s { s with output := [], outputOffset := 0 } := ⟨rfl, rfl, rfl, rfl⟩
  have hread : Frame s { s with output := [], outputOffset := 0, state := .reading } :=
    ⟨rfl, rfl, rfl, rfl⟩
  unfold onResponseWritten
  split
  · exact hdone.trans (frame_beginClose _ _)
  · exact hread.trans (frame_consumePendingInput _)

theorem frame_onBytesWritten (count : ℕ) : Frame s (s.onBytesWritten count).2 := by
  unfold onBytesWritten
  split_ifs
  · exact .refl s
  · exact .refl s
  · exact .refl s
  · exact frame_beginClose _ _
  · exact ⟨rfl, rfl, rfl, rfl⟩
  · exact frame_onResponseWritten s

@[simp] theorem beginClose_token (reason : SessionCloseReason) :
    (s.beginClose reason).2.token = s.token := (frame_beginClose s reason).token

@[simp] theorem closeAfterWrite_token (reason : SessionCloseReason) :
    (s.closeAfterWrite reason).2.token = s.token := (frame_closeAfterWrite s reason).token

@[simp] theorem onPeerReadClosed_token : s.onPeerReadClosed.2.token = s.token :=
  (frame_onPeerReadClosed s).token

@[simp] theorem queueResponse_token (token : ConnectionToken) (response : Bytes) :
    (s.queueResponse token response).2.token = s.token :=
      (frame_queueResponse s token response).token

@[simp] theorem onInput_token (input : Bytes) : (s.onInput input).2.token = s.token :=
  (frame_onInput s input).token

@[simp] theorem onBytesWritten_token (count : ℕ) :
    (s.onBytesWritten count).2.token = s.token := (frame_onBytesWritten s count).token

@[simp] theorem beginClose_timers (reason : SessionCloseReason) :
    (s.beginClose reason).2.timers = s.timers := (frame_beginClose s reason).timers

@[simp] theorem closeAfterWrite_timers (reason : SessionCloseReason) :
    (s.closeAfterWrite reason).2.timers = s.timers := (frame_closeAfterWrite s reason).timers

@[simp] theorem onPeerReadClosed_timers : s.onPeerReadClosed.2.timers = s.timers :=
  (frame_onPeerReadClosed s).timers

@[simp] theorem queueResponse_timers (token : ConnectionToken) (response : Bytes) :
    (s.queueResponse token response).2.timers = s.timers :=
  (frame_queueResponse s token response).timers

@[simp] theorem onInput_timers (input : Bytes) : (s.onInput input).2.timers = s.timers :=
  (frame_onInput s input).timers

@[simp] theorem onBytesWritten_timers (count : ℕ) :
    (s.onBytesWritten count).2.timers = s.timers := (frame_onBytesWritten s count).timers

/-! ### States -/

theorem beginClose_state (s : Session) {reason : SessionCloseReason} (hreason : reason ≠ .none)
    (hclosed : s.state ≠ .closed) : (s.beginClose reason).2.state = .closing := by
  unfold beginClose
  rw [if_neg hclosed, if_neg hreason]
  split_ifs with hclosing
  · exact hclosing
  · rfl

/-- What the loop of the decoder can leave behind. -/
def Reading.Progress (r : Reading) : Prop :=
  r.session.state = .reading ∨ r.session.state = .closing ∨
    r.session.state = .processing ∧ r.result.request ≠ none

theorem readLoop_progress (storeRemainder : Bool) (input : Bytes) (fuel : ℕ) (r : Reading)
    (h : r.Progress) : (readLoop storeRemainder input fuel r).Progress := by
  induction fuel generalizing r with
  | zero => exact h
  | succ fuel ih =>
    unfold readLoop
    split_ifs with hgo
    · refine ih _ ?_
      have hclose {s : Session} (hs : s.state = .reading) {reason : SessionCloseReason}
          (hreason : reason ≠ .none) : (s.beginClose reason).2.state = .closing :=
        beginClose_state s hreason (by rw [hs]; decide)
      simp only [readStep, Reading.decoded, Reading.refuse]
      split_ifs
      · exact .inr (.inl (hclose hgo.2.2 (by decide)))
      · exact .inr (.inl (hclose (by exact hgo.2.2) (by decide)))
      · exact .inr (.inl (hclose (by exact hgo.2.2) (by decide)))
      · split
        · exact .inl hgo.2.2
        · exact .inr (.inr ⟨rfl, by simp⟩)
        · exact .inr (.inl (hclose (by exact hgo.2.2) (by decide)))
    · exact h

/-- Input that completes no request leaves the state, or makes the session close. -/
theorem onInput_state (s : Session) (input : Bytes) (h : (s.onInput input).1.request = none) :
    (s.onInput input).2.state = s.state ∨ (s.onInput input).2.state = .closing := by
  have happend (s : Session) (input : Bytes) :
      (s.appendPendingInput input).state = s.state := by
    unfold appendPendingInput
    split_ifs <;> rfl
  unfold onInput at h ⊢
  split_ifs at h ⊢ with _ hclosed _ hreading
  · exact .inl rfl
  · exact .inl rfl
  · exact .inl rfl
  · exact .inr (beginClose_state s (by decide) hclosed)
  · exact .inl (happend s input)
  · rw [not_not] at hreading
    have hloop := readLoop_progress true input input.length ⟨s, 0, { status := .buffered }, false⟩
      (.inl hreading)
    unfold consumeReadingBytes finishReading at h ⊢
    generalize readLoop true input input.length ⟨s, 0, { status := .buffered }, false⟩ = r at *
    split_ifs at h ⊢
    · refine .inr (beginClose_state _ (by decide) ?_)
      rcases hloop with hs | hs | ⟨hs, -⟩ <;> simp [hs]
    · rcases hloop with hs | hs | ⟨-, hrequest⟩
      · exact .inl ((happend _ _).trans (hs.trans hreading.symm))
      · exact .inr ((happend _ _).trans hs)
      · exact absurd h hrequest
    · rcases hloop with hs | hs | ⟨-, hrequest⟩
      · exact .inl (hs.trans hreading.symm)
      · exact .inr hs
      · exact absurd h hrequest

/-- A session whose peer has closed its side goes on with the request it has, or closes. -/
theorem onPeerReadClosed_state (s : Session) :
    s.onPeerReadClosed.2.state = .closing ∨
      s.onPeerReadClosed.2.state = s.state ∧ s.state ≠ .reading := by
  simp only [onPeerReadClosed]
  split_ifs with hclosing hclosed hbusy
  · exact .inl hclosing
  · exact .inr ⟨rfl, by rw [hclosed]; decide⟩
  · refine .inr ⟨rfl, ?_⟩
    rcases hbusy with hs | hs
    · rw [hs]
      decide
    · rw [hs]
      decide
  · exact .inl (beginClose_state _ (by decide) hclosed)
  · exact .inl (beginClose_state _ (by decide) hclosed)

end Session

end AegisFlow
