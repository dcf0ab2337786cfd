import AegisFlow.Net.CodecReference
import AegisFlow.Net.EventLoop
import AegisFlow.Net.SessionStream

/-!
# The limits of a session

All limits of a session are checked by differences of unsigned numbers, which are meaningful only
as long as the limits hold.

* `Session.Bounded` : what every operation keeps, in every state of the session;
* `Session.NoWrap` : the differences a session computes are differences of numbers;
* `Session.within_limits` : **the buffers stay within their limits and no difference wraps**,
  for every sequence of operations;
* `Session.partial_frame_recognised_iff` : a session can tell whether it is inside a frame, except
  right behind a header.
-/

namespace AegisFlow

open LengthPrefixedCodec

/-! ### What a decoder holds -/

namespace LengthPrefixedCodec

variable {c : LengthPrefixedCodec} {input : Bytes}

/-- The bytes held for the current frame, in terms of its bytes. -/
theorem Inv.bufferedBytes_eq (h : c.Inv) (hs : c.nextState ≠ .error) :
    c.nextState = .needHeader ∧ c.bufferedBytes = c.partialBytes.length ∧
        c.partialBytes.length < kFrameHeaderSize ∨
      c.nextState = .needBody ∧ c.bufferedBytes + kFrameHeaderSize = c.partialBytes.length := by
  have hlt := h.header_lt
  cases hc : c.nextState with
  | needHeader =>
    obtain ⟨hpayload, -⟩ := h.head hc
    simp only [bufferedBytes, partialBytes, hc, hpayload, List.length_nil, Nat.add_zero]
    exact .inl ⟨trivial, trivial, hlt⟩
  | needBody =>
    obtain ⟨hheader, -, -⟩ := h.body hc
    simp only [bufferedBytes, partialBytes, hc, hheader, List.length_nil, Nat.zero_add,
      List.length_append, length_encodePayloadLength]
    exact .inr ⟨trivial, Nat.add_comm _ _⟩
  | frameReady => exact absurd hc h.state
  | error => exact absurd hc hs

theorem bufferedBytes_of_stops {c' : LengthPrefixedCodec} {rest : Bytes} {frames : List Bytes}
    (h : Stops c input c' rest frames) : c'.Inv ∧ c'.bufferedBytes = 0 := by
  obtain ⟨header, -, -, -, rfl⟩ := h.header
  exact ⟨⟨by simp [kFrameHeaderSize], by simp, by simp, by simp⟩, rfl⟩

/-- A decoder holds at most the bytes that it held and those it was given. -/
theorem Inv.consume (h : c.Inv) (hs : c.nextState ≠ .error) (input : Bytes) :
    (c.consume input).2.Inv ∧
      (c.consume input).2.bufferedBytes ≤ c.bufferedBytes + (c.consume input).1.bytesConsumed ∧
      (c.consume input).1.bytesConsumed ≤ input.length := by
  by_cases herr : (c.consume input).1.state = .error
  · obtain ⟨rest, hused, hstops⟩ := consume_stops h hs herr
    obtain ⟨hinv, hzero⟩ := bufferedBytes_of_stops hstops
    exact ⟨hinv, by omega, by omega⟩
  · obtain ⟨hused, hprog⟩ := consume_spec h herr
    refine ⟨hprog.inv, ?_, hused.le⟩
    have hlength := congrArg List.length hprog.bytes
    simp only [List.length_append, List.length_nil, Nat.add_zero] at hlength
    have hafter := hprog.inv.bufferedBytes_eq (consume_nextState_ne_error herr)
    rcases h.bufferedBytes_eq hs with ⟨-, hbefore, -⟩ | ⟨-, hbefore⟩
    · omega
    · rcases hafter with ⟨-, hb, hlt⟩ | ⟨-, hb⟩
      · -- from a body to a header the decoder comes only by completing a frame
        cases hframes : (c.consume input).1.frames with
        | nil =>
          simp only [hframes, List.map_nil, List.flatten_nil, List.length_nil] at hlength
          omega
        | cons f fs =>
          simp only [hframes, List.map_cons, List.flatten_cons, List.length_append,
            length_encodeFrame] at hlength
          omega
      · omega

end LengthPrefixedCodec

namespace Session

variable {s : Session} {input : Bytes}

/-! ### The decoding loop -/

/-- What the loop leaves alone, and what it makes sure of. -/
structure Kept (s : Session) (storeRemainder : Bool) (input : Bytes) (r : Reading) : Prop where
  /-- Only the decoder, the state and the reason to close have changed. -/
  frame : r.session = { s with
    codec := r.session.codec, state := r.session.state, closeReason := r.session.closeReason }
  codec : r.session.codec.Inv
  offset : r.offset ≤ input.length
  /-- Bytes that are new are taken only as far as the limit allows. -/
  limit : storeRemainder = true → s.bufferedInputBytes ≤ s.config.maxInputBufferBytes →
    r.session.codec.bufferedBytes + s.pendingInputBytes ≤ s.config.maxInputBufferBytes
  /-- The decoder holds at most the bytes it was given. -/
  taken : r.session.codec.bufferedBytes ≤ s.codec.bufferedBytes + r.offset

/-- Where the loop stands: it goes on in `reading`, has a request, or has closed the session. -/
structure Within (s : Session) (storeRemainder : Bool) (input : Bytes) (r : Reading) : Prop
    extends Kept s storeRemainder input r where
  state : r.returned = false ∧ r.session.codec.nextState ≠ .error ∧
      r.session.closeReason = s.closeReason ∧
      (r.session.state = .reading ∨
        r.session.state = .processing ∧ r.session.codec.partialBytes = []) ∨
    r.returned = true ∧ r.session.state = .closing ∧ r.session.closeReason ≠ .none

variable {storeRemainder : Bool} {r : Reading}

theorem Reads.within (hs : s.Reads) (storeRemainder : Bool) (input : Bytes) :
    Within s storeRemainder input ⟨s, 0, { status := .buffered }, false⟩ :=
  ⟨⟨rfl, hs.inv, Nat.zero_le _, fun _ h => h, Nat.le_add_right _ _⟩,
    .inl ⟨rfl, hs.alive, rfl, .inl hs.state⟩⟩

section

variable (h : Kept s storeRemainder input r)
include h

/-- The bytes held by a session in the loop. -/
theorem Kept.bufferedInputBytes_eq :
    r.session.bufferedInputBytes = r.session.codec.bufferedBytes + s.pendingInputBytes := by
  rw [bufferedInputBytes, h.frame]
  rfl

theorem Kept.config_eq : r.session.config = s.config := by
  rw [h.frame]

/-- The loop closes the session. -/
theorem Kept.refuse (hread : r.session.state = .reading) {reason : SessionCloseReason}
    (hreason : reason ≠ .none) (status : SessionStatus) (error : ProtocolError) :
    Within s storeRemainder input (r.refuse reason status error) := by
  have hsession : (r.refuse reason status error).session =
      { r.session with state := .closing, closeReason := reason } := by
    simp only [Reading.refuse, beginClose, hread, hreason, reduceCtorEq, if_false]
  constructor
  · constructor
    · rw [hsession, h.frame]
    · rw [hsession]
      exact h.codec
    · exact h.offset
    · rw [hsession]
      exact h.limit
    · rw [hsession]
      exact h.taken
  · rw [hsession]
    exact .inr ⟨rfl, rfl, hreason⟩

/-- The decoder's answer to a chunk within the current header or body. -/
theorem Kept.decoded (hread : r.session.state = .reading) (hreturned : r.returned = false)
    (hok : r.session.codec.nextState ≠ .error) (hreason : r.session.closeReason = s.closeReason)
    {chunk : Bytes} (hchunk : r.offset + chunk.length ≤ input.length)
    (hneed : chunk.length ≤ r.session.codec.bytesNeeded)
    (hlimit : storeRemainder = true → s.bufferedInputBytes ≤ s.config.maxInputBufferBytes →
      r.session.codec.bufferedBytes + chunk.length + s.pendingInputBytes ≤
        s.config.maxInputBufferBytes) :
    Within s storeRemainder input (r.decoded (r.session.codec.consume chunk).1
      (r.session.codec.consume chunk).2) := by
  obtain ⟨hinv, hbuffered, hused⟩ := h.codec.consume hok chunk
  have hone := consume_needed h.codec hneed
  have halive := @consume_nextState_ne_error r.session.codec chunk
  generalize (r.session.codec.consume chunk).1 = res at *
  generalize (r.session.codec.consume chunk).2 = codec at *
  -- the loop after the bytes were taken
  have hkept : Kept s storeRemainder input { r with
      session := { r.session with codec := codec }
      offset := r.offset + res.bytesConsumed } := by
    refine ⟨?_, hinv, ?_, fun hstore hle => ?_, ?_⟩
    · dsimp only
      rw [h.frame]
    · dsimp only
      omega
    · have := hlimit hstore hle
      dsimp only
      omega
    · have := h.taken
      dsimp only
      omega
  simp only [Reading.decoded]
  split_ifs with herr hlong
  · exact hkept.refuse hread (by decide) _ _
  · exact hkept.refuse hread (by decide) _ _
  · rcases hone herr with hnil | ⟨f, hf, hpart⟩
    · rw [hnil]
      exact ⟨hkept, .inl ⟨hreturned, halive herr, hreason, .inl hread⟩⟩
    · rw [hf]
      refine ⟨⟨?_, hinv, hkept.offset, hkept.limit, hkept.taken⟩,
        .inl ⟨hreturned, halive herr, hreason, .inr ⟨rfl, hpart⟩⟩⟩
      dsimp only
      rw [h.frame]

end

/-- One iteration. -/
theorem Within.readStep (h : Within s storeRemainder input r) (hgo : r.returned = false ∧
    r.offset < input.length ∧ r.session.state = .reading) :
    Within s storeRemainder input (readStep storeRemainder input r) := by
  obtain ⟨hreturned, hlt, hread⟩ := hgo
  obtain ⟨-, hok, hreason, -⟩ := h.state.resolve_right (by simp [hreturned])
  simp only [Session.readStep, bytesNeededByCodec_eq h.codec, h.bufferedInputBytes_eq, h.config_eq]
  split_ifs with hfull
  · exact h.toKept.refuse hread (by decide) _ _
  · have hlength : ((input.drop r.offset).take
        (min r.session.codec.bytesNeeded (input.length - r.offset))).length =
          min r.session.codec.bytesNeeded (input.length - r.offset) := by
      rw [List.length_take, List.length_drop]
      omega
    refine h.toKept.decoded hread hreturned hok hreason ?_ ?_ fun hstore hle => ?_
    · rw [hlength]
      omega
    · rw [hlength]
      exact min_le_left _ _
    · have hlimit := h.limit hstore hle
      rw [not_and, sizeSub_of_le hlimit] at hfull
      have := hfull hstore
      rw [hlength]
      omega

/-- The loop, after any number of iterations. -/
theorem Within.readLoop (fuel : ℕ) (h : Within s storeRemainder input r) :
    Within s storeRemainder input (readLoop storeRemainder input fuel r) := by
  induction fuel generalizing r with
  | zero => exact h
  | succ fuel ih =>
    unfold Session.readLoop
    split_ifs with hgo
    · exact ih (h.readStep hgo)
    · exact h

section

variable (h : Within s storeRemainder input r)
include h

theorem Within.alive (hopen : r.session.isOpen) : r.session.codec.nextState ≠ .error := by
  rcases h.state with ⟨-, hok, -⟩ | ⟨-, hclosing, -⟩
  · exact hok
  · exact absurd hclosing hopen.1

/-- A request is complete only between two frames. -/
theorem Within.partialBytes (hs : r.session.state = .processing) :
    r.session.codec.partialBytes = [] := by
  rcases h.state with ⟨-, -, -, hgo | ⟨-, hpart⟩⟩ | ⟨-, hclosing, -⟩
  · simp [hs] at hgo
  · exact hpart
  · simp [hs] at hclosing

theorem Within.state_ne_writing : r.session.state ≠ .writing := by
  rcases h.state with ⟨-, -, -, hs | ⟨hs, -⟩⟩ | ⟨-, hs, -⟩ <;> simp [hs]

theorem Within.reason (hreason : s.closeReason ≠ .none) : r.session.closeReason ≠ .none := by
  rcases h.state with ⟨-, -, heq, -⟩ | ⟨-, -, hne⟩
  · rwa [heq]
  · exact hne

end

/-- If the session is still in `reading` at the end of the loop, all bytes were taken. -/
theorem Reads.offset_eq (hs : s.Reads) (storeRemainder : Bool) (input : Bytes)
    (hend : (readLoop storeRemainder input input.length
      ⟨s, 0, { status := .buffered }, false⟩).session.state = .reading) :
    (readLoop storeRemainder input input.length
      ⟨s, 0, { status := .buffered }, false⟩).offset = input.length := by
  rcases (hs.decoding input).readLoop storeRemainder (Nat.le_add_left _ _) with href | ⟨-, hdone⟩
  · exact absurd ⟨by simp [hend], by simp [hend]⟩ href.closed
  · exact hdone.resolve_right fun hne => hne hend

/-! ### What every operation keeps -/

/-- The buffers are within the limits of `config`, and fit the state of the session. -/
structure Bounded (s : Session) (config : SessionConfig) : Prop where
  config_eq : s.config = config
  codec : s.codec.Inv
  alive : s.isOpen → s.codec.nextState ≠ .error
  pending_le : s.pendingInputOffset ≤ s.pendingInput.length
  output_le : s.outputOffset ≤ s.output.length
  input_limit : s.bufferedInputBytes ≤ config.maxInputBufferBytes
  output_limit : s.output.length ≤ config.maxOutputBufferBytes
  reading : s.state = .reading → s.pendingInputBytes = 0 ∧ s.remainingOutputBytes = 0
  processing : s.state = .processing → s.codec.partialBytes = [] ∧ s.remainingOutputBytes = 0
  writing : s.state = .writing → s.codec.partialBytes = [] ∧ s.remainingOutputBytes ≠ 0
  reason : s.closeAfterWriteFlag = true → s.closeReason ≠ .none

variable {config : SessionConfig}

theorem bounded_create {token : ConnectionToken} {fd : ℤ} (h : create token config fd = some s) :
    s.Bounded config := by
  unfold create at h
  split_ifs at h
  cases h
  exact ⟨rfl, inv_create, fun _ => by simp [LengthPrefixedCodec.create], Nat.le_refl _,
    Nat.le_refl _, Nat.zero_le _, Nat.zero_le _, fun _ => ⟨rfl, rfl⟩, by simp, by simp, by simp⟩

section

variable (h : s.Bounded config)
include h

/-- A session that is closing or closed has only its limits to keep. -/
theorem Bounded.closing {state : SessionState} {reason : SessionCloseReason} {closed : Bool}
    (hstate : state = .closing ∨ state = .closed)
    (hreason : s.closeAfterWriteFlag = true → reason ≠ .none) :
    { s with state := state, closeReason := reason,
             connectionClosed := closed }.Bounded config := by
  refine ⟨h.config_eq, h.codec, fun hopen => ?_, h.pending_le, h.output_le, h.input_limit,
    h.output_limit, fun hs => ?_, fun hs => ?_, fun hs => ?_, hreason⟩
  · rcases hstate with rfl | rfl
    · exact absurd rfl hopen.1
    · exact absurd rfl hopen.2
  · obtain rfl : state = .reading := hs
    simp at hstate
  · obtain rfl : state = .processing := hs
    simp at hstate
  · obtain rfl : state = .writing := hs
    simp at hstate

theorem Bounded.beginClose (reason : SessionCloseReason) :
    (s.beginClose reason).2.Bounded config := by
  unfold Session.beginClose
  split_ifs with hclosed hclosing hreason
  · exact h
  · exact h
  · exact h
  · exact h.closing (.inl rfl) fun _ => hreason

theorem Bounded.finalizeClose : s.finalizeClose.2.Bounded config := by
  unfold Session.finalizeClose
  split_ifs with hclosed hclosing
  · exact h
  · have hb := h.beginClose .localShutdown
    exact hb.closing (.inr rfl) hb.reason
  · exact h.closing (.inr rfl) h.reason

/-- Flags, reasons and timers do not matter for the buffers. -/
theorem Bounded.flags {timers : SessionTimers} {reason : SessionCloseReason} {peer after : Bool}
    (hreason : after = true → reason ≠ .none) :
    { s with timers := timers, closeReason := reason, peerReadClosed := peer,
             closeAfterWriteFlag := after }.Bounded config :=
  { h with reason := hreason }

theorem Bounded.closeAfterWrite (reason : SessionCloseReason) :
    (s.closeAfterWrite reason).2.Bounded config := by
  unfold Session.closeAfterWrite
  split_ifs with hclosing hclosed hbad
  · exact h
  · exact h
  · exact h
  · exact h.flags fun _ => (not_or.1 hbad).2

theorem Bounded.onPeerReadClosed : s.onPeerReadClosed.2.Bounded config := by
  have hpeer : { s with peerReadClosed := true }.Bounded config := h.flags h.reason
  simp only [Session.onPeerReadClosed]
  split_ifs
  · exact h
  · exact h
  · exact h.flags fun _ => by simp
  · exact hpeer.beginClose _
  · exact hpeer.beginClose _

theorem Bounded.queueResponse (token : ConnectionToken) (response : Bytes) :
    (s.queueResponse token response).2.Bounded config := by
  unfold Session.queueResponse
  split_ifs with hstale hclosing hclosed hproc hempty hlong
  · exact h
  · exact h
  · exact h
  · exact h
  · exact h
  · exact h.beginClose _
  · have hpart := (h.processing (not_not.1 hproc)).1
    have hremaining : sizeSub response.length 0 ≠ 0 := by
      rw [sizeSub_of_le (Nat.zero_le _), Nat.sub_zero]
      exact fun hzero => hempty (List.length_eq_zero_iff.1 hzero)
    exact ⟨h.config_eq, h.codec, fun _ => h.alive ⟨hclosing, hclosed⟩, h.pending_le,
      Nat.zero_le _, h.input_limit, h.config_eq ▸ Nat.le_of_not_lt hlong, by simp, by simp,
      fun _ => ⟨hpart, hremaining⟩, h.reason⟩

end

/-! ### Bytes that wait -/

theorem bufferedInputBytes_append (h : s.pendingInputOffset ≤ s.pendingInput.length)
    (input : Bytes) :
    (s.appendPendingInput input).bufferedInputBytes = s.bufferedInputBytes + input.length := by
  have hcodec : (s.appendPendingInput input).codec = s.codec := by rw [appendPendingInput_frame]
  rw [bufferedInputBytes, bufferedInputBytes, pendingInputBytes_eq (appendPendingInput_le h input),
    pendingInputBytes_eq h, pendingBytes_appendPendingInput, hcodec, List.length_append,
    Nat.add_assoc]

/-- Bytes that fit are kept while a request is outstanding. -/
theorem Bounded.appendPendingInput (h : s.Bounded config) (hopen : s.isOpen)
    (hread : s.state ≠ .reading)
    (hroom : s.bufferedInputBytes + input.length ≤ config.maxInputBufferBytes) :
    (s.appendPendingInput input).Bounded config := by
  have hlimit := bufferedInputBytes_append h.pending_le input
  have hle := appendPendingInput_le h.pending_le input
  rw [appendPendingInput_frame] at hlimit hle ⊢
  exact { h with
    alive := fun _ => h.alive hopen, pending_le := hle, input_limit := hlimit ▸ hroom
    reading := fun hs => absurd hs hread }

/-- The loop over bytes that are new leaves a session within its limits. -/
theorem Within.bounded (hw : Within s true input r) (h : s.Bounded config)
    (hread : s.state = .reading) : r.session.Bounded config := by
  obtain ⟨hpending, hremaining⟩ := h.reading hread
  have hlimit := hw.limit rfl (h.config_eq ▸ h.input_limit)
  have hbuffered := hw.bufferedInputBytes_eq
  have hcodec := hw.codec
  rw [h.config_eq, ← hbuffered] at hlimit
  rw [hw.frame] at hlimit ⊢
  refine ⟨h.config_eq, hcodec, fun hopen => ?_, h.pending_le, h.output_le, hlimit,
    h.output_limit, fun _ => ⟨hpending, hremaining⟩, fun hs => ⟨?_, hremaining⟩, fun hs => ?_,
    fun hflag => ?_⟩
  · exact hw.alive hopen
  · exact hw.partialBytes hs
  · exact absurd hs hw.state_ne_writing
  · exact hw.reason (h.reason hflag)

theorem Bounded.onInput (h : s.Bounded config) (input : Bytes) :
    (s.onInput input).2.Bounded config := by
  unfold Session.onInput
  split_ifs with hclosing hclosed hempty hread hfull
  · exact h
  · exact h
  · exact h
  · exact h.beginClose _
  · rw [h.config_eq, sizeSub_of_le h.input_limit] at hfull
    have := h.input_limit
    exact h.appendPendingInput ⟨hclosing, hclosed⟩ hread (by omega)
  · rw [not_not] at hread
    have hreads : s.Reads := ⟨hread, h.codec, h.alive ⟨hclosing, hclosed⟩⟩
    have hw := (hreads.within true input).readLoop input.length
    have hend := hreads.offset_eq true input
    unfold consumeReadingBytes
    generalize readLoop true input input.length ⟨s, 0, { status := .buffered }, false⟩ = r at *
    have hb := hw.bounded h hread
    unfold finishReading
    split_ifs with hmore hfull
    · exact hb.beginClose _
    · -- the loop stopped before the end of the input, so a request is complete
      obtain ⟨hreturned, -, hlt⟩ := hmore
      have hstate := hw.state.resolve_right (by simp [hreturned])
      have hproc : r.session.state = .processing := by
        rcases hstate.2.2.2 with hs | ⟨hs, -⟩
        · exact absurd (hend hs) hlt.ne
        · exact hs
      rw [hb.config_eq, sizeSub_of_le hb.input_limit] at hfull
      have := hb.input_limit
      refine hb.appendPendingInput (by simp [isOpen, hproc]) (by simp [hproc]) ?_
      rw [List.length_drop]
      omega
    · exact hb

/-- Between two frames a decoder holds no byte. -/
theorem bufferedBytes_of_partialBytes (h : s.codec.Inv) (hok : s.codec.nextState ≠ .error)
    (hpart : s.codec.partialBytes = []) : s.codec.bufferedBytes = 0 := by
  rcases h.bufferedBytes_eq hok with ⟨-, heq, -⟩ | ⟨-, heq⟩
  · rw [heq, hpart]
    rfl
  · rw [hpart] at heq
    simp [kFrameHeaderSize] at heq

/-- The loop over the bytes that waited: what the decoder took of them no longer waits. -/
theorem Within.advance (hw : Within s false s.pendingBytes r) (hcodec : s.codec.bufferedBytes = 0)
    (hle : s.pendingInputOffset ≤ s.pendingInput.length) :
    (r.session.advancePendingInput r.offset).pendingInputOffset ≤
        (r.session.advancePendingInput r.offset).pendingInput.length ∧
      (r.session.advancePendingInput r.offset).pendingInputBytes =
        s.pendingInputBytes - r.offset ∧
      (r.session.advancePendingInput r.offset).bufferedInputBytes ≤ s.pendingInputBytes := by
  have htaken := hw.taken
  have hoffset := hw.offset
  have hwaiting : r.session.pendingBytes = s.pendingBytes := by
    rw [hw.frame]
    rfl
  have hlength := pendingInputBytes_eq hle
  have hle' : (r.session.advancePendingInput r.offset).pendingInputOffset ≤
      (r.session.advancePendingInput r.offset).pendingInput.length := by
    refine advancePendingInput_le ?_
    rw [pendingBytes, List.length_drop] at hoffset
    rw [hw.frame]
    dsimp only
    omega
  have hpending : (r.session.advancePendingInput r.offset).pendingInputBytes =
      s.pendingInputBytes - r.offset := by
    rw [pendingInputBytes_eq hle', pendingBytes_advancePendingInput, hwaiting, List.length_drop,
      hlength]
  refine ⟨hle', hpending, ?_⟩
  have hsame : (r.session.advancePendingInput r.offset).codec = r.session.codec := by
    rw [advancePendingInput_frame]
  rw [bufferedInputBytes, hpending, hsame]
  omega

/-- The session that goes back to `reading` after a response. -/
def resumed (s : Session) : Session :=
  { s with output := [], outputOffset := 0, state := .reading }

section

variable (h : s.Bounded config) (hwriting : s.state = .writing)
include h hwriting

theorem Bounded.resumed_reads :
    s.resumed.Reads := ⟨rfl, h.codec, h.alive (by simp [isOpen, hwriting])⟩

/-- Back in `reading`, the session takes the bytes that waited. -/
theorem Bounded.consumePendingInput : s.resumed.consumePendingInput.2.Bounded config := by
  have hreads := h.resumed_reads hwriting
  have hcodec := bufferedBytes_of_partialBytes h.codec hreads.alive (h.writing hwriting).1
  unfold Session.consumePendingInput
  split_ifs with hidle
  · have hnone : s.pendingInputBytes = 0 := hidle.resolve_left fun hne => hne rfl
    exact ⟨h.config_eq, h.codec, fun _ => hreads.alive, h.pending_le, Nat.le_refl _, h.input_limit,
      Nat.zero_le _, fun _ => ⟨hnone, rfl⟩, by simp [resumed], by simp [resumed], h.reason⟩
  · have hw := (hreads.within false s.pendingBytes).readLoop s.pendingBytes.length
    have hend := hreads.offset_eq false s.pendingBytes
    have hlimit := h.input_limit
    simp only [consumeReadingBytes, finishReading, Bool.false_eq_true, false_and, and_false,
      if_false]
    rw [show s.resumed.pendingInput.drop s.resumed.pendingInputOffset = s.pendingBytes from rfl]
    generalize readLoop false s.pendingBytes s.pendingBytes.length
      ⟨s.resumed, 0, { status := .buffered }, false⟩ = r at *
    obtain ⟨hle, hpending, hbuffered⟩ := hw.advance hcodec h.pending_le
    have hlength : s.resumed.pendingInputBytes = s.pendingBytes.length :=
      pendingInputBytes_eq h.pending_le
    have hwaiting : s.resumed.pendingInputBytes ≤ s.bufferedInputBytes := Nat.le_add_left _ _
    have hinv := hw.codec
    rw [advancePendingInput_frame] at hle hpending hbuffered ⊢
    have hout : r.session.output = [] := by rw [hw.frame]; rfl
    have hwritten : r.session.outputOffset = 0 := by rw [hw.frame]; rfl
    have hremaining : r.session.remainingOutputBytes = 0 := by
      rw [remainingOutputBytes, hout, hwritten]
      rfl
    have hflag : r.session.closeAfterWriteFlag = s.closeAfterWriteFlag := by rw [hw.frame]; rfl
    refine ⟨hw.config_eq.trans h.config_eq, hinv, fun hopen => ?_, hle, ?_,
      hbuffered.trans (hwaiting.trans hlimit), ?_, fun hs => ⟨?_, hremaining⟩,
      fun hs => ⟨?_, hremaining⟩, fun hs => ?_, fun hclose => ?_⟩
    · exact hw.alive hopen
    · exact hwritten.le.trans (Nat.zero_le _)
    · exact (congrArg List.length hout).le.trans (Nat.zero_le _)
    · rw [hpending, hend hs, hlength, Nat.sub_self]
    · exact hw.partialBytes hs
    · exact absurd hs hw.state_ne_writing
    · exact hw.reason (h.reason (hflag ▸ hclose))

/-- The response is dropped and the session closes. -/
theorem Bounded.close_written {reason : SessionCloseReason} (hreason : reason ≠ .none) :
    ({ s with output := [], outputOffset := 0 }.beginClose reason).2.Bounded config := by
  simp only [Session.beginClose, hwriting, hreason, reduceCtorEq, if_false]
  exact ⟨h.config_eq, h.codec, fun hopen => absurd rfl hopen.1, h.pending_le, Nat.le_refl _,
    h.input_limit, Nat.zero_le _, by simp, by simp, by simp, fun _ => hreason⟩

theorem Bounded.onResponseWritten : s.onResponseWritten.2.Bounded config := by
  have hreason : (if s.closeAfterWriteFlag then s.closeReason else .peerClosed) ≠ .none := by
    split_ifs with hflag
    · exact h.reason hflag
    · simp
  unfold Session.onResponseWritten
  split
  · exact h.close_written hwriting hreason
  · exact h.consumePendingInput hwriting

end

theorem Bounded.onBytesWritten (h : s.Bounded config) (count : ℕ) :
    (s.onBytesWritten count).2.Bounded config := by
  unfold Session.onBytesWritten
  split_ifs with hclosing hclosed hwriting hexceed hshort
  · exact h
  · exact h
  · exact h
  · exact h.beginClose _
  · rw [not_not] at hwriting
    have hle := h.output_le
    rw [remainingOutputBytes, sizeSub_of_le hle] at hexceed
    exact { h with
      output_le := by dsimp only; omega
      reading := by simp [hwriting]
      processing := by simp [hwriting]
      writing := fun _ => ⟨(h.writing hwriting).1, hshort⟩ }
  · exact h.onResponseWritten (not_not.1 hwriting)

/-! ### Calls -/

/-- A call of a session. -/
inductive Call
  | op (op : Op)
  | replaceTimer (kind : SessionTimerKind) (timerId : TimerId)
  | releaseTimersForClose
  deriving DecidableEq, Repr

/-- The session after a call. -/
def call (s : Session) : Call → Session
  | .op op => (s.apply op).1
  | .replaceTimer kind timerId => (s.replaceTimer kind timerId).2
  | .releaseTimersForClose => s.releaseTimersForClose.2

/-- The session after a sequence of calls. -/
def runCalls (s : Session) (calls : List Call) : Session := calls.foldl call s

theorem Bounded.call (h : s.Bounded config) (c : Call) : (s.call c).Bounded config := by
  cases c with
  | op op =>
    cases op with
    | input chunk => exact h.onInput chunk
    | response token frame => exact h.queueResponse token frame
    | written count => exact h.onBytesWritten count
    | closeAfterWrite reason => exact h.closeAfterWrite reason
    | peerReadClosed => exact h.onPeerReadClosed
    | beginClose reason => exact h.beginClose reason
    | finalizeClose => exact h.finalizeClose
  | replaceTimer kind timerId => exact h.flags h.reason
  | releaseTimersForClose => exact h.flags h.reason

theorem Bounded.runCalls (h : s.Bounded config) (calls : List Call) :
    (s.runCalls calls).Bounded config := by
  induction calls generalizing s with
  | nil => exact h
  | cons c calls ih => exact ih (h.call c)

/-- Only `finalizeClose` is left to a session that is closing. -/
theorem call_of_closing (h : s.state = .closing) (c : Call) :
    (s.call c).state = .closing ∨ (s.call c).state = .closed := by
  cases c with
  | op op =>
    by_cases hop : op = .finalizeClose
    · simp [hop, call, apply, finalizeClose, h]
    · rw [call, apply_of_not_open (by simp [isOpen, h]) hop]
      exact .inl h
  | replaceTimer kind timerId => exact .inl h
  | releaseTimersForClose => exact .inl h

theorem call_of_closed (h : s.state = .closed) (c : Call) : (s.call c).state = .closed := by
  cases c with
  | op op =>
    by_cases hop : op = .finalizeClose
    · simp [hop, call, apply, finalizeClose, h]
    · rwa [call, apply_of_not_open (by simp [isOpen, h]) hop]
  | replaceTimer kind timerId => exact h
  | releaseTimersForClose => exact h

/-! ### Differences -/

/-- The differences `size - offset` and `expected - buffered` do not wrap. -/
structure Sized (s : Session) : Prop where
  pending : s.pendingInputOffset ≤ s.pendingInput.length
  output : s.outputOffset ≤ s.output.length
  header : s.codec.nextState = .needHeader → s.codec.bufferedBytes ≤ kFrameHeaderSize
  body : s.codec.nextState = .needBody → s.codec.bufferedBytes ≤ s.codec.expectedPayloadBytes

/-- Neither does the room left for input. -/
structure NoWrap (s : Session) : Prop extends Sized s where
  input : s.bufferedInputBytes ≤ s.config.maxInputBufferBytes

/-- The decoding loop computes no difference that wraps, in any of its iterations. -/
def LoopSafe (s : Session) (storeRemainder : Bool) (input : Bytes) : Prop :=
  ∀ fuel, ∀ r, r = readLoop storeRemainder input fuel ⟨s, 0, { status := .buffered }, false⟩ →
    r.offset ≤ input.length ∧ r.session.Sized ∧ (storeRemainder = true → r.session.NoWrap)

/-- Nor does an operation on the way to its result. -/
def Safe (s : Session) : Op → Prop
  | .input chunk => s.state = .reading → s.LoopSafe true chunk
  | .written count => s.state = .writing → count ≤ s.remainingOutputBytes →
      s.outputOffset + count ≤ s.output.length ∧ s.resumed.LoopSafe false s.pendingBytes
  | _ => True

theorem sized_of_inv (hpending : s.pendingInputOffset ≤ s.pendingInput.length)
    (houtput : s.outputOffset ≤ s.output.length) (h : s.codec.Inv) : s.Sized := by
  refine ⟨hpending, houtput, fun hs => ?_, fun hs => ?_⟩
  · have hlt := h.header_lt
    simp only [bufferedBytes, (h.head hs).1, List.length_nil, Nat.add_zero]
    exact hlt.le
  · obtain ⟨hheader, -, hlt⟩ := h.body hs
    simp only [bufferedBytes, hheader, List.length_nil, Nat.zero_add]
    exact hlt.le

theorem Bounded.noWrap (h : s.Bounded config) : s.NoWrap :=
  ⟨sized_of_inv h.pending_le h.output_le h.codec, h.config_eq ▸ h.input_limit⟩

theorem Within.sized (h : Within s storeRemainder input r)
    (hpending : s.pendingInputOffset ≤ s.pendingInput.length)
    (houtput : s.outputOffset ≤ s.output.length) : r.session.Sized := by
  have hcodec := h.codec
  rw [h.frame] at hcodec ⊢
  exact sized_of_inv hpending houtput hcodec

theorem Bounded.safe (h : s.Bounded config) (op : Op) : s.Safe op := by
  cases op with
  | input chunk =>
    rintro hread fuel r rfl
    have hreads : s.Reads := ⟨hread, h.codec, h.alive (by simp [isOpen, hread])⟩
    have hw := (hreads.within true chunk).readLoop fuel
    exact ⟨hw.offset, hw.sized h.pending_le h.output_le, fun _ => (hw.bounded h hread).noWrap⟩
  | written count =>
    intro hwriting hcount
    have hle := h.output_le
    rw [remainingOutputBytes, sizeSub_of_le hle] at hcount
    refine ⟨by omega, ?_⟩
    rintro fuel r rfl
    have hw := ((h.resumed_reads hwriting).within false s.pendingBytes).readLoop fuel
    exact ⟨hw.offset, hw.sized h.pending_le (Nat.le_refl _), fun hstore => by simp at hstore⟩
  | response token frame => trivial
  | closeAfterWrite reason => trivial
  | peerReadClosed => trivial
  | beginClose reason => trivial
  | finalizeClose => trivial

/-- **The buffers of a session stay within their limits and no difference wraps.**  After any
sequence of calls of a new session, with arbitrary inputs, responses and byte counts: input and
output are within the limits it was created with; no difference the next operation computes wraps,
at its start or on the way to its result; nothing waits in `reading`; something is left to write in
`writing`, and nothing in `reading` and `processing`; and `closing` leads to `closed` only, which is
final. -/
theorem within_limits {token : ConnectionToken} {fd : ℤ}
    (hcreate : create token config fd = some s) (calls : List Call) :
    (s.runCalls calls).bufferedInputBytes ≤ config.maxInputBufferBytes ∧
    (s.runCalls calls).output.length ≤ config.maxOutputBufferBytes ∧
    (s.runCalls calls).config = config ∧ (s.runCalls calls).NoWrap ∧
    (∀ op, (s.runCalls calls).Safe op) ∧
    ((s.runCalls calls).state = .reading → (s.runCalls calls).pendingInputBytes = 0) ∧
    ((s.runCalls calls).state = .writing → (s.runCalls calls).remainingOutputBytes ≠ 0) ∧
    ((s.runCalls calls).state = .reading ∨ (s.runCalls calls).state = .processing →
      (s.runCalls calls).remainingOutputBytes = 0) ∧
    (∀ c, (s.runCalls calls).state = .closing →
      ((s.runCalls calls).call c).state = .closing ∨
        ((s.runCalls calls).call c).state = .closed) ∧
    (∀ c, (s.runCalls calls).state = .closed → ((s.runCalls calls).call c).state = .closed) := by
  have h := (bounded_create hcreate).runCalls calls
  refine ⟨h.input_limit, h.output_limit, h.config_eq, h.noWrap, h.safe,
    fun hs => (h.reading hs).1, fun hs => (h.writing hs).2, ?_,
    fun c hs => call_of_closing hs c, fun c hs => call_of_closed hs c⟩
  rintro (hs | hs)
  · exact (h.reading hs).2
  · exact (h.processing hs).2

/-- A response is half written and bytes of the next request wait. -/
def waitingCalls : List Call :=
  [.op (.input [0, 0, 0, 1, 7, 0, 0, 0]), .op (.response ⟨0, 3, 1⟩ [9, 9]), .op (.written 1)]

theorem within_limits_waiting :
    create ⟨0, 3, 1⟩ {} 3 = some { token := ⟨0, 3, 1⟩, config := {} } ∧
    (runCalls { token := ⟨0, 3, 1⟩, config := {} } waitingCalls).state = .writing ∧
    (runCalls { token := ⟨0, 3, 1⟩, config := {} } waitingCalls).remainingOutputBytes ≠ 0 ∧
    (runCalls { token := ⟨0, 3, 1⟩, config := {} } waitingCalls).NoWrap := by
  have hcreate : create ⟨0, 3, 1⟩ {} 3 = some { token := ⟨0, 3, 1⟩, config := {} } := by decide
  have hstate : (runCalls { token := ⟨0, 3, 1⟩, config := {} } waitingCalls).state = .writing := by
    decide
  obtain ⟨-, -, -, hwrap, -, -, hleft, -⟩ := within_limits hcreate waitingCalls
  exact ⟨hcreate, hstate, hleft hstate, hwrap⟩

/-! ### Partial frames -/

/-- The bytes of a stream behind its last complete frame. -/
def unfinishedBytes (stream : Bytes) : Bytes := (firstFrames stream.length stream).2

/-- The frame in the decoder of a session that reads is the unfinished one. -/
theorem Tracks.unfinishedBytes_eq {events : List SessionEvent} (h : s.Tracks events)
    (hread : s.state = .reading) :
    unfinishedBytes (receivedBytes events) = s.codec.partialBytes := by
  have hbytes := h.bytes
  rw [(h.reading hread).1, List.append_nil] at hbytes
  have hlength := length_le_flatten_encode (requests events)
  rw [unfinishedBytes, hbytes, firstFrames_append h.valid (h.inv.nextFrame_eq_none h.alive)
    (by rw [List.length_append]; omega)]

/-- A decoder holds no byte between two frames, and right behind a header. -/
theorem bufferedBytes_eq_zero_iff {c : LengthPrefixedCodec} (h : c.Inv)
    (hok : c.nextState ≠ .error) :
    c.bufferedBytes = 0 ↔ c.partialBytes = [] ∨ c.partialBytes.length = kFrameHeaderSize := by
  rw [← List.length_eq_zero_iff]
  rcases h.bufferedBytes_eq hok with ⟨-, heq, hlt⟩ | ⟨-, heq⟩
  · omega
  · simp only [kFrameHeaderSize] at heq ⊢
    omega

theorem beginClose_closeReason (hopen : s.isOpen) {reason : SessionCloseReason}
    (hreason : reason ≠ .none) : (s.beginClose reason).2.closeReason = reason := by
  rw [beginClose, if_neg hopen.2, if_neg hopen.1, if_neg hreason]

theorem onPeerReadClosed_of_reading (h : s.state = .reading) :
    s.onPeerReadClosed = if s.bufferedInputBytes ≠ 0 then
      (.truncatedFrame, ({ s with peerReadClosed := true }.beginClose .peerTruncatedFrame).2)
    else (.closing, ({ s with peerReadClosed := true }.beginClose .peerClosed).2) := by
  unfold onPeerReadClosed
  rw [if_neg (by simp [h]), if_neg (by simp [h])]
  dsimp only
  rw [if_neg (by simp [h])]
  rfl

/-- What a session that reads tells of the frame it is in: all three tests agree. -/
theorem started_iff (h : s.state = .reading) :
    (s.onPeerReadClosed.1 = .truncatedFrame ↔ s.bufferedInputBytes ≠ 0) ∧
    (s.onPeerReadClosed.2.closeReason = .peerTruncatedFrame ↔ s.bufferedInputBytes ≠ 0) ∧
    (EventLoop.deadlineKindFor s = .readTimeout ↔ s.bufferedInputBytes ≠ 0) := by
  have hopen : { s with peerReadClosed := true }.isOpen := by simp [isOpen, h]
  have hdeadline : EventLoop.deadlineKindFor s =
      if s.bufferedInputBytes = 0 then .idleTimeout else .readTimeout := by
    simp only [EventLoop.deadlineKindFor, h]
  rw [onPeerReadClosed_of_reading h, hdeadline]
  by_cases hzero : s.bufferedInputBytes = 0
  · simp [hzero, beginClose_closeReason hopen]
  · simp [hzero, beginClose_closeReason hopen]

/-- The session recognises whether the bytes received so far end inside a frame: by the number of
bytes it holds, by what it reports when the peer closes its side, by the reason it then closes
for, and by the deadline it is given. -/
structure Recognises (s : Session) (stream : Bytes) : Prop where
  buffered : s.bufferedInputBytes = 0 ↔ unfinishedBytes stream = []
  status : s.onPeerReadClosed.1 = .truncatedFrame ↔ unfinishedBytes stream ≠ []
  reason : s.onPeerReadClosed.2.closeReason = .peerTruncatedFrame ↔ unfinishedBytes stream ≠ []
  deadline : EventLoop.deadlineKindFor s = .readTimeout ↔ unfinishedBytes stream ≠ []

/-- **A partial frame is recognised, except right behind its header.**  For every sequence of
operations that leaves a new session in `reading`: it recognises whether the bytes received end
inside a frame exactly if they do not end behind a complete header whose payload has not begun. -/
theorem partial_frame_recognised_iff {token : ConnectionToken} {fd : ℤ}
    (hcreate : create token config fd = some s) (ops : List Op)
    (hread : (runOps ops s).1.state = .reading) :
    (runOps ops s).1.Recognises (receivedBytes (runOps ops s).2) ↔
      (unfinishedBytes (receivedBytes (runOps ops s).2)).length ≠ kFrameHeaderSize := by
  have h := (tracks_create hcreate).runOps ops (by simp [isOpen, hread])
  rw [List.nil_append] at h
  have hrest := h.unfinishedBytes_eq hread
  have hwaiting : (runOps ops s).1.pendingInputBytes = 0 := by
    rw [pendingInputBytes_eq h.pending_le, (h.reading hread).1]
    rfl
  have hzero : (runOps ops s).1.bufferedInputBytes = 0 ↔
      unfinishedBytes (receivedBytes (runOps ops s).2) = [] ∨
        (unfinishedBytes (receivedBytes (runOps ops s).2)).length = kFrameHeaderSize := by
    rw [bufferedInputBytes, hwaiting, Nat.add_zero, bufferedBytes_eq_zero_iff h.inv h.alive, hrest]
  obtain ⟨hstatus, hreason, hdeadline⟩ := started_iff hread
  constructor
  · intro hrec hheader
    have hnil := hrec.buffered.1 (hzero.2 (.inr hheader))
    rw [hnil] at hheader
    simp [kFrameHeaderSize] at hheader
  · intro hne
    have hempty := hzero.trans (or_iff_left hne)
    exact ⟨hempty, hstatus.trans hempty.not, hreason.trans hempty.not, hdeadline.trans hempty.not⟩

/-- A request of two bytes is received up to its first byte. -/
theorem partial_frame_recognised_iff_body :
    (runOps [.input [0, 0, 0, 2, 7]] { token := ⟨0, 3, 1⟩, config := {} }).1.Recognises
      [0, 0, 0, 2, 7] := by
  have hcreate : create ⟨0, 3, 1⟩ {} 3 = some { token := ⟨0, 3, 1⟩, config := {} } := by decide
  exact (partial_frame_recognised_iff hcreate [.input [0, 0, 0, 2, 7]] (by decide)).2 (by decide)

/-- A header is received and the peer closes its side: the session holds no byte, takes the stream
for complete and waits with the deadline of an idle connection. -/
theorem header_not_recognised :
    (runOps [.input [0, 0, 0, 5]] { token := ⟨0, 3, 1⟩, config := {} }).1.state = .reading ∧
    unfinishedBytes [0, 0, 0, 5] = [0, 0, 0, 5] ∧
    (runOps [.input [0, 0, 0, 5]] { token := ⟨0, 3, 1⟩, config := {} }).1.bufferedInputBytes = 0 ∧
    (runOps [.input [0, 0, 0, 5]]
      { token := ⟨0, 3, 1⟩, config := {} }).1.onPeerReadClosed.1 = .closing ∧
    (runOps [.input [0, 0, 0, 5]]
      { token := ⟨0, 3, 1⟩, config := {} }).1.onPeerReadClosed.2.closeReason = .peerClosed ∧
    EventLoop.deadlineKindFor (runOps [.input [0, 0, 0, 5]]
      { token := ⟨0, 3, 1⟩, config := {} }).1 = .idleTimeout := by
  decide

end Session

end AegisFlow
