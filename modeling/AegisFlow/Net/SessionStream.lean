import AegisFlow.Net.Session

/-!
# A session delivers the frames of its byte stream

What the outside sees of a session is a list of events: chunks it received, requests it
delivered, responses it accepted and bytes of them that were written.  `Session.Tracks` relates a
session to its events, and every operation keeps it for as long as the session is open.

* `SessionEvent`, `receivedBytes`, `requests`, `responses`, `writtenBytes` : the events and what
  is read off them;
* `Session.Tracks` : **no byte is lost, duplicated or reordered**, and requests, responses and
  written bytes are in step;
* `Session.Tracks.onInput`, `Tracks.queueResponse`, `Tracks.onBytesWritten`, … : one lemma for
  each operation;
* `Session.stream_of_run` : for every sequence of operations that leaves the session open.
-/

namespace AegisFlow

open LengthPrefixedCodec

/-! ### Events -/

/-- What can be seen of a session from outside. -/
inductive SessionEvent
  | received (chunk : Bytes)
  | request (frame : Bytes)
  | response (frame : Bytes)
  | written (count : ℕ)
  deriving DecidableEq, Repr

/-- The bytes received. -/
def receivedBytes (events : List SessionEvent) : Bytes :=
  events.flatMap fun | .received chunk => chunk | _ => []

/-- The requests delivered. -/
def requests (events : List SessionEvent) : List Bytes :=
  events.filterMap fun | .request frame => some frame | _ => none

/-- The responses accepted. -/
def responses (events : List SessionEvent) : List Bytes :=
  events.filterMap fun | .response frame => some frame | _ => none

/-- How many bytes of the responses were written. -/
def writtenBytes (events : List SessionEvent) : ℕ :=
  (events.map fun | .written count => count | _ => 0).sum

section Append

variable (es fs : List SessionEvent)

@[simp] theorem receivedBytes_append :
    receivedBytes (es ++ fs) = receivedBytes es ++ receivedBytes fs := List.flatMap_append

@[simp] theorem requests_append : requests (es ++ fs) = requests es ++ requests fs :=
  List.filterMap_append

@[simp] theorem responses_append : responses (es ++ fs) = responses es ++ responses fs :=
  List.filterMap_append

@[simp] theorem writtenBytes_append :
    writtenBytes (es ++ fs) = writtenBytes es + writtenBytes fs := by
  simp only [writtenBytes, List.map_append, List.sum_append]

end Append

section Cons

variable (bytes : Bytes) (count : ℕ) (es : List SessionEvent)

@[simp] theorem events_nil : receivedBytes [] = [] ∧ requests [] = [] ∧ responses [] = [] ∧
    writtenBytes [] = 0 := ⟨rfl, rfl, rfl, rfl⟩

@[simp] theorem events_received :
    receivedBytes (.received bytes :: es) = bytes ++ receivedBytes es ∧
    requests (.received bytes :: es) = requests es ∧
    responses (.received bytes :: es) = responses es ∧
    writtenBytes (.received bytes :: es) = writtenBytes es :=
  ⟨rfl, rfl, rfl, Nat.zero_add _⟩

@[simp] theorem events_request : receivedBytes (.request bytes :: es) = receivedBytes es ∧
    requests (.request bytes :: es) = bytes :: requests es ∧
    responses (.request bytes :: es) = responses es ∧
    writtenBytes (.request bytes :: es) = writtenBytes es :=
  ⟨rfl, rfl, rfl, Nat.zero_add _⟩

@[simp] theorem events_response : receivedBytes (.response bytes :: es) = receivedBytes es ∧
    requests (.response bytes :: es) = requests es ∧
    responses (.response bytes :: es) = bytes :: responses es ∧
    writtenBytes (.response bytes :: es) = writtenBytes es :=
  ⟨rfl, rfl, rfl, Nat.zero_add _⟩

@[simp] theorem events_written : receivedBytes (.written count :: es) = receivedBytes es ∧
    requests (.written count :: es) = requests es ∧
    responses (.written count :: es) = responses es ∧
    writtenBytes (.written count :: es) = count + writtenBytes es :=
  ⟨rfl, rfl, rfl, rfl⟩

end Cons

/-- Bytes of the responses accepted. -/
def responseBytes (events : List SessionEvent) : ℕ := ((responses events).map List.length).sum

/-- Every request before the next was delivered is answered, and the answers are written. -/
def Settled (events : List SessionEvent) : Prop :=
  (requests events).length = (responses events).length ∧ writtenBytes events = responseBytes events

/-- A request is delivered only when the earlier ones are settled. -/
def OneAtATime (events : List SessionEvent) : Prop :=
  ∀ before frame after, events = before ++ .request frame :: after → Settled before

theorem OneAtATime.append {es fs : List SessionEvent} (h : OneAtATime es)
    (hfs : ∀ before frame after, fs = before ++ .request frame :: after →
      Settled (es ++ before)) : OneAtATime (es ++ fs) := by
  intro before frame after heq
  rcases List.append_eq_append_iff.mp heq with ⟨mid, rfl, hmid⟩ | ⟨mid, rfl, hmid⟩
  · exact hfs mid frame after hmid
  · cases mid with
    | nil => simpa using hfs [] frame after (by simpa using hmid.symm)
    | cons e mid =>
      obtain ⟨rfl, rfl⟩ := List.cons.inj hmid
      exact h before frame mid rfl

/-- Events other than requests may follow any. -/
theorem OneAtATime.append_of_requests_nil {es fs : List SessionEvent} (h : OneAtATime es)
    (hfs : requests fs = []) : OneAtATime (es ++ fs) := by
  refine h.append fun before frame after heq => ?_
  rw [heq, requests_append] at hfs
  simp [requests] at hfs

theorem Settled.append_received {es : List SessionEvent} (h : Settled es) (chunk : Bytes) :
    Settled (es ++ [.received chunk]) := by
  simpa [Settled, responseBytes] using h

namespace Session

variable {s : Session} {input : Bytes} {r : Reading}

/-- The bytes waiting for their turn. -/
def pendingBytes (s : Session) : Bytes := s.pendingInput.drop s.pendingInputOffset

/-! ### Closing -/

theorem beginClose_not_open {reason : SessionCloseReason} (h : reason ≠ .none) :
    ¬ (s.beginClose reason).2.isOpen := by
  unfold beginClose
  split_ifs with hclosed hclosing
  · exact fun ho => ho.2 hclosed
  · exact fun ho => ho.1 hclosing
  · exact fun ho => ho.1 rfl

theorem beginClose_of_not_open (h : ¬ s.isOpen) (reason : SessionCloseReason) :
    (s.beginClose reason).2 = s := by
  unfold beginClose
  split_ifs with hclosed hclosing
  · rfl
  · rfl
  · rfl
  · exact absurd ⟨hclosing, hclosed⟩ h

/-- The loop was left because the session had to be closed. -/
structure Refused (r : Reading) : Prop where
  returned : r.returned = true
  closed : ¬ r.session.isOpen
  request : r.result.request = none

theorem refused_refuse (hnone : r.result.request = none) (reason : SessionCloseReason)
    (h : reason ≠ .none) (status : SessionStatus) (error : ProtocolError) :
    Refused (r.refuse reason status error) :=
  ⟨rfl, beginClose_not_open h, hnone⟩

/-! ### The decoding loop -/

theorem bytesNeededByCodec_eq (h : s.codec.Inv) :
    s.bytesNeededByCodec = s.codec.bytesNeeded := by
  have hlt := h.header_lt
  unfold bytesNeededByCodec LengthPrefixedCodec.bytesNeeded
  cases hs : s.codec.nextState with
  | needHeader =>
    obtain ⟨hpayload, -⟩ := h.head hs
    refine sizeSub_of_le ?_
    simp only [bufferedBytes, hpayload, List.length_nil]
    omega
  | needBody =>
    obtain ⟨hheader, -, hlt⟩ := h.body hs
    refine sizeSub_of_le ?_
    simp only [bufferedBytes, hheader, List.length_nil]
    omega
  | frameReady => rfl
  | error => rfl

/-- The session reads, and its decoder can go on. -/
structure Reads (s : Session) : Prop where
  state : s.state = .reading
  inv : s.codec.Inv
  alive : s.codec.nextState ≠ .error

/-- The first `offset` bytes of the input complete the partial frame of `s` to the request, if
there is one, and the partial frame in `codec`. -/
structure Parsed (s : Session) (input : Bytes) (offset : ℕ) (request : Option Bytes)
    (codec : LengthPrefixedCodec) : Prop where
  inv : codec.Inv
  alive : codec.nextState ≠ .error
  offset_le : offset ≤ input.length
  bytes : s.codec.partialBytes ++ input.take offset =
    (request.toList.map encodeFrame).flatten ++ codec.partialBytes
  valid : ∀ f ∈ request, validatePayloadLength f.length = .none

/-- Where the loop stands if it was not left by a `return`: only the decoder and the state
changed. -/
structure Decoding (s : Session) (input : Bytes) (r : Reading) : Prop
    extends Parsed s input r.offset r.result.request r.session.codec where
  returned : r.returned = false
  frame : r.session = { s with codec := r.session.codec, state := r.session.state }
  state : (r.session.state = .reading ∧ r.result.request = none) ∨
    (r.session.state = .processing ∧ r.result.request.isSome ∧
      r.session.codec.partialBytes = [])

theorem Decoding.request_eq_none (h : Decoding s input r) (hread : r.session.state = .reading) :
    r.result.request = none := by
  rcases h.state with ⟨-, hn⟩ | ⟨hp, -⟩
  · exact hn
  · rw [hread] at hp; cases hp

/-- The decoder's answer to a chunk within the current header or body closes the session or
makes progress. -/
theorem Decoding.decoded (h : Decoding s input r) (hread : r.session.state = .reading) {count : ℕ}
    (hcount : r.offset + count ≤ input.length) (hneed : count ≤ r.session.codec.bytesNeeded)
    (r' : Reading)
    (hr' : r' = r.decoded (r.session.codec.consume ((input.drop r.offset).take count)).1
      (r.session.codec.consume ((input.drop r.offset).take count)).2) :
    Refused r' ∨ (Decoding s input r' ∧ r'.offset = r.offset + count) := by
  have hnone := h.request_eq_none hread
  have hlen : ((input.drop r.offset).take count).length = count := by
    rw [List.length_take, List.length_drop]; omega
  have htake : input.take (r.offset + count) =
      input.take r.offset ++ (input.drop r.offset).take count := List.take_add
  generalize (input.drop r.offset).take count = chunk at hr' hlen htake
  by_cases herr : (r.session.codec.consume chunk).1.state = .error
  · left
    rw [hr', Reading.decoded, if_pos herr]
    refine refused_refuse ?_ _ (by decide) _ _
    exact hnone
  obtain ⟨hused, hprog⟩ := consume_spec h.inv herr
  have hone := consume_needed h.inv (hlen.trans_le hneed) herr
  have hok := consume_nextState_ne_error herr
  have hbytes : s.codec.partialBytes ++ input.take (r.offset + count) =
      ((r.session.codec.consume chunk).1.frames.map encodeFrame).flatten ++
        (r.session.codec.consume chunk).2.partialBytes := by
    rw [htake, ← List.append_assoc, h.bytes, hnone, List.append_assoc, hprog.bytes]
    simp
  rw [hlen] at hused
  generalize (r.session.codec.consume chunk).1 = res at *
  generalize (r.session.codec.consume chunk).2 = codec at *
  by_cases hlong : codec.nextState = .needBody ∧
      r.session.config.maxFramePayloadBytes < codec.expectedPayloadBytes
  · left
    rw [hr', Reading.decoded, if_neg herr, if_pos hlong]
    refine refused_refuse ?_ _ (by decide) _ _
    exact hnone
  right
  rcases hone with hnil | ⟨f, hf, hpart⟩
  · simp only [Reading.decoded, herr, if_false, hlong, hnil, hused] at hr'
    subst hr'
    refine ⟨⟨⟨hprog.inv, hok, hcount, ?_, by simp [hnone]⟩, h.returned, ?_,
      .inl ⟨hread, hnone⟩⟩, rfl⟩
    · simpa [hnone, hnil] using hbytes
    · rw [h.frame]
  · have hvalid := hprog.valid f (by simp [hf])
    simp only [Reading.decoded, herr, if_false, hlong, hf, hused] at hr'
    subst hr'
    refine ⟨⟨⟨hprog.inv, hok, hcount, ?_, by simpa using hvalid⟩, h.returned, ?_,
      .inr ⟨rfl, rfl, hpart⟩⟩, rfl⟩
    · simpa [hf] using hbytes
    · rw [h.frame]

/-- One iteration closes the session or makes progress. -/
theorem Decoding.readStep (h : Decoding s input r) (hlt : r.offset < input.length)
    (hread : r.session.state = .reading) (storeRemainder : Bool) :
    Refused (readStep storeRemainder input r) ∨
    (Decoding s input (readStep storeRemainder input r) ∧
      r.offset < (readStep storeRemainder input r).offset) := by
  have hneed := bytesNeeded_pos h.inv h.alive
  simp only [Session.readStep, bytesNeededByCodec_eq h.inv]
  split_ifs with hfull
  · exact .inl (refused_refuse (h.request_eq_none hread) _ (by decide) _ _)
  · have hcount : r.offset + min r.session.codec.bytesNeeded (input.length - r.offset) ≤
        input.length := by omega
    rcases h.decoded hread hcount (min_le_left _ _) _ rfl with hclosed | ⟨hdec, hoffset⟩
    · exact .inl hclosed
    · exact .inr ⟨hdec, by rw [hoffset]; omega⟩

/-- The loop closes the session, or stops at the end of the input or at a request. -/
theorem Decoding.readLoop (storeRemainder : Bool) {fuel : ℕ} (h : Decoding s input r)
    (hfuel : input.length ≤ r.offset + fuel) :
    Refused (readLoop storeRemainder input fuel r) ∨
    (Decoding s input (readLoop storeRemainder input fuel r) ∧
      ((readLoop storeRemainder input fuel r).offset = input.length ∨
        (readLoop storeRemainder input fuel r).session.state ≠ .reading)) := by
  induction fuel generalizing r with
  | zero =>
    have hle := h.offset_le
    exact .inr ⟨h, .inl (by dsimp only [Session.readLoop]; omega)⟩
  | succ fuel ih =>
    unfold Session.readLoop
    split_ifs with hgo
    · rcases h.readStep hgo.2.1 hgo.2.2 storeRemainder with href | ⟨hdec, hlt⟩
      · -- a `return` ends the loop at the next test
        left
        cases fuel with
        | zero => exact href
        | succ fuel =>
          unfold Session.readLoop
          rw [if_neg (by simp [href.returned])]
          exact href
      · exact ih hdec (by omega)
    · refine .inr ⟨h, ?_⟩
      have hle := h.offset_le
      by_cases hlt : r.offset < input.length
      · exact .inr fun hread => hgo ⟨h.returned, hlt, hread⟩
      · exact .inl (by omega)

/-! ### What the loop does with its input -/

theorem pendingInputBytes_eq (h : s.pendingInputOffset ≤ s.pendingInput.length) :
    s.pendingInputBytes = s.pendingBytes.length := by
  rw [pendingInputBytes, sizeSub_of_le h, pendingBytes, List.length_drop]

theorem appendPendingInput_le (h : s.pendingInputOffset ≤ s.pendingInput.length)
    (input : Bytes) : (s.appendPendingInput input).pendingInputOffset ≤
      (s.appendPendingInput input).pendingInput.length := by
  unfold appendPendingInput
  split_ifs
  · exact h
  · exact Nat.zero_le _

theorem pendingBytes_appendPendingInput (s : Session) (input : Bytes) :
    (s.appendPendingInput input).pendingBytes = s.pendingBytes ++ input := by
  unfold appendPendingInput
  split_ifs with hnil
  · rw [hnil, List.append_nil]
  · rfl

theorem appendPendingInput_frame (s : Session) (input : Bytes) :
    s.appendPendingInput input = { s with
      pendingInput := (s.appendPendingInput input).pendingInput
      pendingInputOffset := (s.appendPendingInput input).pendingInputOffset } := by
  unfold appendPendingInput
  split_ifs <;> rfl

/-- What `consumeReadingBytes` did if the session is still open: it used the first `offset`
bytes, up to the end of the input or of a request. -/
structure Consumed (s : Session) (input : Bytes) (offset : ℕ) (request : Option Bytes)
    (codec : LengthPrefixedCodec) (state : SessionState) : Prop
    extends Parsed s input offset request codec where
  stop : (state = .reading ∧ request = none ∧ offset = input.length) ∨
    (state = .processing ∧ request.isSome ∧ codec.partialBytes = [])

theorem Decoding.consumed (h : Decoding s input r)
    (hend : r.offset = input.length ∨ r.session.state ≠ .reading) :
    Consumed s input r.offset r.result.request r.session.codec r.session.state := by
  refine ⟨h.toParsed, ?_⟩
  rcases h.state with ⟨hread, hnone⟩ | hproc
  · exact .inl ⟨hread, hnone, hend.resolve_right (fun hne => hne hread)⟩
  · exact .inr hproc

theorem Reads.decoding (h : s.Reads) (input : Bytes) :
    Decoding s input ⟨s, 0, { status := .buffered }, false⟩ :=
  ⟨⟨h.inv, h.alive, Nat.zero_le _, by simp, by simp⟩, rfl, rfl, .inl ⟨h.state, rfl⟩⟩

theorem Refused.finishReading (h : Refused r) (storeRemainder : Bool) :
    (finishReading storeRemainder input r).1.request = none ∧
      ¬ (finishReading storeRemainder input r).2.isOpen := by
  rw [Session.finishReading, if_neg (by simp [h.returned])]
  exact ⟨h.request, h.closed⟩

/-- A request is delivered by an open session only. -/
theorem Reads.isOpen_of_request (hs : s.Reads) {storeRemainder : Bool}
    (h : (s.consumeReadingBytes input storeRemainder).1.request.isSome) :
    (s.consumeReadingBytes input storeRemainder).2.isOpen := by
  unfold consumeReadingBytes at h ⊢
  have hloop := (hs.decoding input).readLoop storeRemainder (Nat.le_add_left _ _)
  generalize readLoop storeRemainder input input.length ⟨s, 0, { status := .buffered }, false⟩ = r
    at *
  rcases hloop with href | ⟨hdec, -⟩
  · rw [(href.finishReading storeRemainder).1] at h
    cases h
  · unfold finishReading at h ⊢
    have hopen (hsome : r.result.request.isSome) : r.session.isOpen := by
      rcases hdec.state with ⟨-, hnone⟩ | ⟨hproc, -⟩
      · simp [hnone] at hsome
      · simp [isOpen, hproc]
    split_ifs at h ⊢ with hmore hfull
    · simp at h
    · rw [appendPendingInput_frame]
      exact hopen h
    · exact hopen h

/-- The bytes that waited: they are not moved. -/
theorem Reads.consumed_pending (hs : s.Reads)
    (hopen : (s.consumeReadingBytes input false).2.isOpen) : ∃ codec state,
      Consumed s input (s.consumeReadingBytes input false).1.bytesAccepted
        (s.consumeReadingBytes input false).1.request codec state ∧
      (s.consumeReadingBytes input false).2 = { s with codec := codec, state := state } := by
  simp only [consumeReadingBytes, finishReading, Bool.false_eq_true, false_and, and_false,
    if_false] at hopen ⊢
  rcases (hs.decoding input).readLoop false (Nat.le_add_left _ _) with href | ⟨hdec, hend⟩
  · exact absurd hopen href.closed
  · exact ⟨_, _, hdec.consumed hend, hdec.frame⟩

/-- New bytes: what follows a request is kept for later. -/
theorem Reads.consumed_new (hs : s.Reads) (hopen : (s.consumeReadingBytes input true).2.isOpen) :
    ∃ offset codec state,
      Consumed s input offset (s.consumeReadingBytes input true).1.request codec state ∧
      (s.consumeReadingBytes input true).2 =
        { s with codec := codec, state := state }.appendPendingInput (input.drop offset) := by
  unfold consumeReadingBytes at hopen ⊢
  rcases (hs.decoding input).readLoop true (Nat.le_add_left _ _) with href | ⟨hdec, hend⟩
  · exact absurd hopen (href.finishReading true).2
  · generalize readLoop true input input.length ⟨s, 0, { status := .buffered }, false⟩ = r at *
    refine ⟨r.offset, r.session.codec, r.session.state, ?_⟩
    rw [← hdec.frame]
    simp only [finishReading, hdec.returned, true_and] at hopen ⊢
    split_ifs at hopen ⊢ with hmore hfull
    · exact absurd hopen (beginClose_not_open (by simp))
    · exact ⟨hdec.consumed hend, rfl⟩
    · have hall : input.drop r.offset = [] := List.drop_eq_nil_of_le (Nat.le_of_not_lt hmore)
      exact ⟨hdec.consumed hend, by rw [hall]; rfl⟩

/-! ### Sessions and their events -/

/-- Every byte received is in a request delivered, in the partial frame or in `rest`, and the next
request may be delivered. -/
structure Accounts (codec : LengthPrefixedCodec) (rest : Bytes) (events : List SessionEvent) :
    Prop where
  bytes : receivedBytes events =
    ((requests events).map encodeFrame).flatten ++ codec.partialBytes ++ rest
  valid : ∀ f ∈ requests events, validatePayloadLength f.length = .none
  settled : Settled events
  ordered : OneAtATime events

/-- An open session and what was seen of it are in step. -/
structure Tracks (s : Session) (events : List SessionEvent) : Prop where
  inv : s.codec.Inv
  alive : s.codec.nextState ≠ .error
  pending_le : s.pendingInputOffset ≤ s.pendingInput.length
  output_le : s.outputOffset ≤ s.output.length
  /-- Every byte received is in a request delivered, in the partial frame or waiting. -/
  bytes : receivedBytes events =
    ((requests events).map encodeFrame).flatten ++ s.codec.partialBytes ++ s.pendingBytes
  valid : ∀ f ∈ requests events, validatePayloadLength f.length = .none
  /-- The direct path to the decoder is used only when nothing waits. -/
  reading : s.state = .reading → s.pendingBytes = [] ∧ Settled events
  processing : s.state = .processing → s.codec.partialBytes = [] ∧
    (requests events).length = (responses events).length + 1 ∧
    writtenBytes events = responseBytes events
  writing : s.state = .writing → s.codec.partialBytes = [] ∧
    (requests events).length = (responses events).length ∧
    writtenBytes events + s.remainingOutputBytes = responseBytes events
  ordered : OneAtATime events

theorem tracks_create {token : ConnectionToken} {config : SessionConfig} {fd : ℤ}
    (h : create token config fd = some s) : s.Tracks [] := by
  unfold create at h
  split_ifs at h
  cases h
  exact ⟨inv_create, by simp [LengthPrefixedCodec.create], Nat.le_refl _, Nat.le_refl _,
    rfl, by simp [requests],
    fun _ => ⟨rfl, rfl, rfl⟩, by simp, by simp, fun _ _ _ h => by simp at h⟩

variable {events : List SessionEvent} {s' : Session}

theorem Tracks.reads (h : s.Tracks events) (hread : s.state = .reading) : s.Reads :=
  ⟨hread, h.inv, h.alive⟩

/-- The events of decoding: the bytes, if they are new, and a request. -/
def decodedEvents (request : Option Bytes) : List SessionEvent := request.toList.map .request

section DecodedEvents

variable (request : Option Bytes)

@[simp] theorem requests_decodedEvents : requests (decodedEvents request) = request.toList := by
  cases request <;> rfl

@[simp] theorem responses_decodedEvents : responses (decodedEvents request) = [] := by
  cases request <;> rfl

@[simp] theorem writtenBytes_decodedEvents : writtenBytes (decodedEvents request) = 0 := by
  cases request <;> rfl

@[simp] theorem receivedBytes_decodedEvents : receivedBytes (decodedEvents request) = [] := by
  cases request <;> rfl

end DecodedEvents

/-- A request may follow settled events. -/
theorem oneAtATime_append_decodedEvents (h : OneAtATime events) (hsettled : Settled events)
    (request : Option Bytes) : OneAtATime (events ++ decodedEvents request) := by
  refine h.append fun before frame after heq => ?_
  cases request with
  | none => simp [decodedEvents] at heq
  | some f =>
    simp only [decodedEvents, Option.toList_some, List.map_cons, List.map_nil] at heq
    cases before with
    | nil => simpa using hsettled
    | cons e before =>
      have := congrArg List.length heq
      simp at this

/-- Decoding keeps a session and its events in step: `input` is decoded up to `offset` and otherwise
waits. -/
theorem Consumed.tracks {offset : ℕ} {request : Option Bytes} {codec : LengthPrefixedCodec}
    {state : SessionState} (h : Consumed s input offset request codec state)
    (hcodec : s'.codec = codec) (hstate : s'.state = state)
    (hpending : s'.pendingBytes = input.drop offset)
    (hle : s'.pendingInputOffset ≤ s'.pendingInput.length)
    (hout : s'.outputOffset ≤ s'.output.length) (hevents : Accounts s.codec input events) :
    s'.Tracks (events ++ decodedEvents request) where
  inv := hcodec ▸ h.inv
  alive := hcodec ▸ h.alive
  pending_le := hle
  output_le := hout
  bytes := by
    have hinput : s.codec.partialBytes ++ input =
        (request.toList.map encodeFrame).flatten ++ codec.partialBytes ++ input.drop offset := by
      rw [← h.bytes, List.append_assoc, List.take_append_drop]
    rw [receivedBytes_append, receivedBytes_decodedEvents, List.append_nil, hevents.bytes,
      List.append_assoc, hinput, hcodec, hpending]
    simp
  valid f hf := by
    rw [requests_append, requests_decodedEvents, List.mem_append, Option.mem_toList] at hf
    exact hf.elim (hevents.valid f) (h.valid f)
  reading hs := by
    rcases h.stop with ⟨-, hnone, hall⟩ | ⟨hp, -⟩
    · rw [hpending, hall, List.drop_length, hnone]
      simpa [decodedEvents] using hevents.settled
    · rw [hstate, hp] at hs; cases hs
  processing hs := by
    rcases h.stop with ⟨hr, -⟩ | ⟨-, hsome, hpart⟩
    · rw [hstate, hr] at hs; cases hs
    · obtain ⟨f, rfl⟩ := Option.isSome_iff_exists.mp hsome
      refine ⟨hcodec ▸ hpart, ?_, ?_⟩
      · simpa using hevents.settled.1
      · simpa [responseBytes] using hevents.settled.2
  writing hs := by
    rcases h.stop with ⟨hr, -⟩ | ⟨hp, -⟩
    · rw [hstate, hr] at hs; cases hs
    · rw [hstate, hp] at hs; cases hs
  ordered := oneAtATime_append_decodedEvents hevents.ordered hevents.settled request

/-! ### The operations -/

/-- Bytes that wait behind an outstanding request. -/
theorem Tracks.append (h : s.Tracks events) (hwait : s.state ≠ .reading ∨ input = []) :
    (s.appendPendingInput input).Tracks (events ++ [.received input]) := by
  have hpending := pendingBytes_appendPendingInput s input
  have hle := appendPendingInput_le h.pending_le input
  rw [appendPendingInput_frame] at hpending hle ⊢
  exact {
    inv := h.inv
    alive := h.alive
    pending_le := hle
    output_le := h.output_le
    bytes := by
      rw [hpending, receivedBytes_append, h.bytes]
      simp
    valid := by simpa using h.valid
    reading := fun hs => by
      obtain ⟨hnil, hsettled⟩ := h.reading hs
      rw [hpending, hnil, hwait.resolve_left (fun hne => hne hs)]
      exact ⟨rfl, Settled.append_received hsettled []⟩
    processing := by simpa [responseBytes] using h.processing
    writing := by simpa [responseBytes, remainingOutputBytes] using h.writing
    ordered := h.ordered.append_of_requests_nil rfl }

theorem Tracks.onInput (h : s.Tracks events) (hopen : (s.onInput input).2.isOpen) :
    (s.onInput input).2.Tracks
      (events ++ .received input :: decodedEvents (s.onInput input).1.request) := by
  unfold Session.onInput at hopen ⊢
  split_ifs at hopen ⊢ with hclosing hclosed hnil hread hfull
  · exact absurd hclosing hopen.1
  · exact absurd hclosed hopen.2
  · simpa [decodedEvents, appendPendingInput, hnil] using h.append (.inr hnil)
  · exact absurd hopen (beginClose_not_open (by simp))
  · exact h.append (.inl hread)
  · rw [not_not] at hread
    obtain ⟨hpending, hsettled⟩ := h.reading hread
    obtain ⟨offset, codec, state, hcons, hs'⟩ := (h.reads hread).consumed_new hopen
    rw [hs'] at hopen ⊢
    rw [List.append_cons]
    refine hcons.tracks ?_ ?_ ?_ ?_ ?_ ⟨?_, by simpa using h.valid,
      Settled.append_received hsettled input, h.ordered.append_of_requests_nil rfl⟩
    · rw [appendPendingInput_frame]
    · rw [appendPendingInput_frame]
    · rw [pendingBytes_appendPendingInput]
      simpa [pendingBytes] using hpending
    · refine appendPendingInput_le ?_ _
      exact h.pending_le
    · rw [appendPendingInput_frame]
      exact h.output_le
    · rw [receivedBytes_append, h.bytes, hpending]
      simp

/-- A response is accepted for the outstanding request, or nothing changes, or the session is
closed. -/
theorem queueResponse_cases (s : Session) (token : ConnectionToken) (response : Bytes) :
    ((s.queueResponse token response).1 ≠ .ok ∧
      ((s.queueResponse token response).2 = s ∨ ¬ (s.queueResponse token response).2.isOpen)) ∨
    (s.token = token ∧ s.state = .processing ∧ response ≠ [] ∧
      s.queueResponse token response =
        (.ok, { s with output := response, outputOffset := 0, state := .writing })) := by
  unfold Session.queueResponse
  split_ifs with hstale hclosing hclosed hproc hempty hlong
  · exact .inl ⟨by simp, .inl rfl⟩
  · exact .inl ⟨by simp, .inl rfl⟩
  · exact .inl ⟨by simp, .inl rfl⟩
  · exact .inl ⟨by simp, .inl rfl⟩
  · exact .inl ⟨by simp, .inl rfl⟩
  · exact .inl ⟨by simp, .inr (beginClose_not_open (by simp))⟩
  · exact .inr ⟨by simpa [matchesToken] using hstale, not_not.mp hproc, hempty, rfl⟩

theorem Tracks.queueResponse (h : s.Tracks events) {token : ConnectionToken} {response : Bytes}
    (hopen : (s.queueResponse token response).2.isOpen) :
    (s.queueResponse token response).2.Tracks (events ++
      if (s.queueResponse token response).1 = .ok then [.response response] else []) := by
  rcases queueResponse_cases s token response with ⟨hstatus, hs | hclosed⟩ | ⟨-, hproc, -, heq⟩
  · rw [if_neg hstatus, List.append_nil, hs]
    exact h
  · exact absurd hopen hclosed
  · rw [heq, if_pos rfl]
    obtain ⟨hpart, hlen, hwritten⟩ := h.processing hproc
    exact {
      inv := h.inv
      alive := h.alive
      pending_le := h.pending_le
      output_le := Nat.zero_le _
      bytes := by simpa [pendingBytes] using h.bytes
      valid := by simpa using h.valid
      reading := by simp
      processing := by simp
      writing := fun _ => by
        refine ⟨hpart, ?_, ?_⟩
        · simpa using hlen
        · have hsize : sizeSub response.length 0 = response.length := sizeSub_of_le (Nat.zero_le _)
          simp only [remainingOutputBytes, hsize, responseBytes, responses_append,
            writtenBytes_append, List.map_append, List.sum_append] at hwritten ⊢
          rw [hwritten]
          simp
      ordered := h.ordered.append_of_requests_nil rfl }

theorem pendingBytes_advancePendingInput (s : Session) (count : ℕ) :
    (s.advancePendingInput count).pendingBytes = s.pendingBytes.drop count := by
  simp only [advancePendingInput, clearConsumedPendingInput, pendingBytes, List.drop_drop]
  split_ifs with hall
  · rw [hall, List.drop_length]
    rfl
  · rfl

theorem advancePendingInput_frame (s : Session) (count : ℕ) :
    s.advancePendingInput count = { s with
      pendingInput := (s.advancePendingInput count).pendingInput
      pendingInputOffset := (s.advancePendingInput count).pendingInputOffset } := by
  unfold advancePendingInput clearConsumedPendingInput
  split_ifs <;> rfl

theorem advancePendingInput_le {count : ℕ}
    (h : s.pendingInputOffset + count ≤ s.pendingInput.length) :
    (s.advancePendingInput count).pendingInputOffset ≤
      (s.advancePendingInput count).pendingInput.length := by
  unfold advancePendingInput clearConsumedPendingInput
  split_ifs
  · exact Nat.le_refl _
  · exact h

/-- Back in `reading`, the bytes that waited go to the decoder, up to the next request. -/
theorem Reads.tracks_consumePendingInput (hs : s.Reads)
    (hle : s.pendingInputOffset ≤ s.pendingInput.length)
    (hout : s.outputOffset ≤ s.output.length) (hevents : Accounts s.codec s.pendingBytes events)
    (hopen : s.consumePendingInput.2.isOpen) :
    s.consumePendingInput.2.Tracks (events ++ decodedEvents s.consumePendingInput.1.request) := by
  unfold consumePendingInput at hopen ⊢
  split_ifs at hopen ⊢ with hidle
  · have hnil : s.pendingBytes = [] := by
      rw [pendingInputBytes_eq hle] at hidle
      exact List.length_eq_zero_iff.mp (hidle.resolve_left (fun hne => hne hs.state))
    simp only [decodedEvents, Option.toList_none, List.map_nil, List.append_nil]
    exact ⟨hs.inv, hs.alive, hle, hout, hevents.bytes, hevents.valid,
      fun _ => ⟨hnil, hevents.settled⟩, by simp [hs.state], by simp [hs.state], hevents.ordered⟩
  · rw [← pendingBytes] at hopen ⊢
    have hopen' : (s.consumeReadingBytes s.pendingBytes false).2.isOpen := by
      dsimp only at hopen
      rw [advancePendingInput_frame] at hopen
      exact hopen
    obtain ⟨codec, state, hcons, hs'⟩ := hs.consumed_pending hopen'
    have hlen := hcons.offset_le
    rw [pendingBytes, List.length_drop, ← pendingBytes] at hlen
    dsimp only
    rw [hs']
    refine hcons.tracks ?_ ?_ ?_ ?_ ?_ hevents
    · rw [advancePendingInput_frame]
    · rw [advancePendingInput_frame]
    · rw [pendingBytes_advancePendingInput]
      rfl
    · refine advancePendingInput_le ?_
      dsimp only
      omega
    · rw [advancePendingInput_frame]
      exact hout

theorem beginClose_cases (s : Session) (reason : SessionCloseReason) :
    ¬ (s.beginClose reason).2.isOpen ∨ (s.beginClose reason).2 = s := by
  by_cases h : reason = .none
  · right
    unfold beginClose
    split_ifs <;> rfl
  · exact .inl (beginClose_not_open h)

/-- A report of written bytes closes the session, is refused, moves the offset, or ends the
response. -/
theorem onBytesWritten_cases (s : Session) (n : ℕ) :
    ¬ (s.onBytesWritten n).2.isOpen ∨
    (s.state ≠ .writing ∧ s.onBytesWritten n = ({ status := .invalidState }, s)) ∨
    (s.state = .writing ∧ n ≤ s.remainingOutputBytes ∧
      (s.onBytesWritten n = ({ status := .ok }, { s with outputOffset := s.outputOffset + n }) ∨
        sizeSub s.output.length (s.outputOffset + n) = 0 ∧
          s.onBytesWritten n = s.onResponseWritten)) := by
  unfold Session.onBytesWritten
  split_ifs with hclosing hclosed hwriting hexceed hshort
  · exact .inl fun ho => ho.1 hclosing
  · exact .inl fun ho => ho.2 hclosed
  · exact .inr (.inl ⟨hwriting, rfl⟩)
  · exact .inl (beginClose_not_open (by simp))
  · exact .inr (.inr ⟨not_not.mp hwriting, Nat.le_of_not_lt hexceed, .inl rfl⟩)
  · exact .inr (.inr ⟨not_not.mp hwriting, Nat.le_of_not_lt hexceed, .inr ⟨not_not.mp hshort, rfl⟩⟩)

/-- The end of a response: the session is closed, stays as it is with nothing left to write, or
reads on. -/
theorem onResponseWritten_cases (s : Session) :
    ¬ s.onResponseWritten.2.isOpen ∨
    s.onResponseWritten = ({ status := .closing }, { s with output := [], outputOffset := 0 }) ∨
    (s.closeAfterWriteFlag = false ∧ s.peerReadClosed = false ∧
      s.onResponseWritten.1.request =
        { s with
          output := [], outputOffset := 0, state := .reading }.consumePendingInput.1.request ∧
      s.onResponseWritten.2 =
        { s with output := [], outputOffset := 0, state := .reading }.consumePendingInput.2) := by
  by_cases hflags : (s.closeAfterWriteFlag || s.peerReadClosed) = true
  · rw [onResponseWritten, if_pos hflags]
    rcases beginClose_cases { s with output := [], outputOffset := 0 }
      (if s.closeAfterWriteFlag then s.closeReason else .peerClosed) with hclosed | hsame
    · exact .inl hclosed
    · exact .inr (.inl (Prod.ext rfl hsame))
  · rw [onResponseWritten, if_neg hflags]
    rw [Bool.or_eq_true, not_or, Bool.not_eq_true, Bool.not_eq_true] at hflags
    refine .inr (.inr ⟨hflags.1, hflags.2, ?_, rfl⟩)
    dsimp only
    split_ifs <;> rfl

/-- The part of the events `onBytesWritten` adds: the bytes, and a request that had waited. -/
def writtenEvents (s : Session) (n : ℕ) : List SessionEvent :=
  if s.state = .writing then .written n :: decodedEvents (s.onBytesWritten n).1.request else []

theorem Tracks.onBytesWritten (h : s.Tracks events) {n : ℕ}
    (hopen : (s.onBytesWritten n).2.isOpen) :
    (s.onBytesWritten n).2.Tracks (events ++ s.writtenEvents n) := by
  unfold writtenEvents
  rcases onBytesWritten_cases s n with hclosed | ⟨hstate, heq⟩ | ⟨hwriting, hle, hcase⟩
  · exact absurd hopen hclosed
  · rw [heq, if_neg hstate, List.append_nil]
    exact h
  obtain ⟨hpart, hlen, hsum⟩ := h.writing hwriting
  have hout := h.output_le
  rw [remainingOutputBytes, sizeSub_of_le hout] at hle hsum
  rw [if_pos hwriting]
  have hvalid : ∀ f ∈ requests (events ++ [.written n]),
      validatePayloadLength f.length = .none := by simpa using h.valid
  have hordered : OneAtATime (events ++ [.written n]) := h.ordered.append_of_requests_nil rfl
  have hcount : writtenBytes (events ++ [.written n]) = writtenBytes events + n := by simp
  have hresp : responseBytes (events ++ [.written n]) = responseBytes events := by
    simp [responseBytes]
  rcases hcase with heq | ⟨hdone, heq⟩
  · -- a short write
    rw [heq]
    exact {
      inv := h.inv
      alive := h.alive
      pending_le := h.pending_le
      output_le := by dsimp only; omega
      bytes := by simpa [decodedEvents, pendingBytes] using h.bytes
      valid := hvalid
      reading := by simp [hwriting]
      processing := by simp [hwriting]
      writing := fun _ => by
        refine ⟨hpart, by simpa [decodedEvents] using hlen, ?_⟩
        change writtenBytes (events ++ [.written n]) + sizeSub s.output.length (s.outputOffset + n)
          = responseBytes (events ++ [.written n])
        rw [hcount, hresp, sizeSub_of_le (by omega)]
        omega
      ordered := hordered }
  · -- the end of the response
    rw [sizeSub_of_le (by omega)] at hdone
    have hsettled : Settled (events ++ [.written n]) := by
      refine ⟨by simpa using hlen, ?_⟩
      rw [hcount, hresp]
      omega
    have hbytes : receivedBytes (events ++ [.written n]) =
        ((requests (events ++ [.written n])).map encodeFrame).flatten ++ s.codec.partialBytes ++
          s.pendingBytes := by simpa using h.bytes
    rw [heq] at hopen ⊢
    rw [List.append_cons]
    rcases onResponseWritten_cases s with hclosed | heq | ⟨-, -, hreq, hnext⟩
    · exact absurd hopen hclosed
    · rw [heq]
      simp only [decodedEvents, Option.toList_none, List.map_nil, List.append_nil]
      exact ⟨h.inv, h.alive, h.pending_le, Nat.le_refl _, hbytes, hvalid, by simp [hwriting],
        by simp [hwriting], fun _ => ⟨hpart, hsettled.1, hsettled.2⟩, hordered⟩
    · rw [hnext] at hopen ⊢
      rw [hreq]
      exact Reads.tracks_consumePendingInput ⟨rfl, h.inv, h.alive⟩ h.pending_le (Nat.le_refl _)
        ⟨hbytes, hvalid, hsettled, hordered⟩ hopen

/-- The relation reads the buffers and the state only. -/
theorem Tracks.congr (h : s.Tracks events) (hcodec : s'.codec = s.codec)
    (hpending : s'.pendingInput = s.pendingInput)
    (hoffset : s'.pendingInputOffset = s.pendingInputOffset) (hout : s'.output = s.output)
    (hwritten : s'.outputOffset = s.outputOffset) (hstate : s'.state = s.state) :
    s'.Tracks events := by
  have hbytes : s'.pendingBytes = s.pendingBytes := by rw [pendingBytes, hpending, hoffset]; rfl
  have hremaining : s'.remainingOutputBytes = s.remainingOutputBytes := by
    rw [remainingOutputBytes, hout, hwritten]; rfl
  constructor
  · rw [hcodec]; exact h.inv
  · rw [hcodec]; exact h.alive
  · rw [hpending, hoffset]; exact h.pending_le
  · rw [hout, hwritten]; exact h.output_le
  · rw [hcodec, hbytes]; exact h.bytes
  · exact h.valid
  · rw [hstate, hbytes]; exact h.reading
  · rw [hstate, hcodec]; exact h.processing
  · rw [hstate, hcodec, hremaining]; exact h.writing
  · exact h.ordered

theorem Tracks.closeAfterWrite (h : s.Tracks events) (reason : SessionCloseReason) :
    (s.closeAfterWrite reason).2.Tracks events := by
  unfold Session.closeAfterWrite
  split_ifs
  · exact h
  · exact h
  · exact h
  · exact h.congr rfl rfl rfl rfl rfl rfl

theorem Tracks.onPeerReadClosed (h : s.Tracks events) (hopen : s.onPeerReadClosed.2.isOpen) :
    s.onPeerReadClosed.2.Tracks events := by
  simp only [Session.onPeerReadClosed] at hopen ⊢
  split_ifs at hopen ⊢
  · exact h
  · exact h
  · exact h.congr rfl rfl rfl rfl rfl rfl
  · exact absurd hopen (beginClose_not_open (by simp))
  · exact absurd hopen (beginClose_not_open (by simp))

theorem Tracks.beginClose (h : s.Tracks events) {reason : SessionCloseReason}
    (hopen : (s.beginClose reason).2.isOpen) : (s.beginClose reason).2.Tracks events := by
  rcases beginClose_cases s reason with hclosed | hsame
  · exact absurd hopen hclosed
  · rw [hsame]; exact h

theorem finalizeClose_not_open (s : Session) : ¬ s.finalizeClose.2.isOpen := by
  unfold finalizeClose
  split_ifs with hclosed
  · exact fun ho => ho.2 hclosed
  · exact fun ho => ho.2 rfl
  · exact fun ho => ho.2 rfl

/-! ### What decoding leaves alone -/

/-- A session after bytes were decoded: a request may have been delivered, nothing else shows. -/
structure Fed (s s' : Session) (request : Option Bytes) : Prop where
  output : s'.output = s.output
  offset : s'.outputOffset = s.outputOffset
  flag : s'.closeAfterWriteFlag = s.closeAfterWriteFlag
  state : (s'.state = s.state ∧ request = none) ∨
    (s.state = .reading ∧ s'.state = .processing ∧ request.isSome)

theorem Consumed.fed {offset : ℕ} {request : Option Bytes} {codec : LengthPrefixedCodec}
    {state : SessionState} (h : Consumed s input offset request codec state)
    (hread : s.state = .reading) (hstate : s'.state = state) (hout : s'.output = s.output)
    (hoff : s'.outputOffset = s.outputOffset)
    (hflag : s'.closeAfterWriteFlag = s.closeAfterWriteFlag) : Fed s s' request where
  output := hout
  offset := hoff
  flag := hflag
  state := by
    rcases h.stop with ⟨hs, hnone, -⟩ | ⟨hs, hsome, -⟩
    · exact .inl ⟨by rw [hstate, hs, hread], hnone⟩
    · exact .inr ⟨hread, hstate.trans hs, hsome⟩

theorem Tracks.fed_onInput (h : s.Tracks events) (hopen : (s.onInput input).2.isOpen) :
    Fed s (s.onInput input).2 (s.onInput input).1.request := by
  unfold Session.onInput at hopen ⊢
  split_ifs at hopen ⊢ with hclosing hclosed hnil hread hfull
  · exact ⟨rfl, rfl, rfl, .inl ⟨rfl, rfl⟩⟩
  · exact ⟨rfl, rfl, rfl, .inl ⟨rfl, rfl⟩⟩
  · exact ⟨rfl, rfl, rfl, .inl ⟨rfl, rfl⟩⟩
  · exact absurd hopen (beginClose_not_open (by simp))
  · dsimp only
    rw [appendPendingInput_frame]
    exact ⟨rfl, rfl, rfl, .inl ⟨rfl, rfl⟩⟩
  · rw [not_not] at hread
    obtain ⟨offset, codec, state, hcons, hs'⟩ := (h.reads hread).consumed_new hopen
    rw [hs', appendPendingInput_frame]
    exact hcons.fed hread rfl rfl rfl rfl

theorem Reads.fed_consumePendingInput (hs : s.Reads) (hopen : s.consumePendingInput.2.isOpen) :
    Fed s s.consumePendingInput.2 s.consumePendingInput.1.request := by
  unfold consumePendingInput at hopen ⊢
  split_ifs at hopen ⊢ with hidle
  · exact ⟨rfl, rfl, rfl, .inl ⟨rfl, rfl⟩⟩
  · dsimp only at hopen ⊢
    rw [advancePendingInput_frame] at hopen ⊢
    obtain ⟨codec, state, hcons, hs'⟩ := hs.consumed_pending hopen
    rw [hs']
    exact hcons.fed hs.state rfl rfl rfl rfl

theorem closing_or_closed (h : ¬ s.isOpen) : s.state = .closing ∨ s.state = .closed := by
  by_contra hne
  exact h ⟨fun hc => hne (.inl hc), fun hc => hne (.inr hc)⟩

theorem onInput_of_not_open (h : ¬ s.isOpen) : (s.onInput input).1.request = none := by
  rcases closing_or_closed h with hs | hs <;> simp [onInput, hs]

theorem Tracks.isOpen_of_onInput (h : s.Tracks events)
    (hreq : (s.onInput input).1.request.isSome) : (s.onInput input).2.isOpen := by
  unfold Session.onInput at hreq ⊢
  split_ifs at hreq ⊢ with hclosing hclosed hnil hread hfull
  · simp at hreq
  · simp at hreq
  · simp at hreq
  · simp at hreq
  · simp at hreq
  · exact (h.reads (not_not.mp hread)).isOpen_of_request hreq

theorem Reads.isOpen_of_consumePendingInput (hs : s.Reads)
    (h : s.consumePendingInput.1.request.isSome) : s.consumePendingInput.2.isOpen := by
  unfold consumePendingInput at h ⊢
  split_ifs at h ⊢ with hidle
  · simp at h
  · dsimp only at h ⊢
    rw [advancePendingInput_frame]
    exact hs.isOpen_of_request h

theorem Tracks.isOpen_of_onBytesWritten (h : s.Tracks events) {n : ℕ}
    (hreq : (s.onBytesWritten n).1.request.isSome) : (s.onBytesWritten n).2.isOpen := by
  unfold Session.onBytesWritten onResponseWritten at hreq ⊢
  split_ifs at hreq ⊢
  all_goals try simp only [Option.isSome_none, Bool.false_eq_true] at hreq
  refine Reads.isOpen_of_consumePendingInput ⟨rfl, h.inv, h.alive⟩ ?_
  split_ifs at hreq <;> exact hreq

/-- What a report of written bytes did if the session is still open. -/
inductive Written (s : Session) (n : ℕ) : Prop
  /-- Some of the response is still to be written. -/
  | short (h : s.onBytesWritten n =
      ({ status := .ok }, { s with outputOffset := s.outputOffset + n }))
  /-- The response is complete and the session should be closed, but has no reason to be. -/
  | held (hdone : s.pendingOutput.length = n)
      (h : s.onBytesWritten n =
        ({ status := .closing }, { s with output := [], outputOffset := 0 }))
  /-- The response is complete and the session reads on. -/
  | read (hdone : s.pendingOutput.length = n) (hflag : s.closeAfterWriteFlag = false)
      (hfed : Fed { s with output := [], outputOffset := 0, state := .reading }
        (s.onBytesWritten n).2 (s.onBytesWritten n).1.request)

theorem Tracks.written (h : s.Tracks events) (hstate : s.state = .writing) {n : ℕ}
    (hopen : (s.onBytesWritten n).2.isOpen) : n ≤ s.pendingOutput.length ∧ s.Written n := by
  have hout := h.output_le
  have hlen : s.pendingOutput.length = s.output.length - s.outputOffset := by
    rw [pendingOutput, List.length_drop]
  rcases onBytesWritten_cases s n with hclosed | ⟨hne, -⟩ | ⟨-, hle, hcase⟩
  · exact absurd hopen hclosed
  · exact absurd hstate hne
  rw [remainingOutputBytes, sizeSub_of_le hout, ← hlen] at hle
  refine ⟨hle, ?_⟩
  rcases hcase with heq | ⟨hdone, heq⟩
  · exact .short heq
  · rw [sizeSub_of_le (by omega)] at hdone
    have hall : s.pendingOutput.length = n := by omega
    rw [heq] at hopen
    rcases onResponseWritten_cases s with hclosed | hsame | ⟨hflag, -, hreq, hnext⟩
    · exact absurd hopen hclosed
    · exact .held hall (heq.trans hsame)
    · rw [hnext] at hopen
      refine .read hall hflag ?_
      rw [heq, hreq, hnext]
      exact Reads.fed_consumePendingInput ⟨rfl, h.inv, h.alive⟩ hopen

/-! ### Whole runs -/

/-- An operation on a session. -/
inductive Op
  | input (chunk : Bytes)
  | response (token : ConnectionToken) (frame : Bytes)
  | written (count : ℕ)
  | closeAfterWrite (reason : SessionCloseReason)
  | peerReadClosed
  | beginClose (reason : SessionCloseReason)
  | finalizeClose
  deriving DecidableEq, Repr

/-- What an operation does, and what is seen of it. -/
def apply (s : Session) : Op → Session × List SessionEvent
  | .input chunk =>
    ((s.onInput chunk).2, .received chunk :: decodedEvents (s.onInput chunk).1.request)
  | .response token frame =>
    ((s.queueResponse token frame).2,
      if (s.queueResponse token frame).1 = .ok then [.response frame] else [])
  | .written count => ((s.onBytesWritten count).2, s.writtenEvents count)
  | .closeAfterWrite reason => ((s.closeAfterWrite reason).2, [])
  | .peerReadClosed => (s.onPeerReadClosed.2, [])
  | .beginClose reason => ((s.beginClose reason).2, [])
  | .finalizeClose => (s.finalizeClose.2, [])

/-- A sequence of operations. -/
def runOps : List Op → Session → Session × List SessionEvent
  | [], s => (s, [])
  | op :: ops, s =>
    ((runOps ops (s.apply op).1).1, (s.apply op).2 ++ (runOps ops (s.apply op).1).2)

/-- Every operation keeps a session that stays open in step with its events. -/
theorem Tracks.apply (h : s.Tracks events) (op : Op) (hopen : (s.apply op).1.isOpen) :
    (s.apply op).1.Tracks (events ++ (s.apply op).2) := by
  cases op with
  | input chunk => exact h.onInput hopen
  | response token frame => exact h.queueResponse hopen
  | written count => exact h.onBytesWritten hopen
  | closeAfterWrite reason => simpa [Session.apply] using h.closeAfterWrite reason
  | peerReadClosed => simpa [Session.apply] using h.onPeerReadClosed hopen
  | beginClose reason => simpa [Session.apply] using h.beginClose hopen
  | finalizeClose => exact absurd hopen (finalizeClose_not_open s)

/-- Only `finalizeClose` is left to a session that is not open. -/
theorem apply_of_not_open (h : ¬ s.isOpen) {op : Op} (hop : op ≠ .finalizeClose) :
    (s.apply op).1 = s := by
  have hstate := closing_or_closed h
  cases op with
  | finalizeClose => exact absurd rfl hop
  | beginClose reason => exact beginClose_of_not_open h reason
  | input chunk => rcases hstate with hs | hs <;> simp [Session.apply, onInput, hs]
  | response token frame =>
    simp only [Session.apply, Session.queueResponse]
    split_ifs with _ hclosing hclosed
    · rfl
    · rfl
    · rfl
    all_goals exact absurd hstate (not_or.mpr ⟨hclosing, hclosed⟩)
  | written count => rcases hstate with hs | hs <;> simp [Session.apply, onBytesWritten, hs]
  | closeAfterWrite reason =>
    rcases hstate with hs | hs <;> simp [Session.apply, closeAfterWrite, hs]
  | peerReadClosed => rcases hstate with hs | hs <;> simp [Session.apply, onPeerReadClosed, hs]

theorem apply_not_open (h : ¬ s.isOpen) (op : Op) : ¬ (s.apply op).1.isOpen := by
  by_cases hop : op = .finalizeClose
  · rw [hop]
    exact finalizeClose_not_open s
  · rwa [apply_of_not_open h hop]

theorem runOps_not_open (h : ¬ s.isOpen) (ops : List Op) : ¬ (runOps ops s).1.isOpen := by
  induction ops generalizing s with
  | nil => exact h
  | cons op ops ih => exact ih (apply_not_open h op)

theorem Tracks.runOps (h : s.Tracks events) (ops : List Op) (hopen : (runOps ops s).1.isOpen) :
    (runOps ops s).1.Tracks (events ++ (runOps ops s).2) := by
  induction ops generalizing s events with
  | nil => simpa [Session.runOps] using h
  | cons op ops ih =>
    have hmid : (s.apply op).1.isOpen := by
      by_contra hclosed
      exact runOps_not_open hclosed ops hopen
    rw [Session.runOps, ← List.append_assoc]
    exact ih (h.apply op hmid) hopen

/-- **A session delivers exactly the frames of its byte stream, in order, whatever the
chunking.**  For every sequence of operations that leaves a new session open: the requests
delivered are the first frames of the bytes received and what follows them is the partial frame
in the decoder and then the waiting bytes; and whenever a request was delivered, the responses to
the earlier ones were complete: as many responses as requests, all of their bytes written. -/
theorem stream_of_run {token : ConnectionToken} {config : SessionConfig} {fd : ℤ}
    (hcreate : create token config fd = some s) (ops : List Op)
    (hopen : (runOps ops s).1.isOpen) :
    (firstFrames (requests (runOps ops s).2).length (receivedBytes (runOps ops s).2) =
      (requests (runOps ops s).2,
        (runOps ops s).1.codec.partialBytes ++ (runOps ops s).1.pendingBytes)) ∧
    (receivedBytes (runOps ops s).2 = ((requests (runOps ops s).2).map encodeFrame).flatten ++
      (runOps ops s).1.codec.partialBytes ++ (runOps ops s).1.pendingBytes) ∧
    (∀ before frame after, (runOps ops s).2 = before ++ .request frame :: after →
      (requests before).length = (responses before).length ∧
      writtenBytes before = ((responses before).map List.length).sum) := by
  have h := (tracks_create hcreate).runOps ops hopen
  rw [List.nil_append] at h
  refine ⟨?_, h.bytes, h.ordered⟩
  rw [h.bytes, List.append_assoc]
  exact firstFrames_encode h.valid _

/-- A request of one byte and the start of the next one arrive together; the response is written
and the rest of the second request arrives. -/
def pipelinedOps : List Op :=
  [.input [0, 0, 0, 1, 7, 0, 0, 0], .response ⟨0, 3, 1⟩ [9, 9], .written 1, .input [2, 5],
    .written 1, .input [6]]

theorem stream_of_run_pipelined :
    (runOps pipelinedOps { token := ⟨0, 3, 1⟩, config := {} }).1.isOpen ∧
    requests (runOps pipelinedOps { token := ⟨0, 3, 1⟩, config := {} }).2 = [[7], [5, 6]] ∧
    firstFrames 2 (receivedBytes (runOps pipelinedOps { token := ⟨0, 3, 1⟩, config := {} }).2) =
      ([[7], [5, 6]], []) := by
  have hopen : (runOps pipelinedOps { token := ⟨0, 3, 1⟩, config := {} }).1.isOpen := by decide
  have hreq : requests (runOps pipelinedOps { token := ⟨0, 3, 1⟩, config := {} }).2 =
      [[7], [5, 6]] := by decide
  have hcreate : create ⟨0, 3, 1⟩ {} 3 = some { token := ⟨0, 3, 1⟩, config := {} } := by decide
  have hstream := (stream_of_run hcreate pipelinedOps hopen).1
  have hrest : (runOps pipelinedOps { token := ⟨0, 3, 1⟩, config := {} }).1.codec.partialBytes ++
      (runOps pipelinedOps { token := ⟨0, 3, 1⟩, config := {} }).1.pendingBytes = [] := by decide
  rw [hreq, hrest] at hstream
  exact ⟨hopen, hreq, hstream⟩

end Session

end AegisFlow
