import AegisFlow.Net.Codec

/-!
# The codec against its reference

The reference sees the whole stream at once: it takes complete frames off the front as long as
there is one, and what is left is a part of a header, a header with a part of its body, or an
invalid header.  The incremental decoder sees the same stream in chunks.

* `decodeStream` : the reference;
* `LengthPrefixedCodec.consumeAll` : the decoder, one chunk after the other;
* `codec_chunking_invariant` : **the chunks do not matter**, and decoding inverts encoding.
-/

namespace AegisFlow

/-! ### The reference -/

/-- What a decoder should remember of the bytes behind the last complete frame. -/
def restState (rest : Bytes) : LengthPrefixedCodec :=
  let length := decodePayloadLength (rest.take kFrameHeaderSize)
  if rest.length < kFrameHeaderSize then ⟨rest, 0, [], .needHeader, .none⟩
  else if validatePayloadLength length = .none then
    ⟨[], length, rest.drop kFrameHeaderSize, .needBody, .none⟩
  else ⟨[], 0, [], .error, validatePayloadLength length⟩

/-- The bytes behind an invalid header are not looked at. -/
def unreadBytes (rest : Bytes) : ℕ :=
  if (restState rest).nextState = .error then rest.length - kFrameHeaderSize else 0

/-- What decoding a stream gives. -/
@[ext]
structure Decoded where
  /-- The frames, up to the first invalid header. -/
  frames : List Bytes
  bytesConsumed : ℕ
  codec : LengthPrefixedCodec
  deriving DecidableEq, Repr

/-- The reference: decode a whole stream. -/
def decodeStream (stream : Bytes) : Decoded :=
  let decoded := firstFrames stream.length stream
  ⟨decoded.1, stream.length - unreadBytes decoded.2, restState decoded.2⟩

/-- Decode chunks, one after the other. -/
def LengthPrefixedCodec.consumeAll (c : LengthPrefixedCodec) : List Bytes → Decoded
  | [] => ⟨[], 0, c⟩
  | chunk :: chunks =>
    let consumed := c.consume chunk
    let decoded := consumed.2.consumeAll chunks
    ⟨consumed.1.frames ++ decoded.frames, consumed.1.bytesConsumed + decoded.bytesConsumed,
      decoded.codec⟩

/-! ### The frames at the front of a stream -/

theorem firstFrames_of_none {stream : Bytes} (h : nextFrame stream = none) (k : ℕ) :
    firstFrames k stream = ([], stream) := by
  cases k with
  | zero => rfl
  | succ k => rw [firstFrames, h]

theorem firstFrames_of_some {stream frame rest : Bytes} (h : nextFrame stream = some (frame, rest))
    (k : ℕ) : firstFrames (k + 1) stream =
      (frame :: (firstFrames k rest).1, (firstFrames k rest).2) := by
  rw [firstFrames, h]

/-- Frames at the front of a stream are taken off one by one. -/
theorem firstFrames_append {frames : List Bytes}
    (h : ∀ f ∈ frames, validatePayloadLength f.length = .none) {rest : Bytes}
    (hrest : nextFrame rest = none) {k : ℕ} (hk : frames.length ≤ k) :
    firstFrames k ((frames.map encodeFrame).flatten ++ rest) = (frames, rest) := by
  induction frames generalizing k with
  | nil =>
    rw [List.map_nil, List.flatten_nil, List.nil_append]
    exact firstFrames_of_none hrest k
  | cons f frames ih =>
    cases k with
    | zero => exact absurd hk (by simp)
    | succ k =>
      have ih := ih (fun g hg => h g (List.mem_cons_of_mem _ hg)) (Nat.le_of_succ_le_succ hk)
      rw [List.map_cons, List.flatten_cons, List.append_assoc,
        firstFrames_of_some (nextFrame_encodeFrame (h f List.mem_cons_self) _), ih]

theorem length_le_flatten_encode (frames : List Bytes) :
    frames.length ≤ ((frames.map encodeFrame).flatten).length := by
  induction frames with
  | nil => simp
  | cons f frames ih =>
    simp only [List.map_cons, List.flatten_cons, List.length_append, List.length_cons,
      LengthPrefixedCodec.length_encodeFrame, kFrameHeaderSize]
    omega

/-- The reference on a stream whose frames are known. -/
theorem decodeStream_append {frames : List Bytes}
    (h : ∀ f ∈ frames, validatePayloadLength f.length = .none) {rest : Bytes}
    (hrest : nextFrame rest = none) :
    decodeStream ((frames.map encodeFrame).flatten ++ rest) =
      ⟨frames, ((frames.map encodeFrame).flatten ++ rest).length - unreadBytes rest,
        restState rest⟩ := by
  have hlength := length_le_flatten_encode frames
  have hfirst : firstFrames ((frames.map encodeFrame).flatten ++ rest).length
      ((frames.map encodeFrame).flatten ++ rest) = (frames, rest) :=
    firstFrames_append h hrest (by rw [List.length_append]; omega)
  simp only [decodeStream, hfirst]

/-! ### Invalid headers -/

namespace LengthPrefixedCodec

variable {c : LengthPrefixedCodec} {input : Bytes}

/-- The decoder stopped at an invalid header. -/
structure Stops (c : LengthPrefixedCodec) (input : Bytes) (c' : LengthPrefixedCodec)
    (rest : Bytes) (frames : List Bytes) : Prop where
  /-- The frames before the header. -/
  valid : ∀ f ∈ frames, validatePayloadLength f.length = .none
  /-- The header, and what is left behind it. -/
  header : ∃ header : Bytes, header.length = kFrameHeaderSize ∧
    c.partialBytes ++ input = (frames.map encodeFrame).flatten ++ (header ++ rest) ∧
    validatePayloadLength (decodePayloadLength header) ≠ .none ∧
    c' = ⟨[], 0, [], .error, validatePayloadLength (decodePayloadLength header)⟩

theorem Progress.stops {c₁ c₂ c₃ : LengthPrefixedCodec} {i₁ i₂ i₃ : Bytes}
    {fs gs : List Bytes} (h : Progress c₁ i₁ c₂ i₂ fs) (h' : Stops c₂ i₂ c₃ i₃ gs) :
    Stops c₁ i₁ c₃ i₃ (fs ++ gs) where
  valid f hf := (List.mem_append.1 hf).elim (h.valid f) (h'.valid f)
  header := by
    obtain ⟨header, hlength, hbytes, hinvalid, hc⟩ := h'.header
    refine ⟨header, hlength, ?_, hinvalid, hc⟩
    rw [h.bytes, List.append_assoc, hbytes]
    simp only [List.map_append, List.flatten_append, List.append_assoc]

theorem takeHeader_stops (h : c.Inv) (hs : c.nextState = .needHeader)
    (herr : (c.takeHeader input).1.nextState = .error) :
    Stops c input (c.takeHeader input).1 (c.takeHeader input).2 [] := by
  have hsplit := List.take_append_drop
    (min (kFrameHeaderSize - c.header.length) input.length) input
  simp only [takeHeader] at herr ⊢
  split_ifs at herr ⊢ with hshort hvalid
  · simp [hs] at herr
  · refine ⟨by simp, c.header ++ _, ?_, ?_, hvalid, rfl⟩
    · have hlt := h.header_lt
      simp only [List.length_append, List.length_take] at hshort ⊢
      omega
    · simp only [partialBytes, hs, List.map_nil, List.flatten_nil, List.nil_append,
        List.append_assoc, hsplit]

theorem consumeStep_stops (h : c.Inv) (hs : c.nextState ≠ .error) (hne : input ≠ [])
    (herr : (c.consumeStep input).1.nextState = .error) :
    Stops c input (c.consumeStep input).1 (c.consumeStep input).2.1
      (c.consumeStep input).2.2.toList := by
  unfold consumeStep at herr ⊢
  by_cases hhead : c.nextState = .needHeader
  · simp only [hhead, if_true] at herr ⊢
    split_ifs at herr ⊢ with hb
    · rcases takeHeader_spec h hhead hne with herr' | ⟨hinv, -⟩
      · simp [herr'] at hb
      · exact absurd herr (takeBody_spec hinv hb.1 hb.2).2.1
    · exact takeHeader_stops h hhead herr
  · have hbs : c.nextState = .needBody := by
      have := h.state
      cases hc : c.nextState <;> simp_all
    simp only [hbs, reduceCtorEq, if_false, hne, ne_eq, not_false_eq_true, and_self,
      if_true] at herr
    exact absurd herr (takeBody_spec h hbs hne).2.1

theorem consumeLoop_stops {fuel : ℕ} (hfuel : input.length ≤ fuel) (h : c.Inv)
    (hs : c.nextState ≠ .error) (frames : List Bytes)
    (herr : (consumeLoop fuel c input frames).1.nextState = .error) :
    ∃ fs, (consumeLoop fuel c input frames).2.2 = frames ++ fs ∧
      Stops c input (consumeLoop fuel c input frames).1
        (consumeLoop fuel c input frames).2.1 fs := by
  induction fuel generalizing c input frames with
  | zero => exact absurd herr hs
  | succ fuel ih =>
    by_cases hstop : input = [] ∨ c.nextState = .error
    · simp only [consumeLoop, hstop, if_true] at herr
      exact absurd herr hs
    · simp only [consumeLoop, hstop, if_false] at herr ⊢
      rw [not_or] at hstop
      rcases consumeStep_spec h hs hstop.1 with hstep | ⟨hstep, hprog, hlt⟩
      · -- the loop ends with the error of its last iteration
        have hend : consumeLoop fuel (c.consumeStep input).1 (c.consumeStep input).2.1
            (frames ++ (c.consumeStep input).2.2.toList) = ((c.consumeStep input).1,
              (c.consumeStep input).2.1, frames ++ (c.consumeStep input).2.2.toList) := by
          cases fuel with
          | zero => rfl
          | succ fuel => simp only [consumeLoop, hstep, or_true, if_true]
        rw [hend]
        exact ⟨_, rfl, consumeStep_stops h hs hstop.1 hstep⟩
      · obtain ⟨fs, hfs, hstops⟩ :=
          ih (Nat.le_of_lt_succ (hlt.trans_le hfuel)) hprog.inv hstep _ herr
        exact ⟨(c.consumeStep input).2.2.toList ++ fs, by rw [hfs, List.append_assoc],
          hprog.stops hstops⟩

theorem consumeStep_rest_le : (c.consumeStep input).2.1.length ≤ input.length := by
  have hheader : (c.takeHeader input).2.length ≤ input.length := by
    simp only [takeHeader]
    split_ifs <;> simp
  have hbody (c : LengthPrefixedCodec) (input : Bytes) :
      (c.takeBody input).2.1.length ≤ input.length := by
    simp only [takeBody]
    split_ifs <;> simp
  unfold consumeStep
  by_cases hhead : c.nextState = .needHeader
  · simp only [hhead, if_true]
    split_ifs
    · exact (hbody _ _).trans hheader
    · exact hheader
  · simp only [hhead, if_false]
    split_ifs
    · exact hbody _ _
    · exact le_rfl

theorem consumeLoop_rest_le (fuel : ℕ) (frames : List Bytes) :
    (consumeLoop fuel c input frames).2.1.length ≤ input.length := by
  induction fuel generalizing c input frames with
  | zero => exact le_rfl
  | succ fuel ih =>
    unfold consumeLoop
    split_ifs
    · exact le_rfl
    · exact (ih _).trans consumeStep_rest_le

/-- A call that stops at an invalid header. -/
theorem consume_stops (h : c.Inv) (hs : c.nextState ≠ .error)
    (herr : (c.consume input).1.state = .error) :
    ∃ rest, (c.consume input).1.bytesConsumed + rest.length = input.length ∧
      Stops c input (c.consume input).2 rest (c.consume input).1.frames := by
  have hloop : (consumeLoop input.length c input []).1.nextState = .error := by
    by_contra hloop
    simp only [consume, hs, if_false, hloop] at herr
    split_ifs at herr
    exact hloop herr
  obtain ⟨fs, hfs, hstops⟩ := consumeLoop_stops le_rfl h hs [] hloop
  rw [List.nil_append] at hfs
  simp only [consume, hs, if_false, hfs]
  exact ⟨_, Nat.sub_add_cancel (consumeLoop_rest_le _ _), hstops⟩

/-! ### The state of the decoder -/

/-- Before it stops, the decoder has no error. -/
structure Running (c : LengthPrefixedCodec) : Prop where
  inv : c.Inv
  state : c.nextState ≠ .error
  error : c.error = .none

theorem running_create : create.Running := ⟨inv_create, by decide, rfl⟩

/-- What a running decoder remembers is determined by the bytes of its frame. -/
theorem Running.restState_eq (h : c.Running) : restState c.partialBytes = c := by
  obtain ⟨header, expected, payload, state, error⟩ := c
  obtain rfl : error = .none := h.error
  cases state with
  | needHeader =>
    obtain ⟨rfl, rfl⟩ : payload = [] ∧ expected = 0 := h.inv.head rfl
    exact if_pos h.inv.header_lt
  | needBody =>
    obtain ⟨rfl, hvalid, -⟩ : header = [] ∧ _ := h.inv.body rfl
    have hmax := (validatePayloadLength_eq_none.1 hvalid).2
    have htake : (encodePayloadLength expected ++ payload).take kFrameHeaderSize =
        encodePayloadLength expected := List.take_left' (length_encodePayloadLength _)
    have hdrop : (encodePayloadLength expected ++ payload).drop kFrameHeaderSize = payload :=
      List.drop_left' (length_encodePayloadLength _)
    have hdecode : decodePayloadLength (encodePayloadLength expected) = expected :=
      decode_encodePayloadLength (by simp only [kMaxPayloadSize] at hmax; omega)
    have hlong : ¬ (encodePayloadLength expected ++ payload).length < kFrameHeaderSize := by
      rw [List.length_append, length_encodePayloadLength]
      omega
    simp only [restState, partialBytes, htake, hdrop, hdecode, hlong, if_false, hvalid, if_true]
  | frameReady => exact absurd rfl h.inv.state
  | error => exact absurd rfl h.state

/-- A running decoder holds no complete frame. -/
theorem Inv.nextFrame_eq_none (h : c.Inv) (hne : c.nextState ≠ .error) :
    nextFrame c.partialBytes = none := by
  refine if_neg fun hframe => ?_
  obtain ⟨hlength, -, hbody⟩ := hframe
  have hstate := h.state
  cases hc : c.nextState with
  | needHeader =>
    simp only [partialBytes, hc] at hlength
    exact absurd h.header_lt (by omega)
  | needBody =>
    obtain ⟨-, hvalid, hlt⟩ := h.body hc
    have hmax := (validatePayloadLength_eq_none.1 hvalid).2
    have hdecode : decodePayloadLength (encodePayloadLength c.expectedPayloadBytes) =
        c.expectedPayloadBytes :=
      decode_encodePayloadLength (by simp only [kMaxPayloadSize] at hmax; omega)
    simp only [partialBytes, hc, List.take_left' (length_encodePayloadLength _),
      List.drop_left' (length_encodePayloadLength _), hdecode] at hbody
    omega
  | frameReady => exact hstate hc
  | error => exact hne hc

theorem takeHeader_error (hok : (c.takeHeader input).1.nextState ≠ .error) :
    (c.takeHeader input).1.error = c.error := by
  simp only [takeHeader] at hok ⊢
  split_ifs at hok ⊢
  · rfl
  · exact absurd rfl hok
  · rfl

theorem takeBody_error : (c.takeBody input).1.error = c.error := by
  simp only [takeBody]
  split_ifs <;> rfl

theorem consumeStep_error (hok : (c.consumeStep input).1.nextState ≠ .error) :
    (c.consumeStep input).1.error = c.error := by
  unfold consumeStep at hok ⊢
  by_cases hhead : c.nextState = .needHeader
  · simp only [hhead, if_true] at hok ⊢
    split_ifs at hok ⊢ with hb
    · rw [takeBody_error]
      exact takeHeader_error (by simp [hb.1])
    · exact takeHeader_error hok
  · simp only [hhead, if_false]
    split_ifs
    · exact takeBody_error
    · rfl

theorem consumeLoop_error (fuel : ℕ) (frames : List Bytes)
    (hok : (consumeLoop fuel c input frames).1.nextState ≠ .error) :
    (consumeLoop fuel c input frames).1.error = c.error := by
  induction fuel generalizing c input frames with
  | zero => rfl
  | succ fuel ih =>
    by_cases hstop : input = [] ∨ c.nextState = .error
    · simp only [consumeLoop, hstop, if_true]
    · simp only [consumeLoop, hstop, if_false] at hok ⊢
      rw [ih _ hok]
      refine consumeStep_error fun herr => hok ?_
      cases fuel with
      | zero => exact herr
      | succ fuel => simp only [consumeLoop, herr, or_true, if_true]

/-- A call that does not stop leaves a running decoder. -/
theorem Running.consume (h : c.Running) (hok : (c.consume input).1.state ≠ .error) :
    (c.consume input).2.Running := by
  have hstate := consume_nextState_ne_error hok
  refine ⟨(consume_spec h.inv hok).2.inv, hstate, ?_⟩
  have hs := h.state
  simp only [LengthPrefixedCodec.consume, hs, if_false] at hstate ⊢
  rw [consumeLoop_error _ _ hstate, h.error]

/-- A decoder that stopped takes nothing more. -/
theorem consume_of_error (h : c.nextState = .error) (input : Bytes) :
    c.consume input = (⟨.error, c.error, 0, []⟩, c) := if_pos h

theorem consumeAll_of_error (h : c.nextState = .error) (chunks : List Bytes) :
    c.consumeAll chunks = ⟨[], 0, c⟩ := by
  induction chunks with
  | nil => rfl
  | cons chunk chunks ih => simp only [consumeAll, consume_of_error h, ih, List.nil_append]

end LengthPrefixedCodec

/-! ### Decomposing streams -/

theorem nextFrame_eq_some {stream frame rest : Bytes} (h : nextFrame stream = some (frame, rest)) :
    stream = encodeFrame frame ++ rest ∧ validatePayloadLength frame.length = .none := by
  simp only [nextFrame] at h
  split_ifs at h with hcond
  obtain ⟨hlength, hvalid, hbody⟩ := hcond
  cases h
  have hheader : (stream.take kFrameHeaderSize).length = 4 := by
    rw [List.length_take, min_eq_left hlength]
    rfl
  have hframe : ((stream.drop kFrameHeaderSize).take
      (decodePayloadLength (stream.take kFrameHeaderSize))).length =
        decodePayloadLength (stream.take kFrameHeaderSize) := by
    rw [List.length_take, min_eq_left hbody]
  refine ⟨?_, by rw [hframe, hvalid]⟩
  rw [encodeFrame, hframe, encode_decodePayloadLength hheader, List.append_assoc,
    List.take_append_drop, List.take_append_drop]

/-- A stream is its complete frames, followed by what begins with no complete frame. -/
theorem exists_frames (stream : Bytes) : ∃ (frames : List Bytes) (rest : Bytes),
    stream = (frames.map encodeFrame).flatten ++ rest ∧
      (∀ f ∈ frames, validatePayloadLength f.length = .none) ∧ nextFrame rest = none := by
  induction hn : stream.length using Nat.strong_induction_on generalizing stream with
  | _ n ih =>
    cases hnext : nextFrame stream with
    | none => exact ⟨[], stream, rfl, by simp, hnext⟩
    | some p =>
      obtain ⟨frame, rest⟩ := p
      obtain ⟨rfl, hvalid⟩ := nextFrame_eq_some hnext
      have hlt : rest.length < n := by
        rw [← hn, List.length_append, LengthPrefixedCodec.length_encodeFrame, kFrameHeaderSize]
        omega
      obtain ⟨frames, rest, rfl, hframes, hrest⟩ := ih _ hlt rest rfl
      exact ⟨frame :: frames, rest, by simp, List.forall_mem_cons.2 ⟨hvalid, hframes⟩, hrest⟩

theorem unreadBytes_le (rest : Bytes) : unreadBytes rest ≤ rest.length := by
  unfold unreadBytes
  split_ifs <;> omega

/-- Complete frames at the front of a stream are decoded first. -/
theorem decodeStream_encode {frames : List Bytes}
    (h : ∀ f ∈ frames, validatePayloadLength f.length = .none) (stream : Bytes) :
    decodeStream ((frames.map encodeFrame).flatten ++ stream) =
      ⟨frames ++ (decodeStream stream).frames,
        ((frames.map encodeFrame).flatten).length + (decodeStream stream).bytesConsumed,
        (decodeStream stream).codec⟩ := by
  obtain ⟨gs, rest, rfl, hgs, hrest⟩ := exists_frames stream
  have hall : ∀ f ∈ frames ++ gs, validatePayloadLength f.length = .none :=
    fun f hf => (List.mem_append.1 hf).elim (h f) (hgs f)
  have hunread := unreadBytes_le rest
  have hboth := decodeStream_append hall hrest
  rw [List.map_append, List.flatten_append, List.append_assoc] at hboth
  rw [hboth, decodeStream_append hgs hrest]
  simp only [List.length_append, Decoded.mk.injEq, true_and, and_true]
  omega

/-- Decoding stops at an invalid header. -/
theorem decodeStream_invalid {header : Bytes} (hlength : header.length = kFrameHeaderSize)
    (hinvalid : validatePayloadLength (decodePayloadLength header) ≠ .none) (rest : Bytes) :
    decodeStream (header ++ rest) = ⟨[], kFrameHeaderSize,
      ⟨[], 0, [], .error, validatePayloadLength (decodePayloadLength header)⟩⟩ := by
  have htake : (header ++ rest).take kFrameHeaderSize = header := List.take_left' hlength
  have hnext : nextFrame (header ++ rest) = none := by
    refine if_neg fun hcond => hinvalid ?_
    rw [htake] at hcond
    exact hcond.2.1
  have hlong : ¬ (header ++ rest).length < kFrameHeaderSize := by
    rw [List.length_append]
    omega
  have hstate : restState (header ++ rest) =
      ⟨[], 0, [], .error, validatePayloadLength (decodePayloadLength header)⟩ := by
    simp only [restState, htake, if_neg hlong, if_neg hinvalid]
  simp only [decodeStream, firstFrames_of_none hnext, unreadBytes, hstate, if_true,
    List.length_append, hlength, Decoded.mk.injEq, true_and, and_true]
  omega

/-! ### Chunks do not matter -/

namespace LengthPrefixedCodec

variable {c : LengthPrefixedCodec}

/-- A running decoder goes on as the reference does on the bytes it holds and those to come. -/
theorem Running.consumeAll_eq (h : c.Running) (chunks : List Bytes) :
    (c.consumeAll chunks).frames = (decodeStream (c.partialBytes ++ chunks.flatten)).frames ∧
    c.partialBytes.length + (c.consumeAll chunks).bytesConsumed =
      (decodeStream (c.partialBytes ++ chunks.flatten)).bytesConsumed ∧
    (c.consumeAll chunks).codec = (decodeStream (c.partialBytes ++ chunks.flatten)).codec := by
  induction chunks generalizing c with
  | nil =>
    have hdecode := @decodeStream_append [] (by simp) _ (h.inv.nextFrame_eq_none h.state)
    have hread : unreadBytes c.partialBytes = 0 := by
      rw [unreadBytes, h.restState_eq, if_neg h.state]
    rw [List.map_nil, List.flatten_nil, List.nil_append, h.restState_eq, hread] at hdecode
    rw [List.flatten_nil, List.append_nil, hdecode]
    exact ⟨rfl, rfl, rfl⟩
  | cons chunk chunks ih =>
    rw [List.flatten_cons, ← List.append_assoc]
    simp only [consumeAll]
    by_cases herr : (c.consume chunk).1.state = .error
    · obtain ⟨rest, hconsumed, hvalid, header, hlength, hbytes, hinvalid, hc⟩ :=
        consume_stops h.inv h.state herr
      have hstop : (c.consume chunk).2.nextState = .error := by rw [hc]
      have hlengths := congrArg List.length hbytes
      rw [hbytes, List.append_assoc, List.append_assoc, decodeStream_encode hvalid,
        decodeStream_invalid hlength hinvalid, consumeAll_of_error hstop]
      refine ⟨rfl, ?_, hc⟩
      simp only [List.length_append, hlength] at hlengths
      dsimp only
      omega
    · obtain ⟨hconsumed, hprog⟩ := consume_spec h.inv herr
      obtain ⟨hframes, hused, hcodec⟩ := ih (h.consume herr)
      have hbytes := hprog.bytes
      rw [List.append_nil] at hbytes
      have hlengths := congrArg List.length hbytes
      rw [hbytes, List.append_assoc, decodeStream_encode hprog.valid]
      refine ⟨by rw [hframes], ?_, hcodec⟩
      simp only [List.length_append] at hlengths
      dsimp only
      omega

end LengthPrefixedCodec

/-- **The chunks do not matter, and decoding inverts encoding.**  Cut into chunks in any way, a
stream is decoded as the reference decodes it as a whole: the same frames, the same number of
bytes used (none behind an invalid header) and the same state of the decoder.  The encodings of
acceptable payloads are decoded to these payloads, and nothing is left. -/
theorem codec_chunking_invariant :
    (∀ chunks : List Bytes,
      LengthPrefixedCodec.create.consumeAll chunks = decodeStream chunks.flatten) ∧
    (∀ (c : LengthPrefixedCodec) (input : Bytes), c.nextState = .error →
      c.consume input = (⟨.error, c.error, 0, []⟩, c)) ∧
    (∀ (payloads chunks : List Bytes),
      (∀ p ∈ payloads, kMinPayloadSize ≤ p.length ∧ p.length ≤ kMaxPayloadSize) →
      chunks.flatten = (payloads.map fun p => encodePayloadLength p.length ++ p).flatten →
      (LengthPrefixedCodec.create.consumeAll chunks).frames = payloads ∧
      (LengthPrefixedCodec.create.consumeAll chunks).codec = LengthPrefixedCodec.create) := by
  have hall (chunks : List Bytes) :
      LengthPrefixedCodec.create.consumeAll chunks = decodeStream chunks.flatten := by
    obtain ⟨hframes, hused, hcodec⟩ := LengthPrefixedCodec.running_create.consumeAll_eq chunks
    have hnil : LengthPrefixedCodec.create.partialBytes ++ chunks.flatten = chunks.flatten := rfl
    rw [hnil] at hframes hused hcodec
    exact Decoded.ext hframes ((Nat.zero_add _).symm.trans hused) hcodec
  refine ⟨hall, fun c input h => LengthPrefixedCodec.consume_of_error h input,
    fun payloads chunks hsize hflatten => ?_⟩
  have hvalid : ∀ p ∈ payloads, validatePayloadLength p.length = .none :=
    fun p hp => validatePayloadLength_eq_none.2 (hsize p hp)
  have hdecode := @decodeStream_append _ hvalid [] rfl
  rw [List.append_nil] at hdecode
  rw [hall, hflatten]
  change (decodeStream (payloads.map encodeFrame).flatten).frames = _ ∧
    (decodeStream (payloads.map encodeFrame).flatten).codec = _
  rw [hdecode]
  exact ⟨rfl, rfl⟩

/-- The theorem for two frames, cut inside a header and inside a body. -/
theorem codec_chunking_invariant_two :
    (LengthPrefixedCodec.create.consumeAll
      [[0, 0], [0, 1, 7, 0, 0, 0], [2, 8], [], [9]]).frames = [[7], [8, 9]] := by
  refine (codec_chunking_invariant.2.2 [[7], [8, 9]] _ (fun p hp => ?_) (by decide)).1
  simp only [List.mem_cons, List.not_mem_nil, or_false] at hp
  obtain rfl | rfl := hp <;> simp [kMinPayloadSize, kMaxPayloadSize]

end AegisFlow
