import AegisFlow.Base.Text
import Mathlib.Tactic.SplitIfs

/-!
# The length-prefixed codec

On the wire a frame is a payload preceded by its length in four bytes, most significant byte
first.  A payload has at least one byte and at most a mebibyte.  `LengthPrefixedCodec` decodes
a stream that arrives in arbitrary chunks.

* `encodeFrame`, `nextFrame`, `firstFrames` : the reference: the encoding of a frame, and the
  first frames of a stream together with what follows them;
* `LengthPrefixedCodec.consume` : the incremental decoder;
* `LengthPrefixedCodec.partialBytes` : the bytes of the frame it is in, a header that was
  already decoded included;
* `consume_spec` : **the decoder loses no byte**: unless it meets an invalid header, the bytes
  it held and the bytes it is given are the frames it returns and the bytes it then holds.
-/

namespace AegisFlow

/-! ### Frames -/

/-- Bytes of a header. -/
def kFrameHeaderSize : ℕ := 4

/-- Shortest payload. -/
def kMinPayloadSize : ℕ := 1

/-- Longest payload. -/
def kMaxPayloadSize : ℕ := 1024 * 1024

/-- What can be wrong with the stream. -/
inductive ProtocolError
  | none
  | emptyPayload
  | payloadTooLarge
  | multipleRequests
  deriving DecidableEq, Repr

/-- The header for a payload length. -/
def encodePayloadLength (payloadLength : ℕ) : Bytes :=
  [UInt8.ofNat (payloadLength / 2 ^ 24 % 256), UInt8.ofNat (payloadLength / 2 ^ 16 % 256),
    UInt8.ofNat (payloadLength / 2 ^ 8 % 256), UInt8.ofNat (payloadLength % 256)]

/-- The payload length a header declares. -/
def decodePayloadLength (header : Bytes) : ℕ :=
  (header.getD 0 0).toNat * 2 ^ 24 + (header.getD 1 0).toNat * 2 ^ 16 +
    (header.getD 2 0).toNat * 2 ^ 8 + (header.getD 3 0).toNat

/-- Whether a payload length is acceptable. -/
def validatePayloadLength (payloadLength : ℕ) : ProtocolError :=
  if payloadLength < kMinPayloadSize then .emptyPayload
  else if kMaxPayloadSize < payloadLength then .payloadTooLarge
  else .none

/-- A payload as it stands on the wire. -/
def encodeFrame (payload : Bytes) : Bytes := encodePayloadLength payload.length ++ payload

/-- The first frame of a stream and the bytes after it, if the stream begins with a complete
and acceptable frame. -/
def nextFrame (stream : Bytes) : Option (Bytes × Bytes) :=
  let body := stream.drop kFrameHeaderSize
  let length := decodePayloadLength (stream.take kFrameHeaderSize)
  if kFrameHeaderSize ≤ stream.length ∧ validatePayloadLength length = .none ∧
      length ≤ body.length then
    some (body.take length, body.drop length)
  else none

/-- The first `k` frames of a stream, or as many as it has, and the undecoded rest. -/
def firstFrames : (k : ℕ) → Bytes → List Bytes × Bytes
  | 0, stream => ([], stream)
  | k + 1, stream =>
    match nextFrame stream with
    | none => ([], stream)
    | some (frame, rest) => (frame :: (firstFrames k rest).1, (firstFrames k rest).2)

/-! ### Headers -/

@[simp] theorem length_encodePayloadLength (n : ℕ) :
    (encodePayloadLength n).length = kFrameHeaderSize := rfl

theorem decode_encodePayloadLength {n : ℕ} (h : n < 2 ^ 32) :
    decodePayloadLength (encodePayloadLength n) = n := by
  simp only [decodePayloadLength, encodePayloadLength, List.getD_cons_zero,
    List.getD_cons_succ, UInt8.toNat_ofNat', Nat.reducePow] at h ⊢
  omega

theorem encode_decodePayloadLength {header : Bytes} (h : header.length = 4) :
    encodePayloadLength (decodePayloadLength header) = header := by
  obtain ⟨a, b, c, d, rfl⟩ : ∃ a b c d, header = [a, b, c, d] := by
    match header, h with
    | [a, b, c, d], _ => exact ⟨a, b, c, d, rfl⟩
  have ha := a.toNat_lt
  have hb := b.toNat_lt
  have hc := c.toNat_lt
  have hd := d.toNat_lt
  simp only [decodePayloadLength, encodePayloadLength, List.getD_cons_zero,
    List.getD_cons_succ, Nat.reducePow] at *
  have h0 : (a.toNat * 16777216 + b.toNat * 65536 + c.toNat * 256 + d.toNat) / 16777216 % 256 =
      a.toNat := by omega
  have h1 : (a.toNat * 16777216 + b.toNat * 65536 + c.toNat * 256 + d.toNat) / 65536 % 256 =
      b.toNat := by omega
  have h2 : (a.toNat * 16777216 + b.toNat * 65536 + c.toNat * 256 + d.toNat) / 256 % 256 =
      c.toNat := by omega
  have h3 : (a.toNat * 16777216 + b.toNat * 65536 + c.toNat * 256 + d.toNat) % 256 =
      d.toNat := by omega
  rw [h0, h1, h2, h3]
  simp only [UInt8.ofNat_toNat]

theorem validatePayloadLength_eq_none {n : ℕ} :
    validatePayloadLength n = .none ↔ 1 ≤ n ∧ n ≤ kMaxPayloadSize := by
  unfold validatePayloadLength kMinPayloadSize
  split_ifs with hmin hmax
  · simp only [false_iff]; omega
  · simp only [false_iff]; omega
  · simp only [true_iff]; omega

/-- A stream that begins with an acceptable frame decodes to that frame. -/
theorem nextFrame_encodeFrame {payload : Bytes}
    (h : validatePayloadLength payload.length = .none) (rest : Bytes) :
    nextFrame (encodeFrame payload ++ rest) = some (payload, rest) := by
  have hlen : payload.length < 2 ^ 32 := by
    have := (validatePayloadLength_eq_none.mp h).2
    simp only [kMaxPayloadSize] at this
    omega
  have htake : (encodeFrame payload ++ rest).take kFrameHeaderSize =
      encodePayloadLength payload.length := by
    rw [encodeFrame, List.append_assoc, List.take_left' (length_encodePayloadLength _)]
  have hdrop : (encodeFrame payload ++ rest).drop kFrameHeaderSize = payload ++ rest := by
    rw [encodeFrame, List.append_assoc, List.drop_left' (length_encodePayloadLength _)]
  have hhead : kFrameHeaderSize ≤ (encodeFrame payload ++ rest).length := by
    simp only [encodeFrame, List.length_append, length_encodePayloadLength, kFrameHeaderSize]
    omega
  have hbody : payload.length ≤ (payload ++ rest).length := by simp
  rw [nextFrame, htake, hdrop, decode_encodePayloadLength hlen, if_pos ⟨hhead, h, hbody⟩,
    List.take_left, List.drop_left]

/-- **The reference decoding inverts the encoding**: a stream that starts with the encodings of
`frames` has these as its first frames. -/
theorem firstFrames_encode {frames : List Bytes}
    (h : ∀ f ∈ frames, validatePayloadLength f.length = .none) (rest : Bytes) :
    firstFrames frames.length ((frames.map encodeFrame).flatten ++ rest) = (frames, rest) := by
  induction frames with
  | nil => rfl
  | cons f frames ih =>
    have hf := h f List.mem_cons_self
    have ih := ih fun g hg => h g (List.mem_cons_of_mem _ hg)
    simp only [List.map_cons, List.flatten_cons, List.length_cons, List.append_assoc, firstFrames]
    rw [nextFrame_encodeFrame hf]
    simp only [ih]

/-! ### The decoder -/

/-- What the decoder is waiting for, or what a call returned. -/
inductive CodecState
  | needHeader
  | needBody
  | frameReady
  | error
  deriving DecidableEq, Repr

/-- The incremental decoder. -/
structure LengthPrefixedCodec where
  /-- The bytes of the current header received so far. -/
  header : Bytes
  expectedPayloadBytes : ℕ
  /-- The bytes of the current payload received so far. -/
  payload : Bytes
  /-- Where to continue. -/
  nextState : CodecState
  error : ProtocolError
  deriving DecidableEq, Repr

/-- What a call of `consume` returns. -/
structure CodecConsumeResult where
  /-- `frameReady` if frames were completed. -/
  state : CodecState
  error : ProtocolError
  bytesConsumed : ℕ
  frames : List Bytes
  deriving DecidableEq, Repr

namespace LengthPrefixedCodec

/-- The decoder at the start of a stream. -/
def create : LengthPrefixedCodec := ⟨[], 0, [], .needHeader, .none⟩

/-- Stop for good. -/
def enterError (_ : LengthPrefixedCodec) (error : ProtocolError) : LengthPrefixedCodec :=
  ⟨[], 0, [], .error, error⟩

/-- Move bytes into the header; when it is complete, check the length and wait for the body. -/
def takeHeader (c : LengthPrefixedCodec) (input : Bytes) : LengthPrefixedCodec × Bytes :=
  let copyCount := min (kFrameHeaderSize - c.header.length) input.length
  let header := c.header ++ input.take copyCount
  let rest := input.drop copyCount
  if header.length < kFrameHeaderSize then ({ c with header := header }, rest)
  else
    let declaredLength := decodePayloadLength header
    let error := validatePayloadLength declaredLength
    if error ≠ .none then ({ c with header := [] }.enterError error, rest)
    else ({ c with
      header := [], expectedPayloadBytes := declaredLength, nextState := .needBody }, rest)

/-- Move bytes into the payload; when it is complete, return it and wait for a header. -/
def takeBody (c : LengthPrefixedCodec) (input : Bytes) :
    LengthPrefixedCodec × Bytes × Option Bytes :=
  let copyCount := min (c.expectedPayloadBytes - c.payload.length) input.length
  let payload := c.payload ++ input.take copyCount
  let rest := input.drop copyCount
  if payload.length = c.expectedPayloadBytes then
    ({ c with payload := [], expectedPayloadBytes := 0, nextState := .needHeader }, rest,
      some payload)
  else ({ c with payload := payload }, rest, none)

/-- One iteration of the loop of `consume`. -/
def consumeStep (c : LengthPrefixedCodec) (input : Bytes) :
    LengthPrefixedCodec × Bytes × Option Bytes :=
  let (c', rest) := if c.nextState = .needHeader then c.takeHeader input else (c, input)
  if c'.nextState = .needBody ∧ rest ≠ [] then c'.takeBody rest else (c', rest, none)

/-- The loop of `consume`; every iteration uses at least one byte, so the length of the input
is enough fuel. -/
def consumeLoop : (fuel : ℕ) → LengthPrefixedCodec → Bytes → List Bytes →
    LengthPrefixedCodec × Bytes × List Bytes
  | 0, c, input, frames => (c, input, frames)
  | fuel + 1, c, input, frames =>
    if input = [] ∨ c.nextState = .error then (c, input, frames)
    else
      let (c', rest, frame) := c.consumeStep input
      consumeLoop fuel c' rest (frames ++ frame.toList)

/-- Decode a chunk. -/
def consume (c : LengthPrefixedCodec) (input : Bytes) :
    CodecConsumeResult × LengthPrefixedCodec :=
  if c.nextState = .error then (⟨.error, c.error, 0, []⟩, c)
  else
    let (c', rest, frames) := consumeLoop input.length c input []
    let state :=
      if c'.nextState = .error then .error
      else if frames ≠ [] then .frameReady
      else c'.nextState
    (⟨state, c'.error, input.length - rest.length, frames⟩, c')

/-- Bytes held for the current frame. -/
def bufferedBytes (c : LengthPrefixedCodec) : ℕ := c.header.length + c.payload.length

/-- The bytes of the stream that belong to the current frame, a decoded header included. -/
def partialBytes (c : LengthPrefixedCodec) : Bytes :=
  match c.nextState with
  | .needHeader => c.header
  | .needBody => encodePayloadLength c.expectedPayloadBytes ++ c.payload
  | _ => []

/-! ### The decoder loses no byte -/

/-- What holds of the decoder between two calls. -/
structure Inv (c : LengthPrefixedCodec) : Prop where
  /-- A complete header is decoded at once. -/
  header_lt : c.header.length < kFrameHeaderSize
  /-- It waits for a header or for a body, or has stopped. -/
  state : c.nextState ≠ .frameReady
  /-- While it waits for a header, there is no payload. -/
  head : c.nextState = .needHeader → c.payload = [] ∧ c.expectedPayloadBytes = 0
  /-- While it waits for a body, the body is not complete and its length is acceptable. -/
  body : c.nextState = .needBody → c.header = [] ∧
    validatePayloadLength c.expectedPayloadBytes = .none ∧
    c.payload.length < c.expectedPayloadBytes

theorem inv_create : create.Inv :=
  ⟨by decide, by decide, fun _ => ⟨rfl, rfl⟩, fun h => absurd h (by decide)⟩

variable {c : LengthPrefixedCodec} {input : Bytes}

/-- Taking header bytes: either it stops at an invalid length, or no byte is lost. -/
theorem takeHeader_spec (h : c.Inv) (hs : c.nextState = .needHeader) (hne : input ≠ []) :
    (c.takeHeader input).1.nextState = .error ∨
    ((c.takeHeader input).1.Inv ∧ (c.takeHeader input).1.nextState ≠ .error ∧
      c.partialBytes ++ input =
        (c.takeHeader input).1.partialBytes ++ (c.takeHeader input).2 ∧
      (c.takeHeader input).2.length < input.length ∧
      (input.length ≤ kFrameHeaderSize - c.header.length → (c.takeHeader input).2 = [])) := by
  have hlt := h.header_lt
  obtain ⟨hpayload, hexpected⟩ := h.head hs
  have hpos : 0 < input.length := List.length_pos_iff.mpr hne
  have hsplit := List.take_append_drop
    (min (kFrameHeaderSize - c.header.length) input.length) input
  have hrest : (input.drop (min (kFrameHeaderSize - c.header.length) input.length)).length <
      input.length := by
    rw [List.length_drop]; omega
  have hall (hle : input.length ≤ kFrameHeaderSize - c.header.length) :
      input.drop (min (kFrameHeaderSize - c.header.length) input.length) = [] := by
    rw [min_eq_right hle, List.drop_length]
  simp only [takeHeader]
  split_ifs with hshort hvalid
  · refine .inr ⟨⟨hshort, by simp [hs], fun _ => ⟨hpayload, hexpected⟩, by simp [hs]⟩,
      by simp [hs], ?_, hrest, hall⟩
    simp only [partialBytes, hs, List.append_assoc, hsplit]
  · exact .inl rfl
  · have hlen : (c.header ++
        input.take (min (kFrameHeaderSize - c.header.length) input.length)).length = 4 := by
      simp only [List.length_append, List.length_take, kFrameHeaderSize] at hshort hlt ⊢
      omega
    rw [not_not] at hvalid
    have hmin := (validatePayloadLength_eq_none.mp hvalid).1
    refine .inr ⟨⟨by simp [kFrameHeaderSize], by simp, by simp, fun _ => ⟨rfl, hvalid, ?_⟩⟩,
      by simp, ?_, hrest, hall⟩
    · simpa [hpayload] using Nat.lt_of_succ_le hmin
    · simp only [partialBytes, hs, hpayload, List.append_nil]
      rw [encode_decodePayloadLength hlen, List.append_assoc, hsplit]

/-- Taking body bytes: no byte is lost, and a returned frame is acceptable. -/
theorem takeBody_spec (h : c.Inv) (hs : c.nextState = .needBody) (hne : input ≠ []) :
    (c.takeBody input).1.Inv ∧ (c.takeBody input).1.nextState ≠ .error ∧
    c.partialBytes ++ input =
      ((c.takeBody input).2.2.toList.map encodeFrame).flatten ++
        (c.takeBody input).1.partialBytes ++ (c.takeBody input).2.1 ∧
    (c.takeBody input).2.1.length < input.length ∧
    (∀ f ∈ (c.takeBody input).2.2, validatePayloadLength f.length = .none) ∧
    (input.length ≤ c.expectedPayloadBytes - c.payload.length → (c.takeBody input).2.1 = []) ∧
    ((c.takeBody input).2.2.isSome → (c.takeBody input).1.partialBytes = []) := by
  obtain ⟨hheader, hvalid, hlt⟩ := h.body hs
  have hpos : 0 < input.length := List.length_pos_iff.mpr hne
  have hsplit := List.take_append_drop
    (min (c.expectedPayloadBytes - c.payload.length) input.length) input
  have hrest : (input.drop (min (c.expectedPayloadBytes - c.payload.length)
      input.length)).length < input.length := by
    rw [List.length_drop]; omega
  have hall (hle : input.length ≤ c.expectedPayloadBytes - c.payload.length) :
      input.drop (min (c.expectedPayloadBytes - c.payload.length) input.length) = [] := by
    rw [min_eq_right hle, List.drop_length]
  simp only [takeBody]
  split_ifs with hfull
  · refine ⟨⟨by simp [hheader, kFrameHeaderSize], by simp, fun _ => ⟨rfl, rfl⟩, by simp⟩,
      by simp, ?_, hrest, ?_, hall, fun _ => by simp [partialBytes, hheader]⟩
    · simp only [partialBytes, hs, hheader, Option.toList_some, List.map_cons, List.map_nil,
        List.flatten_cons, List.flatten_nil, List.append_nil, encodeFrame]
      rw [hfull, List.append_assoc, List.append_assoc, List.append_assoc, hsplit]
    · simp only [Option.mem_some_iff, forall_eq', hfull, hvalid]
  · refine ⟨⟨h.header_lt, h.state, by simp [hs], fun _ => ⟨hheader, hvalid, ?_⟩⟩, by simp [hs],
      ?_, hrest, by simp, hall, by simp⟩
    · simp only [List.length_append, List.length_take] at hfull ⊢
      omega
    · simp only [partialBytes, hs, Option.toList_none, List.map_nil, List.flatten_nil,
        List.nil_append, List.append_assoc, hsplit]

/-- What one iteration does, if it does not stop at an invalid header. -/
structure Progress (c : LengthPrefixedCodec) (input : Bytes) (c' : LengthPrefixedCodec)
    (rest : Bytes) (frames : List Bytes) : Prop where
  inv : c'.Inv
  bytes : c.partialBytes ++ input = (frames.map encodeFrame).flatten ++ c'.partialBytes ++ rest
  valid : ∀ f ∈ frames, validatePayloadLength f.length = .none

theorem Progress.trans {c₁ c₂ c₃ : LengthPrefixedCodec} {i₁ i₂ i₃ : Bytes}
    {fs gs : List Bytes} (h : Progress c₁ i₁ c₂ i₂ fs) (h' : Progress c₂ i₂ c₃ i₃ gs) :
    Progress c₁ i₁ c₃ i₃ (fs ++ gs) where
  inv := h'.inv
  bytes := by
    rw [h.bytes, List.append_assoc, h'.bytes]
    simp only [List.map_append, List.flatten_append, List.append_assoc]
  valid f hf := by
    rcases List.mem_append.mp hf with hf | hf
    · exact h.valid f hf
    · exact h'.valid f hf

theorem consumeStep_spec (h : c.Inv) (hs : c.nextState ≠ .error) (hne : input ≠ []) :
    (c.consumeStep input).1.nextState = .error ∨
    ((c.consumeStep input).1.nextState ≠ .error ∧
      Progress c input (c.consumeStep input).1 (c.consumeStep input).2.1
        (c.consumeStep input).2.2.toList ∧
      (c.consumeStep input).2.1.length < input.length) := by
  have hbody {c : LengthPrefixedCodec} {input : Bytes} (h : c.Inv) (hs : c.nextState = .needBody)
      (hne : input ≠ []) : (c.takeBody input).1.nextState ≠ .error ∧
        Progress c input (c.takeBody input).1 (c.takeBody input).2.1
          (c.takeBody input).2.2.toList ∧ (c.takeBody input).2.1.length < input.length := by
    obtain ⟨hinv, herr, hbytes, hlt, hvalid, -⟩ := takeBody_spec h hs hne
    exact ⟨herr, ⟨hinv, hbytes, by simpa using hvalid⟩, hlt⟩
  unfold consumeStep
  by_cases hhead : c.nextState = .needHeader
  · simp only [hhead, if_true]
    rcases takeHeader_spec h hhead hne with herr | ⟨hinv, herr, hbytes, hlt, -⟩
    · left; simp [herr]
    · right
      have hstep : Progress c input (c.takeHeader input).1 (c.takeHeader input).2 [] :=
        ⟨hinv, by simpa using hbytes, by simp⟩
      split_ifs with hb
      · obtain ⟨herr', hprog, hlt'⟩ := hbody hinv hb.1 hb.2
        exact ⟨herr', by simpa using hstep.trans hprog, hlt'.trans hlt⟩
      · exact ⟨herr, hstep, hlt⟩
  · have hbs : c.nextState = .needBody := by
      have := h.state
      cases hc : c.nextState <;> simp_all
    right
    simp only [hbs, reduceCtorEq, if_false, hne, ne_eq, not_false_eq_true, and_self, if_true]
    exact hbody h hbs hne

theorem consumeLoop_spec {fuel : ℕ} (hfuel : input.length ≤ fuel) (h : c.Inv) (frames : List Bytes)
    (hok : (consumeLoop fuel c input frames).1.nextState ≠ .error) :
    (consumeLoop fuel c input frames).2.1 = [] ∧
    ∃ fs, (consumeLoop fuel c input frames).2.2 = frames ++ fs ∧
      Progress c input (consumeLoop fuel c input frames).1 [] fs := by
  induction fuel generalizing c input frames with
  | zero =>
    obtain rfl : input = [] := List.length_eq_zero_iff.mp (Nat.le_zero.mp hfuel)
    exact ⟨rfl, [], by simp [consumeLoop], h, by simp [consumeLoop], by simp⟩
  | succ fuel ih =>
    by_cases hstop : input = [] ∨ c.nextState = .error
    · simp only [consumeLoop, hstop, if_true] at hok ⊢
      obtain rfl : input = [] := hstop.resolve_right hok
      exact ⟨rfl, [], by simp, h, by simp, by simp⟩
    · simp only [consumeLoop, hstop, if_false] at hok ⊢
      rw [not_or] at hstop
      rcases consumeStep_spec h hstop.2 hstop.1 with herr | ⟨herr, hprog, hlt⟩
      · -- an error ends the loop, so the loop would have ended with it
        exfalso
        cases fuel with
        | zero => exact hok herr
        | succ fuel => simp [consumeLoop, herr] at hok
      · obtain ⟨hrest, fs, hfs, hprog'⟩ :=
          ih (Nat.le_of_lt_succ (hlt.trans_le hfuel)) hprog.inv _ hok
        exact ⟨hrest, (c.consumeStep input).2.2.toList ++ fs, by rw [hfs, List.append_assoc],
          hprog.trans hprog'⟩

/-- **The decoder loses no byte**: unless it stops at an invalid header, it uses the whole
chunk, and what it held followed by the chunk is what it returns followed by what it holds. -/
theorem consume_spec (h : c.Inv) (hok : (c.consume input).1.state ≠ .error) :
    (c.consume input).1.bytesConsumed = input.length ∧
    Progress c input (c.consume input).2 [] (c.consume input).1.frames := by
  have hs : c.nextState ≠ .error := by
    intro hs; simp [consume, hs] at hok
  have hloop : (consumeLoop input.length c input []).1.nextState ≠ .error := by
    intro herr; simp [consume, hs, herr] at hok
  obtain ⟨hrest, fs, hfs, hprog⟩ := consumeLoop_spec le_rfl h [] hloop
  simp only [consume, hs, if_false, hrest, hfs, List.nil_append, List.length_nil, Nat.sub_zero,
    true_and]
  exact hprog

theorem consume_nextState_ne_error (hok : (c.consume input).1.state ≠ .error) :
    (c.consume input).2.nextState ≠ .error := by
  intro herr
  apply hok
  by_cases hs : c.nextState = .error
  · simp [consume, hs]
  · simp only [consume, hs, if_false] at herr ⊢
    rw [if_pos herr]

/-! ### Chunks no longer than the rest of the current part -/

/-- Bytes missing from the current header or body. -/
def bytesNeeded (c : LengthPrefixedCodec) : ℕ :=
  match c.nextState with
  | .needHeader => kFrameHeaderSize - c.bufferedBytes
  | .needBody => c.expectedPayloadBytes - c.bufferedBytes
  | _ => 0

theorem bytesNeeded_pos (h : c.Inv) (hs : c.nextState ≠ .error) : 0 < c.bytesNeeded := by
  have hlt := h.header_lt
  have hstate := h.state
  cases hc : c.nextState with
  | needHeader =>
    obtain ⟨hpayload, -⟩ := h.head hc
    simp only [bytesNeeded, hc, bufferedBytes, hpayload, List.length_nil]
    omega
  | needBody =>
    obtain ⟨hheader, -, hlt⟩ := h.body hc
    simp only [bytesNeeded, hc, bufferedBytes, hheader, List.length_nil]
    omega
  | frameReady => exact absurd hc hstate
  | error => exact absurd hc hs

theorem length_encodeFrame (f : Bytes) :
    (encodeFrame f).length = kFrameHeaderSize + f.length := by
  rw [encodeFrame, List.length_append, length_encodePayloadLength]

/-- A chunk that does not go beyond the current header or body completes at most one frame, and
the decoder is then between two frames. -/
theorem consume_needed (h : c.Inv) (hle : input.length ≤ c.bytesNeeded)
    (hok : (c.consume input).1.state ≠ .error) :
    (c.consume input).1.frames = [] ∨
    ∃ f, (c.consume input).1.frames = [f] ∧ (c.consume input).2.partialBytes = [] := by
  obtain ⟨-, hprog⟩ := consume_spec h hok
  generalize (c.consume input).1.frames = frames at hprog ⊢
  generalize (c.consume input).2 = c' at hprog ⊢
  cases frames with
  | nil => exact .inl rfl
  | cons f frames =>
    right
    have hbytes := hprog.bytes
    have hf := validatePayloadLength_eq_none.mp (hprog.valid f List.mem_cons_self)
    simp only [List.map_cons, List.flatten_cons, List.append_nil, List.append_assoc] at hbytes
    have hlen := congrArg List.length hbytes
    rw [List.length_append, List.length_append, length_encodeFrame] at hlen
    cases hc : c.nextState with
    | needHeader =>
      -- a header alone is shorter than any frame
      obtain ⟨hpayload, -⟩ := h.head hc
      have hlt := h.header_lt
      simp only [bytesNeeded, partialBytes, hc, bufferedBytes, hpayload, List.length_nil]
        at hle hlen
      omega
    | needBody =>
      obtain ⟨hheader, hvalid, hlt⟩ := h.body hc
      have hbody : c.partialBytes = encodePayloadLength c.expectedPayloadBytes ++ c.payload := by
        simp only [partialBytes, hc]
      rw [hbody, List.length_append, length_encodePayloadLength] at hlen
      simp only [bytesNeeded, hc, bufferedBytes, hheader, List.length_nil] at hle
      have hmax := (validatePayloadLength_eq_none.mp hvalid).2
      -- the frame has the header that was decoded, so it ends where the body ends
      have hhead : encodePayloadLength c.expectedPayloadBytes = encodePayloadLength f.length := by
        have := congrArg (List.take kFrameHeaderSize) hbytes
        simpa only [hbody, encodeFrame, List.append_assoc,
          List.take_left' (length_encodePayloadLength _)] using this
      have heq : c.expectedPayloadBytes = f.length := by
        have := congrArg decodePayloadLength hhead
        simp only [kMaxPayloadSize] at hmax hf
        rwa [decode_encodePayloadLength (by omega), decode_encodePayloadLength (by omega)] at this
      have hrest : ((frames.map encodeFrame).flatten ++ c'.partialBytes).length = 0 := by omega
      obtain ⟨hframes, hpart⟩ := List.append_eq_nil_iff.mp (List.length_eq_zero_iff.mp hrest)
      refine ⟨f, ?_, hpart⟩
      cases frames with
      | nil => rfl
      | cons g frames => simp [encodeFrame, encodePayloadLength] at hframes
    | frameReady => exact absurd hc h.state
    | error =>
      exfalso
      simp [consume, hc] at hok

end LengthPrefixedCodec

end AegisFlow
