import AegisFlow.Base.Text

/-!
# IP addresses

`IpAddress` keeps the network-order bytes of an address (4 or 16 of them) together with its
canonical text.  The conversions between text and bytes are those of the C library
(`inet_pton`, `inet_ntop`); they are the parameters `Inet` of the development.  Where it matters
that each of them undoes the other, this is the assumption `Inet.Lawful`.
-/

namespace AegisFlow

/-- The address conversions of the C library: `inet_pton` and `inet_ntop` for `AF_INET` (4
bytes) and `AF_INET6` (16 bytes). -/
class Inet where
  /-- `inet_pton(AF_INET, text)`. -/
  pton4 : Bytes → Option Bytes
  /-- `inet_pton(AF_INET6, text)`. -/
  pton6 : Bytes → Option Bytes
  /-- `inet_ntop(AF_INET, bytes)`. -/
  ntop4 : Bytes → Option Bytes
  /-- `inet_ntop(AF_INET6, bytes)`. -/
  ntop6 : Bytes → Option Bytes

/-- An address: its bytes in network order and its canonical text. -/
structure IpAddress where
  /-- 4 or 16 bytes. -/
  bytes : Bytes
  /-- The text `inet_ntop` gives for the bytes. -/
  canonicalText : Bytes
  deriving DecidableEq, Repr

namespace IpAddress

/-- Sixteen bytes of the form `::ffff:a.b.c.d`. -/
def isIpv4MappedIpv6 (bytes : Bytes) : Bool :=
  (bytes.take 10).all (· == 0) && bytes.getD 10 0 == 0xff && bytes.getD 11 0 == 0xff

variable [Inet]

/-- An address from its bytes; an IPv4-mapped IPv6 address becomes the IPv4 address. -/
def fromBytes (bytes : Bytes) : Option IpAddress :=
  if bytes.length ≠ 4 ∧ bytes.length ≠ 16 then none
  else
    let normalized :=
      if bytes.length = 16 ∧ isIpv4MappedIpv6 bytes = true then bytes.drop 12 else bytes
    let text := if normalized.length = 4 then Inet.ntop4 normalized else Inet.ntop6 normalized
    text.map fun t => ⟨normalized, t⟩

/-- An address from text: IPv4 is tried first. -/
def parse (text : Bytes) : Option IpAddress :=
  if text = [] ∨ (0 : UInt8) ∈ text then none
  else
    match Inet.pton4 text with
    | some bytes => fromBytes bytes
    | none =>
      match Inet.pton6 text with
      | some bytes => fromBytes bytes
      | none => none

end IpAddress

/-- The conversions of the C library undo each other. -/
class Inet.Lawful [Inet] : Prop where
  pton4_ntop4 : ∀ {text bytes : Bytes}, bytes.length = 4 → Inet.ntop4 bytes = some text →
    Inet.pton4 text = some bytes
  /-- No text is an address of both kinds. -/
  pton4_ntop6 : ∀ {text bytes : Bytes}, bytes.length = 16 → Inet.ntop6 bytes = some text →
    Inet.pton4 text = none
  pton6_ntop6 : ∀ {text bytes : Bytes}, bytes.length = 16 → Inet.ntop6 bytes = some text →
    Inet.pton6 text = some bytes
  /-- The text of an address is a C string. -/
  text_ntop : ∀ {text bytes : Bytes}, Inet.ntop4 bytes = some text ∨ Inet.ntop6 bytes = some text →
    text ≠ [] ∧ (0 : UInt8) ∉ text

namespace IpAddress

variable [Inet]

/-- An address as `fromBytes` makes it: normalised bytes, and their text. -/
structure Normal (a : IpAddress) : Prop where
  length : a.bytes.length = 4 ∨ a.bytes.length = 16
  unmapped : a.bytes.length = 16 → isIpv4MappedIpv6 a.bytes = false
  text : (if a.bytes.length = 4 then Inet.ntop4 a.bytes else Inet.ntop6 a.bytes) =
    some a.canonicalText

variable {a : IpAddress} {bytes four : Bytes}

theorem normal_of_fromBytes (h : fromBytes bytes = some a) : a.Normal := by
  unfold fromBytes at h
  split_ifs at h with hlength hmapped
  · obtain ⟨text, htext, rfl⟩ := Option.map_eq_some_iff.mp h
    have hfour : (bytes.drop 12).length = 4 := by rw [List.length_drop, hmapped.1]
    exact ⟨.inl hfour, fun hsixteen => absurd (hfour.symm.trans hsixteen) (by decide), htext⟩
  · obtain ⟨text, htext, rfl⟩ := Option.map_eq_some_iff.mp h
    refine ⟨by dsimp only; omega, fun hsixteen => ?_, htext⟩
    exact Bool.eq_false_iff.mpr fun hm => hmapped ⟨hsixteen, hm⟩

theorem normal_of_parse {text : Bytes} (h : parse text = some a) : a.Normal := by
  unfold parse at h
  split_ifs at h
  split at h
  · exact normal_of_fromBytes h
  · split at h
    · exact normal_of_fromBytes h
    · cases h

/-- Normalised bytes are kept. -/
theorem Normal.fromBytes (h : a.Normal) : fromBytes a.bytes = some a := by
  unfold IpAddress.fromBytes
  rw [if_neg (by have := h.length; omega)]
  have hkeep : ¬ (a.bytes.length = 16 ∧ isIpv4MappedIpv6 a.bytes = true) := by
    rintro ⟨hlength, hmapped⟩
    rw [h.unmapped hlength] at hmapped
    cases hmapped
  simp only [if_neg hkeep, h.text]
  rfl

/-- **The canonical text of an address is the text of that address.** -/
theorem Normal.parse [Inet.Lawful] (h : a.Normal) : parse a.canonicalText = some a := by
  have htext := h.text
  unfold IpAddress.parse
  rcases h.length with hfour | hsixteen
  · rw [if_pos hfour] at htext
    have hvalid := Inet.Lawful.text_ntop (.inl htext)
    rw [if_neg (not_or.mpr hvalid), Inet.Lawful.pton4_ntop4 hfour htext]
    exact h.fromBytes
  · rw [if_neg (by omega)] at htext
    have hvalid := Inet.Lawful.text_ntop (.inr htext)
    rw [if_neg (not_or.mpr hvalid), Inet.Lawful.pton4_ntop6 hsixteen htext,
      Inet.Lawful.pton6_ntop6 hsixteen htext]
    exact h.fromBytes

/-- Addresses with the same bytes have the same text, and the other way round. -/
theorem Normal.canonicalText_eq_iff [Inet.Lawful] {b : IpAddress} (ha : a.Normal) (hb : b.Normal) :
    a.canonicalText = b.canonicalText ↔ a.bytes = b.bytes := by
  constructor
  · intro htext
    have hparse : IpAddress.parse a.canonicalText = some b := htext ▸ hb.parse
    rw [ha.parse] at hparse
    exact congrArg bytes (Option.some.inj hparse)
  · intro hbytes
    have htext := ha.text
    rw [hbytes, hb.text] at htext
    exact (Option.some.inj htext).symm

/-! ### Endpoints -/

/-- The IPv6 form `::ffff:a.b.c.d` of an IPv4 address. -/
def mapped (four : Bytes) : Bytes := List.replicate 10 0 ++ [0xff, 0xff] ++ four

/-- The address bytes denote the same endpoint: they are equal, or one is the IPv6 form of the
other. -/
inductive SameEndpoint : Bytes → Bytes → Prop
  | refl (bytes : Bytes) : SameEndpoint bytes bytes
  | mapped {four : Bytes} (h : four.length = 4) : SameEndpoint (mapped four) four
  | unmapped {four : Bytes} (h : four.length = 4) : SameEndpoint four (mapped four)

/-- The bytes `inet_pton` reads from a text; IPv4 is tried first. -/
def textBytes (text : Bytes) : Option Bytes := (Inet.pton4 text).or (Inet.pton6 text)

/-- The bytes an address is kept with. -/
def normalized (bytes : Bytes) : Bytes :=
  if bytes.length = 16 ∧ isIpv4MappedIpv6 bytes = true then bytes.drop 12 else bytes

omit [Inet] in
theorem isIpv4MappedIpv6_mapped (four : Bytes) : isIpv4MappedIpv6 (mapped four) = true := rfl

omit [Inet] in
/-- Sixteen bytes that pass the test are the IPv6 form of their last four. -/
theorem eq_mapped (hlength : bytes.length = 16) (hmapped : isIpv4MappedIpv6 bytes = true) :
    bytes = mapped (bytes.drop 12) := by
  simp only [isIpv4MappedIpv6, Bool.and_eq_true, List.all_eq_true, beq_iff_eq] at hmapped
  obtain ⟨⟨hzero, hten⟩, heleven⟩ := hmapped
  have hhead : bytes.take 10 = List.replicate 10 0 :=
    List.eq_replicate_iff.mpr ⟨by rw [List.length_take]; omega, hzero⟩
  have hmiddle : (bytes.drop 10).take 2 = [0xff, 0xff] := by
    apply List.ext_getElem
    · simp only [List.length_take, List.length_drop, List.length_cons, List.length_nil]
      omega
    intro i hi _
    have hi2 : i < 2 := by simp only [List.length_take] at hi; omega
    have hget : ((bytes.drop 10).take 2)[i] = bytes.getD (10 + i) 0 := by
      rw [List.getElem_take, List.getElem_drop, List.getD_eq_getElem?_getD,
        List.getElem?_eq_getElem (by omega)]
      rfl
    rw [hget]
    interval_cases i
    · exact hten
    · exact heleven
  calc bytes = bytes.take 10 ++ bytes.drop 10 := (List.take_append_drop 10 bytes).symm
    _ = bytes.take 10 ++ ((bytes.drop 10).take 2 ++ (bytes.drop 10).drop 2) := by
        rw [List.take_append_drop 2]
    _ = mapped (bytes.drop 12) := by
        rw [hhead, hmiddle, List.drop_drop, mapped, List.append_assoc]

omit [Inet] in
theorem normalized_mapped (h : four.length = 4) : normalized (mapped four) = four := by
  have hlength : (mapped four).length = 16 := by
    simp only [mapped, List.length_append, List.length_replicate, h]
    rfl
  unfold normalized
  rw [if_pos ⟨hlength, isIpv4MappedIpv6_mapped four⟩]
  rfl

omit [Inet] in
theorem normalized_four (h : four.length = 4) : normalized four = four :=
  if_neg fun hlong => absurd (h.symm.trans hlong.1) (by decide)

omit [Inet] in
/-- The bytes are kept, or they are the IPv6 form of the bytes that are kept. -/
theorem normalized_cases (bytes : Bytes) : normalized bytes = bytes ∨
    (normalized bytes).length = 4 ∧ bytes = mapped (normalized bytes) := by
  by_cases hlong : bytes.length = 16 ∧ isIpv4MappedIpv6 bytes = true
  · have hdrop : normalized bytes = bytes.drop 12 := if_pos hlong
    rw [hdrop]
    exact .inr ⟨by rw [List.length_drop, hlong.1], eq_mapped hlong.1 hlong.2⟩
  · exact .inl (if_neg hlong)

omit [Inet] in
/-- **Normalising identifies the bytes of one endpoint, and no others.** -/
theorem normalized_eq_iff {bytes' : Bytes} :
    normalized bytes = normalized bytes' ↔ SameEndpoint bytes bytes' := by
  constructor
  · intro h
    rcases normalized_cases bytes with hkeep | ⟨hfour, hmap⟩ <;>
      rcases normalized_cases bytes' with hkeep' | ⟨hfour', hmap'⟩
    · rw [hkeep, hkeep'] at h
      exact h ▸ .refl bytes
    · rw [hkeep] at h
      rw [hmap', ← h]
      exact .unmapped (h ▸ hfour')
    · rw [hkeep'] at h
      rw [hmap, h]
      exact .mapped (h ▸ hfour)
    · rw [hmap, hmap', h]
      exact .refl _
  · intro h
    cases h with
    | refl => rfl
    | mapped hfour => rw [normalized_mapped hfour, normalized_four hfour]
    | unmapped hfour => rw [normalized_mapped hfour, normalized_four hfour]

theorem bytes_fromBytes (h : fromBytes bytes = some a) : a.bytes = normalized bytes := by
  unfold fromBytes at h
  split_ifs at h with hlength hmapped
  · obtain ⟨text, -, rfl⟩ := Option.map_eq_some_iff.mp h
    exact (if_pos hmapped).symm
  · obtain ⟨text, -, rfl⟩ := Option.map_eq_some_iff.mp h
    exact (if_neg hmapped).symm

/-- The address of a text is the address of the bytes of the text. -/
theorem fromBytes_textBytes {text : Bytes} (h : parse text = some a) :
    ∃ bytes, textBytes text = some bytes ∧ fromBytes bytes = some a := by
  unfold parse at h
  split_ifs at h
  split at h
  case h_1 bytes hfour => exact ⟨bytes, by rw [textBytes, hfour]; rfl, h⟩
  case h_2 hfour =>
    split at h
    case h_1 bytes hsix => exact ⟨bytes, by rw [textBytes, hfour]; exact hsix, h⟩
    case h_2 => cases h

/-- An address is never kept in the IPv6 form of an IPv4 address. -/
theorem Normal.ne_mapped (h : a.Normal) (hfour : four.length = 4) : a.bytes ≠ mapped four := by
  intro hmapped
  have hlength : a.bytes.length = 16 := by
    rw [hmapped]
    simp only [mapped, List.length_append, List.length_replicate, hfour]
    rfl
  have htest := h.unmapped hlength
  rw [hmapped, isIpv4MappedIpv6_mapped] at htest
  cases htest

end IpAddress

/-- The conversions for one address in its two forms, 10.0.0.1 and ::ffff:10.0.0.1: a table that
examples can be run with. -/
@[reducible] def Inet.sample : Inet where
  pton4 text := if text = ascii "10.0.0.1" then some [10, 0, 0, 1] else none
  pton6 text :=
    if text = ascii "::ffff:10.0.0.1" then some (IpAddress.mapped [10, 0, 0, 1]) else none
  ntop4 bytes := if bytes = [10, 0, 0, 1] then some (ascii "10.0.0.1") else none
  ntop6 bytes :=
    if bytes = IpAddress.mapped [10, 0, 0, 1] then some (ascii "::ffff:10.0.0.1") else none

theorem Inet.lawful_sample : @Inet.Lawful Inet.sample := by
  refine @Inet.Lawful.mk Inet.sample (fun _ h => ?_) (fun _ h => ?_) (fun _ h => ?_) fun h => ?_
  · obtain ⟨rfl, ⟨⟩⟩ := Option.ite_none_right_eq_some.mp h
    decide
  · obtain ⟨rfl, ⟨⟩⟩ := Option.ite_none_right_eq_some.mp h
    decide
  · obtain ⟨rfl, ⟨⟩⟩ := Option.ite_none_right_eq_some.mp h
    decide
  · rcases h with h | h
    · obtain ⟨rfl, ⟨⟩⟩ := Option.ite_none_right_eq_some.mp h
      decide
    · obtain ⟨rfl, ⟨⟩⟩ := Option.ite_none_right_eq_some.mp h
      decide

end AegisFlow
