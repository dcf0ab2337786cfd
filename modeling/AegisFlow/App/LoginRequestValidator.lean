import AegisFlow.Feature.FeatureStore
import AegisFlow.Storage.BlacklistRedisStore
import AegisFlow.Storage.MysqlDao

/-!
# Login requests and the endpoints they name

`LoginRequestValidator.validate` turns a request as it came over the wire into a `LoginAttempt`:
every field has to be there and within its bounds, and the address is replaced by its canonical
text.  An address is normalised at three more places of the program: when a mutation of the
blacklist is made, when a hash of the database is scanned, and when a row of a table is loaded.

* `LoginRequestValidator.validate_eq_some` : what an accepted request gives.
* `BoundaryId` : all four places use one identifier for a spelling of an address.
* `one_endpoint_one_key` : **the spellings of one endpoint have one identifier**, and the
  spellings of different endpoints have different ones.
-/

namespace AegisFlow

/-- A login request; every field may be missing.  The result is an open enumeration: any integer
may arrive. -/
structure LoginRequest where
  /-- The number of the attempt, chosen by the client. -/
  attemptId : Option ℕ
  timestampMs : Option ℕ
  userId : Option Bytes
  /-- The address, in any spelling. -/
  ip : Option Bytes
  deviceId : Option Bytes
  result : Option ℤ
  deriving DecidableEq, Repr

namespace LoginRequestValidator

/-- Longest user. -/
def kMaxUserIdBytes : ℕ := 128

/-- Longest device. -/
def kMaxDeviceIdBytes : ℕ := 128

/-- Longest spelling of an address. -/
def kMaxIpBytes : ℕ := 45

/-- Attempts this old are refused. -/
def kMaxPastAgeMs : ℕ := 60 * 60 * 1000

/-- The field is there, not empty and within its bound. -/
def textWithin (bound : ℕ) (text : Bytes) : Bool := text != [] && decide (text.length ≤ bound)

/-- The values of the enumeration `LoginResult` that say how an attempt ended: `SUCCESS` is 1 and
`FAIL` is 2; `LOGIN_RESULT_UNKNOWN` and values outside the enumeration are refused. -/
def resultOf (value : ℤ) : Option LoginResult :=
  if value = 1 then some .success else if value = 2 then some .fail else none

variable [Inet]

/-- The attempt a request describes, if every field is there and within its bounds. -/
def validate (request : LoginRequest) (nowMs : ℕ) : Option LoginAttempt := do
  let _ ← request.attemptId
  let userId ← request.userId
  guard (textWithin kMaxUserIdBytes userId = true)
  let ip ← request.ip
  guard (textWithin kMaxIpBytes ip = true)
  let deviceId ← request.deviceId
  guard (textWithin kMaxDeviceIdBytes deviceId = true)
  let timestampMs ← request.timestampMs
  guard (timestampMs ≤ nowMs ∧ nowMs - timestampMs < kMaxPastAgeMs)
  let value ← request.result
  let canonicalIp ← IpAddress.parse ip
  let result ← resultOf value
  return ⟨timestampMs, userId, canonicalIp.canonicalText, deviceId, result⟩

/-- An accepted request has all fields within their bounds; the attempt repeats them, with the
canonical text of the address. -/
theorem validate_eq_some {request : LoginRequest} {nowMs : ℕ} {attempt : LoginAttempt}
    (h : validate request nowMs = some attempt) :
    ∃ ip a, request.ip = some ip ∧ textWithin kMaxIpBytes ip = true ∧
      IpAddress.parse ip = some a ∧ attempt.ip = a.canonicalText ∧
      request.attemptId.isSome = true ∧
      request.userId = some attempt.userId ∧
      textWithin kMaxUserIdBytes attempt.userId = true ∧
      request.deviceId = some attempt.deviceId ∧
      textWithin kMaxDeviceIdBytes attempt.deviceId = true ∧
      request.timestampMs = some attempt.timestampMs ∧
      attempt.timestampMs ≤ nowMs ∧ nowMs < attempt.timestampMs + kMaxPastAgeMs ∧
      request.result.bind resultOf = some attempt.result := by
  simp only [validate, bind, pure, Option.bind_eq_some_iff, guard, Option.some.injEq] at h
  obtain ⟨attemptId, hattempt, userId, huser, _, huserOk, ip, hip, _, hipOk, deviceId, hdevice,
    _, hdeviceOk, timestampMs, htime, _, htimeOk, value, hvalue, a, ha, result, hresult, rfl⟩ := h
  have hclock := (Option.ite_none_right_eq_some.mp htimeOk).1
  refine ⟨ip, a, hip, (Option.ite_none_right_eq_some.mp hipOk).1, ha, rfl, ?_, huser,
    (Option.ite_none_right_eq_some.mp huserOk).1, hdevice,
    (Option.ite_none_right_eq_some.mp hdeviceOk).1, htime, hclock.1, ?_, ?_⟩
  · rw [hattempt]; rfl
  · have := hclock.2
    dsimp only
    omega
  · rw [hvalue]; exact hresult

end LoginRequestValidator

section Endpoint

variable [Inet]

/-- The identifier every boundary of the program uses for a spelling of an address. -/
structure BoundaryId (spelling id : Bytes) : Prop where
  /-- A mutation that adds the spelling names the identifier. -/
  upsert : ∀ reason expireAtMs m,
    BlacklistMutation.upsert .ip spelling reason expireAtMs = some m → m.id = id
  /-- So does the mutation that removes it, and there is one. -/
  disable : ∃ m, BlacklistMutation.disable .ip spelling = some m ∧ m.id = id
  /-- A row whose key is the bytes of the spelling is loaded under the identifier. -/
  reload : ∀ bytes, IpAddress.textBytes spelling = some bytes →
    Mysql.entityId .ip bytes = some id
  /-- A scan accepts the spelling as a field only if it is the identifier. -/
  scan : ∀ value expireAtMs entries,
    parseUnsigned value BlacklistMutation.kMaxExpireAtMs = some expireAtMs →
      (Store.scanEntries .ip [.string spelling, .string value] = .ok entries ↔
        spelling = id ∧ entries = [⟨.ip, id, expireAtMs⟩])
  /-- An accepted login with the spelling is an attempt from the identifier. -/
  login : ∀ request nowMs attempt, request.ip = some spelling →
    LoginRequestValidator.validate request nowMs = some attempt → attempt.ip = id

theorem normalizeId_ip {spelling : Bytes} {a : IpAddress} (h : IpAddress.parse spelling = some a) :
    normalizeId .ip spelling = some a.canonicalText := by
  change (IpAddress.parse spelling).map IpAddress.canonicalText = _
  rw [h]
  rfl

/-- **Every boundary uses the canonical text of the address.** -/
theorem boundaryId_canonicalText {spelling : Bytes} {a : IpAddress}
    (h : IpAddress.parse spelling = some a) : BoundaryId spelling a.canonicalText where
  upsert := by
    intro reason expireAtMs m hm
    unfold BlacklistMutation.upsert at hm
    split at hm
    case h_1 => cases hm
    case h_2 id hid =>
      split_ifs at hm
      rw [normalizeId_ip h] at hid
      cases hm
      exact (Option.some.inj hid).symm
  disable := by
    unfold BlacklistMutation.disable
    split
    case h_1 hid =>
      rw [normalizeId_ip h] at hid
      cases hid
    case h_2 id hid =>
      rw [normalizeId_ip h] at hid
      exact ⟨_, rfl, (Option.some.inj hid).symm⟩
  reload := by
    intro bytes hbytes
    obtain ⟨bytes', hbytes', haddress⟩ := IpAddress.fromBytes_textBytes h
    rw [hbytes] at hbytes'
    cases hbytes'
    change (IpAddress.fromBytes bytes).map IpAddress.canonicalText = _
    rw [haddress]
    rfl
  scan := by
    intro value expireAtMs entries hvalue
    unfold Store.scanEntries
    rw [normalizeId_ip h, hvalue]
    by_cases hsame : spelling = a.canonicalText
    · subst hsame
      rw [if_neg (fun hne => hne rfl)]
      exact ⟨fun hok => ⟨rfl, (Except.ok.inj hok).symm⟩, fun hok => congrArg _ hok.2.symm⟩
    · rw [if_pos (fun heq => hsame (Option.some.inj heq).symm)]
      refine ⟨fun hok => ?_, fun hok => absurd hok.1 hsame⟩
      cases hok
  login := by
    intro request nowMs attempt hip hattempt
    obtain ⟨ip, b, hip', -, hb, htext, -⟩ := LoginRequestValidator.validate_eq_some hattempt
    rw [hip] at hip'
    cases hip'
    rw [h] at hb
    cases hb
    exact htext

/-- The spellings denote one endpoint. -/
def SpellOne (s t : Bytes) : Prop :=
  ∃ x y, IpAddress.textBytes s = some x ∧ IpAddress.textBytes t = some y ∧
    IpAddress.SameEndpoint x y

theorem bytes_eq_iff_spellOne {s t : Bytes} {a b : IpAddress} (ha : IpAddress.parse s = some a)
    (hb : IpAddress.parse t = some b) : a.bytes = b.bytes ↔ SpellOne s t := by
  obtain ⟨x, hx, hax⟩ := IpAddress.fromBytes_textBytes ha
  obtain ⟨y, hy, hby⟩ := IpAddress.fromBytes_textBytes hb
  rw [IpAddress.bytes_fromBytes hax, IpAddress.bytes_fromBytes hby, IpAddress.normalized_eq_iff]
  constructor
  · intro h
    exact ⟨x, y, hx, hy, h⟩
  · rintro ⟨x', y', hx', hy', h⟩
    rw [hx] at hx'
    rw [hy] at hy'
    cases hx'
    cases hy'
    exact h

/-- **One endpoint, one key.**  An accepted spelling is read back from its canonical text and from
its bytes, which are never those of an IPv4-mapped IPv6 address.  Two accepted spellings have the
same canonical text, and the same bytes, exactly when they denote one endpoint; all boundaries
then use one identifier for both. -/
theorem one_endpoint_one_key [Inet.Lawful] :
    (∀ s a, IpAddress.parse s = some a →
      IpAddress.parse a.canonicalText = some a ∧ IpAddress.fromBytes a.bytes = some a ∧
      ∀ four, four.length = 4 → a.bytes ≠ IpAddress.mapped four) ∧
    (∀ s t a b, IpAddress.parse s = some a → IpAddress.parse t = some b →
      (a.canonicalText = b.canonicalText ↔ a.bytes = b.bytes) ∧
      (a.bytes = b.bytes ↔ SpellOne s t)) ∧
    ∀ s t, (IpAddress.parse s).isSome = true → (IpAddress.parse t).isSome = true →
      SpellOne s t → ∃ id, BoundaryId s id ∧ BoundaryId t id ∧ BoundaryId id id := by
  refine ⟨?_, ?_, ?_⟩
  · intro s a ha
    have hnormal := IpAddress.normal_of_parse ha
    exact ⟨hnormal.parse, hnormal.fromBytes, fun four hfour => hnormal.ne_mapped hfour⟩
  · intro s t a b ha hb
    exact ⟨(IpAddress.normal_of_parse ha).canonicalText_eq_iff (IpAddress.normal_of_parse hb),
      bytes_eq_iff_spellOne ha hb⟩
  · intro s t hs ht hone
    obtain ⟨a, ha⟩ := Option.isSome_iff_exists.mp hs
    obtain ⟨b, hb⟩ := Option.isSome_iff_exists.mp ht
    have hnormal := IpAddress.normal_of_parse ha
    have htext : b.canonicalText = a.canonicalText :=
      ((IpAddress.normal_of_parse hb).canonicalText_eq_iff hnormal).mpr
        ((bytes_eq_iff_spellOne ha hb).mpr hone).symm
    exact ⟨a.canonicalText, boundaryId_canonicalText ha, htext ▸ boundaryId_canonicalText hb,
      boundaryId_canonicalText hnormal.parse⟩

end Endpoint

section Example

local instance endpointInet : Inet := Inet.sample

/-- The address 10.0.0.1. -/
def endpoint : IpAddress := ⟨[10, 0, 0, 1], ascii "10.0.0.1"⟩

/-- The theorem for 10.0.0.1 and its IPv6 form. -/
theorem one_endpoint_one_key_mapped :
    IpAddress.parse (ascii "::ffff:10.0.0.1") = some endpoint ∧
    IpAddress.parse endpoint.canonicalText = some endpoint ∧
    SpellOne (ascii "::ffff:10.0.0.1") (ascii "10.0.0.1") ∧
    ∃ id, BoundaryId (ascii "::ffff:10.0.0.1") id ∧ BoundaryId (ascii "10.0.0.1") id ∧
      BoundaryId id id := by
  obtain ⟨hread, hsame, hboundary⟩ := @one_endpoint_one_key endpointInet Inet.lawful_sample
  have hsix : IpAddress.parse (ascii "::ffff:10.0.0.1") = some endpoint := by decide
  have hfour : IpAddress.parse (ascii "10.0.0.1") = some endpoint := by decide
  have hspell := (hsame _ _ _ _ hsix hfour).2.mp rfl
  exact ⟨hsix, (hread _ _ hsix).1, hspell, hboundary _ _ (by decide) (by decide) hspell⟩

end Example

end AegisFlow
