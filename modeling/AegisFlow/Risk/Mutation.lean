import AegisFlow.Domain.IpAddress

/-!
# Blacklist mutations

A blacklist entity is a user, an IP address or a device.  `BlacklistMutation` is a change to
the blacklist as it travels through the candidate queue, the pending stream and the tables:
it is built by the three factories `upsert`, `disable` and `clearAll` only, so every value
carries the proof that its identifier is normalised and its reason and expiry are in range.
An expiry of `0` means that the entry never expires.
-/

namespace AegisFlow

/-- The kinds of blacklisted entities. -/
inductive EntityType
  | user
  | ip
  | device
  deriving DecidableEq, Repr

/-- A blacklist entry as the stores report it. -/
structure BlacklistEntry where
  type : EntityType
  id : Bytes
  /-- Milliseconds since the epoch, `0` for never. -/
  expireAtMs : ℕ
  deriving DecidableEq, Repr

/-- An expiry lies in the past at `nowMs`. -/
def isExpiredAt (expireAtMs nowMs : ℕ) : Bool := expireAtMs != 0 && decide (expireAtMs ≤ nowMs)

/-- What a mutation does. -/
inductive BlacklistMutationOperation
  | upsert
  | disable
  | clearAll
  deriving DecidableEq, Repr

namespace BlacklistMutation

/-- Longest identifier. -/
def kMaxEntityIdBytes : ℕ := 128

/-- Longest reason. -/
def kMaxReasonBytes : ℕ := 256

/-- Latest expiry: the last millisecond of the year 9999. -/
def kMaxExpireAtMs : ℕ := 253402300799999

end BlacklistMutation

/-- Non-empty, at most `maxBytes` long, and without a zero byte. -/
def validText (value : Bytes) (maxBytes : ℕ) : Bool :=
  !value.isEmpty && decide (value.length ≤ maxBytes) && !value.contains 0

variable [Inet]

/-- The stored form of an identifier, if it is acceptable. -/
def normalizeId (type : EntityType) (id : Bytes) : Option Bytes :=
  if type ≠ .ip then
    if validText id BlacklistMutation.kMaxEntityIdBytes then some id else none
  else (IpAddress.parse id).map IpAddress.canonicalText

/-- An identifier as `normalizeId` stores it. -/
def NormalId (type : EntityType) (id : Bytes) : Prop := ∃ raw, normalizeId type raw = some id

theorem NormalId.validText {type : EntityType} {id : Bytes} (h : NormalId type id)
    (htype : type ≠ .ip) : validText id BlacklistMutation.kMaxEntityIdBytes = true := by
  obtain ⟨raw, hraw⟩ := h
  unfold normalizeId at hraw
  rw [if_pos htype] at hraw
  split_ifs at hraw with hvalid
  exact Option.some.inj hraw ▸ hvalid

theorem NormalId.address {id : Bytes} (h : NormalId .ip id) :
    ∃ a : IpAddress, a.Normal ∧ a.canonicalText = id := by
  obtain ⟨raw, hraw⟩ := h
  obtain ⟨a, ha, rfl⟩ := Option.map_eq_some_iff.mp hraw
  exact ⟨a, IpAddress.normal_of_parse ha, rfl⟩

/-- A normalised identifier is its own normal form. -/
theorem NormalId.normalizeId [Inet.Lawful] {type : EntityType} {id : Bytes}
    (h : NormalId type id) : normalizeId type id = some id := by
  by_cases htype : type = .ip
  · subst htype
    obtain ⟨a, ha, rfl⟩ := h.address
    change (IpAddress.parse a.canonicalText).map IpAddress.canonicalText = _
    rw [ha.parse]
    rfl
  · unfold AegisFlow.normalizeId
    rw [if_pos htype, if_pos (h.validText htype)]

/-- A change to the blacklist.  The constructors are private to the factories below. -/
inductive BlacklistMutation
  | mkUpsert (type : EntityType) (id reason : Bytes) (expireAtMs : ℕ) (hid : NormalId type id)
      (hreason : validText reason BlacklistMutation.kMaxReasonBytes = true)
      (hexpire : expireAtMs ≤ BlacklistMutation.kMaxExpireAtMs)
  | mkDisable (type : EntityType) (id : Bytes) (hid : NormalId type id)
  | mkClearAll
  deriving DecidableEq

namespace BlacklistMutation

/-- Add an entity, or replace its reason and expiry. -/
def upsert (type : EntityType) (id reason : Bytes) (expireAtMs : ℕ) :
    Option BlacklistMutation :=
  match h : normalizeId type id with
  | none => none
  | some normalized =>
    if hr : validText reason kMaxReasonBytes = true ∧ expireAtMs ≤ kMaxExpireAtMs then
      some (.mkUpsert type normalized reason expireAtMs ⟨id, h⟩ hr.1 hr.2)
    else none

/-- Remove an entity. -/
def disable (type : EntityType) (id : Bytes) : Option BlacklistMutation :=
  match h : normalizeId type id with
  | none => none
  | some normalized => some (.mkDisable type normalized ⟨id, h⟩)

/-- Remove everything. -/
def clearAll : BlacklistMutation := .mkClearAll

/-- What the mutation does. -/
def operation : BlacklistMutation → BlacklistMutationOperation
  | mkUpsert .. => .upsert
  | mkDisable .. => .disable
  | mkClearAll => .clearAll

/-- The kind of entity it is about; none for `clearAll`. -/
def entityType : BlacklistMutation → Option EntityType
  | mkUpsert t .. => some t
  | mkDisable t .. => some t
  | mkClearAll => none

/-- The identifier it is about. -/
def id : BlacklistMutation → Bytes
  | mkUpsert _ i .. => i
  | mkDisable _ i .. => i
  | mkClearAll => []

/-- The recorded expiry. -/
def expireAtMs : BlacklistMutation → ℕ
  | mkUpsert _ _ _ e .. => e
  | mkDisable .. => 0
  | mkClearAll => 0

/-- Two mutations name the same entity. -/
def sameEntity (a b : BlacklistMutation) : Bool := a.entityType == b.entityType && a.id == b.id

omit [Inet] in
theorem validText_r : validText (ascii "r") kMaxReasonBytes = true := by decide

/-- Ban the user for ever. -/
def banUser (id : Bytes) (h : NormalId .user id) : BlacklistMutation :=
  .mkUpsert .user id (ascii "r") 0 h validText_r (Nat.zero_le _)

end BlacklistMutation

end AegisFlow
