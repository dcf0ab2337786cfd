import AegisFlow.Risk.Mutation
import Mathlib.Data.Finmap

/-!
# The in-memory blacklist

Login requests are checked against an immutable snapshot: one map from identifiers to expiries
for each kind of entity.  `prepareCandidate` builds a snapshot from a list of entries, and
`BlacklistSnapshot.loginMatches` looks a request up in it.
-/

namespace AegisFlow

/-- Expiries by identifier. -/
abbrev EntryMap := Finmap fun _ : Bytes => ℕ

/-- An immutable blacklist. -/
structure BlacklistSnapshot where
  users : EntryMap
  ips : EntryMap
  devices : EntryMap
  deriving DecidableEq

/-- Which parts of a login request are blacklisted. -/
structure LoginBlacklistMatches where
  userHit : Bool
  ipHit : Bool
  deviceHit : Bool
  deriving DecidableEq, Repr

namespace BlacklistSnapshot

/-- The empty blacklist. -/
def empty : BlacklistSnapshot := ⟨∅, ∅, ∅⟩

/-- The map for a kind of entity. -/
def get (s : BlacklistSnapshot) : EntityType → EntryMap
  | .user => s.users
  | .ip => s.ips
  | .device => s.devices

/-- The snapshot with one map replaced. -/
def set (s : BlacklistSnapshot) (m : EntryMap) : EntityType → BlacklistSnapshot
  | .user => { s with users := m }
  | .ip => { s with ips := m }
  | .device => { s with devices := m }

theorem get_set (s : BlacklistSnapshot) (m : EntryMap) (t t' : EntityType) :
    (s.set m t).get t' = if t = t' then m else s.get t' := by
  cases t <;> cases t' <;> rfl

@[simp] theorem get_empty (t : EntityType) : empty.get t = ∅ := by cases t <;> rfl

/-- Whether an identifier is listed and has not expired. -/
def contains (entries : EntryMap) (id : Bytes) (nowMs : ℕ) : Bool :=
  if id.isEmpty then false
  else match entries.lookup id with
    | none => false
    -- the expiry is checked on reading as well: the snapshot may be older than the request
    | some expiry => expiry == 0 || decide (nowMs < expiry)

/-- Look a login request up. -/
def loginMatches (s : BlacklistSnapshot) (userId ip deviceId : Bytes) (nowMs : ℕ) :
    LoginBlacklistMatches :=
  ⟨contains s.users userId nowMs, contains s.ips ip nowMs, contains s.devices deviceId nowMs⟩

end BlacklistSnapshot

/-- Add an expiry for an identifier; of two, the later one stays. -/
def mergeExpiry (entries : EntryMap) (id : Bytes) (expireAtMs : ℕ) : EntryMap :=
  match entries.lookup id with
  | none => entries.insert id expireAtMs
  | some current =>
    if current = 0 ∨ expireAtMs = 0 then entries.insert id 0
    else entries.insert id (max current expireAtMs)

/-- Add an entry, unless it has expired; an empty identifier is refused. -/
def addEntry (s : BlacklistSnapshot) (entry : BlacklistEntry) (nowMs : ℕ) :
    Option BlacklistSnapshot :=
  if entry.id.isEmpty then none
  else if isExpiredAt entry.expireAtMs nowMs then some s
  else some (s.set (mergeExpiry (s.get entry.type) entry.id entry.expireAtMs) entry.type)

/-- A snapshot of the entries that have not expired. -/
def prepareCandidate (entries : List BlacklistEntry) (nowMs : ℕ) : Option BlacklistSnapshot :=
  if entries.any fun entry => entry.id.isEmpty then none
  else entries.foldlM (fun s entry => addEntry s entry nowMs) .empty

end AegisFlow
