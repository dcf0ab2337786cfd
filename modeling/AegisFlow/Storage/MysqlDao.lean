import AegisFlow.Risk.Mutation
import AegisFlow.Storage.MysqlTime
import Mathlib.Data.List.DropRight
import Mathlib.Logic.Function.Basic

/-!
# The tables of the blacklist

Users, addresses and devices have a table each, with a unique key.  A row is never deleted: an
entity that is taken off the blacklist is disabled.

* `varchar`, `datetime3`, `fitsKey` : which values a column takes.  A statement succeeds if its
  values fit;
* `collation` : when two keys are the same.  The texts of users and devices are compared by
  `utf8mb4_bin`, **which does not look at spaces at the end**;
* `Tables` : the three tables, by kind and key.  A row keeps the spelling of the key it was
  inserted with;
* `executeUpsert`, `executeDisable`, `executeClear`, `applyBlacklistMutations` : how mutations
  change the tables, all of them or none;
* `storable` : the mutations that the columns take (`applyBlacklistMutations_spec`).
-/

namespace AegisFlow

namespace Mysql

/-! ### Columns -/

/-- A byte that continues a character. -/
def isContinuation (b : UInt8) : Bool := decide (0x80 ≤ b) && decide (b ≤ 0xBF)

/-- A character of two bytes. -/
def isTwo (a b : UInt8) : Bool := decide (0xC2 ≤ a) && decide (a ≤ 0xDF) && isContinuation b

/-- A character of three bytes: not one that two bytes can write, and not a surrogate. -/
def isThree (a b c : UInt8) : Bool :=
  decide (0xE0 ≤ a) && decide (a ≤ 0xEF) && isContinuation b && isContinuation c &&
    (a != 0xE0 || decide (0xA0 ≤ b)) && (a != 0xED || decide (b ≤ 0x9F))

/-- A character of four bytes: not one that three bytes can write, and at most `U+10FFFF`. -/
def isFour (a b c d : UInt8) : Bool :=
  decide (0xF0 ≤ a) && decide (a ≤ 0xF4) && isContinuation b && isContinuation c &&
    isContinuation d && (a != 0xF0 || decide (0x90 ≤ b)) && (a != 0xF4 || decide (b ≤ 0x8F))

/-- The number of characters of a text, if it is UTF-8. -/
def utf8Length : Bytes → Option ℕ
  | [] => some 0
  | a :: rest =>
    if a < 0x80 then (utf8Length rest).map (· + 1)
    else match rest with
    | [] => none
    | b :: rest =>
      if isTwo a b then (utf8Length rest).map (· + 1)
      else match rest with
      | [] => none
      | c :: rest =>
        if isThree a b c then (utf8Length rest).map (· + 1)
        else match rest with
        | [] => none
        | d :: rest => if isFour a b c d then (utf8Length rest).map (· + 1) else none

/-- The text is UTF-8. -/
def isUtf8 (text : Bytes) : Bool := (utf8Length text).isSome

/-- What a column `VARCHAR(n)` of `utf8mb4` takes. -/
def varchar (n : ℕ) (text : Bytes) : Bool := (utf8Length text).any fun length => decide (length ≤ n)

/-- A character has at least one byte. -/
theorem utf8Length_le {text : Bytes} {n : ℕ} (h : utf8Length text = some n) : n ≤ text.length := by
  have hsucc {rest : Bytes} {n k : ℕ} (ih : ∀ {m : ℕ}, utf8Length rest = some m → m ≤ rest.length)
      (hk : rest.length < k) (h : (utf8Length rest).map (· + 1) = some n) : n ≤ k := by
    obtain ⟨m, hm, rfl⟩ := Option.map_eq_some_iff.mp h
    exact (Nat.succ_le_succ (ih hm)).trans hk
  fun_induction utf8Length text generalizing n with
  | case1 => exact (Option.some.inj h).symm.le
  | case2 a rest hone ih => exact hsucc ih (by simp) h
  | case3 a hone => cases h
  | case4 a hone b rest htwo ih => exact hsucc ih (by simp only [List.length_cons]; omega) h
  | case5 a hone b htwo => cases h
  | case6 a hone b htwo c rest hthree ih =>
    exact hsucc ih (by simp only [List.length_cons]; omega) h
  | case7 a hone b htwo c hthree => cases h
  | case8 a hone b htwo c hthree d rest hfour ih =>
    exact hsucc ih (by simp only [List.length_cons]; omega) h
  | case9 a hone b htwo c hthree d rest hfour => cases h

/-- A text of at most `n` bytes fits if it is UTF-8. -/
theorem varchar_of_length_le {n : ℕ} {text : Bytes} (h : text.length ≤ n) :
    varchar n text = isUtf8 text := by
  unfold varchar isUtf8
  cases hlength : utf8Length text with
  | none => rfl
  | some length => simpa using (utf8Length_le hlength).trans h

/-- The last millisecond of the year 9999. -/
def maxDatetime : ℕ := 253402300799999

/-- The date of a time. -/
def MysqlTime.date (time : MysqlTime) : Gregorian.Date := ⟨time.year, time.month, time.day⟩

/-- The milliseconds since the epoch, rounded. -/
def MysqlTime.milliseconds (time : MysqlTime) : ℕ :=
  1000 * (86400 * (time.date.dayNumber - epochDay) + 3600 * time.hour + 60 * time.minute +
    time.second) + (time.secondPart + 500) / 1000

/-- What a column `DATETIME(3)` makes of a time from the epoch on. -/
def datetime3 (time : MysqlTime) : Option ℕ :=
  if time.neg = false ∧ time.date.Valid ∧ time.hour ≤ 23 ∧ time.minute ≤ 59 ∧ time.second ≤ 59 ∧
    time.milliseconds ≤ maxDatetime then some time.milliseconds else none

theorem milliseconds_fieldsOf (epochMs : ℕ) : (fieldsOf epochMs).milliseconds = epochMs := by
  have hday : (fieldsOf epochMs).date.dayNumber = epochDay + epochMs / 1000 / 86400 := by
    change (gmtime (epochMs / 1000)).date.dayNumber = _
    rw [gmtime_date, Gregorian.dayNumber_dateOfDay]
  have hhour : (fieldsOf epochMs).hour = epochMs / 1000 % 86400 / 3600 := rfl
  have hminute : (fieldsOf epochMs).minute = epochMs / 1000 % 3600 / 60 := rfl
  have hsecond : (fieldsOf epochMs).second = epochMs / 1000 % 60 := rfl
  have hpart : (fieldsOf epochMs).secondPart = epochMs % 1000 * 1000 := rfl
  rw [MysqlTime.milliseconds, hday, hhour, hminute, hsecond, hpart]
  omega

/-- **A column keeps the milliseconds of an expiry.** -/
theorem datetime3_toMysqlTime {epochMs : ℕ} (hpos : epochMs ≠ 0)
    (hmax : epochMs ≤ BlacklistMutation.kMaxExpireAtMs) :
    (toMysqlTime epochMs).bind datetime3 = some epochMs := by
  have hvalid := valid_gmtime (epochMs / 1000)
  have hms : (fieldsOf epochMs).milliseconds ≤ maxDatetime := by
    rw [milliseconds_fieldsOf]
    exact hmax
  rw [toMysqlTime_eq (Nat.one_le_iff_ne_zero.mpr hpos) hmax, Option.bind_some, datetime3,
    if_pos ⟨rfl, hvalid.date, hvalid.hour, hvalid.min, hvalid.sec, hms⟩, milliseconds_fieldsOf]

/-- The expiry of an upsert in its column; an expiry of zero is `NULL`. -/
def expiryColumn (expireAtMs : ℕ) : Option (Option ℕ) :=
  if expireAtMs = 0 then some none
  else ((toMysqlTime expireAtMs).bind datetime3).map some

theorem expiryColumn_of_le {expireAtMs : ℕ} (h : expireAtMs ≤ BlacklistMutation.kMaxExpireAtMs) :
    ∃ expireAt, expiryColumn expireAtMs = some expireAt ∧ expireAt.getD 0 = expireAtMs := by
  unfold expiryColumn
  split_ifs with hzero
  · exact ⟨none, rfl, hzero.symm⟩
  · rw [datetime3_toMysqlTime hzero h]
    exact ⟨some expireAtMs, rfl, rfl⟩

/-! ### Tables -/

/-- What is compared of a key: addresses byte by byte, texts without the spaces at the end. -/
def collation : EntityType → Bytes → Bytes
  | .ip, key => key
  | .user, key | .device, key => key.rdropWhile (· == 32)

/-- The key fits into its column: `VARCHAR(128)` or `VARBINARY(16)`. -/
def fitsKey : EntityType → Bytes → Bool
  | .ip, key => decide (key.length ≤ 16)
  | .user, key | .device, key => varchar 128 key

/-- A row. -/
structure Row where
  /-- `user_id`, `ip` or `device_id`, as it was inserted. -/
  key : Bytes
  reason : Bytes
  enabled : Bool
  /-- Milliseconds since the epoch, or `NULL`. -/
  expireAt : Option ℕ
  deriving DecidableEq, Repr

/-- The tables: the row of each kind for what is compared of its key. -/
structure Tables where
  row : EntityType → Bytes → Option Row
  indexed : ∀ t k r, row t k = some r → collation t r.key = k

namespace Tables

/-- No rows. -/
def empty : Tables := ⟨fun _ _ => none, fun _ _ _ h => by cases h⟩

/-- Replace the row that has the key of `r`. -/
def set (tables : Tables) (t : EntityType) (r : Row) : Tables where
  row t' k := if t' = t ∧ k = collation t r.key then some r else tables.row t' k
  indexed t' k r' h := by
    split_ifs at h with hkey
    · obtain ⟨rfl, rfl⟩ := hkey
      rw [Option.some.inj h]
    · exact tables.indexed t' k r' h

/-- Change the rows of the tables, but not their keys. -/
def update (tables : Tables) (f : EntityType → Bytes → Row → Row)
    (hf : ∀ t k r, (f t k r).key = r.key) : Tables where
  row t k := (tables.row t k).map (f t k)
  indexed t k r h := by
    obtain ⟨r', hr', rfl⟩ := Option.map_eq_some_iff.mp h
    rw [hf]
    exact tables.indexed t k r' hr'

end Tables

/-! ### Statements -/

/-- `INSERT … ON DUPLICATE KEY UPDATE`: the key keeps its spelling. -/
def insertOrUpdate (tables : Tables) (t : EntityType) (key reason : Bytes) (expireAt : Option ℕ) :
    Option Tables :=
  if fitsKey t key && varchar 256 reason then
    match tables.row t (collation t key) with
    | none => some (tables.set t ⟨key, reason, true, expireAt⟩)
    | some r => some (tables.set t { r with reason, enabled := true, expireAt })
  else none

/-- `UPDATE … SET enabled = FALSE WHERE key = ?`. -/
def disableWhere (tables : Tables) (t : EntityType) (key : Bytes) : Option Tables :=
  if fitsKey t key then
    some (tables.update (fun t' k r =>
      if t' = t ∧ k = collation t key then { r with enabled := false } else r)
      fun _ _ _ => by split_ifs <;> rfl)
  else none

variable [Inet]

/-- The key of an entity: the bytes of an address, any other identifier as it is. -/
def keyOf (t : EntityType) (id : Bytes) : Option Bytes :=
  if t = .ip then (IpAddress.parse id).map IpAddress.bytes else some id

/-- Add an entity, or change it. -/
def executeUpsert (tables : Tables) (t : EntityType) (id reason : Bytes) (expireAtMs : ℕ) :
    Option Tables := do
  let key ← keyOf t id
  let expireAt ← expiryColumn expireAtMs
  insertOrUpdate tables t key reason expireAt

/-- Disable an entity. -/
def executeDisable (tables : Tables) (t : EntityType) (id : Bytes) : Option Tables := do
  let key ← keyOf t id
  disableWhere tables t key

/-- Disable all entities. -/
def executeClear (tables : Tables) : Tables :=
  tables.update (fun _ _ r => { r with enabled := false }) fun _ _ _ => rfl

/-- The statements of a mutation. -/
def execute (tables : Tables) : BlacklistMutation → Option Tables
  | .mkUpsert t id reason expireAtMs .. => executeUpsert tables t id reason expireAtMs
  | .mkDisable t id _ => executeDisable tables t id
  | .mkClearAll => some (executeClear tables)

/-- Apply mutations in one transaction: if a statement fails, nothing is changed. -/
def applyBlacklistMutations (tables : Tables) (mutations : List BlacklistMutation) :
    Option Tables := mutations.foldlM execute tables

theorem applyBlacklistMutations_append (tables : Tables) (ms ms' : List BlacklistMutation) :
    applyBlacklistMutations tables (ms ++ ms') =
      (applyBlacklistMutations tables ms).bind (applyBlacklistMutations · ms') :=
  List.foldlM_append

theorem applyBlacklistMutations_cons (tables : Tables) (m : BlacklistMutation)
    (ms : List BlacklistMutation) : applyBlacklistMutations tables (m :: ms) =
      (execute tables m).bind (applyBlacklistMutations · ms) := List.foldlM_cons

/-! ### Keys -/

/-- The entity of a row, as it is loaded. -/
def entityId (t : EntityType) (key : Bytes) : Option Bytes :=
  if t = .ip then (IpAddress.fromBytes key).map IpAddress.canonicalText else some key

/-- An identifier has a key that fits, and is loaded from the row with that key. -/
theorem keyOf_normal [Inet.Lawful] {t : EntityType} {id : Bytes} (h : NormalId t id) :
    ∃ key, keyOf t id = some key ∧ entityId t key = some id ∧
      fitsKey t key = (t == .ip || isUtf8 id) := by
  by_cases ht : t = .ip
  · subst ht
    obtain ⟨a, ha, rfl⟩ := h.address
    refine ⟨a.bytes, ?_, ?_, ?_⟩
    · unfold keyOf
      rw [if_pos rfl, ha.parse]
      rfl
    · unfold entityId
      rw [if_pos rfl, ha.fromBytes]
      rfl
    · have hlength := ha.length
      exact decide_eq_true (by omega)
  · have hvalid := h.validText ht
    have hlength : id.length ≤ 128 := by
      simp only [validText, Bool.and_eq_true, decide_eq_true_eq] at hvalid
      exact hvalid.1.2
    refine ⟨id, if_neg ht, if_neg ht, ?_⟩
    cases t with
    | ip => exact absurd rfl ht
    | user => exact varchar_of_length_le hlength
    | device => exact varchar_of_length_le hlength

/-- The place of an entity in the tables. -/
def slot (t : EntityType) (id : Bytes) : Option Bytes := (keyOf t id).map (collation t)

/-! ### Mutations the tables take -/

/-- The texts of a mutation are UTF-8; the text of an address does not go into a column. -/
def storable : BlacklistMutation → Bool
  | .mkUpsert t id reason .. => (t == .ip || isUtf8 id) && isUtf8 reason
  | .mkDisable t id _ => t == .ip || isUtf8 id
  | .mkClearAll => true

namespace Tables

variable {tables tables' : Tables}

/-- Every row is one of a normalised identifier. -/
def Normal (tables : Tables) : Prop :=
  ∀ t k r, tables.row t k = some r → ∃ id, NormalId t id ∧ keyOf t id = some r.key

/-- The entity in a place. -/
def idAt (tables : Tables) (t : EntityType) (k : Bytes) : Option Bytes :=
  (tables.row t k).bind fun r => entityId t r.key

/-- The expiry of the entity in a place, if it is enabled. -/
def expiryAt (tables : Tables) (t : EntityType) (k : Bytes) : Option ℕ :=
  (tables.row t k).bind fun r => if r.enabled then some (r.expireAt.getD 0) else none

end Tables

/-- The mutation is about the entities in a place. -/
def names (t : EntityType) (k : Bytes) (m : BlacklistMutation) : Bool :=
  m.entityType == some t && slot t m.id == some k

/-- The entity in a place after a mutation: the first one stays. -/
def editId (t : EntityType) (k : Bytes) (id : Option Bytes) (m : BlacklistMutation) :
    Option Bytes :=
  if m.operation = .upsert ∧ names t k m = true then id.or (some m.id) else id

/-- The expiry in a place after a mutation. -/
def editExpiry (t : EntityType) (k : Bytes) (expiry : Option ℕ) (m : BlacklistMutation) :
    Option ℕ :=
  match m.operation with
  | .upsert => if names t k m then some m.expireAtMs else expiry
  | .disable => if names t k m then none else expiry
  | .clearAll => none

/-- What a mutation makes of the tables. -/
structure Executed (m : BlacklistMutation) (tables tables' : Tables) : Prop where
  normal : tables'.Normal
  idAt : ∀ t k, tables'.idAt t k = editId t k (tables.idAt t k) m
  expiryAt : ∀ t k, tables'.expiryAt t k = editExpiry t k (tables.expiryAt t k) m

/-- Where a mutation of an entity with a key takes effect. -/
theorem names_iff {m : BlacklistMutation} {t t' : EntityType} {key k : Bytes}
    (htype : m.entityType = some t) (hkey : keyOf t m.id = some key) :
    names t' k m = true ↔ t' = t ∧ k = collation t key := by
  unfold names slot
  rw [htype, Bool.and_eq_true, beq_iff_eq, beq_iff_eq, Option.some.injEq]
  constructor
  · rintro ⟨rfl, hslot⟩
    rw [hkey] at hslot
    exact ⟨rfl, (Option.some.inj hslot).symm⟩
  · rintro ⟨rfl, rfl⟩
    exact ⟨rfl, by rw [hkey]; rfl⟩

section

variable {tables : Tables} {m : BlacklistMutation}

section

variable (hnormal : tables.Normal)
include hnormal

/-- A mutation of an entity that only disables rows. -/
theorem executed_update {p : EntityType → Bytes → Prop} [∀ t k, Decidable (p t k)]
    (hop : m.operation ≠ .upsert)
    (hp : ∀ t k expiry, editExpiry t k expiry m = if p t k then none else expiry)
    {hkey : ∀ t k r, (if p t k then { r with enabled := false } else r : Row).key = r.key} :
    Executed m tables (tables.update
      (fun t k r => if p t k then { r with enabled := false } else r) hkey) := by
  refine ⟨fun t k r h => ?_, fun t k => ?_, fun t k => ?_⟩
  · obtain ⟨r', hr', rfl⟩ := Option.map_eq_some_iff.mp h
    rw [hkey]
    exact hnormal t k r' hr'
  · rw [editId, if_neg fun h => hop h.1]
    simp only [Tables.idAt, Tables.update, Option.bind_map, Function.comp_def, hkey]
  · rw [hp]
    simp only [Tables.expiryAt, Tables.update]
    cases tables.row t k with
    | none => simp
    | some r => split_ifs <;> simp_all

variable [Inet.Lawful]

/-- The entity in a place is a normalised one that belongs there. -/
theorem Tables.Normal.idAt {t : EntityType} {k : Bytes} {r : Row} (hr : tables.row t k = some r) :
    ∃ id, tables.idAt t k = some id ∧ NormalId t id ∧ slot t id = some k := by
  obtain ⟨id, hid, hkey⟩ := hnormal t k r hr
  obtain ⟨key, hkey', hentity, -⟩ := keyOf_normal hid
  obtain rfl : r.key = key := Option.some.inj (hkey.symm.trans hkey')
  refine ⟨id, ?_, hid, ?_⟩
  · rw [Tables.idAt, hr]
    exact hentity
  · rw [slot, hkey, Option.map_some, tables.indexed t k r hr]

/-- The row of an upserted entity: the one that is there, or a new one. -/
theorem executed_set {t : EntityType} {key : Bytes} (htype : m.entityType = some t)
    (hop : m.operation = .upsert) (hid : NormalId t m.id) (hkey : keyOf t m.id = some key) {r : Row}
    (hrow : r.key = ((tables.row t (collation t key)).map Row.key).getD key)
    (henabled : r.enabled = true) (hexpire : r.expireAt.getD 0 = m.expireAtMs) :
    Executed m tables (tables.set t r) := by
  obtain ⟨key', hkey', hentity, -⟩ := keyOf_normal hid
  obtain rfl : key = key' := Option.some.inj (hkey.symm.trans hkey')
  have hplace : collation t r.key = collation t key := by
    rw [hrow]
    cases hr : tables.row t (collation t key) with
    | none => rfl
    | some r' => exact tables.indexed t _ r' hr
  have hnames (t' : EntityType) (k : Bytes) := @names_iff _ m t t' key k htype hkey
  refine ⟨fun t' k r' h => ?_, fun t' k => ?_, fun t' k => ?_⟩
  · simp only [Tables.set, hplace] at h
    split_ifs at h with hhere
    · obtain ⟨rfl, rfl⟩ := hhere
      cases h
      rw [hrow]
      cases hr : tables.row t' (collation t' key) with
      | none => exact ⟨m.id, hid, hkey⟩
      | some r' => exact hnormal t' _ r' hr
    · exact hnormal t' k r' h
  · unfold editId Tables.idAt
    simp only [Tables.set, hplace, hop, hnames, true_and]
    split_ifs with hhere
    · obtain ⟨rfl, rfl⟩ := hhere
      rw [Option.bind_some, hrow]
      cases hr : tables.row t' (collation t' key) with
      | none => exact hentity
      | some r' =>
        obtain ⟨id, hid', -, -⟩ := hnormal.idAt hr
        rw [Tables.idAt, hr] at hid'
        change entityId t' r'.key = (entityId t' r'.key).or _
        rw [show entityId t' r'.key = some id from hid']
        rfl
    · rfl
  · unfold editExpiry Tables.expiryAt
    simp only [Tables.set, hplace, hop, hnames]
    split_ifs with hhere
    · simp [henabled, hexpire]
    · rfl

/-- **A mutation is executed if its texts are UTF-8, and fails otherwise.** -/
theorem execute_spec (m : BlacklistMutation) :
    if storable m = true then ∃ tables', execute tables m = some tables' ∧ Executed m tables tables'
    else execute tables m = none := by
  cases m with
  | mkUpsert t id reason expireAtMs hid hreason hexpire =>
    obtain ⟨key, hkey, -, hfits⟩ := keyOf_normal hid
    obtain ⟨expireAt, hcolumn, hexpiry⟩ := expiryColumn_of_le hexpire
    have hlength : reason.length ≤ 256 := by
      simp only [validText, Bool.and_eq_true, decide_eq_true_eq] at hreason
      exact hreason.1.2
    have hexecute : execute tables (.mkUpsert t id reason expireAtMs hid hreason hexpire) =
        insertOrUpdate tables t key reason expireAt := by
      simp only [execute, executeUpsert, hkey, hcolumn]
      rfl
    have hstorable : storable (.mkUpsert t id reason expireAtMs hid hreason hexpire) =
        (fitsKey t key && varchar 256 reason) := by
      rw [hfits, varchar_of_length_le hlength]
      rfl
    rw [hexecute, hstorable, insertOrUpdate]
    split_ifs with hfit
    · cases hr : tables.row t (collation t key) with
      | none => exact ⟨_, rfl, executed_set hnormal rfl rfl hid hkey (by rw [hr]; rfl) rfl hexpiry⟩
      | some r => exact ⟨_, rfl, executed_set hnormal rfl rfl hid hkey
          (by rw [hr]; rfl) rfl hexpiry⟩
    · rfl
  | mkDisable t id hid =>
    obtain ⟨key, hkey, -, hfits⟩ := keyOf_normal hid
    have hexecute : execute tables (.mkDisable t id hid) = disableWhere tables t key := by
      simp only [execute, executeDisable, hkey]
      rfl
    have hstorable : storable (.mkDisable t id hid) = fitsKey t key := hfits.symm
    rw [hexecute, hstorable, disableWhere]
    split_ifs with hfit
    · refine ⟨_, rfl, executed_update hnormal (by simp [BlacklistMutation.operation])
        fun t' k expiry => ?_⟩
      have hnames := @names_iff _ (.mkDisable t id hid) t t' key k rfl hkey
      simp only [editExpiry, BlacklistMutation.operation, hnames]
    · rfl
  | mkClearAll =>
    refine ⟨_, rfl, ?_⟩
    have hexpiry (t : EntityType) (k : Bytes) (expiry : Option ℕ) :
        editExpiry t k expiry .mkClearAll = if True then none else expiry := by
      simp [editExpiry, BlacklistMutation.operation]
    have := @executed_update _ tables .mkClearAll hnormal (fun _ _ => True) _
      (by simp [BlacklistMutation.operation]) hexpiry fun _ _ _ => rfl
    simpa [executeClear] using this

/-- What mutations make of the tables. -/
structure AllExecuted (ms : List BlacklistMutation) (tables tables' : Tables) : Prop where
  normal : tables'.Normal
  idAt : ∀ t k, tables'.idAt t k = ms.foldl (editId t k) (tables.idAt t k)
  expiryAt : ∀ t k, tables'.expiryAt t k = ms.foldl (editExpiry t k) (tables.expiryAt t k)

/-- **A batch is applied if all its texts are UTF-8; otherwise nothing is changed.** -/
theorem applyBlacklistMutations_spec (ms : List BlacklistMutation) :
    if ms.all storable = true then ∃ tables', applyBlacklistMutations tables ms = some tables' ∧
      AllExecuted ms tables tables'
    else applyBlacklistMutations tables ms = none := by
  induction ms generalizing tables with
  | nil => exact ⟨tables, rfl, hnormal, fun _ _ => rfl, fun _ _ => rfl⟩
  | cons m ms ih =>
    have hm := execute_spec hnormal m
    rw [applyBlacklistMutations_cons, List.all_cons]
    by_cases hstorable : storable m = true
    · rw [if_pos hstorable] at hm
      obtain ⟨tables₁, hexecute, hexecuted⟩ := hm
      have hrest := ih hexecuted.normal
      rw [hexecute, Option.bind_some, hstorable, Bool.true_and]
      split_ifs at hrest ⊢
      · obtain ⟨tables₂, happly, hall⟩ := hrest
        refine ⟨tables₂, happly, hall.normal, fun t k => ?_, fun t k => ?_⟩
        · rw [hall.idAt, hexecuted.idAt, List.foldl_cons]
        · rw [hall.expiryAt, hexecuted.expiryAt, List.foldl_cons]
      · exact hrest
    · rw [if_neg hstorable] at hm
      rw [hm, Bool.eq_false_iff.mpr hstorable, Bool.false_and, if_neg Bool.false_ne_true]
      rfl

end

end

end Mysql

end AegisFlow
