import AegisFlow.Storage.BlacklistState
import AegisFlow.Storage.MysqlDao

/-!
# Hashes and tables under the same mutations

The same mutations are applied to the hashes of the cache and, later, to the tables.  The hashes
know an entity by its identifier, byte by byte.  The tables have one place for all identifiers
that differ in spaces at the end only, and the row there keeps the identifier it was inserted
with.

* `InSync` : the hashes and the enabled rows are the same entities with the same expiries;
* `ownerAt` : the identifier that a place was last changed for.  The row in a place is enabled,
  and with which expiry, as the hash says for its owner (`Tracked`);
* `inSync_iff` : after any mutations **hashes and tables agree iff every entity of the hashes is
  both the owner of its place and the one whose identifier the row has**.
-/

namespace AegisFlow

open Redis Mysql

variable [Inet]

/-- The identifier that a place was last changed for, after a mutation. -/
def ownerAt (t : EntityType) (k : Bytes) (owner : Option Bytes) (m : BlacklistMutation) :
    Option Bytes := if names t k m then some m.id else owner

/-- The hashes hold the enabled entities of the tables. -/
def InSync (hashes : EntityType → Hash) (tables : Tables) : Prop :=
  ∀ t id value, (hashes t).lookup id = some value ↔
    ∃ expiry, value = toText expiry ∧
      ∃ k, tables.idAt t k = some id ∧ tables.expiryAt t k = some expiry

/-- Every entity of the hashes after the mutations is the one its place was last changed for, and
the one whose identifier the row there has. -/
def Unambiguous (tables : Tables) (hashes : EntityType → Hash) (ms : List BlacklistMutation) :
    Prop :=
  ∀ t id k, id ∈ ms.foldl (editHash t) (hashes t) → slot t id = some k →
    ms.foldl (ownerAt t k) (tables.idAt t k) = some id ∧
      ms.foldl (editId t k) (tables.idAt t k) = some id

/-- The row in a place follows the hash at the owner of the place. -/
structure Tracked (owner : EntityType → Bytes → Option Bytes)
    (expiry : EntityType → Bytes → Option ℕ) (hashes : EntityType → Hash) : Prop where
  place : ∀ t k id, owner t k = some id → slot t id = some k
  known : ∀ t id, id ∈ hashes t → ∃ k, slot t id = some k
  follows : ∀ t k, (expiry t k).map toText = (owner t k).bind (hashes t).lookup

namespace Tracked

variable {owner : EntityType → Bytes → Option Bytes} {expiry : EntityType → Bytes → Option ℕ}
  {hashes : EntityType → Hash}

/-- A change of the entity `id`, of kind `t`, to an expiry or to none. -/
theorem edit (h : Tracked owner expiry hashes) {t : EntityType} {id place : Bytes}
    (hplace : slot t id = some place) {fields : Hash} {value : Option ℕ}
    (hself : fields.lookup id = value.map toText)
    (hother : ∀ id', id' ≠ id → fields.lookup id' = (hashes t).lookup id') :
    Tracked (fun t' k => if t' = t ∧ k = place then some id else owner t' k)
      (fun t' k => if t' = t ∧ k = place then value else expiry t' k)
      (Function.update hashes t fields) where
  place t' k id' h' := by
    split_ifs at h' with hhere
    · obtain ⟨rfl, rfl⟩ := hhere
      cases h'
      exact hplace
    · exact h.place t' k id' h'
  known t' id' h' := by
    rcases eq_or_ne t' t with rfl | ht
    · rw [Function.update_self, ← Finmap.lookup_isSome] at h'
      rcases eq_or_ne id' id with rfl | hid
      · exact ⟨place, hplace⟩
      · rw [hother id' hid, Finmap.lookup_isSome] at h'
        exact h.known t' id' h'
    · rw [Function.update_of_ne ht] at h'
      exact h.known t' id' h'
  follows t' k := by
    have hold := h.follows t' k
    rcases eq_or_ne t' t with rfl | ht
    · rw [Function.update_self]
      by_cases hk : k = place
      · rw [if_pos ⟨rfl, hk⟩, if_pos ⟨rfl, hk⟩]
        exact hself.symm
      · rw [if_neg fun hhere => hk hhere.2, if_neg fun hhere => hk hhere.2, hold]
        cases howner : owner t' k with
        | none => rfl
        | some id' =>
          -- the owner of another place is another identifier
          refine (hother id' fun hid => hk ?_).symm
          have := h.place t' k id' howner
          rw [hid, hplace] at this
          exact (Option.some.inj this).symm
    · rw [Function.update_of_ne ht, if_neg fun hhere => ht hhere.1, if_neg fun hhere => ht hhere.1]
      exact hold

variable [Inet.Lawful]

/-- A mutation keeps rows and hashes together. -/
theorem step (h : Tracked owner expiry hashes) (m : BlacklistMutation) :
    Tracked (fun t k => ownerAt t k (owner t k) m) (fun t k => editExpiry t k (expiry t k) m)
      (fun t => editHash t (hashes t) m) := by
  cases m with
  | mkUpsert t id reason expireAtMs hid hreason hexpire =>
    obtain ⟨key, hkey, -, -⟩ := keyOf_normal hid
    have hplace : slot t id = some (collation t key) := by rw [slot, hkey]; rfl
    have hnames (t' : EntityType) (k : Bytes) :=
      @names_iff _ (.mkUpsert t id reason expireAtMs hid hreason hexpire) t t' key k rfl hkey
    have hedit := @edit _ _ _ _ h _ _ _ hplace ((hashes t).insert id (toText expireAtMs))
      (some expireAtMs) (Finmap.lookup_insert _) fun id' hid' => Finmap.lookup_insert_of_ne _ hid'
    convert hedit using 1
    · funext t' k
      simp only [ownerAt, hnames]
      rfl
    · funext t' k
      simp only [editExpiry, BlacklistMutation.operation, hnames]
      rfl
    · funext t'
      simp only [editHash, Function.update_apply, eq_comm]
      split_ifs with ht
      · rw [ht]
      · rfl
  | mkDisable t id hid =>
    obtain ⟨key, hkey, -, -⟩ := keyOf_normal hid
    have hplace : slot t id = some (collation t key) := by rw [slot, hkey]; rfl
    have hnames (t' : EntityType) (k : Bytes) :=
      @names_iff _ (.mkDisable t id hid) t t' key k rfl hkey
    have hedit := @edit _ _ _ _ h _ _ _ hplace ((hashes t).erase id) none
      (Finmap.lookup_erase _ _) fun id' hid' => Finmap.lookup_erase_ne hid'
    convert hedit using 1
    · funext t' k
      simp only [ownerAt, hnames]
      rfl
    · funext t' k
      simp only [editExpiry, BlacklistMutation.operation, hnames]
    · funext t'
      simp only [editHash, Function.update_apply, eq_comm]
      split_ifs with ht
      · rw [ht]
      · rfl
  | mkClearAll =>
    refine ⟨fun t k id hid => h.place t k id hid, fun t id hid => ?_, fun t k => ?_⟩
    · exact absurd hid (Finmap.notMem_empty)
    · change none = (owner t k).bind fun id => (∅ : Hash).lookup id
      cases owner t k with
      | none => rfl
      | some id =>
        rw [Option.bind_some]
        exact (@Finmap.lookup_empty Bytes (fun _ => Bytes) _ id).symm

theorem run (h : Tracked owner expiry hashes) (ms : List BlacklistMutation) :
    Tracked (fun t k => ms.foldl (ownerAt t k) (owner t k))
      (fun t k => ms.foldl (editExpiry t k) (expiry t k))
      (fun t => ms.foldl (editHash t) (hashes t)) := by
  induction ms generalizing owner expiry hashes with
  | nil => exact h
  | cons m ms ih => exact ih (h.step m)

end Tracked

section

variable [Inet.Lawful] {tables tables' : Tables} {hashes : EntityType → Hash}
  {ms : List BlacklistMutation}

theorem slot_of_idAt (hnormal : tables.Normal) {t : EntityType} {k id : Bytes}
    (h : tables.idAt t k = some id) : slot t id = some k := by
  obtain ⟨r, hr, -⟩ := Option.bind_eq_some_iff.mp h
  obtain ⟨id', hid', -, hslot⟩ := hnormal.idAt hr
  obtain rfl := Option.some.inj (h.symm.trans hid')
  exact hslot

/-- When hashes and tables agree, the rows follow the hashes. -/
theorem tracked_of_inSync (hnormal : tables.Normal) (hsync : InSync hashes tables) :
    Tracked tables.idAt tables.expiryAt hashes where
  place t k id h := slot_of_idAt hnormal h
  known t id h := by
    obtain ⟨value, hvalue⟩ := Option.isSome_iff_exists.mp (Finmap.lookup_isSome.mpr h)
    obtain ⟨-, -, k, hid, -⟩ := (hsync t id value).mp hvalue
    exact ⟨k, slot_of_idAt hnormal hid⟩
  follows t k := by
    cases hid : tables.idAt t k with
    | none =>
      have hrow : tables.row t k = none := by
        by_contra hrow
        obtain ⟨r, hr⟩ := Option.ne_none_iff_exists'.mp hrow
        obtain ⟨id, hid', -⟩ := hnormal.idAt hr
        exact absurd (hid.symm.trans hid') (by simp)
      rw [Tables.expiryAt, hrow]
      rfl
    | some id =>
      rw [Option.bind_some]
      cases hexpiry : tables.expiryAt t k with
      | some expiry => exact ((hsync t id _).mpr ⟨expiry, rfl, k, hid, hexpiry⟩).symm
      | none =>
        by_contra hne
        obtain ⟨value, hvalue⟩ := Option.ne_none_iff_exists'.mp (Ne.symm hne)
        obtain ⟨expiry, -, k', hid', hexpiry'⟩ := (hsync t id value).mp hvalue
        have hk : k = k' := Option.some.inj
          ((slot_of_idAt hnormal hid).symm.trans (slot_of_idAt hnormal hid'))
        rw [← hk, hexpiry] at hexpiry'
        cases hexpiry'

/-- **After the same mutations hashes and tables agree iff no entity of the hashes shares its
place in the tables with one that was there before or was changed later.** -/
theorem inSync_iff (hnormal : tables.Normal) (hsync : InSync hashes tables)
    (hall : AllExecuted ms tables tables') :
    InSync (fun t => ms.foldl (editHash t) (hashes t)) tables' ↔ Unambiguous tables hashes ms := by
  have htracked := (tracked_of_inSync hnormal hsync).run ms
  have hfollows (t : EntityType) (k : Bytes) : (tables'.expiryAt t k).map toText =
      (ms.foldl (ownerAt t k) (tables.idAt t k)).bind
      (ms.foldl (editHash t) (hashes t)).lookup := by
    rw [hall.expiryAt]
    exact htracked.follows t k
  constructor
  · intro hagree t id k hid hk
    obtain ⟨value, hvalue⟩ := Option.isSome_iff_exists.mp (Finmap.lookup_isSome.mpr hid)
    obtain ⟨expiry, -, k', hid', hexpiry⟩ := (hagree t id value).mp hvalue
    obtain rfl : k = k' := Option.some.inj (hk.symm.trans (slot_of_idAt hall.normal hid'))
    refine ⟨?_, (hall.idAt t k).symm.trans hid'⟩
    have howner := hfollows t k
    rw [hexpiry, Option.map_some] at howner
    obtain ⟨id', hid'', hlookup⟩ := Option.bind_eq_some_iff.mp howner.symm
    obtain ⟨-, -, k', hk', -⟩ := (hagree t id' _).mp hlookup
    have hplace : k = k' := Option.some.inj
      ((htracked.place t k id' hid'').symm.trans (slot_of_idAt hall.normal hk'))
    rw [← hplace, hid'] at hk'
    rw [hid'', Option.some.inj hk']
  · intro hunambiguous t id value
    constructor
    · intro hvalue
      have hid : id ∈ ms.foldl (editHash t) (hashes t) :=
        Finmap.lookup_isSome.mp (Option.isSome_iff_exists.mpr ⟨value, hvalue⟩)
      obtain ⟨k, hk⟩ := htracked.known t id hid
      obtain ⟨howner, hspelled⟩ := hunambiguous t id k hid hk
      have hexpiry := hfollows t k
      rw [howner, Option.bind_some, hvalue] at hexpiry
      obtain ⟨expiry, hexpiry', rfl⟩ := Option.map_eq_some_iff.mp hexpiry
      exact ⟨expiry, rfl, k, (hall.idAt t k).trans hspelled, hexpiry'⟩
    · rintro ⟨expiry, rfl, k, hid, hexpiry⟩
      have howner := hfollows t k
      rw [hexpiry, Option.map_some] at howner
      obtain ⟨id', hid', hlookup⟩ := Option.bind_eq_some_iff.mp howner.symm
      have hmem : id' ∈ ms.foldl (editHash t) (hashes t) :=
        Finmap.lookup_isSome.mp (Option.isSome_iff_exists.mpr ⟨_, hlookup⟩)
      obtain ⟨-, hspelled⟩ := hunambiguous t id' k hmem (htracked.place t k id' hid')
      obtain rfl : id = id' := Option.some.inj (hid.symm.trans ((hall.idAt t k).trans hspelled))
      exact hlookup

end

end AegisFlow
