import AegisFlow.Risk.Snapshot

/-!
# Publishing a blacklist

The manager holds the snapshot that requests are checked against.  A new one is built aside, and
takes the place of the old one in one step.

* `BlacklistManager.publish`, `BlacklistManager.loginMatches` : replace the snapshot, and look a
  request up;
* `listed` : what a list of entries says about an identifier at a time;
* `contains_addEntry` : one entry adds exactly what it says, **whatever was added before it**;
* `BlacklistManager.publish_exact` : after a publication a request hits exactly what the list says.
-/

namespace AegisFlow

/-- The owner of the published snapshot. -/
structure BlacklistManager where
  /-- The published snapshot; there is none at first. -/
  snapshot : Option BlacklistSnapshot
  deriving DecidableEq

namespace BlacklistManager

/-- Replace the snapshot, if there is a new one and memory for it. -/
def publishCandidate (manager : BlacklistManager) (candidate : Option BlacklistSnapshot)
    (allocated : Bool) : Bool × BlacklistManager :=
  match candidate with
  | none => (false, manager)
  | some snapshot => if allocated then (true, ⟨some snapshot⟩) else (false, manager)

/-- Build a snapshot of the entries and publish it; `prepared` and `allocated` say whether there
was memory for the two steps. -/
def publish (manager : BlacklistManager) (entries : List BlacklistEntry) (nowMs : ℕ)
    (prepared allocated : Bool) : Bool × BlacklistManager :=
  manager.publishCandidate (if prepared then prepareCandidate entries nowMs else none) allocated

/-- Look a login request up; without a snapshot nothing is blacklisted. -/
def loginMatches (manager : BlacklistManager) (userId ip deviceId : Bytes) (nowMs : ℕ) :
    LoginBlacklistMatches :=
  match manager.snapshot with
  | none => ⟨false, false, false⟩
  | some snapshot => snapshot.loginMatches userId ip deviceId nowMs

end BlacklistManager

/-! ### What a list says -/

/-- The entry is one of the given identifier that has not expired at `t`. -/
def BlacklistEntry.lists (type : EntityType) (id : Bytes) (t : ℕ) (entry : BlacklistEntry) : Bool :=
  entry.type == type && entry.id == id && (entry.expireAtMs == 0 || decide (t < entry.expireAtMs))

/-- The list has an entry of the given identifier that has not expired at `t`. -/
def listed (entries : List BlacklistEntry) (type : EntityType) (id : Bytes) (t : ℕ) : Bool :=
  !id.isEmpty && entries.any (BlacklistEntry.lists type id t)

/-- What a list says about a login request. -/
def listedMatches (entries : List BlacklistEntry) (userId ip deviceId : Bytes) (t : ℕ) :
    LoginBlacklistMatches :=
  ⟨listed entries .user userId t, listed entries .ip ip t, listed entries .device deviceId t⟩

variable {entries : List BlacklistEntry} {nowMs : ℕ}

theorem listedMatches_perm {entries' : List BlacklistEntry} (h : entries'.Perm entries)
    (userId ip deviceId : Bytes) (t : ℕ) :
    listedMatches entries' userId ip deviceId t = listedMatches entries userId ip deviceId t := by
  simp only [listedMatches, listed, h.any_eq]

/-! ### Building a snapshot -/

namespace BlacklistSnapshot

theorem loginMatches_eq (s : BlacklistSnapshot) (userId ip deviceId : Bytes) (t : ℕ) :
    s.loginMatches userId ip deviceId t = ⟨contains (s.get .user) userId t,
      contains (s.get .ip) ip t, contains (s.get .device) deviceId t⟩ := rfl

/-- Of two expiries, the merged one is the later: it is in the future iff one of them is. -/
theorem contains_mergeExpiry (entries : EntryMap) (id id' : Bytes) (expireAtMs t : ℕ)
    (hid : id'.isEmpty = false) :
    contains (mergeExpiry entries id expireAtMs) id' t =
      (contains entries id' t ||
        (id == id' && (expireAtMs == 0 || decide (t < expireAtMs)))) := by
  unfold contains mergeExpiry
  rw [hid, if_neg Bool.false_ne_true, if_neg Bool.false_ne_true]
  by_cases heq : id' = id
  · subst heq
    cases hlookup : entries.lookup id' with
    | none => simp
    | some current =>
      simp only [beq_self_eq_true, Bool.true_and]
      split_ifs with hzero
      · obtain rfl | rfl := hzero <;> simp
      · rw [not_or] at hzero
        have hmax : max current expireAtMs ≠ 0 := by omega
        simp [beq_false_of_ne hzero.1, beq_false_of_ne hzero.2, beq_false_of_ne hmax]
  · have hne : (id == id') = false := beq_false_of_ne (Ne.symm heq)
    rw [hne, Bool.false_and, Bool.or_false]
    cases entries.lookup id with
    | none => simp only [Finmap.lookup_insert_of_ne _ heq]
    | some current =>
      simp only
      split_ifs <;> rw [Finmap.lookup_insert_of_ne _ heq]

/-- **One entry adds what it says**, at every time from the publication on. -/
theorem contains_addEntry {s s' : BlacklistSnapshot} {entry : BlacklistEntry} {t : ℕ}
    (h : addEntry s entry nowMs = some s') (hle : nowMs ≤ t) (type : EntityType) {id : Bytes}
    (hid : id.isEmpty = false) :
    contains (s'.get type) id t = (contains (s.get type) id t || entry.lists type id t) := by
  unfold addEntry at h
  split_ifs at h with hempty hexpired
  · -- what has expired at the publication has expired at the request
    cases h
    have hgone : (entry.expireAtMs == 0 || decide (t < entry.expireAtMs)) = false := by
      simp only [isExpiredAt, Bool.and_eq_true, bne_iff_ne, decide_eq_true_eq] at hexpired
      simp only [Bool.or_eq_false_iff, beq_eq_false_iff_ne, decide_eq_false_iff_not]
      exact ⟨hexpired.1, by omega⟩
    rw [BlacklistEntry.lists, hgone, Bool.and_false, Bool.or_false]
  · cases h
    rw [get_set, BlacklistEntry.lists]
    split_ifs with htype
    · subst htype
      rw [contains_mergeExpiry _ _ _ _ _ hid, beq_self_eq_true, Bool.true_and]
    · rw [beq_false_of_ne htype, Bool.false_and, Bool.false_and, Bool.or_false]

/-- Entries with identifiers are all added. -/
theorem foldlM_addEntry (h : ∀ e ∈ entries, e.id.isEmpty = false) (s : BlacklistSnapshot) :
    ∃ s', entries.foldlM (fun s entry => addEntry s entry nowMs) s = some s' ∧
      ∀ t, nowMs ≤ t → ∀ type id, id.isEmpty = false → contains (s'.get type) id t =
        (contains (s.get type) id t || entries.any (BlacklistEntry.lists type id t)) := by
  induction entries generalizing s with
  | nil => exact ⟨s, rfl, fun t _ type id _ => (Bool.or_false _).symm⟩
  | cons e entries ih =>
    obtain ⟨s₁, hadd⟩ : ∃ s₁, addEntry s e nowMs = some s₁ := by
      unfold addEntry
      rw [h e List.mem_cons_self, if_neg Bool.false_ne_true]
      split_ifs
      · exact ⟨_, rfl⟩
      · exact ⟨_, rfl⟩
    obtain ⟨s₂, hfold, hcontains⟩ := ih (fun e' he' => h e' (List.mem_cons_of_mem e he')) s₁
    refine ⟨s₂, ?_, fun t hle type id hid => ?_⟩
    · rw [List.foldlM_cons, hadd]
      exact hfold
    · rw [hcontains t hle type id hid, contains_addEntry hadd hle type hid, List.any_cons,
        Bool.or_assoc]

theorem contains_empty (id : Bytes) (t : ℕ) : contains ∅ id t = false := by
  unfold contains
  split_ifs
  · rfl
  · rw [Finmap.lookup_empty]

/-- **A snapshot says what its list says.** -/
theorem prepareCandidate_spec (h : ∀ e ∈ entries, e.id.isEmpty = false) :
    ∃ s, prepareCandidate entries nowMs = some s ∧ ∀ userId ip deviceId t, nowMs ≤ t →
      s.loginMatches userId ip deviceId t = listedMatches entries userId ip deviceId t := by
  obtain ⟨s, hfold, hcontains⟩ := @foldlM_addEntry entries nowMs h .empty
  have hsome : entries.any (fun entry => entry.id.isEmpty) = false := by
    rw [List.any_eq_false]
    intro e he
    rw [h e he]
    exact Bool.false_ne_true
  have hlisted (type : EntityType) (id : Bytes) (t : ℕ) (hle : nowMs ≤ t) :
      contains (s.get type) id t = listed entries type id t := by
    cases hid : id.isEmpty with
    | true =>
      rw [contains, listed, hid, if_pos rfl]
      rfl
    | false =>
      rw [hcontains t hle type id hid, get_empty, contains_empty, listed, hid]
      rfl
  refine ⟨s, ?_, fun userId ip deviceId t hle => ?_⟩
  · rw [prepareCandidate, hsome, if_neg Bool.false_ne_true, hfold]
  · rw [loginMatches_eq, hlisted _ _ _ hle, hlisted _ _ _ hle, hlisted _ _ _ hle, listedMatches]

end BlacklistSnapshot

namespace BlacklistManager

theorem publish_some {manager : BlacklistManager} {s : BlacklistSnapshot}
    (h : prepareCandidate entries nowMs = some s) (prepared allocated : Bool) :
    manager.publish entries nowMs prepared allocated =
      if prepared && allocated then (true, ⟨some s⟩) else (false, manager) := by
  cases prepared with
  | false => rfl
  | true =>
    rw [publish, if_pos rfl, h]
    cases allocated <;> rfl

theorem publish_refused {manager : BlacklistManager} (h : ∃ e ∈ entries, e.id = [])
    (prepared allocated : Bool) :
    manager.publish entries nowMs prepared allocated = (false, manager) := by
  obtain ⟨e, he, hempty⟩ := h
  have hany : entries.any (fun entry => entry.id.isEmpty) = true :=
    List.any_eq_true.mpr ⟨e, he, by rw [hempty]; rfl⟩
  rw [publish, prepareCandidate, if_pos hany, ite_self]
  rfl

/-- **Publishing and matching is exact.**  If no identifier of the list is empty, the publication
fails only without memory, and if it succeeds every later request hits what the list says,
whatever its order.  A list with an empty identifier is refused, and requests are answered as
before. -/
theorem publish_exact (manager : BlacklistManager) (entries : List BlacklistEntry) (nowMs : ℕ)
    (prepared allocated : Bool) :
    ((∀ e ∈ entries, e.id ≠ []) →
      (manager.publish entries nowMs prepared allocated).1 = (prepared && allocated) ∧
      ((manager.publish entries nowMs prepared allocated).1 = true →
        ∀ entries', entries'.Perm entries → ∀ userId ip deviceId t, nowMs ≤ t →
          (manager.publish entries' nowMs prepared allocated).2.loginMatches userId ip deviceId t =
            listedMatches entries userId ip deviceId t)) ∧
    ((∃ e ∈ entries, e.id = []) →
      (manager.publish entries nowMs prepared allocated).1 = false ∧
      ∀ userId ip deviceId t,
        (manager.publish entries nowMs prepared allocated).2.loginMatches userId ip deviceId t =
          manager.loginMatches userId ip deviceId t) := by
  constructor
  · intro hids
    have hnonempty : ∀ e ∈ entries, e.id.isEmpty = false := fun e he =>
      List.isEmpty_eq_false_iff.mpr (hids e he)
    obtain ⟨s, hs, -⟩ := @BlacklistSnapshot.prepareCandidate_spec entries nowMs hnonempty
    have hresult : (manager.publish entries nowMs prepared allocated).1 =
        (prepared && allocated) := by
      rw [publish_some hs]
      cases prepared && allocated <;> rfl
    refine ⟨hresult, fun hok entries' hperm userId ip deviceId t hle => ?_⟩
    obtain ⟨s', hs', hmatches⟩ := @BlacklistSnapshot.prepareCandidate_spec entries' nowMs
      fun e he => hnonempty e (hperm.mem_iff.mp he)
    rw [publish_some hs', ← hresult, if_pos hok, ← listedMatches_perm hperm]
    exact hmatches userId ip deviceId t hle
  · intro hempty
    rw [publish_refused hempty]
    exact ⟨rfl, fun _ _ _ _ => rfl⟩

/-- A user listed twice, and a device that has expired at the publication. -/
def repeatedEntries : List BlacklistEntry :=
  [⟨.user, [1], 8⟩, ⟨.device, [2], 4⟩, ⟨.user, [1], 6⟩]

/-- The theorem for that list and its reverse: the later expiry of the user counts. -/
theorem publish_exact_repeated :
    ((⟨none⟩ : BlacklistManager).publish repeatedEntries.reverse 5 true true).2.loginMatches
      [1] [] [2] 7 = ⟨true, false, false⟩ := by
  obtain ⟨hresult, hmatches⟩ := (publish_exact ⟨none⟩ repeatedEntries 5 true true).1 (by decide)
  rw [hmatches hresult _ repeatedEntries.reverse_perm [1] [] [2] 7 (by decide)]
  decide

end BlacklistManager

end AegisFlow
