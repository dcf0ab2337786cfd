import AegisFlow.Storage.BlacklistRedisStore

/-!
# What the transactions of the store do

The contents of the database as the blacklist sees them: three hashes, the stream of pending
mutations and the revision.  Executed on a database that passed the checks of its precondition, the
queue of each transaction does exactly what its name says, and no command of it fails.

* `Applied`, `Removed`, `Rebuilt` : the effects of the three transactions that count as a revision;
* `exec_batch`, `exec_remove`, `exec_rebuild` : their queues have these effects.
-/

namespace AegisFlow

open Redis

/-- A database of the blacklist. -/
abbrev BlacklistDb := Db RedisKey

namespace BlacklistDb

/-- The hash of a kind of entity. -/
def hash (db : BlacklistDb) (t : EntityType) : Hash := (hash? (db (hashKey t))).getD ∅

/-- The pending entries. -/
def pending (db : BlacklistDb) : List StreamEntry :=
  ((stream? (db .pending)).map Stream.entries).getD []

/-- The revision; a missing one counts as zero. -/
def revision (db : BlacklistDb) : Option ℕ :=
  match db .revision with
  | none => some 0
  | some (.string text) => parseUnsigned text kMaxRedisInteger
  | some _ => none

/-- A hash holds a hash, or nothing. -/
def Typed (db : BlacklistDb) (t : EntityType) : Prop := (hash? (db (hashKey t))).isSome = true

theorem Typed.hash_eq {db : BlacklistDb} {t : EntityType} (h : db.Typed t) :
    hash? (db (hashKey t)) = some (db.hash t) := by
  obtain ⟨fields, hfields⟩ := Option.isSome_iff_exists.1 h
  simp [hash, hfields]

end BlacklistDb

open BlacklistDb

theorem hashKey_injective : Function.Injective hashKey := by
  intro a b
  cases a <;> cases b <;> simp [hashKey]

@[simp] theorem hashKey_inj {a b : EntityType} : hashKey a = hashKey b ↔ a = b :=
  hashKey_injective.eq_iff

@[simp] theorem hashKey_ne_pending (t : EntityType) : hashKey t ≠ .pending := by
  cases t <;> simp [hashKey]

@[simp] theorem hashKey_ne_revision (t : EntityType) : hashKey t ≠ .revision := by
  cases t <;> simp [hashKey]

@[simp] theorem hashKey_ne_cacheReady (t : EntityType) : hashKey t ≠ .cacheReady := by
  cases t <;> simp [hashKey]

@[simp] theorem hash?_ofHash (fields : Hash) : hash? (ofHash fields) = some fields := by
  unfold ofHash
  split_ifs with h
  · rw [h]; rfl
  · rfl

/-! ### Single commands -/

section

variable {now : ℕ} {db : BlacklistDb} {t : EntityType}

theorem hash_update_of_ne {k : RedisKey} {t : EntityType} {o : Option Object} (hk : hashKey t ≠ k) :
    BlacklistDb.hash (Function.update db k o) t = db.hash t := by
  simp only [BlacklistDb.hash, Function.update_of_ne hk]

theorem hash_update {t t' : EntityType} {fields : Hash} :
    BlacklistDb.hash (Function.update db (hashKey t') (ofHash fields)) t =
      if t' = t then fields else db.hash t := by
  split_ifs with h
  · subst h
    simp [BlacklistDb.hash]
  · exact hash_update_of_ne fun hk => h (hashKey_inj.1 hk).symm

theorem typed_update {t t' : EntityType} {fields : Hash} (ht : db.Typed t) :
    BlacklistDb.Typed (Function.update db (hashKey t') (ofHash fields)) t := by
  unfold BlacklistDb.Typed
  by_cases h : hashKey t = hashKey t'
  · simp [h]
  · rw [Function.update_of_ne h]
    exact ht

/-- An `HSET` on a hash. -/
theorem run_hset (h : db.Typed t) (pairs : List (Bytes × Bytes)) :
    ((Command.hset (hashKey t) pairs).run now db).db =
        Function.update db (hashKey t) (ofHash (setFields (db.hash t) pairs)) ∧
      ((Command.hset (hashKey t) pairs).run now db).reply.isError = false := by
  simp only [Command.run, Outcome.onHash, h.hash_eq]
  exact ⟨rfl, rfl⟩

/-- An `HDEL` on a hash. -/
theorem run_hdel (h : db.Typed t) (names : List Bytes) :
    (∀ k, k ≠ hashKey t → ((Command.hdel (hashKey t) names).run now db).db k = db k) ∧
      hash? (((Command.hdel (hashKey t) names).run now db).db (hashKey t)) =
        some (removeFields (db.hash t) names) ∧
      ((Command.hdel (hashKey t) names).run now db).reply =
        .integer ((db.hash t).keys.card - (removeFields (db.hash t) names).keys.card) := by
  simp only [Command.run, Outcome.onHash, h.hash_eq]
  split_ifs with hsame
  · refine ⟨fun _ _ => rfl, ?_, ?_⟩
    · rw [hsame]
      exact h.hash_eq
    · simp [Outcome.keep, hsame]
  · refine ⟨fun k hk => Function.update_of_ne hk _ _, ?_, rfl⟩
    simp [Outcome.write]

/-- An `XADD` on a stream. -/
theorem run_xadd {stream : Stream} (h : stream? (db .pending) = some stream) (fields : List Bytes) :
    ((Command.xadd .pending fields).run now db).db =
        Function.update db .pending (some (.stream (stream.add now fields))) ∧
      ((Command.xadd .pending fields).run now db).reply =
        .string (StreamId.text (StreamId.next stream.lastId now)) := by
  simp only [Command.run, Outcome.onStream, h]
  exact ⟨rfl, rfl⟩

theorem counter_of_revision {n : ℕ} (h : db.revision = some n) :
    counter? (db .revision) = some (n : ℤ) := by
  unfold BlacklistDb.revision at h
  split at h
  · rename_i hnone
    cases h
    rw [hnone]
    rfl
  · rename_i text hstring
    rw [hstring]
    exact parseInteger_of_parseUnsigned h (parseUnsigned_le h).1
  · cases h

theorem increment_one {n : ℕ} (hn : n < kMaxRedisInteger) :
    increment n 1 = some ((n : ℤ) + 1) := by
  have hle : n + 1 ≤ maxInteger := hn
  exact if_pos (by omega)

theorem integerText_succ (n : ℕ) : integerText ((n : ℤ) + 1) = toText (n + 1) := by
  rw [← Nat.cast_succ]
  rfl

/-- The revision is counted. -/
theorem run_incr {n : ℕ} (h : db.revision = some n) (hn : n < kMaxRedisInteger) :
    (Command.incr .revision).run now db =
      Outcome.write db .revision (some (.string (toText (n + 1)))) (.integer (n + 1)) := by
  have hrun : (Command.incr .revision).run now db = Outcome.count db .revision
      ((counter? (db .revision)).bind (increment · 1)) fun n => some (.string (integerText n)) :=
        rfl
  rw [hrun, counter_of_revision h, Option.bind_some, increment_one hn, ← integerText_succ]
  rfl

/-- The revision is counted after other commands. -/
theorem exec_incr {n : ℕ} {cs : List (Command RedisKey)}
    (h : BlacklistDb.revision (execDb now db cs) = some n) (hn : n < kMaxRedisInteger) :
    execDb now db (cs ++ [.incr .revision]) =
        Function.update (execDb now db cs) .revision (some (.string (toText (n + 1)))) ∧
      execReplies now db (cs ++ [.incr .revision]) =
        execReplies now db cs ++ [.integer (n + 1)] := by
  rw [execDb_append, execReplies_append]
  simp only [execDb_cons, execDb_nil, execReplies, run_incr h hn]
  exact ⟨rfl, rfl⟩

theorem revision_incremented {n : ℕ} (hn : n < kMaxRedisInteger) :
    BlacklistDb.revision (Function.update db .revision (some (.string (toText (n + 1))))) =
      some (n + 1) := by
  simp only [BlacklistDb.revision, Function.update_self]
  refine parseUnsigned_toText ?_ hn
  simp only [kMaxRedisInteger, maxInteger] at hn
  omega

end

/-! ### One edit for each kind of entity -/

section

variable {now : ℕ} {db : BlacklistDb}

/-- A command that edits the hash of one kind of entity only. -/
structure EditsHash (now : ℕ) (c : Command RedisKey) (t : EntityType) (f : Hash → Hash) : Prop where
  /-- The hash is edited, the other hashes are not. -/
  hashes : ∀ db : BlacklistDb, db.Typed t → ∀ t', BlacklistDb.hash (c.run now db).db t' =
    if t' = t then f (db.hash t) else db.hash t'
  typed : ∀ db : BlacklistDb, db.Typed t → ∀ t', db.Typed t' →
    BlacklistDb.Typed (c.run now db).db t'
  others : ∀ db : BlacklistDb, db.Typed t → ∀ k, k ≠ hashKey t → (c.run now db).db k = db k
  reply : ∀ db : BlacklistDb, db.Typed t → (c.run now db).reply.isError = false

theorem editsHash_hset (t : EntityType) (pairs : List (Bytes × Bytes)) :
    EditsHash now (.hset (hashKey t) pairs) t (setFields · pairs) where
  hashes db ht t' := by
    rw [(run_hset ht pairs).1, hash_update]
    simp only [eq_comm]
  typed db ht t' ht' := by
    rw [(run_hset ht pairs).1]
    exact typed_update ht'
  others db ht k hk := by
    rw [(run_hset ht pairs).1]
    exact Function.update_of_ne hk _ _
  reply db ht := (run_hset ht pairs).2

theorem editsHash_hdel (t : EntityType) (names : List Bytes) :
    EditsHash now (.hdel (hashKey t) names) t (removeFields · names) where
  hashes db ht t' := by
    obtain ⟨hother, hself, -⟩ := @run_hdel now _ _ ht names
    split_ifs with h
    · subst h
      simp only [BlacklistDb.hash, hself]
      rfl
    · simp only [BlacklistDb.hash, hother _ fun hk => h (hashKey_inj.1 hk)]
  typed db ht t' ht' := by
    obtain ⟨hother, hself, -⟩ := @run_hdel now _ _ ht names
    unfold BlacklistDb.Typed
    by_cases h : t' = t
    · rw [h, hself]
      rfl
    · rw [hother _ fun hk => h (hashKey_inj.1 hk)]
      exact ht'
  others db ht := (run_hdel ht names).1
  reply db ht := by
    rw [(run_hdel ht names).2.2]
    rfl

/-- One edit for each of several kinds. -/
theorem exec_edits {c : EntityType → Command RedisKey} {f : EntityType → Hash → Hash}
    (hc : ∀ t, EditsHash now (c t) t (f t)) {ts : List EntityType} (hnodup : ts.Nodup)
    (htyped : ∀ t ∈ ts, db.Typed t) :
    (∀ t, BlacklistDb.hash (execDb now db (ts.map c)) t =
        if t ∈ ts then f t (db.hash t) else db.hash t) ∧
      (∀ k, (∀ t, k ≠ hashKey t) → execDb now db (ts.map c) k = db k) ∧
      ∀ r ∈ execReplies now db (ts.map c), r.isError = false := by
  induction ts generalizing db with
  | nil => simp [execReplies]
  | cons t ts ih =>
    have ht := htyped t List.mem_cons_self
    obtain ⟨hnotMem, hnodup'⟩ := List.nodup_cons.1 hnodup
    obtain ⟨hhashes, hothers, hreplies⟩ := ih hnodup' fun t' ht' =>
      (hc t).typed db ht t' (htyped t' (List.mem_cons_of_mem t ht'))
    rw [List.map_cons, execDb_cons]
    refine ⟨fun t' => ?_, fun k hk => ?_, ?_⟩
    · rw [hhashes t', (hc t).hashes db ht t']
      by_cases h : t' = t
      · subst h
        simp [hnotMem]
      · simp [h]
    · rw [hothers k hk]
      exact (hc t).others db ht k (hk t)
    · exact List.forall_mem_cons.2 ⟨(hc t).reply db ht, hreplies⟩

end

/-! ### Mutations -/

section

variable [Inet] {now : ℕ} {db db' db'' : BlacklistDb} {m : BlacklistMutation}
  {ms : List BlacklistMutation}

/-- The hash of one kind of entity after a mutation. -/
def editHash (t : EntityType) (fields : Hash) : BlacklistMutation → Hash
  | .mkUpsert t' id _ expireAtMs .. =>
      if t' = t then fields.insert id (toText expireAtMs) else fields
  | .mkDisable t' id _ => if t' = t then fields.erase id else fields
  | .mkClearAll => ∅

/-- Mutations were applied to the hashes and appended to the stream. -/
structure Edited (ms : List BlacklistMutation) (db db' : BlacklistDb) : Prop where
  hashes : ∀ t, db'.hash t = ms.foldl (editHash t) (db.hash t)
  typed : ∀ t, db.Typed t → db'.Typed t
  /-- There is one entry for each mutation, in order. -/
  stream : ∃ s s' news, stream? (db .pending) = some s ∧ stream? (db' .pending) = some s' ∧
    s'.entries = s.entries ++ news ∧ news.map StreamEntry.fields = ms.map Store.streamFields
  others : ∀ k, (∀ t, k ≠ hashKey t) → k ≠ .pending → db' k = db k

theorem Edited.append {ms' : List BlacklistMutation} (h : Edited ms db db')
    (h' : Edited ms' db' db'') : Edited (ms ++ ms') db db'' where
  hashes t := by rw [List.foldl_append, ← h.hashes t, h'.hashes t]
  typed t ht := h'.typed t (h.typed t ht)
  stream := by
    obtain ⟨s, s', news, hs, hs', hnews, hfields⟩ := h.stream
    obtain ⟨u, u', news', hu, hu', hnews', hfields'⟩ := h'.stream
    obtain rfl : s' = u := Option.some.inj (hs'.symm.trans hu)
    refine ⟨s, u', news ++ news', hs, hu', ?_, ?_⟩
    · rw [hnews', hnews, List.append_assoc]
    · rw [List.map_append, List.map_append, hfields, hfields']
  others k hk hpending := (h'.others k hk hpending).trans (h.others k hk hpending)

/-- The edit of the hashes that belongs to a mutation. -/
theorem run_editCommand (htyped : ∀ t, m.entityType = some t → db.Typed t) :
    (∀ t, BlacklistDb.hash ((Store.editCommand m).run now db).db t = editHash t (db.hash t) m) ∧
      (∀ t, db.Typed t → BlacklistDb.Typed ((Store.editCommand m).run now db).db t) ∧
      (∀ k, (∀ t, k ≠ hashKey t) → ((Store.editCommand m).run now db).db k = db k) ∧
      ((Store.editCommand m).run now db).reply.isError = false := by
  cases m with
  | mkUpsert type id reason expireAtMs hid hreason hexpire =>
    obtain ⟨hdb, hreply⟩ := @run_hset now _ _ (htyped type rfl) [(id, toText expireAtMs)]
    refine ⟨fun t => ?_, fun t ht => ?_, fun k hk => ?_, hreply⟩
    · simp only [Store.editCommand, hdb, hash_update, editHash]
      split_ifs with h
      · rw [h]; rfl
      · rfl
    · simp only [Store.editCommand, hdb]
      exact typed_update ht
    · simp only [Store.editCommand, hdb]
      exact Function.update_of_ne (hk type) _ _
  | mkDisable type id hid =>
    obtain ⟨hother, hself, hreply⟩ := @run_hdel now _ _ (htyped type rfl) [id]
    refine ⟨fun t => ?_, fun t ht => ?_, fun k hk => hother k (hk type), ?_⟩
    · simp only [Store.editCommand, editHash]
      split_ifs with h
      · subst h
        simp only [BlacklistDb.hash, hself]
        rfl
      · have hne : hashKey t ≠ hashKey type := fun hk => h (hashKey_inj.1 hk).symm
        simp only [BlacklistDb.hash, hother _ hne]
    · simp only [Store.editCommand, BlacklistDb.Typed]
      by_cases h : hashKey t = hashKey type
      · rw [h, hself]; rfl
      · rw [hother _ h]
        exact ht
    · simp only [Store.editCommand, hreply]
      rfl
  | mkClearAll =>
    have hdeleted (t : EntityType) : ((Store.editCommand .mkClearAll).run now db).db (hashKey t) =
        none := by
      cases t <;> rfl
    refine ⟨fun t => ?_, fun t ht => ?_, fun k hk => ?_, rfl⟩
    · simp only [BlacklistDb.hash, hdeleted]
      rfl
    · simp only [BlacklistDb.Typed, hdeleted]
      rfl
    · have := hk .user
      have := hk .ip
      have := hk .device
      cases k <;> simp_all [hashKey, Store.editCommand, Command.run]

/-- The two commands of a mutation. -/
theorem edited_mutation (htyped : ∀ t, m.entityType = some t → db.Typed t)
    (hstream : (stream? (db .pending)).isSome = true) :
    Edited [m] db (execDb now db [Store.editCommand m, .xadd .pending (Store.streamFields m)]) ∧
      ∀ r ∈ execReplies now db [Store.editCommand m, .xadd .pending (Store.streamFields m)],
        r.isError = false := by
  obtain ⟨hhashes, htyped', hothers, hreply⟩ := @run_editCommand _ now _ _ htyped
  obtain ⟨stream, hs⟩ := Option.isSome_iff_exists.1 hstream
  have hs' : stream? (((Store.editCommand m).run now db).db .pending) = some stream := by
    rw [hothers .pending fun t => (hashKey_ne_pending t).symm, hs]
  obtain ⟨hdb, hadd⟩ := @run_xadd now _ _ hs' (Store.streamFields m)
  simp only [execDb_cons, execDb_nil, execReplies, hdb, hadd]
  refine ⟨⟨fun t => ?_, fun t ht => ?_, ?_, fun k hk hpending => ?_⟩, ?_⟩
  · rw [hash_update_of_ne (hashKey_ne_pending t), hhashes t]
    rfl
  · unfold BlacklistDb.Typed
    rw [Function.update_of_ne (hashKey_ne_pending t)]
    exact htyped' t ht
  · refine ⟨stream, stream.add now (Store.streamFields m), [stream.newEntry now _], hs, ?_,
      rfl, rfl⟩
    rw [Function.update_self]
    rfl
  · rw [Function.update_of_ne hpending]
    exact hothers k hk
  · exact List.forall_mem_cons.2 ⟨hreply, List.forall_mem_singleton.2 rfl⟩

/-- The commands of a batch, without the revision. -/
theorem edited_batch (ms : List BlacklistMutation)
    (htyped : ∀ m ∈ ms, ∀ t, m.entityType = some t → db.Typed t)
    (hstream : (stream? (db .pending)).isSome = true) :
    Edited ms db (execDb now db
        (ms.flatMap fun m => [Store.editCommand m, .xadd .pending (Store.streamFields m)])) ∧
      ∀ r ∈ execReplies now db
        (ms.flatMap fun m => [Store.editCommand m, .xadd .pending (Store.streamFields m)]),
        r.isError = false := by
  induction ms generalizing db with
  | nil =>
    obtain ⟨stream, hs⟩ := Option.isSome_iff_exists.1 hstream
    refine ⟨⟨fun _ => rfl, fun _ h => h, ⟨stream, stream, [], hs, hs, by simp, rfl⟩,
      fun _ _ _ => rfl⟩, ?_⟩
    simp [execReplies]
  | cons m ms ih =>
    obtain ⟨hedited, hreplies⟩ :=
      @edited_mutation _ now _ _ (htyped m List.mem_cons_self) hstream
    obtain ⟨stream, stream', -, -, hs', -⟩ := hedited.stream
    obtain ⟨hrest, hreplies'⟩ := ih
      (fun m' hm' t ht => hedited.typed t (htyped m' (List.mem_cons_of_mem m hm') t ht))
      (by rw [hs']; rfl)
    rw [List.flatMap_cons, execDb_append, execReplies_append]
    refine ⟨hedited.append hrest, fun r hr => ?_⟩
    exact (List.mem_append.1 hr).elim (hreplies r) (hreplies' r)

/-- A batch was applied: hashes, stream and revision. -/
structure Applied (ms : List BlacklistMutation) (db db' : BlacklistDb) : Prop where
  ready : db .cacheReady = some (.string (ascii "1"))
  revision : ∃ n, db.revision = some n ∧ db'.revision = some (n + 1)
  hashes : ∀ t, db'.hash t = ms.foldl (editHash t) (db.hash t)
  /-- There is one new entry for each mutation, in order. -/
  stream : ∃ news, db'.pending = db.pending ++ news ∧
    news.map StreamEntry.fields = ms.map Store.streamFields
  others : ∀ k, (∀ t, k ≠ hashKey t) → k ≠ .pending → k ≠ .revision → db' k = db k

/-- **A batch that passed its checks is applied, and none of its commands fails.** -/
theorem exec_batch {n : ℕ} (hready : db .cacheReady = some (.string (ascii "1")))
    (hrevision : db.revision = some n) (hn : n < kMaxRedisInteger)
    (htyped : ∀ m ∈ ms, ∀ t, m.entityType = some t → db.Typed t)
    (hstream : (stream? (db .pending)).isSome = true) :
    Applied ms db (execDb now db (Store.batchCommands ms)) ∧
      (∀ r ∈ execReplies now db (Store.batchCommands ms), r.isError = false) ∧
      (execReplies now db (Store.batchCommands ms)).getLast? = some (.integer (n + 1)) ∧
      BlacklistDb.revision (execDb now db (Store.batchCommands ms)) = some (n + 1) := by
  obtain ⟨hedited, hreplies⟩ := @edited_batch _ now _ ms htyped hstream
  have hsame : BlacklistDb.revision (execDb now db (ms.flatMap fun m =>
      [Store.editCommand m, .xadd .pending (Store.streamFields m)])) = some n := by
    simp only [BlacklistDb.revision]
    rw [hedited.others .revision (fun t => (hashKey_ne_revision t).symm) (by simp)]
    exact hrevision
  obtain ⟨hdb, hreply⟩ := exec_incr hsame hn
  rw [Store.batchCommands, hdb, hreply]
  refine ⟨⟨hready, ⟨n, hrevision, revision_incremented hn⟩, fun t => ?_, ?_, fun k hk hp hr => ?_⟩,
    fun r hr => ?_, by simp, revision_incremented hn⟩
  · rw [hash_update_of_ne (hashKey_ne_revision t)]
    exact hedited.hashes t
  · obtain ⟨s, s', news, hs, hs', hentries, hfields⟩ := hedited.stream
    refine ⟨news, ?_, hfields⟩
    rw [BlacklistDb.pending, BlacklistDb.pending, Function.update_of_ne (by simp), hs, hs']
    exact hentries
  · rw [Function.update_of_ne hr]
    exact hedited.others k hk hp
  · rcases List.mem_append.1 hr with hr | hr
    · exact hreplies r hr
    · rw [List.mem_singleton.1 hr]
      rfl

end

/-! ### Removing and rebuilding -/

section

variable {now n : ℕ} {db : BlacklistDb} {entries : List BlacklistEntry}

/-- Expired entries were removed. -/
structure Removed (entries : List BlacklistEntry) (expectedRevision : ℕ) (db db' : BlacklistDb) :
    Prop where
  /-- The revision was the expected one, and is the next one. -/
  revision : db.revision = some expectedRevision ∧ db'.revision = some (expectedRevision + 1)
  /-- Every removed entry was there, with the expiry that was scanned. -/
  expired : ∀ e ∈ entries, ∃ text, (db.hash e.type).lookup e.id = some text ∧
    parseUnsigned text BlacklistMutation.kMaxExpireAtMs = some e.expireAtMs
  hashes : ∀ t, db'.hash t = removeFields (db.hash t) ((Store.group entries t).map (·.id))
  others : ∀ k, (∀ t, k ≠ hashKey t) → k ≠ .revision → db' k = db k

theorem mem_kinds {t : EntityType} : t ∈ Store.kinds entries ↔ Store.group entries t ≠ [] := by
  cases t <;> simp [Store.kinds]

theorem nodup_kinds : (Store.kinds entries).Nodup := List.Nodup.filter _ (by decide)

/-- **A removal that passed its checks removes what it names, and none of its commands fails.** -/
theorem exec_remove (hrevision : db.revision = some n) (hn : n < kMaxRedisInteger)
    (htyped : ∀ t ∈ Store.kinds entries, db.Typed t)
    (hexpired : ∀ e ∈ entries, ∃ text, (db.hash e.type).lookup e.id = some text ∧
      parseUnsigned text BlacklistMutation.kMaxExpireAtMs = some e.expireAtMs) :
    Removed entries n db (execDb now db (Store.removeCommands entries)) ∧
      (∀ r ∈ execReplies now db (Store.removeCommands entries), r.isError = false) ∧
      (execReplies now db (Store.removeCommands entries)).getLast? = some (.integer (n + 1)) := by
  obtain ⟨hhashes, hothers, hreplies⟩ := @exec_edits now _ _ _
    (fun t => editsHash_hdel t ((Store.group entries t).map (·.id))) _ nodup_kinds htyped
  have hsame : BlacklistDb.revision (execDb now db ((Store.kinds entries).map fun t =>
      .hdel (hashKey t) ((Store.group entries t).map (·.id)))) = some n := by
    simp only [BlacklistDb.revision]
    rw [hothers .revision fun t => (hashKey_ne_revision t).symm]
    exact hrevision
  obtain ⟨hdb, hreply⟩ := exec_incr hsame hn
  rw [Store.removeCommands, hdb, hreply]
  refine ⟨⟨⟨hrevision, revision_incremented hn⟩, hexpired, fun t => ?_, fun k hk hr => ?_⟩,
    fun r hr => ?_, by simp⟩
  · rw [hash_update_of_ne (hashKey_ne_revision t), hhashes t]
    split_ifs with h
    · rfl
    · rw [not_not.1 (mt mem_kinds.2 h)]
      rfl
  · rw [Function.update_of_ne hr]
    exact hothers k hk
  · rcases List.mem_append.1 hr with hr | hr
    · exact hreplies r hr
    · rw [List.mem_singleton.1 hr]
      rfl

/-- The cache was filled. -/
structure Rebuilt (entries : List BlacklistEntry) (db db' : BlacklistDb) : Prop where
  notReady : db .cacheReady = none
  ready : db' .cacheReady = some (.string (ascii "1"))
  revision : ∃ n, db.revision = some n ∧ db'.revision = some (n + 1)
  /-- The hashes hold the given entries, the last one of each identifier. -/
  hashes : ∀ t, db'.hash t = setFields ∅ (Store.hashPairs entries t)
  others : ∀ k, (∀ t, k ≠ hashKey t) → k ≠ .revision → k ≠ .cacheReady → db' k = db k

/-- All hashes are deleted. -/
theorem run_del_hashes : ∃ db' : BlacklistDb,
    ((Command.del [.users, .ips, .devices]).run now db).db = db' ∧
      (∀ t, db' (hashKey t) = none) ∧ (∀ k, (∀ t, k ≠ hashKey t) → db' k = db k) ∧
      ((Command.del [.users, .ips, .devices]).run now db).reply.isError = false := by
  refine ⟨_, rfl, fun t => by cases t <;> rfl, fun k hk => ?_, rfl⟩
  have := hk .user
  have := hk .ip
  have := hk .device
  cases k <;> simp_all [hashKey, Command.run]

/-- **A rebuild that passed its checks fills the cache, and none of its commands fails.** -/
theorem exec_rebuild (hready : db .cacheReady = none) (hrevision : db.revision = some n)
    (hn : n < kMaxRedisInteger) :
    Rebuilt entries db (execDb now db (Store.rebuildCommands entries)) ∧
      (∀ r ∈ execReplies now db (Store.rebuildCommands entries), r.isError = false) ∧
      ∃ replies, execReplies now db (Store.rebuildCommands entries) =
        replies ++ [.integer (n + 1), .status "OK"] ∧
        replies.length + 2 = (Store.rebuildCommands entries).length := by
  obtain ⟨db₁, hdel, hnone, hothers₁, hreply₁⟩ := @run_del_hashes now db
  have htyped (t : EntityType) : db₁.Typed t := by
    unfold BlacklistDb.Typed
    rw [hnone t]
    rfl
  have hempty (t : EntityType) : db₁.hash t = ∅ := by
    unfold BlacklistDb.hash
    rw [hnone t]
    rfl
  obtain ⟨hhashes, hothers, hreplies⟩ := @exec_edits now db₁ _ _
    (fun t => editsHash_hset t (Store.hashPairs entries t))
    ([.user, .ip, .device].filter fun t => !(Store.hashPairs entries t).isEmpty)
    (List.Nodup.filter _ (by decide)) fun t _ => htyped t
  have hsame : BlacklistDb.revision (execDb now db₁ (([.user, .ip, .device].filter fun t =>
      !(Store.hashPairs entries t).isEmpty).map fun t =>
        .hset (hashKey t) (Store.hashPairs entries t))) = some n := by
    simp only [BlacklistDb.revision]
    rw [hothers .revision fun t => (hashKey_ne_revision t).symm,
      hothers₁ .revision fun t => (hashKey_ne_revision t).symm]
    exact hrevision
  have hincr := @run_incr now _ _ hsame hn
  have hmark (db : BlacklistDb) : (Command.set .cacheReady (ascii "1")).run now db =
      Outcome.write db .cacheReady (some (.string (ascii "1"))) (.status "OK") := rfl
  rw [Store.rebuildCommands, execDb_append, execReplies_append]
  simp only [execDb_cons, execDb_nil, execReplies, hdel, hincr, hmark, Outcome.write]
  refine ⟨⟨hready, Function.update_self .., ⟨n, hrevision, ?_⟩, fun t => ?_, fun k hk hr hc => ?_⟩,
    ?_, ?_⟩
  · have hrev := @revision_incremented (execDb now db₁ (([.user, .ip, .device].filter fun t =>
      !(Store.hashPairs entries t).isEmpty).map fun t =>
        .hset (hashKey t) (Store.hashPairs entries t))) _ hn
    simpa only [BlacklistDb.revision, Function.update_of_ne, ne_eq, reduceCtorEq,
      not_false_eq_true] using hrev
  · rw [hash_update_of_ne (hashKey_ne_cacheReady t), hash_update_of_ne (hashKey_ne_revision t),
      hhashes t, hempty t]
    split_ifs with h
    · rfl
    · have hnil : Store.hashPairs entries t = [] := by
        cases t <;> simpa using h
      rw [hnil]
      rfl
  · rw [Function.update_of_ne hc, Function.update_of_ne hr, hothers k hk, hothers₁ k hk]
  · intro r hr
    rcases List.mem_append.1 hr with hr | hr
    · exact (List.mem_cons.1 hr).elim (fun h => h ▸ hreply₁) (hreplies r)
    · rcases List.mem_cons.1 hr with rfl | hr
      · rfl
      · rw [List.mem_singleton.1 hr]
        rfl
  · refine ⟨_, rfl, ?_⟩
    simp [length_execReplies]

end

end AegisFlow
