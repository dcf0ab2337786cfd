import AegisFlow.Storage.StoreContract

/-!
# Every call of the store keeps the contract

What the precondition of each transaction learns is enough for its queue to be sound: every type
that a queued command relies on was checked under `WATCH`, and the revision can be counted.

* `learns_readWatchedReadyRevision`, `learns_stillExpired`, `learns_readNotReadyRevision`,
  `learns_barrierOpen` : what the preconditions learn;
* `StoreCall.meets` : **every call keeps the contract**.
-/

namespace AegisFlow

open Redis

variable {entries : List BlacklistEntry} {replies : List Reply} {n expectedRevision nowMs token : ℕ}
  {o : Option Object} {r : Reply} {db : BlacklistDb} {t : EntityType} {c : Command RedisKey}

namespace Store

/-! ### Judging the replies of a database -/

theorem judgeType_ok {expected : String} {allowNone : Bool}
    (h : judgeType expected allowNone (.status (typeName o)) = .ok ()) :
    typeName o = expected ∨ typeName o = "none" := by
  simp only [judgeType] at h
  split_ifs at h with hcond
  exact hcond.imp id And.right

theorem hash?_of_typeName (h : typeName o = "hash" ∨ typeName o = "none") :
    (hash? o).isSome = true := by
  rcases o with _ | (_ | _ | _ | _) <;> simp_all [typeName, hash?]

theorem stream?_of_typeName (h : typeName o = "stream" ∨ typeName o = "none") :
    (stream? o).isSome = true := by
  rcases o with _ | (_ | _ | _ | _) <;> simp_all [typeName, stream?]

theorem judgeReady_ok (h : judgeReady (stringReply o) = .ok ()) :
    o = some (.string (ascii "1")) := by
  rcases o with _ | (text | _ | _ | _)
  · cases h
  · simp only [stringReply, judgeReady] at h
    split_ifs at h with htext
    rw [htext]
  all_goals cases h

theorem judgeNotReady_ok (h : judgeNotReady (stringReply o) = .ok ()) : o = none := by
  rcases o with _ | (text | _ | _ | _)
  · rfl
  all_goals cases h

theorem judgeNumber_ok {maximum : ℕ} (h : judgeNumber maximum r = .ok n) :
    ∃ text, r = .string text ∧ parseUnsigned text maximum = some n := by
  cases r with
  | string text =>
    refine ⟨text, rfl, ?_⟩
    simp only [judgeNumber] at h
    split at h
    · rename_i m hm
      rw [hm, Except.ok.inj h]
    · cases h
  | _ => cases h

theorem stringReply_string {text : Bytes} (h : stringReply o = .string text) :
    o = some (.string text) := by
  rcases o with _ | (text | _ | _ | _) <;> simp_all [stringReply, wrongType]

/-- A revision that was read under `WATCH` can be counted. -/
theorem revision_of_judgeNumber
    (h : judgeNumber (kMaxRedisInteger - 1) (stringReply (db .revision)) = .ok n) :
    db.revision = some n ∧ n < kMaxRedisInteger := by
  obtain ⟨text, hr, hparse⟩ := judgeNumber_ok h
  have hle := (parseUnsigned_le hparse).1
  have hpos : 0 < kMaxRedisInteger := by decide
  refine ⟨?_, by omega⟩
  rw [BlacklistDb.revision, stringReply_string hr]
  exact parseUnsigned_of_le hparse (by omega)

theorem judgeType_ne_ok (expected : String) (allowNone : Bool) (r : Reply) :
    judgeType expected allowNone r ≠ .error .ok := by
  cases r with
  | status => simp only [judgeType]; split_ifs <;> simp
  | _ => simp [judgeType]

theorem judgeNumber_ne_ok (maximum : ℕ) (r : Reply) : judgeNumber maximum r ≠ .error .ok := by
  cases r with
  | string text => simp only [judgeNumber]; split <;> simp
  | _ => simp [judgeNumber]

theorem judgeCurrent_ok (h : judgeCurrent expectedRevision r = .ok ()) :
    judgeNumber (kMaxRedisInteger - 1) r = .ok expectedRevision := by
  unfold judgeCurrent at h
  cases hr : judgeNumber (kMaxRedisInteger - 1) r with
  | error status => rw [hr] at h; cases h
  | ok n =>
    rw [hr] at h
    change (if n ≠ expectedRevision then _ else _) = _ at h
    split_ifs at h with hn
    rw [not_not.1 hn]

theorem judgeCurrent_ne_ok (expectedRevision : ℕ) (r : Reply) :
    judgeCurrent expectedRevision r ≠ .error .ok := by
  unfold judgeCurrent
  cases hr : judgeNumber (kMaxRedisInteger - 1) r with
  | error status =>
    intro h
    obtain rfl : status = .ok := Except.error.inj h
    exact judgeNumber_ne_ok _ r hr
  | ok n =>
    change (if n ≠ expectedRevision then _ else _) ≠ _
    split_ifs <;> simp

theorem judgeExpiry_ok {scanned : ℕ} {fields : Hash} {field : Bytes}
    (h : judgeExpiry scanned nowMs (fieldReply fields field) = .ok ()) :
    ∃ text, fields.lookup field = some text ∧
      parseUnsigned text BlacklistMutation.kMaxExpireAtMs = some scanned := by
  unfold fieldReply at h
  split at h
  · cases h
  · rename_i text htext
    refine ⟨text, htext, ?_⟩
    simp only [judgeExpiry] at h
    split at h
    · cases h
    · rename_i remote hremote
      split_ifs at h with hcond
      rw [hremote, not_not.1 (not_or.1 hcond).1]

theorem judgeExpiry_ne_ok (scanned nowMs : ℕ) (r : Reply) :
    judgeExpiry scanned nowMs r ≠ .error .ok := by
  cases r with
  | string text =>
    simp only [judgeExpiry]
    split
    · simp
    · split_ifs <;> simp
  | _ => simp [judgeExpiry]

theorem mem_group {e : BlacklistEntry} : e ∈ group entries t ↔ e ∈ entries ∧ e.type = t := by
  simp [group, List.mem_insertionSort]

theorem reply_hget (ht : db.Typed t) (field : Bytes) :
    ((Command.hget (hashKey t) field).run 0 db).reply = fieldReply (db.hash t) field := by
  simp only [Command.run, Outcome.onHash, ht.hash_eq]
  rfl

theorem judgePrevious_of_ne (hr : r ≠ .nil) :
    judgePrevious r = judgeNumber (kMaxRedisInteger - 1) r := by
  cases r <;> first | rfl | exact absurd rfl hr

theorem revision_of_judgePrevious (h : judgePrevious (stringReply (db .revision)) = .ok n) :
    db.revision = some n ∧ n < kMaxRedisInteger := by
  cases hdb : db .revision with
  | none =>
    rw [hdb] at h
    obtain rfl : 0 = n := Except.ok.inj h
    exact ⟨by rw [BlacklistDb.revision, hdb], by decide⟩
  | some o =>
    refine revision_of_judgeNumber ?_
    rw [hdb] at h ⊢
    cases o <;> exact h

theorem judgeBarrierCounter_ok {fields : Hash} {field : Bytes}
    (hfields : hash? (db .resetBarrier) = some fields)
    (h : judgeBarrierCounter (fieldReply fields field) = .ok n) :
    db.barrierCounter field = some n := by
  rw [BlacklistDb.barrierCounter, hfields, Option.bind_some]
  cases hlookup : fields.lookup field with
  | none =>
    rw [fieldReply, hlookup] at h
    exact congrArg some (Except.ok.inj h)
  | some text =>
    rw [fieldReply, hlookup] at h
    obtain ⟨text', heq, hparse⟩ := judgeNumber_ok (show judgeNumber _ (.string text) = _ from h)
    obtain rfl := Reply.string.inj heq
    exact hparse

theorem judgeBarrierCounter_ne_ok (r : Reply) : judgeBarrierCounter r ≠ .error .ok := by
  unfold judgeBarrierCounter
  split
  · simp
  · exact judgeNumber_ne_ok _ _

/-- The counters of a barrier, and their order. -/
theorem judgeBarrier_array {requested completed : Reply}
    {result : Except StoreStatus ResetBarrierState}
    (h : judgeBarrier (.array [requested, completed]) = result) :
    (∃ r c, judgeBarrierCounter requested = .ok r ∧ judgeBarrierCounter completed = .ok c ∧ c ≤ r ∧
      result = .ok ⟨r, c⟩) ∨ ∃ status, status ≠ .ok ∧ result = .error status := by
  simp only [judgeBarrier] at h
  cases hr : judgeBarrierCounter requested with
  | error status =>
    rw [hr] at h
    exact .inr ⟨status, fun hs => judgeBarrierCounter_ne_ok _ (hs ▸ hr), h.symm⟩
  | ok r =>
    cases hc : judgeBarrierCounter completed with
    | error status =>
      rw [hr, hc] at h
      exact .inr ⟨status, fun hs => judgeBarrierCounter_ne_ok _ (hs ▸ hc), h.symm⟩
    | ok c =>
      rw [hr, hc] at h
      change (if r < c then _ else _) = result at h
      split_ifs at h with hlt
      · exact .inr ⟨_, by simp, h.symm⟩
      · exact .inl ⟨r, c, rfl, rfl, not_lt.1 hlt, h.symm⟩

theorem judgeBarrier_ne_ok (r : Reply) : judgeBarrier r ≠ .error .ok := by
  intro h
  unfold judgeBarrier at h
  split at h
  · cases h
  · rcases judgeBarrier_array h with ⟨r, c, -, -, -, heq⟩ | ⟨status, hstatus, heq⟩
    · cases heq
    · exact hstatus (Except.error.inj heq).symm
  · cases h

theorem counters_of_judgeBarrier {state : ResetBarrierState}
    (h : judgeBarrier ((Command.hmget .resetBarrier
      [ascii "requested", ascii "completed"]).run 0 db).reply = .ok state) :
    (hash? (db .resetBarrier)).isSome = true ∧
      db.barrierCounter (ascii "requested") = some state.requested ∧
      db.barrierCounter (ascii "completed") = some state.completed := by
  simp only [Command.run, Outcome.onHash] at h
  cases hfields : hash? (db .resetBarrier) with
  | none => rw [hfields] at h; cases h
  | some fields =>
    rw [hfields] at h
    rcases judgeBarrier_array h with ⟨r, c, hr, hc, -, heq⟩ | ⟨status, -, heq⟩
    · obtain rfl := Except.ok.inj heq
      exact ⟨rfl, judgeBarrierCounter_ok hfields hr, judgeBarrierCounter_ok hfields hc⟩
    · cases heq

/-! ### What preconditions learn -/

section

variable [Inet] {call : StoreCall} {keys : List RedisKey}

theorem learns_ensureType {key : RedisKey} (hkey : key ∈ keys) (expected : String)
    (allowNone : Bool) : Learns call keys (ensureType key expected allowNone) fun _ db =>
      typeName (db key) = expected ∨ typeName (db key) = "none" := by
  refine (Learns.ask rfl ?_ (by simp [judgeType]) (judgeType_ne_ok _ _)).mono
    fun _ db h => judgeType_ok h
  simpa [Command.keys] using hkey

/-- A batch may be applied. -/
structure Ready (hashKeys : List RedisKey) (n : ℕ) (db : BlacklistDb) : Prop where
  ready : db .cacheReady = some (.string (ascii "1"))
  stream : (stream? (db .pending)).isSome = true
  hashes : ∀ key ∈ hashKeys, (hash? (db key)).isSome = true
  revision : db.revision = some n
  countable : n < kMaxRedisInteger

theorem learns_readWatchedReadyRevision {hashKeys : List RedisKey}
    (hkeys : ∀ key, key = .cacheReady ∨ key = .pending ∨ key = .revision ∨ key ∈ hashKeys →
      key ∈ keys) :
    Learns call keys (readWatchedReadyRevision hashKeys) fun n db => Ready hashKeys n db := by
  have hready := hkeys .cacheReady (.inl rfl)
  have hpending := hkeys .pending (.inr (.inl rfl))
  have hrevision := hkeys .revision (.inr (.inr (.inl rfl)))
  have hmarker : Learns call keys (Store.ask (.get .cacheReady) judgeReady) fun _ db =>
      db .cacheReady = some (.string (ascii "1")) := by
    refine (Learns.ask rfl (by simpa [Command.keys] using hready) (by simp [judgeReady])
      fun r => ?_).mono fun _ db h => judgeReady_ok h
    cases r with
    | string text => simp only [judgeReady]; split_ifs <;> simp
    | _ => simp [judgeReady]
  have hnumber : Learns call keys
      (Store.ask (.get .revision) (judgeNumber (kMaxRedisInteger - 1))) fun n db =>
      db.revision = some n ∧ n < kMaxRedisInteger :=
    (Learns.ask rfl (by simpa [Command.keys] using hrevision) (by simp [judgeNumber])
      (judgeNumber_ne_ok _)).mono fun _ db h => revision_of_judgeNumber h
  have htypes : Learns call keys (hashKeys.forM fun key => ensureType key "hash" true) fun _ db =>
      ∀ key ∈ hashKeys, typeName (db key) = "hash" ∨ typeName (db key) = "none" :=
    Learns.forM fun key hk => learns_ensureType (hkeys key (.inr (.inr (.inr hk)))) _ _
  refine ((learns_ensureType hready _ _).bind fun _ => hmarker.bind fun _ =>
    (learns_ensureType hpending _ _).bind fun _ => (learns_ensureType hrevision _ _).bind fun _ =>
      htypes.bind fun _ => hnumber).mono fun n db => ?_
  rintro ⟨-, -, -, hmark, -, hstream, -, -, -, hhashes, hrev, hlt⟩
  exact ⟨hmark, stream?_of_typeName hstream, fun key hk => hash?_of_typeName (hhashes key hk),
    hrev, hlt⟩

/-- The fields to be removed are as they were scanned. -/
structure StillExpired (entries : List BlacklistEntry) (expectedRevision : ℕ) (db : BlacklistDb) :
    Prop where
  typed : ∀ t ∈ kinds entries, db.Typed t
  revision : db.revision = some expectedRevision
  countable : expectedRevision < kMaxRedisInteger
  /-- Every entry is there, with the expiry that was scanned. -/
  expired : ∀ e ∈ entries, ∃ text, (db.hash e.type).lookup e.id = some text ∧
    parseUnsigned text BlacklistMutation.kMaxExpireAtMs = some e.expireAtMs

theorem learns_stillExpired (hrevision : .revision ∈ keys)
    (hhashes : ∀ t ∈ kinds entries, hashKey t ∈ keys) :
    Learns call keys (stillExpired entries expectedRevision nowMs) fun _ db =>
      StillExpired entries expectedRevision db := by
  have htypes : Learns call keys ((kinds entries).forM fun t => ensureType (hashKey t) "hash" true)
      fun _ db => ∀ t ∈ kinds entries, db.Typed t :=
    Learns.forM fun t ht => (learns_ensureType (hhashes t ht) _ _).mono fun _ _ h =>
      hash?_of_typeName h
  have hcurrent : Learns call keys (Store.ask (.get .revision) (judgeCurrent expectedRevision))
      fun _ db => db.revision = some expectedRevision ∧ expectedRevision < kMaxRedisInteger :=
    (Learns.ask rfl (by simpa [Command.keys] using hrevision) (fun _ _ h => by cases h)
      (judgeCurrent_ne_ok _)).mono fun _ db h => revision_of_judgeNumber (judgeCurrent_ok h)
  have hentry (t : EntityType) (ht : t ∈ kinds entries) (e : BlacklistEntry) : Learns call keys
      (Store.ask (.hget (hashKey t) e.id) (judgeExpiry e.expireAtMs nowMs)) fun _ db =>
        judgeExpiry e.expireAtMs nowMs ((Command.hget (hashKey t) e.id).run 0 db).reply = .ok () :=
    Learns.ask rfl (by simpa [Command.keys] using hhashes t ht) (by simp [judgeExpiry])
      (judgeExpiry_ne_ok _ _)
  refine ((learns_ensureType hrevision _ _).bind fun _ => htypes.bind fun _ =>
    hcurrent.bind fun _ => Learns.forM fun t ht => Learns.forM fun e _ => hentry t ht e).mono
      fun _ db => ?_
  rintro ⟨-, -, -, htyped, -, ⟨hrev, hlt⟩, hexpired⟩
  refine ⟨htyped, hrev, hlt, fun e he => ?_⟩
  have hgroup : e ∈ group entries e.type := mem_group.2 ⟨he, rfl⟩
  have hkind : e.type ∈ kinds entries := mem_kinds.2 (List.ne_nil_of_mem hgroup)
  have hreply := hexpired e.type hkind e hgroup
  rw [reply_hget (htyped _ hkind)] at hreply
  exact judgeExpiry_ok hreply

/-- The cache can be rebuilt. -/
structure NotReady (previous : ℕ) (db : BlacklistDb) : Prop where
  notReady : db .cacheReady = none
  revision : db.revision = some previous
  countable : previous < kMaxRedisInteger

theorem learns_readNotReadyRevision
    (hkeys : ∀ key ∈ [RedisKey.cacheReady, .revision, .users, .ips, .devices], key ∈ keys) :
    Learns call keys (readNotReadyRevision entries) fun previous db => NotReady previous db := by
  have hready := hkeys .cacheReady (by simp)
  have hrevision := hkeys .revision (by simp)
  have hmarker : Learns call keys (Store.ask (.get .cacheReady) judgeNotReady) fun _ db =>
      db .cacheReady = none := by
    refine (Learns.ask rfl (by simpa [Command.keys] using hready) (by simp [judgeNotReady])
      fun r => ?_).mono fun _ db h => judgeNotReady_ok h
    cases r with
    | string text => simp only [judgeNotReady]; split_ifs <;> simp
    | _ => simp [judgeNotReady]
  have hprevious : Learns call keys (Store.ask (.get .revision) judgePrevious) fun n db =>
      db.revision = some n ∧ n < kMaxRedisInteger := by
    refine (Learns.ask rfl (by simpa [Command.keys] using hrevision)
      (by simp [judgePrevious, judgeNumber]) fun r => ?_).mono
      fun _ db h => revision_of_judgePrevious h
    by_cases hr : r = .nil
    · simp [hr, judgePrevious]
    · rw [judgePrevious_of_ne hr]
      exact judgeNumber_ne_ok _ _
  have hexpect (accepted : Bool) : Learns call keys (Store.expect accepted) fun _ _ => True := by
    unfold Store.expect
    split_ifs
    · exact (Learns.pure ()).mono fun _ _ _ => trivial
    · exact (Learns.check (r := .error .protocolError) (by simp)).mono fun _ _ _ => trivial
  refine ((learns_ensureType hready _ _).bind fun _ => (learns_ensureType hrevision _ _).bind
    fun _ => (learns_ensureType (hkeys .users (by simp)) _ _).bind fun _ =>
      (learns_ensureType (hkeys .ips (by simp)) _ _).bind fun _ =>
        (learns_ensureType (hkeys .devices (by simp)) _ _).bind fun _ => hmarker.bind fun _ =>
          hprevious.bind fun previous => (hexpect _).bind fun _ => Learns.pure previous).mono
      fun n db => ?_
  rintro ⟨-, -, -, -, -, -, -, -, -, -, -, hmark, previous, ⟨hrev, hlt⟩, -, -, rfl⟩
  exact ⟨hmark, hrev, hlt⟩

/-- A barrier can be acknowledged. -/
structure BarrierOpen (token : ℕ) (db : BlacklistDb) : Prop where
  typed : (hash? (db .resetBarrier)).isSome = true
  /-- It was asked for, and no later one was acknowledged. -/
  counters : ∃ requested completed, db.barrierCounter (ascii "requested") = some requested ∧
    db.barrierCounter (ascii "completed") = some completed ∧ completed ≤ token ∧ token ≤ requested

theorem learns_barrierOpen (hkey : .resetBarrier ∈ keys) :
    Learns call keys (barrierOpen token) fun _ db => BarrierOpen token db := by
  have hstate : Learns call keys barrierState fun state db =>
      (hash? (db .resetBarrier)).isSome = true ∧
        db.barrierCounter (ascii "requested") = some state.requested ∧
        db.barrierCounter (ascii "completed") = some state.completed :=
    (Learns.ask rfl (by simpa [Command.keys] using hkey) (by simp [judgeBarrier])
      judgeBarrier_ne_ok).mono fun _ db h => counters_of_judgeBarrier h
  refine (hstate.bind fun state => Learns.check (by split_ifs <;> simp)).mono fun _ db => ?_
  rintro ⟨state, ⟨htyped, hr, hc⟩, hcheck⟩
  split_ifs at hcheck with hcond
  exact ⟨htyped, state.requested, state.completed, hr, hc, by omega, by omega⟩

end

/-! ### Sound queues -/

/-- The place of the revision in a queue. -/
theorem counted_append {cs ds : List (Command RedisKey)} {rest : List Reply}
    (hcs : .incr .revision ∉ cs) (hlength : replies.length = cs.length) :
    counted (cs ++ .incr .revision :: ds) (replies ++ .integer n :: rest) = some n := by
  have hnone : (cs.zip replies).find? (fun p => p.1 == .incr .revision) = none := by
    refine List.find?_eq_none.2 fun p hp hcond => hcs ?_
    rw [← beq_iff_eq.1 hcond]
    exact (List.of_mem_zip hp).1
  rw [counted, List.zip_append hlength.symm, List.find?_append, hnone]
  simp [natural?]

/-- A queue that ends with the revision. -/
theorem counted_last {cs : List (Command RedisKey)} (hcs : .incr .revision ∉ cs)
    (hlength : replies.length = cs.length + 1) (hlast : replies.getLast? = some (.integer n)) :
    counted (cs ++ [.incr .revision]) replies = some n := by
  obtain ⟨replies, rfl⟩ := List.getLast?_eq_some_iff.1 hlast
  refine counted_append hcs ?_
  simpa using hlength

theorem incr_notMem_removals (entries : List BlacklistEntry) : .incr .revision ∉
    (kinds entries).map fun t =>
      (.hdel (hashKey t) ((group entries t).map (·.id)) : Command RedisKey) := by
  simp

section

variable [Inet]

theorem incr_notMem_edits (mutations : List BlacklistMutation) : .incr .revision ∉
    mutations.flatMap fun m => [editCommand m, .xadd .pending (streamFields m)] := by
  intro h
  obtain ⟨m, -, hm⟩ := List.mem_flatMap.1 h
  cases m <;> simp [editCommand] at hm

theorem hashKey_mem_touchedKeys {mutations : List BlacklistMutation} {m : BlacklistMutation}
    (hm : m ∈ mutations) (ht : m.entityType = some t) : hashKey t ∈ touchedKeys mutations := by
  refine List.mem_filter.2 ⟨by cases t <;> simp [hashKey], ?_⟩
  have hany : mutations.any (fun m => m.entityType.map hashKey == some (hashKey t)) = true :=
    List.any_eq_true.2 ⟨m, hm, by simp [ht]⟩
  rw [hany, Bool.or_true]

theorem sound_applyMutations (mutations : List BlacklistMutation) (n : ℕ) :
    Sound (.applyMutations mutations) {db | Ready (touchedKeys mutations) n db}
      (batchCommands mutations) := by
  rintro now db ⟨hready, hstream, hhashes, hrevision, hn⟩
  have htyped : ∀ m ∈ mutations, ∀ t, m.entityType = some t → db.Typed t :=
    fun m hm t ht => hhashes _ (hashKey_mem_touchedKeys hm ht)
  obtain ⟨happlied, herrors, hlast, hnew⟩ :=
    @exec_batch _ now _ _ _ hready hrevision hn htyped hstream
  refine ⟨happlied, herrors, fun _ => ?_⟩
  rw [hnew]
  refine counted_last (incr_notMem_edits mutations) ?_ hlast
  simp [length_execReplies, batchCommands]

theorem sound_removeExpiredFields (entries : List BlacklistEntry) (expectedRevision nowMs : ℕ) :
    Sound (.removeExpiredFields entries expectedRevision nowMs)
      {db | StillExpired entries expectedRevision db} (removeCommands entries) := by
  rintro now db ⟨htyped, hrevision, hn, hexpired⟩
  obtain ⟨hremoved, herrors, hlast⟩ := @exec_remove now _ _ _ hrevision hn htyped hexpired
  refine ⟨hremoved, herrors, fun _ => ?_⟩
  rw [hremoved.revision.2]
  refine counted_last (incr_notMem_removals entries) ?_ hlast
  simp [length_execReplies, removeCommands]

theorem sound_rebuildFromMysql (entries : List BlacklistEntry) (n : ℕ) :
    Sound (.rebuildFromMysql entries) {db | NotReady n db} (rebuildCommands entries) := by
  rintro now db ⟨hready, hrevision, hn⟩
  obtain ⟨hrebuilt, herrors, replies, hreplies, hlength⟩ :=
    @exec_rebuild now _ _ entries hready hrevision hn
  refine ⟨hrebuilt, herrors, fun _ => ?_⟩
  obtain ⟨m, hm, hnew⟩ := hrebuilt.revision
  obtain rfl : n = m := Option.some.inj (hrevision.symm.trans hm)
  rw [hnew, hreplies]
  refine @counted_append _ _ _ [.set .cacheReady (ascii "1")] _ ?_ ?_
  · simp
  · simpa [rebuildCommands] using hlength

theorem sound_setPublishedRevision (revision : ℕ) : Sound (.setPublishedRevision revision)
    Set.univ [.set .publishedRevision (toText revision)] := by
  intro now db _
  refine ⟨rfl, fun r hr => ?_, fun h => by cases h⟩
  rw [List.mem_singleton.1 hr]
  rfl

theorem sound_completeResetBarrier (htoken : token ≤ kMaxRedisInteger) :
    Sound (.completeResetBarrier token) {db | BarrierOpen token db}
      [.hset .resetBarrier [(ascii "completed", toText token)]] := by
  rintro now db ⟨htyped, requested, completed, hr, hc, hlow, hhigh⟩
  obtain ⟨fields, hfields⟩ := Option.isSome_iff_exists.1 htyped
  have hparse : parseUnsigned (toText token) kMaxRedisInteger = some token := by
    refine parseUnsigned_toText ?_ htoken
    simp only [kMaxRedisInteger, maxInteger] at htoken
    omega
  have hdb : execDb now db [.hset .resetBarrier [(ascii "completed", toText token)]] =
      Function.update db .resetBarrier
        (ofHash (fields.insert (ascii "completed") (toText token))) := by
    simp only [execDb_cons, execDb_nil, Command.run, Outcome.onHash, hfields]
    rfl
  refine ⟨⟨⟨requested, completed, hr, hc, hlow, hhigh, ?_, ?_⟩, fun k hk => ?_⟩, ?_,
    fun h => by cases h⟩
  · rw [hdb, ← hr]
    simp only [BlacklistDb.barrierCounter, Function.update_self, hash?_ofHash, Option.bind_some,
      hfields]
    rw [Finmap.lookup_insert_of_ne _ (by decide)]
  · rw [hdb]
    simp only [BlacklistDb.barrierCounter, Function.update_self, hash?_ofHash, Option.bind_some,
      Finmap.lookup_insert]
    exact hparse
  · rw [hdb]
    exact Function.update_of_ne hk _ _
  · simp only [execReplies, Command.run, Outcome.onHash, hfields]
    exact List.forall_mem_singleton.2 rfl

end

/-! ### Calls without transactions -/

theorem keys_ne_nil_of_isRead (hread : c.isRead = true) : c.keys ≠ [] := by
  cases c <;> simp_all [Command.keys, Command.isRead]

section

variable [Inet] {call : StoreCall} {v : StoreView} {α : Type}

section

variable (hv : Fresh call v)
include hv

/-- A command outside of a transaction teaches nothing that would last. -/
theorem Fresh.upd (hc : c.isQuiet = true) (result : CommandResult) :
    Fresh call (v.upd (.command c) result) := by
  obtain ⟨hwatched, hqueue, hknown⟩ := hv.idle
  have hlost : Fresh call (v.lost c) := by
    simp only [View.lost, hqueue]
    exact ⟨hv.call, View.clear_idle v, hv.execs⟩
  have hlearn (r : Reply) : v.learn c r = v := by
    refine if_neg fun h => ?_
    obtain ⟨k, hk⟩ := List.exists_mem_of_ne_nil _ (keys_ne_nil_of_isRead h.1)
    exact absurd (h.2 k hk) (by simp [hwatched])
  cases result with
  | reply r =>
    simp only [View.upd, View.answered, hqueue, View.answeredAtOnce]
    split_ifs
    · exact hv
    · cases c with
      | watch | unwatch | multi | exec | discard => cases hc
      | _ => simpa only [hlearn] using hv
  | deadlineExceeded => exact hv
  | ioError | protocolError =>
    simp only [View.upd]
    split_ifs
    · exact hv
    · exact hlost

/-- A call that has changed nothing in a transaction. -/
abbrev Calm (call : StoreCall) (v : StoreView) (_ : α) : Prop := Fresh call v

theorem yields_ask {judge : Reply → Except StoreStatus α} (hc : c.isQuiet = true)
    (hallow : c.isData = true → c.isRead = true ∨ DirectWrite call c) :
    Checked.Yields View.upd Allow (Calm call) (Calm call) v (Store.ask c judge) := by
  refine Checked.yields_lift_bind.2 ⟨⟨?_, fun hd _ => ?_⟩, fun result => ?_⟩
  · rintro rfl
    cases hc
  · exact (hallow hd).imp id fun hwrite => ⟨call, hv.call, hwrite⟩
  · rw [Prog.meets_ret, Checked.yields_check]
    have hfresh := hv.upd hc result
    cases hresult : replyOf result >>= judge <;> exact hfresh

theorem yields_forM_calm {as : List α} {f : α → StoreCheck PUnit}
    (hf : ∀ a ∈ as, ∀ v, Fresh call v →
      Checked.Yields View.upd Allow (Calm call) (Calm call) v (f a)) :
    Checked.Yields View.upd Allow (Calm call) (Calm call) v (as.forM f) :=
  Checked.Yields.forM hv hf

/-- Reads. -/
theorem yields_read {judge : Reply → Except StoreStatus α} (hread : c.isRead = true) :
    Checked.Yields View.upd Allow (Calm call) (Calm call) v (Store.ask c judge) :=
  yields_ask hv (isQuiet_of_isRead hread) fun _ => .inl hread

theorem calm_readWatchedReadyRevision {hashKeys : List RedisKey} :
    Checked.Yields View.upd Allow (Calm call) (Calm call) v
      (readWatchedReadyRevision hashKeys) := by
  refine (yields_read hv rfl).bind fun v _ hv => (yields_read hv rfl).bind fun v _ hv =>
    (yields_read hv rfl).bind fun v _ hv => (yields_read hv rfl).bind fun v _ hv => ?_
  exact (yields_forM_calm hv fun key _ v hv => yields_read hv rfl).bind fun v _ hv =>
    yields_read hv rfl

theorem calm_scanHash {scanCount fuel : ℕ} {cursor : Bytes} :
    Checked.Yields View.upd Allow (Calm call) (Calm call) v (scanHash t scanCount fuel cursor) := by
  induction fuel generalizing v cursor with
  | zero => exact hv
  | succ fuel ih =>
    refine (yields_ask hv rfl fun h => by cases h).bind fun v page hv => ?_
    obtain ⟨next, page⟩ := page
    dsimp only
    split_ifs
    · exact hv
    · exact (ih hv).bind fun v _ hv => hv

theorem calm_stableSnapshot {scanCount fuel : ℕ} :
    Checked.Yields View.upd Allow (Calm call) (Calm call) v (stableSnapshot scanCount fuel) := by
  refine (yields_read hv rfl).bind fun v _ hv => (calm_scanHash hv).bind fun v _ hv =>
    (calm_scanHash hv).bind fun v _ hv => (calm_scanHash hv).bind fun v _ hv =>
      (yields_read hv rfl).bind fun v _ hv => ?_
  rw [Checked.yields_check]
  split_ifs <;> exact hv

end

theorem calm_orStop {output : ResetConvergence} {step : StoreCheck α}
    {next : α → Store ResetConvergence}
    (hstep : Checked.Yields View.upd Allow (Calm call) (Calm call) v step)
    (hnext : ∀ v a, Fresh call v → Prog.Meets View.upd Allow (Calm call) v (next a)) :
    Prog.Meets View.upd Allow (Calm call) v (orStop output step next) := by
  refine Prog.meets_bind.2 (Prog.Meets.mono hstep (fun _ _ h => h) fun v r hr => ?_)
  cases r with
  | ok a => exact hnext v a hr
  | error status => exact hr

theorem calm_readResetConvergence (hv : Fresh call v) :
    Prog.Meets View.upd Allow (Calm call) v readResetConvergence := by
  refine calm_orStop (yields_read hv rfl) fun v _ hv => calm_orStop (yields_read hv rfl)
    fun v _ hv => calm_orStop (yields_read hv rfl) fun v _ hv => calm_orStop (yields_read hv rfl)
      fun v _ hv => calm_orStop (yields_read hv rfl) fun v _ hv => ?_
  exact calm_orStop (yields_read hv rfl) fun v _ hv => hv

end

end Store

/-! ### The contract of every call -/

section

variable [Inet] {call : StoreCall} {v : StoreView}

/-- The result of a call tells whether its transaction ran. -/
structure StoreCall.Post (call : StoreCall) (v : StoreView) (reply : StoreReply) : Prop where
  /-- At most one transaction ran or may have run. -/
  once : v.execs.length ≤ 1
  /-- After `Ok` it ran, and the result is the revision that it counted to. -/
  ok : ∀ result, reply = .result result → call.counts = true → result.status = .ok →
    ∃ q replies n, v.execs = [(q, some replies)] ∧ result.revision = some n ∧
      counted q replies = some n
  /-- After the failures that promise it, none ran. -/
  clean : ∀ result, reply = .result result → call.counts = true →
    Store.clean result.status = true → v.execs = []

namespace Store

/-- The transaction of a call ran, and counted to a revision. -/
def Counted (call : StoreCall) (v : StoreView) (n : ℕ) : Prop :=
  ∃ q replies, Ran call q replies v ∧ counted q replies = some n

/-- The contract of a call. -/
def Ends (call : StoreCall) (v : StoreView) (reply : StoreReply) : Prop :=
  v.call = some call ∧ v.Idle ∧ call.Post v reply

theorem Fresh.ends {reply : StoreReply} (hv : Fresh call v)
    (hreply : ∀ result, reply = .result result → call.counts = true → result.status ≠ .ok) :
    Ends call v reply :=
  ⟨hv.call, hv.idle, by simp [hv.execs],
    fun result hr hcounts hok => absurd hok (hreply result hr hcounts), fun _ _ _ _ => hv.execs⟩

theorem ends_of_failed {status : StoreStatus} (h : Failed call v status) :
    Ends call v (.result (storeResult (.error status))) := by
  refine ⟨h.call, h.idle, h.once, ?_, ?_⟩
  · rintro result heq - hok
    obtain rfl := StoreReply.result.inj heq
    exact absurd hok h.failure
  · rintro result heq - hclean
    obtain rfl := StoreReply.result.inj heq
    exact h.none hclean

theorem ends_of_counted (h : Counted call v n) : Ends call v (.result (storeResult (.ok n))) := by
  obtain ⟨q, replies, hran, hcounted⟩ := h
  refine ⟨hran.call, hran.idle, by simp [hran.execs], ?_, ?_⟩
  · rintro result heq - -
    obtain rfl := StoreReply.result.inj heq
    exact ⟨q, replies, n, hran.execs, rfl, hcounted⟩
  · rintro result heq - hclean
    obtain rfl := StoreReply.result.inj heq
    cases hclean

theorem ends_status {status : StoreStatus} (hcall : v.call = some call) (hidle : v.Idle)
    (honce : v.execs.length ≤ 1) : Ends call v (.status status) :=
  ⟨hcall, hidle, honce, fun _ heq => (by cases heq), fun _ heq => (by cases heq)⟩

theorem meets_counting {p : StoreCheck ℕ}
    (h : Checked.Yields View.upd Allow (Counted call) (Failed call) v p) :
    Prog.Meets View.upd Allow (fun v result => Ends call v (.result result)) v
      (storeResult <$> p.run) := by
  refine Prog.meets_map.2 (Prog.Meets.mono h (fun _ _ h => h) fun v r hr => ?_)
  cases r with
  | ok n => exact ends_of_counted hr
  | error status => exact ends_of_failed hr

theorem meets_transacting {p : StoreCheck Unit}
    (h : Checked.Yields View.upd Allow (fun v _ => ∃ q replies, Ran call q replies v)
      (Failed call) v p) :
    Prog.Meets View.upd Allow (fun v status => Ends call v (.status status)) v
      (statusOf <$> p.run) := by
  refine Prog.meets_map.2 (Prog.Meets.mono h (fun _ _ h => h) fun v r hr => ?_)
  cases r with
  | ok =>
    obtain ⟨q, replies, hran⟩ := hr
    exact ends_status hran.call hran.idle (by simp [hran.execs])
  | error status => exact ends_status hr.call hr.idle hr.once

/-- A call that judges the replies to its transaction. -/
theorem yields_expect {q : List (Command RedisKey)} {accepted : Bool} {Q : StoreView → Unit → Prop}
    (hran : Ran call q replies v) (hQ : accepted = true → Q v ()) :
    Checked.Yields View.upd Allow Q (Failed call) v (Store.expect accepted) := by
  unfold Store.expect
  split_ifs with haccepted
  · exact hQ haccepted
  · exact ⟨hran.call, hran.idle, by simp [hran.execs], fun h => absurd h (by decide), by simp⟩

/-! ### The calls, one by one -/

omit [Inet] in
theorem integerIs_some {o : Option Reply} (h : integerIs n o = true) : o = some (.integer n) := by
  unfold integerIs at h
  split at h
  · rw [beq_iff_eq.1 h]
  · cases h

theorem counted_of_acceptBatch {mutations : List BlacklistMutation}
    (h : acceptBatch mutations n replies = true) :
    counted (batchCommands mutations) replies = some (n + 1) := by
  simp only [acceptBatch, Bool.and_eq_true, beq_iff_eq] at h
  refine counted_last (incr_notMem_edits mutations) ?_ (integerIs_some h.2)
  simpa [batchCommands] using h.1.1

theorem meets_applyMutations {mutations : List BlacklistMutation}
    (hv : Fresh (.applyMutations mutations) v) : Prog.Meets View.upd Allow
      (fun v result => Ends (.applyMutations mutations) v (.result result)) v
      (applyMutations mutations) := by
  unfold applyMutations
  split_ifs
  · exact ends_of_failed (hv.failed (by simp))
  · have hlength : (touchedKeys mutations).length ≤ 3 := List.length_filter_le _ _
    have hlearns : Learns (.applyMutations mutations)
        ([.cacheReady, .pending, .revision] ++ touchedKeys mutations)
        (readWatchedReadyRevision (touchedKeys mutations)) (Ready (touchedKeys mutations)) :=
      learns_readWatchedReadyRevision fun key hkey => by
        rcases hkey with rfl | rfl | rfl | hkey <;> simp [*]
    refine meets_counting ((yields_watchedTransaction (by simp; omega) hlearns
      (fun _ => isQuiet_batchCommands mutations) (sound_applyMutations mutations) hv).bind
        fun v r hran => ?_)
    obtain ⟨n, replies⟩ := r
    refine (yields_expect hran fun haccept => ?_).bind fun v _ h => h
    exact ⟨_, replies, hran, counted_of_acceptBatch haccept⟩

theorem meets_removeExpiredFields
    (hv : Fresh (.removeExpiredFields entries expectedRevision nowMs) v) :
    Prog.Meets View.upd Allow (fun v result =>
      Ends (.removeExpiredFields entries expectedRevision nowMs) v (.result result)) v
      (removeExpiredFields entries expectedRevision nowMs) := by
  unfold removeExpiredFields
  split_ifs
  · exact ends_of_failed (hv.failed (by simp))
  · have hlength : (kinds entries).length ≤ 3 := List.length_filter_le _ _
    have hlearns : Learns (.removeExpiredFields entries expectedRevision nowMs)
        (.revision :: (kinds entries).map hashKey) (stillExpired entries expectedRevision nowMs)
        (fun _ db => StillExpired entries expectedRevision db) :=
      learns_stillExpired List.mem_cons_self fun t ht =>
        List.mem_cons_of_mem _ (List.mem_map_of_mem ht)
    refine meets_counting ((yields_watchedTransaction (by simp; omega) hlearns
      (fun _ => isQuiet_removeCommands entries)
      (fun _ => sound_removeExpiredFields entries expectedRevision nowMs) hv).bind
        fun v r hran => ?_)
    obtain ⟨⟨⟩, replies⟩ := r
    refine (yields_expect hran fun haccept => ?_).bind fun v _ h => h
    simp only [acceptRemoval, Bool.and_eq_true, beq_iff_eq] at haccept
    refine ⟨_, replies, hran, counted_last (incr_notMem_removals entries) ?_
      (integerIs_some haccept.2)⟩
    simpa using haccept.1.1

omit [Inet] in
theorem counted_of_acceptRebuild (h : acceptRebuild entries n replies = true) :
    counted (rebuildCommands entries) replies = some (n + 1) := by
  simp only [acceptRebuild, Bool.and_eq_true, beq_iff_eq] at h
  obtain ⟨⟨⟨hlength, hok⟩, hcount⟩, -⟩ := h
  obtain ⟨rest, hrest⟩ := List.getLast?_eq_some_iff.1 (integerIs_some hcount)
  cases hlast : replies.getLast? with
  | none => rw [hlast] at hok; cases hok
  | some r =>
    obtain ⟨front, rfl⟩ := List.getLast?_eq_some_iff.1 hlast
    rw [List.dropLast_concat] at hrest
    subst hrest
    rw [List.append_assoc]
    refine @counted_append _ _ _ [.set .cacheReady (ascii "1")] [r] ?_ ?_
    · simp
    · simpa [rebuildCommands] using hlength

theorem meets_rebuildFromMysql (hv : Fresh (.rebuildFromMysql entries) v) :
    Prog.Meets View.upd Allow
      (fun v result => Ends (.rebuildFromMysql entries) v (.result result)) v
      (rebuildFromMysql entries) := by
  refine meets_counting ((yields_watchedTransaction (by simp)
    (learns_readNotReadyRevision fun _ h => h) (fun _ => isQuiet_rebuildCommands entries)
    (sound_rebuildFromMysql entries) hv).bind fun v r hran => ?_)
  obtain ⟨n, replies⟩ := r
  refine (yields_expect hran fun haccept => ?_).bind fun v _ h => h
  exact ⟨_, replies, hran, counted_of_acceptRebuild haccept⟩

theorem meets_setPublishedRevision {revision : ℕ} (hv : Fresh (.setPublishedRevision revision) v) :
    Prog.Meets View.upd Allow
      (fun v status => Ends (.setPublishedRevision revision) v (.status status)) v
      (setPublishedRevision revision) := by
  unfold setPublishedRevision
  split_ifs
  · exact ends_status hv.call hv.idle (by simp [hv.execs])
  · have hlearns : Learns (.setPublishedRevision revision) [.publishedRevision]
        (ensureType .publishedRevision "string" true) fun _ _ => True :=
      (learns_ensureType (List.mem_singleton.2 rfl) _ _).mono fun _ _ _ => trivial
    have hsound : Sound (.setPublishedRevision revision) {db | True}
        [.set .publishedRevision (toText revision)] := by
      simpa using sound_setPublishedRevision revision
    refine meets_transacting ((yields_watchedTransaction (by simp) hlearns
      (fun _ => List.forall_mem_singleton.2 rfl) (fun _ => hsound) hv).bind fun v r hran => ?_)
    exact yields_expect hran fun _ => ⟨_, _, hran⟩

theorem meets_completeResetBarrier (hv : Fresh (.completeResetBarrier token) v) :
    Prog.Meets View.upd Allow
      (fun v status => Ends (.completeResetBarrier token) v (.status status)) v
      (completeResetBarrier token) := by
  unfold completeResetBarrier
  split_ifs with htoken
  · exact ends_status hv.call hv.idle (by simp [hv.execs])
  · refine meets_transacting ((yields_watchedTransaction (by simp)
      (learns_barrierOpen (List.mem_singleton.2 rfl)) (fun _ => List.forall_mem_singleton.2 rfl)
      (fun _ => sound_completeResetBarrier (by omega)) hv).bind fun v r hran => ?_)
    exact yields_expect hran fun _ => ⟨_, _, hran⟩

theorem Fresh.ends_calm {reply : StoreReply} (hv : Fresh call v) (hcounts : call.counts = false) :
    Ends call v reply :=
  hv.ends fun _ _ hc => by simp [hcounts] at hc

/-- A call without transaction. -/
theorem meets_calm {α : Type} {p : StoreCheck α} {f : Except StoreStatus α → StoreReply}
    (hcounts : call.counts = false)
    (h : Checked.Yields View.upd Allow (Calm call) (Calm call) v p) :
    Prog.Meets View.upd Allow (fun v r => Ends call v (f r)) v p.run := by
  refine Prog.Meets.mono h (fun _ _ h => h) fun v r hr => ?_
  have hfresh : Fresh call v := by cases r <;> exact hr
  exact hfresh.ends_calm hcounts

/-- A call without transaction that goes on after its last command. -/
theorem meets_calm_bind {α β : Type} {p : StoreCheck α} {f : Except StoreStatus α → Store β}
    {g : β → StoreReply} (hcounts : call.counts = false)
    (h : Checked.Yields View.upd Allow (Calm call) (Calm call) v p)
    (hf : ∀ r, ∃ b, f r = pure b) :
    Prog.Meets View.upd Allow (fun v b => Ends call v (g b)) v (p.run >>= f) := by
  refine Prog.meets_bind.2 (Prog.Meets.mono h (fun _ _ h => h) fun v r hr => ?_)
  obtain ⟨b, hb⟩ := hf r
  have hfresh : Fresh call v := by cases r <;> exact hr
  rw [hb]
  exact hfresh.ends_calm hcounts

end Store

/-- **Every call keeps the contract of the store.** -/
theorem StoreCall.meets (call : StoreCall) (hv : v.Idle) :
    Prog.Meets View.upd Allow (Store.Ends call) (v.enter call) call.code := by
  have hfresh : Store.Fresh call (v.enter call) := ⟨rfl, hv, rfl⟩
  cases call with
  | applyMutations mutations => exact Prog.meets_map.2 (Store.meets_applyMutations hfresh)
  | rebuildFromMysql entries => exact Prog.meets_map.2 (Store.meets_rebuildFromMysql hfresh)
  | removeExpiredFields entries expectedRevision nowMs =>
    exact Prog.meets_map.2 (Store.meets_removeExpiredFields hfresh)
  | setPublishedRevision revision =>
      exact Prog.meets_map.2 (Store.meets_setPublishedRevision hfresh)
  | completeResetBarrier token => exact Prog.meets_map.2 (Store.meets_completeResetBarrier hfresh)
  | readReadyRevision =>
    exact Prog.meets_map.2 (Prog.meets_map.2
      (Store.meets_calm rfl (Store.calm_readWatchedReadyRevision hfresh)))
  | readRevision =>
    exact Prog.meets_map.2 (Prog.meets_map.2 (Store.meets_calm rfl (Store.yields_read hfresh rfl)))
  | requestResetBarrier =>
    exact Prog.meets_map.2 (Prog.meets_map.2
      (Store.meets_calm rfl (Store.yields_ask hfresh rfl fun _ => .inr rfl)))
  | readResetConvergence =>
    refine Prog.meets_map.2 ((Store.calm_readResetConvergence hfresh).mono (fun _ _ h => h)
      fun v r hr => ?_)
    exact Store.Fresh.ends_calm hr rfl
  | readPending count =>
    refine Prog.meets_map.2 ?_
    unfold Store.readPending
    split_ifs
    · exact hfresh.ends_calm rfl
    · exact Store.meets_calm_bind rfl (Store.yields_read hfresh rfl) fun r => by
        cases r <;> exact ⟨_, rfl⟩
  | deletePending streamIds =>
    refine Prog.meets_map.2 ?_
    unfold Store.deletePending
    split_ifs
    · exact hfresh.ends_calm rfl
    · exact hfresh.ends_calm rfl
    · refine Prog.meets_map.2 (Store.meets_calm rfl ?_)
      exact (Store.yields_ask hfresh rfl fun _ => .inr rfl).bind fun v _ hv => hv
  | loadStableSnapshot scanCount fuel =>
    refine Prog.meets_map.2 ?_
    unfold Store.loadStableSnapshot
    split_ifs
    · exact hfresh.ends_calm rfl
    · exact Store.meets_calm_bind rfl (Store.calm_stableSnapshot hfresh) fun r => by
        cases r <;> exact ⟨_, rfl⟩
  | readResetBarrier =>
    refine Prog.meets_map.2 ?_
    exact Store.meets_calm_bind rfl (Store.yields_read hfresh rfl) fun r => by
      cases r <;> exact ⟨_, rfl⟩

end

end AegisFlow
