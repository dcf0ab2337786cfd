import AegisFlow.Storage.RedisTransaction
import Mathlib.Data.List.Sort

/-!
# The operations of the blacklist store

The blacklist is kept in three hashes, identifiers to expiries.  Every change is also appended to
a stream, from which the tables are brought up to date later, and counted by a revision.

* `applyMutations`, `removeExpiredFields`, `rebuildFromMysql` : the writes that count as a revision;
* `setPublishedRevision`, `requestResetBarrier`, `completeResetBarrier` : the other writes;
* `readRevision`, `readReadyRevision`, `loadStableSnapshot`, `readPending`, `readResetBarrier`,
  `readResetConvergence` : the reads;
* `deletePending` : forget entries of the stream.

A scan ends when the server says so, at the latest at the deadline.  The model of
`loadStableSnapshot` takes a bound on the number of its steps, which stands for the deadline being
reached.
-/

namespace AegisFlow

open Redis

namespace Store

/-! ### Judging replies -/

/-- A string that must be a number of at most `maximum`. -/
def judgeNumber (maximum : ℕ) : Reply → Except StoreStatus ℕ
  | .string text =>
    match parseUnsigned text maximum with
    | some n => .ok n
    | none => .error .invalidRemoteState
  | _ => .error .invalidRemoteState

/-- The reply to `GET` for the ready marker. -/
def judgeReady : Reply → Except StoreStatus Unit
  | .nil => .error .notReady
  | .string text => if text = ascii "1" then .ok () else .error .invalidRemoteState
  | _ => .error .invalidRemoteState

/-- The reply is the given number. -/
def integerIs (expected : ℕ) : Option Reply → Bool
  | some (.integer value) => value == (expected : ℤ)
  | _ => false

/-- Check the marker, the types and the revision; called with or without `WATCH`. -/
def readWatchedReadyRevision (hashKeys : List RedisKey) : StoreCheck ℕ := do
  ensureType .cacheReady "string" true
  ask (.get .cacheReady) judgeReady
  ensureType .pending "stream" true
  ensureType .revision "string" false
  hashKeys.forM fun key => ensureType key "hash" true
  ask (.get .revision) (judgeNumber (kMaxRedisInteger - 1))

/-- The status of a result. -/
def storeResult : Except StoreStatus ℕ → StoreResult
  | .ok revision => ⟨.ok, some revision⟩
  | .error status => ⟨status, none⟩

/-- The status of a result without payload. -/
def statusOf : Except StoreStatus Unit → StoreStatus
  | .ok _ => .ok
  | .error status => status

/-- Fail unless the replies are as expected. -/
def expect (accepted : Bool) : StoreCheck Unit :=
  if accepted then pure () else throw .protocolError

section

variable [Inet]

/-! ### Applying mutations -/

/-- The name of a kind of entity in the stream. -/
def entityTypeText : EntityType → Bytes
  | .user => ascii "USER"
  | .ip => ascii "IP"
  | .device => ascii "DEVICE"

/-- The fields of a mutation in the stream. -/
def streamFields : BlacklistMutation → List Bytes
  | .mkUpsert type id reason expireAtMs .. =>
    [ascii "operation", ascii "UPSERT", ascii "type", entityTypeText type, ascii "id", id,
      ascii "reason", reason, ascii "expire_at_ms", toText expireAtMs]
  | .mkDisable type id _ =>
    [ascii "operation", ascii "DISABLE", ascii "type", entityTypeText type, ascii "id", id]
  | .mkClearAll => [ascii "operation", ascii "CLEAR_ALL"]

/-- The edit of the hashes that a mutation is. -/
def editCommand : BlacklistMutation → Command RedisKey
  | .mkUpsert type id _ expireAtMs .. => .hset (hashKey type) [(id, toText expireAtMs)]
  | .mkDisable type id _ => .hdel (hashKey type) [id]
  | .mkClearAll => .del [.users, .ips, .devices]

/-- The commands of a batch: each edit together with its entry in the stream, then the
revision. -/
def batchCommands (mutations : List BlacklistMutation) : List (Command RedisKey) :=
  mutations.flatMap (fun m => [editCommand m, .xadd .pending (streamFields m)]) ++ [.incr .revision]

theorem isQuiet_editCommand (m : BlacklistMutation) : (editCommand m).isQuiet = true := by
  cases m <;> rfl

theorem isQuiet_batchCommands (mutations : List BlacklistMutation) :
    ∀ c ∈ batchCommands mutations, c.isQuiet = true := by
  intro c hc
  rcases List.mem_append.1 hc with hc | hc
  · obtain ⟨m, -, hm⟩ := List.mem_flatMap.1 hc
    rcases List.mem_cons.1 hm with rfl | hm
    · exact isQuiet_editCommand m
    · rw [List.mem_singleton.1 hm]
      rfl
  · rw [List.mem_singleton.1 hc]
    rfl

/-- The batch clears everything. -/
def clears (mutations : List BlacklistMutation) : Bool :=
  mutations.head?.any fun m => m.operation == .clearAll

/-- A batch is not empty, and `clearAll` stands alone. -/
def validBatch (mutations : List BlacklistMutation) : Bool :=
  !mutations.isEmpty &&
    if clears mutations then mutations.length == 1
    else mutations.all fun m => m.operation != .clearAll

/-- The hashes that a batch edits, in the order of their names. -/
def touchedKeys (mutations : List BlacklistMutation) : List RedisKey :=
  [.devices, .ips, .users].filter fun key =>
    clears mutations || mutations.any fun m => m.entityType.map hashKey == some key

/-- A reply to an edit or to `XADD`, by its place. -/
def acceptBatchReply (clear : Bool) (index : ℕ) : Reply → Bool
  | .string text => (if clear then index == 1 else index % 2 == 1) && !text.isEmpty
  | .integer value =>
    !(if clear then index == 1 else index % 2 == 1) && decide (0 ≤ value) &&
      (!clear || decide (value ≤ 3))
  | _ => false

/-- The replies to a batch. -/
def acceptBatch (mutations : List BlacklistMutation) (revision : ℕ) (replies : List Reply) : Bool :=
  replies.length == (batchCommands mutations).length &&
    replies.dropLast.zipIdx.all (fun r => acceptBatchReply (clears mutations) r.2 r.1) &&
    integerIs (revision + 1) replies.getLast?

/-- Apply a batch of mutations to the hashes and append them to the stream. -/
def applyMutations (mutations : List BlacklistMutation) : Store StoreResult :=
  if !validBatch mutations then pure (storeResult (.error .protocolError))
  else storeResult <$> ExceptT.run do
    let (revision, replies) ← watchedTransaction
      ([.cacheReady, .pending, .revision] ++ touchedKeys mutations)
      (readWatchedReadyRevision (touchedKeys mutations)) fun _ => batchCommands mutations
    expect (acceptBatch mutations revision replies)
    return revision + 1

/-! ### Removing what has expired -/

/-- The entries that can be removed: normalised, expired, and in range. -/
def removable (nowMs : ℕ) (entry : BlacklistEntry) : Bool :=
  normalizeId entry.type entry.id == some entry.id && entry.expireAtMs != 0 &&
    decide (entry.expireAtMs ≤ nowMs) &&
    decide (entry.expireAtMs ≤ BlacklistMutation.kMaxExpireAtMs)

/-- The entries of one kind, by identifier. -/
def group (entries : List BlacklistEntry) (type : EntityType) : List BlacklistEntry :=
  (entries.filter fun e => e.type == type).insertionSort fun a b => a.id ≤ b.id

/-- The kinds of entities that occur. -/
def kinds (entries : List BlacklistEntry) : List EntityType :=
  [.user, .ip, .device].filter fun type => !(group entries type).isEmpty

/-- The reply to `HGET` for a field that was scanned with the given expiry. -/
def judgeExpiry (scanned nowMs : ℕ) : Reply → Except StoreStatus Unit
  | .nil => .error .watchConflict
  | .string text =>
    match parseUnsigned text BlacklistMutation.kMaxExpireAtMs with
    | none => .error .invalidRemoteState
    | some remote =>
      if remote ≠ scanned ∨ remote = 0 ∨ nowMs < remote then .error .watchConflict else .ok ()
  | _ => .error .invalidRemoteState

/-- The reply to `GET` for a revision that must be the expected one. -/
def judgeCurrent (expectedRevision : ℕ) (reply : Reply) : Except StoreStatus Unit := do
  let current ← judgeNumber (kMaxRedisInteger - 1) reply
  if current ≠ expectedRevision then .error .watchConflict else .ok ()

/-- The store is still as it was scanned. -/
def stillExpired (entries : List BlacklistEntry) (expectedRevision nowMs : ℕ) :
    StoreCheck Unit := do
  ensureType .revision "string" false
  (kinds entries).forM fun type => ensureType (hashKey type) "hash" true
  ask (.get .revision) (judgeCurrent expectedRevision)
  (kinds entries).forM fun type => (group entries type).forM fun entry =>
    ask (.hget (hashKey type) entry.id) (judgeExpiry entry.expireAtMs nowMs)

/-- One removal for each kind, then the revision. -/
def removeCommands (entries : List BlacklistEntry) : List (Command RedisKey) :=
  (kinds entries).map (fun type => .hdel (hashKey type) ((group entries type).map (·.id))) ++
    [.incr .revision]

omit [Inet] in
theorem isQuiet_removeCommands (entries : List BlacklistEntry) :
    ∀ c ∈ removeCommands entries, c.isQuiet = true := by
  simp only [removeCommands, List.mem_append, List.mem_map, List.mem_singleton]
  rintro c (⟨type, -, rfl⟩ | rfl) <;> rfl

/-- Every field was there, and the revision is the next one. -/
def acceptRemoval (entries : List BlacklistEntry) (expectedRevision : ℕ) (replies : List Reply) :
    Bool :=
  replies.length == (kinds entries).length + 1 &&
    ((kinds entries).zip replies).all
      (fun r => integerIs (group entries r.1).length (some r.2)) &&
    integerIs (expectedRevision + 1) replies.getLast?

/-- Remove entries that have expired, if nothing changed since they were scanned. -/
def removeExpiredFields (entries : List BlacklistEntry) (expectedRevision nowMs : ℕ) :
    Store StoreResult :=
  if entries.isEmpty || decide (kMaxRedisInteger ≤ expectedRevision) ||
      !entries.all (removable nowMs) ||
      !decide ((entries.map fun e => (e.type, e.id)).Nodup) then
    pure (storeResult (.error .protocolError))
  else storeResult <$> ExceptT.run do
    let (_, replies) ← watchedTransaction (.revision :: (kinds entries).map hashKey)
      (stillExpired entries expectedRevision nowMs) fun _ => removeCommands entries
    expect (acceptRemoval entries expectedRevision replies)
    return expectedRevision + 1

/-! ### Rebuilding the cache -/

/-- The entries that the cache takes. -/
def acceptable (entry : BlacklistEntry) : Bool :=
  (entry.type != .ip || normalizeId entry.type entry.id == some entry.id) &&
    validText entry.id BlacklistMutation.kMaxEntityIdBytes &&
    decide (entry.expireAtMs ≤ BlacklistMutation.kMaxExpireAtMs)

/-- The reply to `GET` for a marker that must not be set. -/
def judgeNotReady : Reply → Except StoreStatus Unit
  | .nil => .ok ()
  | .string text => .error (if text = ascii "1" then .watchConflict else .invalidRemoteState)
  | _ => .error .invalidRemoteState

/-- The reply to `GET` for a revision that may be absent. -/
def judgePrevious : Reply → Except StoreStatus ℕ
  | .nil => .ok 0
  | reply => judgeNumber (kMaxRedisInteger - 1) reply

/-- The cache is not ready, and everything can be overwritten; the previous revision. -/
def readNotReadyRevision (entries : List BlacklistEntry) : StoreCheck ℕ := do
  ensureType .cacheReady "string" true
  ensureType .revision "string" true
  ensureType .users "hash" true
  ensureType .ips "hash" true
  ensureType .devices "hash" true
  ask (.get .cacheReady) judgeNotReady
  let previous ← ask (.get .revision) judgePrevious
  expect (entries.all acceptable)
  return previous

/-- The fields of one kind of entity. -/
def hashPairs (entries : List BlacklistEntry) (type : EntityType) : List (Bytes × Bytes) :=
  (entries.filter fun e => e.type == type).map fun e => (e.id, toText e.expireAtMs)

/-- Overwrite the hashes, then the revision and the marker. -/
def rebuildCommands (entries : List BlacklistEntry) : List (Command RedisKey) :=
  .del [.users, .ips, .devices] ::
    (([.user, .ip, .device].filter fun type => !(hashPairs entries type).isEmpty).map fun type =>
      .hset (hashKey type) (hashPairs entries type)) ++
    [.incr .revision, .set .cacheReady (ascii "1")]

omit [Inet] in
theorem isQuiet_rebuildCommands (entries : List BlacklistEntry) :
    ∀ c ∈ rebuildCommands entries, c.isQuiet = true := by
  simp only [rebuildCommands, List.mem_append, List.mem_cons, List.mem_map, List.not_mem_nil,
    or_false]
  rintro c ((rfl | ⟨type, -, rfl⟩) | rfl | rfl) <;> rfl

/-- A reply to `DEL` or to `HSET`, by its place. -/
def acceptEditReply (index : ℕ) : Reply → Bool
  | .integer value => decide (0 ≤ value) && (index != 0 || decide (value ≤ 3))
  | _ => false

/-- The last reply is `OK`. -/
def isOk : Option Reply → Bool
  | some (.status text) => text == "OK"
  | _ => false

/-- The replies to a rebuild. -/
def acceptRebuild (entries : List BlacklistEntry) (previous : ℕ) (replies : List Reply) : Bool :=
  replies.length == (rebuildCommands entries).length && isOk replies.getLast? &&
    integerIs (previous + 1) replies.dropLast.getLast? &&
    replies.dropLast.dropLast.zipIdx.all fun r => acceptEditReply r.2 r.1

/-- Fill the hashes from the tables and mark the cache as ready, unless it is. -/
def rebuildFromMysql (entries : List BlacklistEntry) : Store StoreResult :=
  storeResult <$> ExceptT.run do
    let (previous, replies) ← watchedTransaction
      [.cacheReady, .revision, .users, .ips, .devices] (readNotReadyRevision entries)
      fun _ => rebuildCommands entries
    expect (acceptRebuild entries previous replies)
    return previous + 1

/-! ### The pending stream -/

/-- The form of the identifiers of stream entries. -/
def isStreamId (value : Bytes) : Bool :=
  match value.dropWhile (· != 45) with
  | 45 :: seq =>
    !seq.contains 45 && (parseUnsigned (value.takeWhile (· != 45)) kMaxRedisInteger).isSome &&
      (parseUnsigned seq kMaxRedisInteger).isSome
  | _ => false

/-- The kind of entity a name stands for. -/
def parseEntityType (text : Bytes) : Option EntityType :=
  if text = ascii "USER" then some .user
  else if text = ascii "IP" then some .ip
  else if text = ascii "DEVICE" then some .device
  else none

/-- Names and values, no name twice. -/
def pairUp (values : List (Bytes × Bytes)) : List Reply → Option (List (Bytes × Bytes))
  | [] => some values
  | .string name :: .string value :: rest =>
    if values.any (·.1 == name) then none else pairUp (values ++ [(name, value)]) rest
  | _ => none

/-- The fields of an entry. -/
def streamValues : Reply → Except String (List (Bytes × Bytes))
  | .array elements =>
    if elements.length % 2 ≠ 0 then .error "field array must contain pairs"
    else match pairUp [] elements with
      | some values => .ok values
      | none => .error "field name/value invalid or duplicated"
  | _ => .error "field array must contain pairs"

/-- The mutation that named fields describe. -/
def mutationOfValues (values : List (Bytes × Bytes)) : Except String BlacklistMutation :=
  match values.lookup (ascii "operation") with
  | none => .error "operation missing"
  | some operation =>
    if operation = ascii "CLEAR_ALL" then
      if values.length ≠ 1 then .error "CLEAR_ALL contains extra fields"
      else .ok .clearAll
    else match values.lookup (ascii "type"), values.lookup (ascii "id") with
      | some typeText, some id =>
        match parseEntityType typeText with
        | none => .error "entity type invalid"
        | some type =>
          if operation = ascii "DISABLE" then
            if values.length ≠ 3 then .error "DISABLE contains unknown or extra fields"
            else match BlacklistMutation.disable type id with
              | none => .error "DISABLE entity invalid"
              | some mutation => .ok mutation
          else if operation ≠ ascii "UPSERT" ∨ values.length ≠ 5 then
            .error "operation invalid or UPSERT fields incomplete"
          else match values.lookup (ascii "reason"), values.lookup (ascii "expire_at_ms") with
            | some reason, some expiry =>
              match parseUnsigned expiry BlacklistMutation.kMaxExpireAtMs with
              | none => .error "UPSERT expiry invalid"
              | some expireAtMs =>
                match BlacklistMutation.upsert type id reason expireAtMs with
                | none => .error "UPSERT entity or reason invalid"
                | some mutation => .ok mutation
            | _, _ => .error "UPSERT reason or expiry missing"
      | _, _ => .error "type or id missing"

/-- The mutation an entry describes. -/
def parseStreamMutation (fields : Reply) : Except String BlacklistMutation :=
  streamValues fields >>= mutationOfValues

/-- An entry of the stream. -/
def pendingEntry (streamId : Bytes) : Except String BlacklistMutation → PendingBlacklistEntry
  | .ok mutation => ⟨streamId, some mutation, ""⟩
  | .error error => ⟨streamId, none, error⟩

/-- An entry as the server reports it. -/
def judgeEntry : Reply → Except StoreStatus PendingBlacklistEntry
  | .array [.string streamId, fields] =>
    if isStreamId streamId then .ok (pendingEntry streamId (parseStreamMutation fields))
    else .error .protocolError
  | _ => .error .protocolError

/-- The reply to `XRANGE`. -/
def judgeEntries : Reply → Except StoreStatus (List PendingBlacklistEntry)
  | .error _ => .error .invalidRemoteState
  | .array elements => elements.mapM judgeEntry
  | _ => .error .protocolError

/-- The oldest entries of the stream. -/
def readPending (count : ℕ) : Store PendingReadResult := do
  if count = 0 then return pendingReadResult .protocolError
  else match ← (ask (.xrange .pending count) judgeEntries).run with
    | .ok entries => return ⟨.ok, entries⟩
    | .error status => return pendingReadResult status

end

/-- A reply that counts something. -/
def judgeCount : Reply → Except StoreStatus ℕ
  | .error _ => .error .invalidRemoteState
  | .integer value => if 0 ≤ value then .ok value.toNat else .error .protocolError
  | _ => .error .protocolError

/-- Forget entries of the stream. -/
def deletePending (streamIds : List Bytes) : Store StoreStatus :=
  if streamIds.isEmpty then pure .ok
  else if !streamIds.all isStreamId then pure .protocolError
  else statusOf <$> ExceptT.run do
    let _ ← ask (.xdel .pending streamIds) judgeCount

/-! ### Revisions -/

/-- The revision. -/
def currentRevision : StoreCheck ℕ := ask (.get .revision) (judgeNumber kMaxRedisInteger)

/-- Read the revision. -/
def readRevision : Store StoreResult := storeResult <$> currentRevision.run

/-- Read the revision of a cache that is ready. -/
def readReadyRevision : Store StoreResult :=
  storeResult <$> (readWatchedReadyRevision [.users, .ips, .devices]).run

/-- Report the revision that readers use. -/
def setPublishedRevision (revision : ℕ) : Store StoreStatus :=
  if kMaxRedisInteger < revision then pure .protocolError
  else statusOf <$> ExceptT.run do
    let (_, replies) ← watchedTransaction [.publishedRevision]
      (ensureType .publishedRevision "string" true)
      fun _ => [.set .publishedRevision (toText revision)]
    expect (replies.length == 1 && isOk replies.head?)

/-! ### Scanning the hashes -/

section

variable [Inet]

/-- The fields of a page and their values. -/
def scanEntries (type : EntityType) : List Reply → Except StoreStatus (List BlacklistEntry)
  | [] => .ok []
  | .string id :: .string value :: rest =>
    if normalizeId type id ≠ some id then .error .invalidRemoteState
    else match parseUnsigned value BlacklistMutation.kMaxExpireAtMs with
      | none => .error .invalidRemoteState
      | some expireAtMs => do
        let entries ← scanEntries type rest
        return ⟨type, id, expireAtMs⟩ :: entries
  | _ => .error .protocolError

/-- The reply to `HSCAN`: the next cursor and the entries of the page. -/
def parseHashScan (type : EntityType) : Reply → Except StoreStatus (Bytes × List BlacklistEntry)
  | .error _ => .error .invalidRemoteState
  | .array [.string cursor, .array values] =>
    if values.length % 2 ≠ 0 then .error .protocolError
    else if (parseUnsigned cursor kMaxRedisInteger).isNone then .error .protocolError
    else do
      let entries ← scanEntries type values
      return (cursor, entries)
  | _ => .error .protocolError

/-- Scan one hash from a cursor on; at most `fuel` steps fit before the deadline. -/
def scanHash (type : EntityType) (scanCount : ℕ) :
    (fuel : ℕ) → (cursor : Bytes) → StoreCheck (List BlacklistEntry)
  | 0, _ => throw .deadlineExceeded
  | fuel + 1, cursor => do
    let (next, page) ← ask (.hscan (hashKey type) cursor scanCount) (parseHashScan type)
    if next = zeroCursor then return page
    else do
      let rest ← scanHash type scanCount fuel next
      return page ++ rest

/-- The three hashes, if the revision did not change meanwhile. -/
def stableSnapshot (scanCount fuel : ℕ) : StoreCheck (ℕ × List BlacklistEntry) := do
  let before ← currentRevision
  let users ← scanHash .user scanCount fuel zeroCursor
  let ips ← scanHash .ip scanCount fuel zeroCursor
  let devices ← scanHash .device scanCount fuel zeroCursor
  let after ← currentRevision
  Checked.check (if after ≠ before then .error .watchConflict
    else .ok (before, users ++ ips ++ devices))

/-- Scan the three hashes. -/
def loadStableSnapshot (scanCount fuel : ℕ) : Store SnapshotReadResult := do
  if scanCount = 0 then return snapshotReadResult .protocolError
  else match ← (stableSnapshot scanCount fuel).run with
    | .ok (revision, entries) => return ⟨.ok, revision, entries⟩
    | .error status => return snapshotReadResult status

end

/-! ### The reset barrier -/

/-- The reply to `HINCRBY`. -/
def judgeToken : Reply → Except StoreStatus ℕ
  | .error _ => .error .invalidRemoteState
  | .integer value => if 0 < value then .ok value.toNat else .error .protocolError
  | _ => .error .protocolError

/-- Ask for a barrier; the result is its number. -/
def requestResetBarrier : Store StoreResult :=
  storeResult <$> (ask (.hincrby .resetBarrier (ascii "requested") 1) judgeToken).run

/-- A counter of the barrier; an absent one is zero. -/
def judgeBarrierCounter : Reply → Except StoreStatus ℕ
  | .nil => .ok 0
  | reply => judgeNumber kMaxRedisInteger reply

/-- The reply to `HMGET`. -/
def judgeBarrier : Reply → Except StoreStatus ResetBarrierState
  | .error _ => .error .invalidRemoteState
  | .array [requested, completed] => do
    let requested ← judgeBarrierCounter requested
    let completed ← judgeBarrierCounter completed
    if requested < completed then .error .invalidRemoteState else .ok ⟨requested, completed⟩
  | _ => .error .protocolError

/-- The counters of the barrier. -/
def barrierState : StoreCheck ResetBarrierState :=
  ask (.hmget .resetBarrier [ascii "requested", ascii "completed"]) judgeBarrier

/-- Read the reset barrier. -/
def readResetBarrier : Store ResetReadResult := do
  match ← barrierState.run with
  | .ok state => return ⟨.ok, state⟩
  | .error status => return resetReadResult status

/-- The barrier can be acknowledged: it was asked for, and no later one was acknowledged. -/
def barrierOpen (token : ℕ) : StoreCheck Unit := do
  let state ← barrierState
  Checked.check (if state.requested < token ∨ token < state.completed then
    .error .invalidRemoteState else .ok ())

/-- Acknowledge a barrier. -/
def completeResetBarrier (token : ℕ) : Store StoreStatus :=
  if token = 0 ∨ kMaxRedisInteger < token then pure .protocolError
  else statusOf <$> ExceptT.run do
    let (_, replies) ← watchedTransaction [.resetBarrier] (barrierOpen token)
      fun _ => [.hset .resetBarrier [(ascii "completed", toText token)]]
    expect (replies.length == 1 && (replies.all (acceptEditReply 1)))

/-- A revision that may be absent. -/
def judgeOptional : Reply → Except StoreStatus (Option ℕ)
  | .nil => .ok none
  | reply => some <$> judgeNumber kMaxRedisInteger reply

/-- Run a step of `readResetConvergence`: its failure is the status of what was read so far. -/
def orStop {α : Type} (output : ResetConvergence) (step : StoreCheck α)
    (next : α → Store ResetConvergence) : Store ResetConvergence := do
  match ← step.run with
  | .ok a => next a
  | .error status => return { output with status := status }

/-- Read how much is left of what a reset removes, and which revision is published. -/
def readResetConvergence : Store ResetConvergence :=
  orStop { status := .ok } (ask (.hlen .users) judgeCount) fun userCount =>
  orStop { status := .ok, userCount } (ask (.hlen .ips) judgeCount) fun ipCount =>
  orStop { status := .ok, userCount, ipCount } (ask (.hlen .devices) judgeCount) fun deviceCount =>
  orStop { status := .ok, userCount, ipCount, deviceCount }
    (ask (.xlen .pending) judgeCount) fun pendingCount =>
  orStop { status := .ok, userCount, ipCount, deviceCount, pendingCount }
    (ask (.get .revision) judgeOptional) fun revision =>
  orStop { status := .ok, userCount, ipCount, deviceCount, pendingCount, revision }
    (ask (.get .publishedRevision) judgeOptional) fun publishedRevision =>
  pure ⟨.ok, userCount, ipCount, deviceCount, pendingCount, revision, publishedRevision⟩

end Store

variable [Inet]

/-- The calls of the store. -/
inductive StoreCall
  | applyMutations (mutations : List BlacklistMutation)
  | readPending (count : ℕ)
  | deletePending (streamIds : List Bytes)
  | rebuildFromMysql (entries : List BlacklistEntry)
  | readReadyRevision
  | readRevision
  | loadStableSnapshot (scanCount fuel : ℕ)
  | removeExpiredFields (entries : List BlacklistEntry) (expectedRevision nowMs : ℕ)
  | setPublishedRevision (revision : ℕ)
  | requestResetBarrier
  | readResetBarrier
  | completeResetBarrier (token : ℕ)
  | readResetConvergence
  deriving DecidableEq

/-- The results of the calls. -/
inductive StoreReply
  | result (result : StoreResult)
  | status (status : StoreStatus)
  | pending (result : PendingReadResult)
  | snapshot (result : SnapshotReadResult)
  | barrier (result : ResetReadResult)
  | convergence (result : ResetConvergence)

/-- The code of a call. -/
def StoreCall.code : StoreCall → Store StoreReply
  | applyMutations mutations => .result <$> Store.applyMutations mutations
  | readPending count => .pending <$> Store.readPending count
  | deletePending streamIds => .status <$> Store.deletePending streamIds
  | rebuildFromMysql entries => .result <$> Store.rebuildFromMysql entries
  | readReadyRevision => .result <$> Store.readReadyRevision
  | readRevision => .result <$> Store.readRevision
  | loadStableSnapshot scanCount fuel => .snapshot <$> Store.loadStableSnapshot scanCount fuel
  | removeExpiredFields entries expectedRevision nowMs =>
    .result <$> Store.removeExpiredFields entries expectedRevision nowMs
  | setPublishedRevision revision => .status <$> Store.setPublishedRevision revision
  | requestResetBarrier => .result <$> Store.requestResetBarrier
  | readResetBarrier => .barrier <$> Store.readResetBarrier
  | completeResetBarrier token => .status <$> Store.completeResetBarrier token
  | readResetConvergence => .convergence <$> Store.readResetConvergence

end AegisFlow
