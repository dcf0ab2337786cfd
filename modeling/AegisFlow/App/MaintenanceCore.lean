import AegisFlow.App.CandidateQueue
import AegisFlow.Interaction.Proc
import AegisFlow.Risk.Snapshot
import AegisFlow.Storage.Types
import Mathlib.Data.Ordering.Basic
import Std.Data.TreeMap.Lemmas

/-!
# The maintenance core

One worker thread repeats *rounds*.  A round writes a batch of candidates to the store (or, if
a reset barrier was requested, drains all of them and acknowledges the barrier), refreshes the
in-memory snapshot, reports the published revision, and writes a batch of the pending stream
back to the tables.  The code is a `Proc` over the signature `CoreSig`: the methods of the
backend, the shared queue, the clock and stop tokens, and the snapshot that readers use.  A
method of the backend may throw, which is the reply `none`.

* `runRound` and `drainCandidatesUntil` : the two entry points;
* `CoreState` : the fields of the core that outlive a call.

The loop of `drainCandidatesUntil` runs until its deadline at the latest.  Its model takes a
bound on the number of iterations, which stands for the deadline being reached.
-/

namespace AegisFlow

deriving instance Ord for EntityType

/-- Entities in the order of their kinds and, within a kind, of their identifiers. -/
abbrev compareEntity : EntityType × Bytes → EntityType × Bytes → Ordering :=
  compareLex (compareOn Prod.fst) (compareOn Prod.snd)

/-- Expiries by entity, in the order of the entities. -/
abbrev ExpiryMap := Std.TreeMap (EntityType × Bytes) ℕ compareEntity

/-- The configuration of the maintenance, all durations in milliseconds. -/
structure BlacklistMaintenanceConfig where
  /-- Time between two rounds. -/
  maintenanceInterval : ℕ
  /-- Longest duration of a round. -/
  maintenanceTimeout : ℕ
  /-- Time between two clean-ups of expired entries. -/
  expireCleanupInterval : ℕ
  /-- Fields per scan step, and entries per batch of the pending stream. -/
  batchSize : ℕ
  candidateBatchSize : ℕ
  deriving DecidableEq, Repr

/-- The configurations the core accepts: durations of at most a day, nothing zero. -/
def validConfig (config : BlacklistMaintenanceConfig) : Bool :=
  let maximumDuration := 24 * 60 * 60 * 1000
  decide (0 < config.maintenanceInterval) && decide (0 < config.maintenanceTimeout) &&
    decide (0 < config.expireCleanupInterval) &&
    decide (config.maintenanceInterval ≤ maximumDuration) &&
    decide (config.maintenanceTimeout ≤ maximumDuration) &&
    decide (config.expireCleanupInterval ≤ maximumDuration) &&
    decide (0 < config.batchSize) && decide (0 < config.candidateBatchSize)

/-- The fields of the core that outlive a call. -/
structure CoreState where
  backend : Bool
  /-- The revision of the snapshot that readers use. -/
  lastPublishedRevision : ℕ
  /-- That revision was not reported to the store yet. -/
  publicationDirty : Bool
  /-- Number of rounds begun. -/
  completedRounds : ℕ
  /-- When expired entries are cleaned up next. -/
  nextExpireCleanup : ℕ
  deriving DecidableEq, Repr

variable [Inet]

/-- What the core asks of its surroundings. -/
inductive CoreOp
  | createBackend
  | shouldStop
  | businessInflight
  | queueEmpty
  | reserveBatch (maxBatchSize : ℕ)
  | acknowledgeReserved
  | takeDroppedSinceLastReport
  | applyCandidates (mutations : List BlacklistMutation)
  | readRevision
  | loadStableSnapshot (scanCount : ℕ)
  | removeExpiredFields (entries : List BlacklistEntry) (expectedRevision nowMs : ℕ)
  | setPublishedRevision (revision : ℕ)
  | readPending (count : ℕ)
  | deletePending (streamIds : List Bytes)
  | applyMysqlMutations (mutations : List BlacklistMutation)
  | readResetBarrier
  | completeResetBarrier (token : ℕ)
  | publishCandidate (candidate : BlacklistSnapshot)

/-- The replies; `none` is an exception thrown by the backend. -/
abbrev CoreOp.Reply : CoreOp → Type
  | createBackend => Bool
  | shouldStop => Bool
  | businessInflight => ℕ
  | queueEmpty => Bool
  | reserveBatch _ => List BlacklistMutation
  | acknowledgeReserved => Unit
  | takeDroppedSinceLastReport => ℕ
  | applyCandidates _ => Option StoreResult
  | readRevision => Option StoreResult
  | loadStableSnapshot _ => Option SnapshotReadResult
  | removeExpiredFields .. => Option StoreResult
  | setPublishedRevision _ => Option StoreStatus
  | readPending _ => Option PendingReadResult
  | deletePending _ => Option StoreStatus
  | applyMysqlMutations _ => Option Bool
  | readResetBarrier => Option ResetReadResult
  | completeResetBarrier _ => Option StoreStatus
  | publishCandidate _ => Bool

/-- The signature of the core. -/
abbrev CoreSig : Sig where
  Op := CoreOp
  Reply := CoreOp.Reply

/-- Code of the core. -/
abbrev Core := Proc CoreSig CoreState

namespace Core

/-- Ask the surroundings. -/
abbrev ask (op : CoreOp) : Core op.Reply := Proc.perform (E := CoreSig) op

/-! ### The methods of the backend -/

/-- Write candidates to the store. -/
def applyCandidates (mutations : List BlacklistMutation) : Core StoreResult := do
  Proc.ofOption (← ask (.applyCandidates mutations))

/-- Read the revision of the store. -/
def readRevision : Core StoreResult := do
  Proc.ofOption (← ask .readRevision)

/-- Scan the hashes of the store. -/
def loadStableSnapshot (scanCount : ℕ) : Core SnapshotReadResult := do
  Proc.ofOption (← ask (.loadStableSnapshot scanCount))

/-- Remove expired fields from the store. -/
def removeExpiredFields (entries : List BlacklistEntry) (expectedRevision nowMs : ℕ) :
    Core StoreResult := do
  Proc.ofOption (← ask (.removeExpiredFields entries expectedRevision nowMs))

/-- Report the published revision. -/
def setPublishedRevision (revision : ℕ) : Core StoreStatus := do
  Proc.ofOption (← ask (.setPublishedRevision revision))

/-- Read the oldest entries of the pending stream. -/
def readPending (count : ℕ) : Core PendingReadResult := do
  Proc.ofOption (← ask (.readPending count))

/-- Delete entries of the pending stream. -/
def deletePending (streamIds : List Bytes) : Core StoreStatus := do
  Proc.ofOption (← ask (.deletePending streamIds))

/-- Apply mutations to the tables. -/
def applyMysqlMutations (mutations : List BlacklistMutation) : Core Bool := do
  Proc.ofOption (← ask (.applyMysqlMutations mutations))

/-- Read the reset barrier. -/
def readResetBarrier : Core ResetReadResult := do
  Proc.ofOption (← ask .readResetBarrier)

/-- Acknowledge the reset barrier. -/
def completeResetBarrier (token : ℕ) : Core StoreStatus := do
  Proc.ofOption (← ask (.completeResetBarrier token))

/-! ### Candidates -/

/-- Make sure that there is a backend. -/
def ensureBackend : Core Bool := do
  let core ← Proc.get
  if core.backend then pure true
  else do
    let created ← ask .createBackend
    Proc.modify fun core => { core with backend := created }
    pure created

/-- Drop the backend after an exception: nobody knows in which state it was left. -/
def resetBackend : Core Unit := Proc.modify fun core => { core with backend := false }

/-- Write one batch of candidates. -/
def flushOneCandidateBatch (config : BlacklistMaintenanceConfig) : Core Bool := do
  if ← ask .shouldStop then pure false
  else do
    let batch ← ask (.reserveBatch config.candidateBatchSize)
    if batch.isEmpty then pure true
    else do
      let stored ← applyCandidates batch
      -- on failure the batch stays reserved: the next round gets it again
      if stored.status ≠ .ok ∨ stored.revision.isNone then pure false
      else do
        ask .acknowledgeReserved
        pure true

/-- Write batches until the queue is empty; at most `fuel` attempts fit before the deadline. -/
def drainLoop (config : BlacklistMaintenanceConfig) : (fuel : ℕ) → Core Bool
  | 0 => pure false
  | fuel + 1 => do
    if ← ask .queueEmpty then pure true
    else if ← ask .shouldStop then pure false
    else if ← flushOneCandidateBatch config then drainLoop config fuel
    else if ← ask .shouldStop then pure false
    else drainLoop config fuel

/-- Write candidates until none is left. -/
def drainCandidatesUntil (config : BlacklistMaintenanceConfig) (fuel : ℕ) : Core Bool := do
  let _dropped ← ask .takeDroppedSinceLastReport
  if ← ensureBackend then
    Proc.tryCatch (drainLoop config fuel) do
      resetBackend
      pure false
  else pure false

/-- Acknowledge a reset barrier, once no business task is under way and no candidate is left. -/
def handleResetBarrier (config : BlacklistMaintenanceConfig) (fuel : ℕ)
    (barrier : ResetReadResult) : Core Bool := do
  if barrier.state.requested ≤ barrier.state.completed then pure true
  else if (← ask .businessInflight) ≠ 0 then pure false
  else if ← drainCandidatesUntil config fuel then
    -- tasks accepted meanwhile may have submitted candidates: look once more
    if ← ask .shouldStop then pure false
    else if (← ask .businessInflight) ≠ 0 then pure false
    else if ← ask .queueEmpty then do
      let status ← completeResetBarrier barrier.state.requested
      pure (status == .ok)
    else pure false
  else pure false

/-! ### The snapshot -/

/-- Fold repetitions of a field; a field that was seen with two values spoils the scan. -/
def foldUnique (entries : List BlacklistEntry) : Option ExpiryMap :=
  entries.foldlM (fun unique entry =>
    match unique[(entry.type, entry.id)]? with
    | none => some (unique.insert (entry.type, entry.id) entry.expireAtMs)
    | some expiry => if expiry ≠ entry.expireAtMs then none else some unique) ∅

/-- The folded scan as entries. -/
def uniqueEntries (unique : ExpiryMap) : List BlacklistEntry :=
  unique.toList.map fun e => ⟨e.1.1, e.1.2, e.2⟩

/-- Remove expired entries from the store if a clean-up is due; `none` if this failed. -/
def removeExpired (expired : List BlacklistEntry) (cleanupDue : Bool) (revision nowMs : ℕ) :
    Core (Option ℕ) := do
  if cleanupDue && !expired.isEmpty then do
    let removed ← removeExpiredFields expired revision nowMs
    match removed.status, removed.revision with
    | .ok, some published =>
      if ← ask .shouldStop then pure none else pure (some published)
    | _, _ => pure none
  else pure (some revision)

/-- Publish the active entries of a scan that belongs to `publishedRevision`. -/
def publishActive (config : BlacklistMaintenanceConfig) (active : List BlacklistEntry)
    (publishedRevision : ℕ) (cleanupDue : Bool) (nowMs steadyNow : ℕ) : Core Unit := do
  match prepareCandidate active nowMs with
  | none => pure ()
  | some candidate =>
    if ← ask .shouldStop then pure ()
    else if ← ask (.publishCandidate candidate) then
      Proc.modify fun core => { core with
        lastPublishedRevision := publishedRevision
        publicationDirty := true
        nextExpireCleanup :=
          if cleanupDue then steadyNow + config.expireCleanupInterval
          else core.nextExpireCleanup }
    else pure ()

/-- Bring the in-memory snapshot up to date and clean up expired entries. -/
def refreshSnapshotAndExpiry (config : BlacklistMaintenanceConfig) (nowMs steadyNow : ℕ) :
    Core Unit := do
  if ← ask .shouldStop then pure ()
  else do
    let read ← readRevision
    match read.status, read.revision with
    | .ok, some revision => do
      let core ← Proc.get
      let cleanupDue := decide (core.nextExpireCleanup ≤ steadyNow)
      if !cleanupDue && revision == core.lastPublishedRevision then pure ()
      else do
        let snapshot ← loadStableSnapshot config.batchSize
        -- a scan during which the revision changed is a mixture and is not published
        if snapshot.status ≠ .ok then pure ()
        else if ← ask .shouldStop then pure ()
        else match foldUnique snapshot.entries with
          | none => pure ()
          | some unique => do
            let (expired, active) :=
              (uniqueEntries unique).partition fun entry => isExpiredAt entry.expireAtMs nowMs
            match ← removeExpired expired cleanupDue snapshot.revision nowMs with
            | none => pure ()
            | some published => publishActive config active published cleanupDue nowMs steadyNow
    | _, _ => pure ()

/-- Report the revision of the snapshot, if this was not done yet. -/
def retryPublishedRevision : Core Unit := do
  let core ← Proc.get
  if !core.publicationDirty then pure ()
  else if ← ask .shouldStop then pure ()
  else do
    let status ← setPublishedRevision core.lastPublishedRevision
    if status = .ok then Proc.modify fun core => { core with publicationDirty := false }
    else pure ()

/-! ### Writing back -/

/-- Delete malformed entries first, so that they cannot block the others for ever. -/
def deleteInvalid (invalidIds : List Bytes) : Core Bool := do
  if invalidIds.isEmpty then pure true
  else do
    let status ← deletePending invalidIds
    pure (status == .ok)

/-- Apply the oldest pending mutations to the tables, and delete them from the stream. -/
def flushOnePendingBatch (config : BlacklistMaintenanceConfig) : Core Unit := do
  if ← ask .shouldStop then pure ()
  else do
    let pending ← readPending config.batchSize
    if pending.status ≠ .ok ∨ pending.entries.isEmpty then pure ()
    else do
      let invalidIds := (pending.entries.filter (·.mutation.isNone)).map (·.streamId)
      let validIds := (pending.entries.filter (·.mutation.isSome)).map (·.streamId)
      let mutations := pending.entries.filterMap (·.mutation)
      if ← deleteInvalid invalidIds then
        if mutations.isEmpty then pure ()
        else if ← ask .shouldStop then pure ()
        -- entries are deleted only after the commit; otherwise the next round applies them again
        else if ← applyMysqlMutations mutations then
          if ← ask .shouldStop then pure ()
          else do
            let _status ← deletePending validIds
            pure ()
        else pure ()
      else pure ()

/-! ### Rounds -/

/-- A round, from the moment it has a backend. -/
def roundBody (config : BlacklistMaintenanceConfig) (fuel nowMs steadyNow : ℕ) : Core Unit := do
  let barrier ← readResetBarrier
  if barrier.status ≠ .ok then pure ()
  else do
    let flushed ←
      if barrier.state.completed < barrier.state.requested then
        handleResetBarrier config fuel barrier
      else flushOneCandidateBatch config
    if flushed then do
      refreshSnapshotAndExpiry config nowMs steadyNow
      retryPublishedRevision
      flushOnePendingBatch config
    else pure ()

/-- One round of maintenance. -/
def runRound (config : BlacklistMaintenanceConfig) (fuel nowMs steadyNow : ℕ) : Core Unit := do
  Proc.modify fun core => { core with completedRounds := core.completedRounds + 1 }
  let _dropped ← ask .takeDroppedSinceLastReport
  if ← ensureBackend then
    if ← ask .shouldStop then pure ()
    else Proc.tryCatch (roundBody config fuel nowMs steadyNow) resetBackend
  else pure ()

end Core

/-- The calls the maintenance worker makes. -/
inductive CoreCall
  | runRound (fuel nowMs steadyNow : ℕ)
  | drainCandidatesUntil (fuel : ℕ)

/-- The code of a call; only a drain has a result, which is whether the queue got empty. -/
def CoreCall.code (config : BlacklistMaintenanceConfig) : CoreCall → Core (Option Bool)
  | runRound fuel nowMs steadyNow => do
    Core.runRound config fuel nowMs steadyNow
    pure none
  | drainCandidatesUntil fuel => do
    let drained ← Core.drainCandidatesUntil config fuel
    pure (some drained)

end AegisFlow
