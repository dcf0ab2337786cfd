import AegisFlow.Risk.Mutation

/-!
# Results of the blacklist store

The statuses and result records that the operations of the Redis store return, and that the
maintenance core decides on.  A result other than `ok` carries no payload: its other fields
have their default values.
-/

namespace AegisFlow

/-- How a call of the store ended. -/
inductive StoreStatus
  | ok
  | watchConflict
  | notReady
  | invalidRemoteState
  | deadlineExceeded
  | ioError
  /-- The commit was sent and its reply was lost. -/
  | commitUnknown
  | transactionError
  | protocolError
  deriving DecidableEq, Repr

/-- A status and, if the call has one, a revision. -/
structure StoreResult where
  status : StoreStatus
  revision : Option ℕ
  deriving DecidableEq, Repr

/-- What one scan of the three hashes found. -/
structure SnapshotReadResult where
  status : StoreStatus
  /-- The revision before and after the scan. -/
  revision : ℕ
  /-- The fields, possibly with repetitions. -/
  entries : List BlacklistEntry
  deriving DecidableEq, Repr

/-- The two counters of the reset barrier. -/
structure ResetBarrierState where
  requested : ℕ
  completed : ℕ
  deriving DecidableEq, Repr

/-- The reset barrier as it was read. -/
structure ResetReadResult where
  status : StoreStatus
  state : ResetBarrierState
  deriving DecidableEq, Repr

/-- What the store shows of a reset that is being waited for. -/
structure ResetConvergence where
  status : StoreStatus
  userCount : ℕ := 0
  ipCount : ℕ := 0
  deviceCount : ℕ := 0
  pendingCount : ℕ := 0
  revision : Option ℕ := none
  publishedRevision : Option ℕ := none
  deriving DecidableEq, Repr

/-- Nothing is left in the store, and the published revision is the current one. -/
def ResetConvergence.redisAndPublicationEmpty (c : ResetConvergence) : Bool :=
  c.status == .ok && c.userCount == 0 && c.ipCount == 0 && c.deviceCount == 0 &&
    c.pendingCount == 0 && c.revision.isSome && c.publishedRevision == c.revision

section

variable [Inet]

/-- An entry of the pending stream. -/
structure PendingBlacklistEntry where
  streamId : Bytes
  /-- The mutation it describes, if it is well formed. -/
  mutation : Option BlacklistMutation
  /-- Why it is not well formed. -/
  error : String
  deriving DecidableEq

/-- The oldest entries of the pending stream. -/
structure PendingReadResult where
  status : StoreStatus
  /-- The entries, oldest first. -/
  entries : List PendingBlacklistEntry
  deriving DecidableEq

/-- A result without entries. -/
def pendingReadResult (status : StoreStatus) : PendingReadResult := ⟨status, []⟩

end

/-- A result without entries. -/
def snapshotReadResult (status : StoreStatus) : SnapshotReadResult := ⟨status, 0, []⟩

/-- A result with both counters zero. -/
def resetReadResult (status : StoreStatus) : ResetReadResult := ⟨status, ⟨0, 0⟩⟩

end AegisFlow
