import AegisFlow.App.MaintenanceCore
import AegisFlow.Interaction.Course
import AegisFlow.Interaction.Interp
import AegisFlow.Storage.StorePool
import AegisFlow.Storage.MysqlDao
import Mathlib.Data.Set.Card

/-!
# A deployment

Servers, command line tools, starting processes and other clients share one Redis server and one set
of tables.  Each process is a program over `DeploySig`, in which the calls of the store are
sequences of single commands, so that the commands of all processes may interleave.

* `runStore` : a call of the store, command by command;
* `answerCore` : the backend of the maintenance core.  It connects on demand, drops a connection
  that may be out of step, and may throw before or after a call;
* `DeployAnswers` : how the deployment answers an operation.  A transaction of the tables may fail
  before or after it took effect.

An exception in the middle of a call of the store looks like the loss of the connection at that
point, followed by an exception after the call.
-/

namespace AegisFlow

open Redis

/-! ### Operations -/

/-- How many rows are enabled. -/
structure BlacklistCounts where
  users : ℕ
  ips : ℕ
  devices : ℕ
  deriving DecidableEq, Repr

namespace BlacklistCounts

/-- The count for a kind of entity. -/
def of (counts : BlacklistCounts) : EntityType → ℕ
  | .user => counts.users
  | .ip => counts.ips
  | .device => counts.devices

/-- All of them. -/
def total (counts : BlacklistCounts) : ℕ := counts.users + counts.ips + counts.devices

/-- None is. -/
def empty (counts : BlacklistCounts) : Bool := counts.total == 0

end BlacklistCounts

/-- What opening the dependencies of a command line tool gave. -/
structure ManageBlacklistOpenResult where
  /-- They are open. -/
  backend : Bool
  /-- The time that the whole command has, in milliseconds. -/
  timeout : ℤ
  /-- What went wrong. -/
  error : String
  deriving DecidableEq, Repr

section

variable [Inet]

/-- What a process asks of the deployment. -/
inductive DeployOp
  /-- A call of the store begins; nothing happens yet. -/
  | enter (call : StoreCall)
  /-- An operation on the connection of the process. -/
  | redis (op : ConnectionOp RedisKey)
  /-- Is there a connection, or could one be made? -/
  | ensureRedis
  /-- Is an exception thrown here? -/
  | throws
  /-- What the core asks of its own process and of the tables. -/
  | core (op : CoreOp)
  /-- Read the clock. -/
  | now
  | sleepUntil (time : ℕ)
  /-- Read the configuration and connect. -/
  | openBackend
  /-- Count the enabled rows. -/
  | countEnabled

/-- The replies. -/
abbrev DeployOp.Reply : DeployOp → Type
  | enter _ => Unit
  | redis op => op.Reply
  | ensureRedis => Bool
  | throws => Bool
  | core op => op.Reply
  | now => ℕ
  | sleepUntil _ => Unit
  | openBackend => ManageBlacklistOpenResult
  | countEnabled => Option BlacklistCounts

/-- The signature of a process. -/
abbrev DeploySig : Sig where
  Op := DeployOp
  Reply := DeployOp.Reply

/-- Code of a process. -/
abbrev Deploy := Prog DeploySig

namespace Deploy

/-- Ask the deployment. -/
abbrev ask (op : DeployOp) : Deploy op.Reply := Prog.perform (E := DeploySig) op

/-- A command of the store is an operation on the connection of the process. -/
abbrev onRedis (op : ConnectionOp RedisKey) : Deploy op.Reply := ask (.redis op)

/-- A call of the store. -/
def runStore {α : Type} (call : StoreCall) (p : Store α) : Deploy α := do
  ask (.enter call)
  p.interp (E := ConnectionSig RedisKey) onRedis

/-! ### The backend of the maintenance core -/

/-- The statuses after which nobody knows where the connection stands. -/
def dropsRedisConnection (status : StoreStatus) : Bool :=
  status == .ioError || status == .commitUnknown || status == .deadlineExceeded ||
    status == .protocolError

/-- Drop a connection that may be out of step. -/
def observe (status : StoreStatus) : Deploy Unit := do
  if dropsRedisConnection status then ask (.redis .invalidate)
  else pure ()

/-- A method of the backend; the reply is `none` if it throws. -/
def method {α : Type} (call : StoreCall) (p : Store α) (status : α → StoreStatus) (refused : α) :
    Deploy (Option α) := do
  if ← ask .throws then return none
  else if ← ask .ensureRedis then do
    let result ← runStore call p
    observe (status result)
    if ← ask .throws then return none
    else return some result
  else return some refused

/-- How the core's own process, its backend and the tables answer; at most `fuel` steps of a scan
fit before the deadline. -/
def answerCore (fuel : ℕ) : (op : CoreOp) → Deploy op.Reply
  | .applyCandidates mutations =>
    method (.applyMutations mutations) (Store.applyMutations mutations) (·.status) ⟨.ioError, none⟩
  | .readRevision => method .readRevision Store.readRevision (·.status) ⟨.ioError, none⟩
  | .loadStableSnapshot scanCount =>
    method (.loadStableSnapshot scanCount fuel) (Store.loadStableSnapshot scanCount fuel) (·.status)
      (snapshotReadResult .ioError)
  | .removeExpiredFields entries expectedRevision nowMs =>
    method (.removeExpiredFields entries expectedRevision nowMs)
      (Store.removeExpiredFields entries expectedRevision nowMs) (·.status) ⟨.ioError, none⟩
  | .setPublishedRevision revision =>
    method (.setPublishedRevision revision) (Store.setPublishedRevision revision) id .ioError
  | .readPending count =>
    method (.readPending count) (Store.readPending count) (·.status) (pendingReadResult .ioError)
  | .deletePending streamIds =>
    method (.deletePending streamIds) (Store.deletePending streamIds) id .ioError
  | .readResetBarrier =>
    method .readResetBarrier Store.readResetBarrier (·.status) (resetReadResult .ioError)
  | .completeResetBarrier token =>
    method (.completeResetBarrier token) (Store.completeResetBarrier token) id .ioError
  | .createBackend => ask (.core .createBackend)
  | .shouldStop => ask (.core .shouldStop)
  | .businessInflight => ask (.core .businessInflight)
  | .queueEmpty => ask (.core .queueEmpty)
  | .reserveBatch maxBatchSize => ask (.core (.reserveBatch maxBatchSize))
  | .acknowledgeReserved => ask (.core .acknowledgeReserved)
  | .takeDroppedSinceLastReport => ask (.core .takeDroppedSinceLastReport)
  | .applyMysqlMutations mutations => ask (.core (.applyMysqlMutations mutations))
  | .publishCandidate candidate => ask (.core (.publishCandidate candidate))

end Deploy

/-! ### The world -/

/-- One Redis server, the tables, and the snapshots that the servers publish in memory. -/
structure Deployment (ι : Type) where
  redis : World ι RedisKey
  tables : Mysql.Tables
  snapshot : ι → BlacklistSnapshot

/-- The database of the Redis server. -/
abbrev Deployment.db {ι : Type} (w : Deployment ι) : BlacklistDb := w.redis.server.db

/-- What a core asks of its own process only. -/
def CoreOp.isLocal : CoreOp → Bool
  | createBackend | shouldStop | businessInflight | queueEmpty | reserveBatch _
  | acknowledgeReserved | takeDroppedSinceLastReport => true
  | _ => false

variable {ι : Type} [DecidableEq ι]

/-- How the deployment answers the process `i`. -/
inductive DeployAnswers (i : ι) (w : Deployment ι) :
    (op : DeployOp) → op.Reply → Deployment ι → Prop
  | enter (call : StoreCall) : DeployAnswers i w (.enter call) () w
  | redis {op : ConnectionOp RedisKey} {r : op.Reply} {redis : World ι RedisKey}
      (hserves : Serves i w.redis op r redis) :
        DeployAnswers i w (.redis op) r { w with redis := redis }
  | ensureRedis (connected : Bool) : DeployAnswers i w .ensureRedis connected w
  | throws (thrown : Bool) : DeployAnswers i w .throws thrown w
  | asked {op : CoreOp} (hlocal : op.isLocal = true) (r : op.Reply) :
      DeployAnswers i w (.core op) r w
  | published (candidate : BlacklistSnapshot) :
      DeployAnswers i w (.core (.publishCandidate candidate)) true
        { w with snapshot := Function.update w.snapshot i candidate }
  | notPublished (candidate : BlacklistSnapshot) :
      DeployAnswers i w (.core (.publishCandidate candidate)) false w
  | committed {mutations : List BlacklistMutation} {tables : Mysql.Tables}
      (happly : Mysql.applyBlacklistMutations w.tables mutations = some tables)
      (reply : Option Bool) : DeployAnswers i w (.core (.applyMysqlMutations mutations)) reply
        { w with tables := tables }
  | notCommitted (mutations : List BlacklistMutation) {reply : Option Bool}
      (hreply : reply ≠ some true) :
        DeployAnswers i w (.core (.applyMysqlMutations mutations)) reply w
  | now (time : ℕ) : DeployAnswers i w .now time w
  | sleepUntil (time : ℕ) : DeployAnswers i w (.sleepUntil time) () w
  | openBackend (opened : ManageBlacklistOpenResult) : DeployAnswers i w .openBackend opened w
  | counted (counts : BlacklistCounts)
      (hcounts : ∀ t, Set.encard {k | (w.tables.expiryAt t k).isSome = true} = counts.of t) :
      DeployAnswers i w .countEnabled (some counts) w
  | notCounted : DeployAnswers i w .countEnabled none w

namespace DeployAnswers

variable {i : ι} {w w' : Deployment ι}

theorem of_redis {op : ConnectionOp RedisKey} {r : op.Reply}
    (h : DeployAnswers i w (.redis op) r w') :
    ∃ redis, Serves i w.redis op r redis ∧ w' = { w with redis := redis } := by
  cases h with
  | redis hserves => exact ⟨_, hserves, rfl⟩

theorem of_enter {call : StoreCall} {r : Unit} (h : DeployAnswers i w (.enter call) r w') :
    w' = w := by
  cases h
  rfl

end DeployAnswers

end

end AegisFlow
