import AegisFlow.App.Deployment

/-!
# The command line tool

`manage_blacklist` adds an entity to the blacklist, disables one, or clears everything.  A single
mutation is tried again as long as it meets a conflict.  Clearing first asks for a barrier and waits
until the server has acknowledged it, so that no candidate of before can come later; on request it
then waits until nothing is left anywhere and the server has published that.

* `applyWithRetry` : apply one mutation, again after each conflict;
* `runManageBlacklistCommand` : the command, from the parsed arguments on;
* `CommandOutcome` : how it ends, with its exit code and what it prints.

The loops run until the deadline at the latest.  Their models take a bound on the number of
iterations, which stands for the deadline being reached.
-/

namespace AegisFlow

/-- What the tool does. -/
inductive ManageBlacklistAction
  | add
  | disable
  | clearAll
  deriving DecidableEq, Repr

/-- The name of an action. -/
def actionName : ManageBlacklistAction → String
  | .add => "UPSERT"
  | .disable => "DISABLE"
  | .clearAll => "CLEAR_ALL"

/-- The operation that belongs to an action. -/
def ManageBlacklistAction.operation : ManageBlacklistAction → BlacklistMutationOperation
  | .add => .upsert
  | .disable => .disable
  | .clearAll => .clearAll

/-- The name of a status. -/
def statusName : StoreStatus → String
  | .ok => "ok"
  | .watchConflict => "watch_conflict"
  | .notReady => "not_ready"
  | .invalidRemoteState => "invalid_remote_state"
  | .deadlineExceeded => "deadline_exceeded"
  | .ioError => "io_error"
  | .commitUnknown => "commit_unknown"
  | .transactionError => "transaction_error"
  | .protocolError => "protocol_error"

/-- How the tool ends. -/
inductive CommandOutcome
  /-- The dependencies could not be opened. -/
  | notOpened (error : String)
  /-- Opening them took too long. -/
  | openedTooLate
  | applyFailed (action : ManageBlacklistAction) (status : StoreStatus)
  /-- The barrier could not be asked for, or read. -/
  | barrierFailed (status : StoreStatus)
  /-- The barrier was not acknowledged. -/
  | barrierTimeout (token : ℕ)
  /-- What is left could not be read. -/
  | waitFailed (reason : String)
  /-- Something was left. -/
  | waitTimeout (token : ℕ)
  | applied (action : ManageBlacklistAction) (revision : ℕ)
  /-- Everything was cleared. -/
  | cleared (revision token : ℕ) (converged : Bool)
  deriving DecidableEq, Repr

namespace CommandOutcome

/-- The exit code. -/
def exitCode : CommandOutcome → ℕ
  | applied .. | cleared .. => 0
  | _ => 1

/-- What is printed, on the standard output if the exit code is zero. -/
def line : CommandOutcome → String
  | notOpened error => "manage_blacklist: " ++ (if error.isEmpty then "无法打开依赖" else error)
  | openedTooLate => "manage_blacklist: deadline_exceeded while opening dependencies"
  | applyFailed action status =>
    "manage_blacklist: operation=" ++ actionName action ++ " status=" ++ statusName status
  | barrierFailed status => "manage_blacklist: operation=CLEAR_ALL barrier=" ++ statusName status
  | barrierTimeout token =>
    "manage_blacklist: operation=CLEAR_ALL barrier=timeout token=" ++ toString token
  | waitFailed reason => "manage_blacklist: operation=CLEAR_ALL wait=" ++ reason
  | waitTimeout token =>
    "manage_blacklist: operation=CLEAR_ALL wait=timeout token=" ++ toString token
  | applied action revision =>
    "status=ok operation=" ++ actionName action ++ " revision=" ++ toString revision
  | cleared revision token converged =>
    "status=ok operation=CLEAR_ALL revision=" ++ toString revision ++ " barrier_token=" ++
      toString token ++ " converged=" ++ (if converged then "1" else "0")

end CommandOutcome

variable [Inet]

/-- What the arguments of the tool say. -/
structure ManageBlacklistCommand where
  action : ManageBlacklistAction
  mutation : BlacklistMutation
  /-- Wait until nothing is left. -/
  wait : Bool
  mutation_operation : mutation.operation = action.operation

namespace Tool

open Deploy

/-- Read the clock, in nanoseconds. -/
def clockNow : Deploy ℕ := ask .now

/-- The latest point in time. -/
def maxTime : ℕ := 2 ^ 63 - 1

/-- When the command has to be done. -/
def deadlineFrom (startedAt : ℕ) (timeout : ℤ) : ℕ :=
  startedAt + min ((maxTime - startedAt) / 1000000) timeout.toNat * 1000000

/-- Wait a little; is there time left? -/
def sleepForPoll (deadline : ℕ) : Deploy Bool := do
  let now ← clockNow
  if deadline ≤ now then return false
  else do
    ask (.sleepUntil (min deadline (now + 25000000)))
    let later ← clockNow
    return decide (later < deadline)

/-- Apply one mutation. -/
def applyMutation (mutation : BlacklistMutation) : Deploy StoreResult :=
  runStore (.applyMutations [mutation]) (Store.applyMutations [mutation])

/-- Apply one mutation, again after each conflict. -/
def applyWithRetry (mutation : BlacklistMutation) (deadline : ℕ) : (fuel : ℕ) → Deploy StoreResult
  | 0 => return ⟨.deadlineExceeded, none⟩
  | fuel + 1 => do
    let now ← clockNow
    if now < deadline then do
      let result ← applyMutation mutation
      if result.status ≠ .watchConflict then return result
      else if ← sleepForPoll deadline then applyWithRetry mutation deadline fuel
      else return ⟨.deadlineExceeded, none⟩
    else return ⟨.deadlineExceeded, none⟩

/-- What is reported for a result without a revision. -/
def reported (result : StoreResult) : StoreStatus :=
  if result.status = .ok then .protocolError else result.status

/-- Wait until a barrier is acknowledged. -/
def awaitBarrier (token deadline : ℕ) : (fuel : ℕ) → Deploy (Except StoreStatus Bool)
  | 0 => return .ok false
  | fuel + 1 => do
    let now ← clockNow
    if now < deadline then do
      let barrier ← runStore .readResetBarrier Store.readResetBarrier
      if barrier.status ≠ .ok then return .error barrier.status
      else if token ≤ barrier.state.completed then return .ok true
      else if ← sleepForPoll deadline then awaitBarrier token deadline fuel
      else return .ok false
    else return .ok false

/-- Nothing is left anywhere. -/
def resetConverged (redis : ResetConvergence) (counts : BlacklistCounts) : Bool :=
  redis.redisAndPublicationEmpty && counts.empty

/-- Count the enabled rows. -/
def countEnabledBlacklists : Deploy (Option BlacklistCounts) := ask .countEnabled

/-- Wait until nothing is left anywhere. -/
def awaitConvergence (deadline : ℕ) : (fuel : ℕ) → Deploy (Except String Bool)
  | 0 => return .ok false
  | fuel + 1 => do
    let now ← clockNow
    if now < deadline then do
      let redis ← runStore .readResetConvergence Store.readResetConvergence
      if redis.status ≠ .ok then return .error (statusName redis.status)
      else match ← countEnabledBlacklists with
        | none => do
          let later ← clockNow
          return .error (if deadline ≤ later then "deadline_exceeded" else "mysql_error")
        | some counts =>
          if resetConverged redis counts then return .ok true
          else if ← sleepForPoll deadline then awaitConvergence deadline fuel
          else return .ok false
    else return .ok false

/-- Add or disable an entity. -/
def runMutation (command : ManageBlacklistCommand) (deadline fuel : ℕ) : Deploy CommandOutcome := do
  let result ← applyWithRetry command.mutation deadline fuel
  match result.status, result.revision with
  | .ok, some revision => return .applied command.action revision
  | _, _ => return .applyFailed command.action (reported result)

/-- Clear everything, once the barrier was acknowledged. -/
def runClear (command : ManageBlacklistCommand) (token deadline fuel : ℕ) :
    Deploy CommandOutcome := do
  let result ← applyWithRetry command.mutation deadline fuel
  match result.status, result.revision with
  | .ok, some revision =>
    if command.wait then
      match ← awaitConvergence deadline fuel with
      | .error reason => return .waitFailed reason
      | .ok false => return .waitTimeout token
      | .ok true => return .cleared revision token true
    else return .cleared revision token false
  | _, _ => return .applyFailed command.action (reported result)

/-- Ask for a barrier, wait for it, and clear everything. -/
def runReset (command : ManageBlacklistCommand) (deadline fuel : ℕ) : Deploy CommandOutcome := do
  let requested ← runStore .requestResetBarrier Store.requestResetBarrier
  match requested.status, requested.revision with
  | .ok, some token =>
    if token = 0 then return .barrierFailed .protocolError
    else match ← awaitBarrier token deadline fuel with
      | .error status => return .barrierFailed status
      | .ok false => return .barrierTimeout token
      | .ok true => runClear command token deadline fuel
  | _, _ => return .barrierFailed (reported requested)

/-- The tool, from the parsed arguments on. -/
def runManageBlacklistCommand (command : ManageBlacklistCommand) (fuel : ℕ) :
    Deploy CommandOutcome := do
  -- the time that opening the dependencies takes counts
  let startedAt ← clockNow
  let opened ← (ask .openBackend : Deploy ManageBlacklistOpenResult)
  if !opened.backend || decide (opened.timeout ≤ 0) then return .notOpened opened.error
  else do
    let deadline := deadlineFrom startedAt opened.timeout
    let now ← clockNow
    if deadline ≤ now then return .openedTooLate
    else if command.action = .clearAll then runReset command deadline fuel
    else runMutation command deadline fuel

end Tool

end AegisFlow
