import AegisFlow.Interaction.Checked
import AegisFlow.Redis.Server
import AegisFlow.Storage.Types

/-!
# Transactions of the blacklist store

Every write of the store to more than one key is an optimistic transaction: `WATCH` the keys, read
what the write depends on, `MULTI`, queue the commands, `EXEC`.  The connection is reused, so on
every way out the session must be left without watched keys and without an open `MULTI`, or the
connection must be dropped.

* `RedisKey` : the keys under one prefix;
* `ask` : send a command and judge its reply;
* `leaveWatch`, `leaveTransaction`, `checkedExecStatus` : the three ways out;
* `watchedTransaction` : the frame that all writes share.

The guard object of the source drops the connection when an exception leaves a transaction; the
exits below have no exceptions, and each one dismisses the guard.
-/

namespace AegisFlow

open Redis

/-- The keys under one prefix. -/
inductive RedisKey
  | users
  | ips
  | devices
  | pending
  | revision
  | cacheReady
  | publishedRevision
  | resetBarrier
  deriving DecidableEq, Repr

/-- The hash of a kind of entity. -/
def hashKey : EntityType → RedisKey
  | .user => .users
  | .ip => .ips
  | .device => .devices

/-- The largest integer the server counts to. -/
def kMaxRedisInteger : ℕ := maxInteger

/-- Code of the store. -/
abbrev Store := Prog (ConnectionSig RedisKey)

/-- Code of the store that may fail with a status. -/
abbrev StoreCheck := Checked (ConnectionSig RedisKey) StoreStatus

namespace Store

/-- Send a command. -/
def run (c : Command RedisKey) : Store CommandResult :=
  Prog.perform (E := ConnectionSig RedisKey) (.command c)

/-- Drop the connection. -/
def invalidate : Store Unit := Prog.perform (E := ConnectionSig RedisKey) .invalidate

/-- The status of a command. -/
def commandStatus : CommandResult → StoreStatus
  | .reply _ => .ok
  | .deadlineExceeded => .deadlineExceeded
  | .ioError => .ioError
  | .protocolError => .protocolError

/-- The reply is the given status. -/
def statusIs (expected : String) : CommandResult → Bool
  | .reply (.status text) => text == expected
  | _ => false

/-- The reply, or why there is none. -/
def replyOf : CommandResult → Except StoreStatus Reply
  | .reply value => .ok value
  | failure => .error (commandStatus failure)

/-- Send a command and judge its reply. -/
def ask {α : Type} (c : Command RedisKey) (judge : Reply → Except StoreStatus α) :
    StoreCheck α := do
  let result ← Checked.lift (run c)
  Checked.check (replyOf result >>= judge)

/-- The reply to `TYPE`. -/
def judgeType (expected : String) (allowNone : Bool) : Reply → Except StoreStatus Unit
  | .status text =>
    if text = expected ∨ (allowNone = true ∧ text = "none") then .ok ()
    else .error .invalidRemoteState
  | _ => .error .protocolError

/-- A key holds the expected type. -/
def ensureType (key : RedisKey) (expected : String) (allowNone : Bool) : StoreCheck Unit :=
  ask (.type key) (judgeType expected allowNone)

/-! ### The ways out -/

/-- The status of a command that must be answered by `expected`. -/
def confirmed (expected : String) (result : CommandResult) : StoreStatus :=
  if statusIs expected result then .ok
  else match commandStatus result with
    | .ok => .protocolError
    | status => status

theorem confirmed_eq_ok {expected : String} {result : CommandResult} :
    confirmed expected result = .ok ↔ result = .reply (.status expected) := by
  cases result with
  | reply r =>
    cases r with
    | status text =>
      simp only [confirmed, statusIs, commandStatus, beq_iff_eq, CommandResult.reply.injEq,
        Reply.status.injEq]
      split_ifs with h <;> simp [h]
    | _ => simp [confirmed, statusIs, commandStatus]
  | _ => simp [confirmed, statusIs, commandStatus]

/-- Stop watching. -/
def unwatch : Store StoreStatus := do
  return confirmed "OK" (← run .unwatch)

/-- Throw the queued commands away. -/
def discard : Store StoreStatus := do
  return confirmed "OK" (← run .discard)

/-- Drop the connection unless it was cleaned; a failure to clean replaces the status. -/
def leave (clean : Store StoreStatus) (original : StoreStatus) : Store StoreStatus := do
  let cleaned ← clean
  if cleaned ≠ .ok then do
    invalidate
    return cleaned
  else return original

/-- Leave after `WATCH`. -/
def leaveWatch (original : StoreStatus) : Store StoreStatus := leave unwatch original

/-- Leave after `MULTI`. -/
def leaveTransaction (original : StoreStatus) : Store StoreStatus := leave discard original

/-- Queue a command. -/
def queueCommand (c : Command RedisKey) : Store StoreStatus := do
  return confirmed "QUEUED" (← run c)

/-- The replies of a transaction, or why it has none. -/
def execBaseStatus : CommandResult → Except StoreStatus (List Reply)
  | .deadlineExceeded => .error .deadlineExceeded
  -- `EXEC` was handed over: nobody knows whether it was executed
  | .ioError => .error .commitUnknown
  | .protocolError => .error .protocolError
  | .reply .nil => .error .watchConflict
  | .reply (.error _) => .error .transactionError
  | .reply (.array elements) =>
    if elements.any Reply.isError then .error .transactionError else .ok elements
  | .reply _ => .error .protocolError

/-- The connection is kept only if `EXEC` was answered. -/
def checkedExecStatus (result : CommandResult) : StoreCheck (List Reply) := do
  if commandStatus result ≠ .ok then do
    Checked.lift invalidate
    Checked.check (execBaseStatus result)
  else Checked.check (execBaseStatus result)

/-- Execute the queued commands. -/
def exec : StoreCheck (List Reply) := do
  checkedExecStatus (← Checked.lift (run .exec))

/-! ### The frame of a transaction -/

/-- Watch keys. -/
def watch (keys : List RedisKey) : StoreCheck Unit := do
  let result ← Checked.lift (run (.watch keys))
  if commandStatus result ≠ .ok then throw (commandStatus result)
  else if statusIs "OK" result then pure ()
  else do
    Checked.lift invalidate
    throw .protocolError

/-- Read under `WATCH`; a failure leaves the watch. -/
def underWatch {α : Type} (precondition : StoreCheck α) : StoreCheck α := do
  match ← Checked.lift precondition.run with
  | .ok a => pure a
  | .error status => throw (← Checked.lift (leaveWatch status))

/-- Leave the transaction unless the status is `ok`. -/
def orDiscard (status : StoreStatus) : StoreCheck Unit := do
  if status = .ok then pure ()
  else throw (← Checked.lift (leaveTransaction status))

/-- Open a transaction. -/
def multi : StoreCheck Unit := do
  orDiscard (confirmed "OK" (← Checked.lift (run .multi)))

/-- Queue a command, or leave the transaction. -/
def queueOrDiscard (c : Command RedisKey) : StoreCheck Unit := do
  orDiscard (← Checked.lift (queueCommand c))

/-- Watch keys, read, and execute the commands that follow from what was read.  The result is
what was read and the replies. -/
def watchedTransaction {α : Type} (keys : List RedisKey) (precondition : StoreCheck α)
    (commands : α → List (Command RedisKey)) : StoreCheck (α × List Reply) := do
  watch keys
  let a ← underWatch precondition
  multi
  (commands a).forM queueOrDiscard
  let replies ← exec
  return (a, replies)

end Store

end AegisFlow
