import AegisFlow.Interaction.Prog
import AegisFlow.Redis.Database

/-!
# A Redis server and its connections

The server executes one command at a time.  Each connection has a session: the keys it watches,
whether one of them was touched since, the commands queued since `MULTI`, and how far a scan got.

* `Responds i s c r s'` : the server in state `s` answers the command `c` of the connection `i`
  with `r` and is in state `s'` afterwards.  A command may also be rejected, which fails a
  transaction that is being queued;
* `Serves i w op r w'` : the same as the client library sees it.  A command is not sent once the
  deadline has passed, or if it has too many arguments; a connection that breaks is dropped, after
  the command was executed or without;
* `World.answer` : one of these answers, computed.

A scan promises to report every field that is present from its beginning to its end.  It may report
a field more than once, and fields that came or went meanwhile.
-/

namespace AegisFlow

namespace Redis

/-! ### Sessions -/

/-- The state of a connection at the server. -/
structure Session (κ : Type) where
  watched : List κ := []
  /-- A watched key was touched. -/
  dirty : Bool := false
  /-- The commands queued since `MULTI`. -/
  queue : Option (List (Command κ)) := none
  /-- A command could not be queued. -/
  aborted : Bool := false
  /-- A key under scan, and the fields still to be reported. -/
  scan : Option (κ × Finset Bytes) := none

/-- The commands on data, which the server executes at once. -/
def Command.isData {κ : Type} : Command κ → Bool
  | watch _ | unwatch | multi | exec | discard | hscan .. => false
  | _ => true

/-- The commands that `MULTI` delays. -/
def Command.isQueued {κ : Type} : Command κ → Bool
  | watch _ | multi | exec | discard => false
  | _ => true

/-- The commands that do not control transactions. -/
def Command.isQuiet {κ : Type} : Command κ → Bool
  | watch _ | unwatch | multi | exec | discard => false
  | _ => true

/-- The cursor at which a scan starts and ends. -/
def zeroCursor : Bytes := toText 0

/-- The reply to a scan. -/
def scanReply (next : Bytes) (page : List (Bytes × Bytes)) : Reply :=
  .array [.string next, .array (page.flatMap fun pair => [.string pair.1, .string pair.2])]

/-- The names on a page of a scan. -/
def pageNames (page : List (Bytes × Bytes)) : Finset Bytes := (page.map Prod.fst).toFinset

variable {ι κ : Type} [DecidableEq ι] [DecidableEq κ]

namespace Session

/-- Some keys were touched, and this is the database now. -/
def touch (db : Db κ) (keys : List κ) (x : Session κ) : Session κ :=
  { x with
    dirty := x.dirty || x.watched.any fun k => decide (k ∈ keys)
    -- a field that is gone need not be reported any more
    scan := x.scan.map fun p => (p.1, p.2 ∩ ((hash? (db p.1)).getD ∅).keys) }

/-- The end of a transaction. -/
def reset (x : Session κ) : Session κ :=
  { x with watched := [], dirty := false, queue := none, aborted := false }

/-- The fields that a scan has still to report when it is continued at `cursor`. -/
def owed (x : Session κ) (key : κ) (cursor : Bytes) (fields : Hash) : Finset Bytes :=
  if cursor = zeroCursor then fields.keys
  else match x.scan with
    | none => ∅
    | some (k, names) => if k = key then names else ∅

/-- A command is rejected: a transaction that is being queued has failed. -/
def reject (c : Command κ) (x : Session κ) : Session κ :=
  if x.queue.isNone then x
  else if c = .exec then x.reset
  else { x with aborted := true }

end Session

/-! ### The server -/

/-- A server: the database and the sessions. -/
structure Server (ι κ : Type) where
  db : Db κ
  sessions : ι → Session κ

namespace Server

/-- Change one session. -/
def update (s : Server ι κ) (i : ι) (f : Session κ → Session κ) : Server ι κ :=
  { s with sessions := Function.update s.sessions i (f (s.sessions i)) }

/-- The database changed at the given keys. -/
def commit (s : Server ι κ) (db : Db κ) (touched : List κ) : Server ι κ :=
  ⟨db, fun i => (s.sessions i).touch db touched⟩

end Server

/-- How the server answers a command. -/
inductive Responds (i : ι) (s : Server ι κ) : Command κ → Reply → Server ι κ → Prop
  | run (now : ℕ) {c : Command κ} (hqueue : (s.sessions i).queue = none) (hdata : c.isData = true) :
    Responds i s c (c.run now s.db).reply (s.commit (c.run now s.db).db (c.run now s.db).touched)
  | scan {key : κ} {cursor next : Bytes} {count : ℕ} {fields : Hash} {page : List (Bytes × Bytes)}
      (hqueue : (s.sessions i).queue = none) (hfields : hash? (s.db key) = some fields)
      (hpage : ∀ pair ∈ page, fields.lookup pair.1 = some pair.2)
      (hdone : next = zeroCursor → (s.sessions i).owed key cursor fields ⊆ pageNames page) :
    Responds i s (.hscan key cursor count) (scanReply next page) (s.update i fun x =>
      { x with scan := some (key, x.owed key cursor fields \ pageNames page) })
  | scanWrongType {key : κ} {cursor : Bytes} {count : ℕ} (hqueue : (s.sessions i).queue = none)
      (hfields : hash? (s.db key) = none) : Responds i s (.hscan key cursor count) wrongType s
  | watch {keys : List κ} (hqueue : (s.sessions i).queue = none) :
    Responds i s (.watch keys) (.status "OK") (s.update i fun x =>
      { x with watched := x.watched ++ keys })
  | unwatch (hqueue : (s.sessions i).queue = none) :
    Responds i s .unwatch (.status "OK") (s.update i fun x =>
      { x with watched := [], dirty := false })
  | multi (hqueue : (s.sessions i).queue = none) :
    Responds i s .multi (.status "OK") (s.update i fun x =>
      { x with queue := some [], aborted := false })
  | noMulti {c : Command κ} (hqueue : (s.sessions i).queue = none)
      (hc : c = .exec ∨ c = .discard) : Responds i s c (.error "ERR without MULTI") s
  | queue {c : Command κ} {q : List (Command κ)} (hqueue : (s.sessions i).queue = some q)
      (hc : c.isQueued = true) : Responds i s c (.status "QUEUED") (s.update i fun x =>
      { x with queue := some (q ++ [c]) })
  | nested {c : Command κ} {q : List (Command κ)} (hqueue : (s.sessions i).queue = some q)
      (hc : c = .multi ∨ ∃ keys, c = .watch keys) :
    Responds i s c (.error "ERR inside MULTI is not allowed") s
  | discard {q : List (Command κ)} (hqueue : (s.sessions i).queue = some q) :
    Responds i s .discard (.status "OK") (s.update i Session.reset)
  | execAborted {q : List (Command κ)} (hqueue : (s.sessions i).queue = some q)
      (haborted : (s.sessions i).aborted = true) :
    Responds i s .exec (.error "EXECABORT Transaction discarded because of previous errors.")
      (s.update i Session.reset)
  | execConflict {q : List (Command κ)} (hqueue : (s.sessions i).queue = some q)
      (haborted : (s.sessions i).aborted = false) (hdirty : (s.sessions i).dirty = true) :
    Responds i s .exec .nil (s.update i Session.reset)
  | exec (now : ℕ) {q : List (Command κ)} (hqueue : (s.sessions i).queue = some q)
      (haborted : (s.sessions i).aborted = false) (hdirty : (s.sessions i).dirty = false) :
    Responds i s .exec (.array (execReplies now s.db q))
      ((s.update i Session.reset).commit (execDb now s.db q) (execTouched now s.db q))
  | reject {c : Command κ} (text : String) :
    Responds i s c (.error text) (s.update i (Session.reject c))

/-! ### Connections -/

/-- What the client library returns for a command. -/
inductive CommandResult
  | reply (value : Reply)
  /-- The deadline had passed, nothing was sent. -/
  | deadlineExceeded
  /-- There is no connection, it broke before a reply arrived, or the command was too long. -/
  | ioError
  /-- The reply was malformed, and the connection was dropped. -/
  | protocolError

/-- What a program asks of its connection. -/
inductive ConnectionOp (κ : Type)
  | command (c : Command κ)
  /-- Drop the connection. -/
  | invalidate
  deriving DecidableEq

/-- The replies of a connection. -/
abbrev ConnectionOp.Reply {κ : Type} : ConnectionOp κ → Type
  | command _ => CommandResult
  | invalidate => Unit

/-- The signature of a connection. -/
abbrev ConnectionSig (κ : Type) : Sig where
  Op := ConnectionOp κ
  Reply := ConnectionOp.Reply

/-- The number of arguments of a command, its name included. -/
def Command.argc {κ : Type} : Command κ → ℕ
  | unwatch | multi | exec | discard => 1
  | type _ | get _ | incr _ | hlen _ | xlen _ => 2
  | set _ _ | hget _ _ => 3
  | hincrby .. => 4
  | hscan .. => 5
  | xrange .. => 6
  | watch keys | del keys => 1 + keys.length
  | hmget _ names | hdel _ names | xdel _ names => 2 + names.length
  | hset _ pairs => 2 + 2 * pairs.length
  | xadd _ fields => 3 + fields.length

/-- More arguments than this cannot be sent. -/
def maxArguments : ℕ := 2 ^ 31 - 1

/-- A server, and which connections are open. -/
structure World (ι κ : Type) where
  server : Server ι κ
  linked : ι → Bool

namespace World

/-- The connection is dropped, and with it the session. -/
def drop (w : World ι κ) (i : ι) : World ι κ :=
  ⟨w.server.update i fun _ => {}, Function.update w.linked i false⟩

/-- A new connection. -/
def connect (w : World ι κ) (i : ι) : World ι κ :=
  ⟨w.server.update i fun _ => {}, Function.update w.linked i true⟩

/-- The server went on. -/
def serve (w : World ι κ) (server : Server ι κ) : World ι κ := { w with server := server }

end World

/-- What can happen to an operation on a connection. -/
inductive Serves (i : ι) (w : World ι κ) : (op : ConnectionOp κ) → op.Reply → World ι κ → Prop
  | unlinked {c : Command κ} (hlinked : w.linked i = false) : Serves i w (.command c) .ioError w
  | oversized {c : Command κ} (hargc : maxArguments < c.argc) : Serves i w (.command c) .ioError w
  | deadline {c : Command κ} (hlinked : w.linked i = true) (hargc : c.argc ≤ maxArguments) :
    Serves i w (.command c) .deadlineExceeded w
  | lost {c : Command κ} {failure : CommandResult} (hlinked : w.linked i = true)
      (hargc : c.argc ≤ maxArguments) (hfailure : failure = .ioError ∨ failure = .protocolError) :
    Serves i w (.command c) failure (w.drop i)
  | lostReply {c : Command κ} {r : Reply} {s' : Server ι κ} {failure : CommandResult}
      (hlinked : w.linked i = true) (hargc : c.argc ≤ maxArguments)
      (hfailure : failure = .ioError ∨ failure = .protocolError)
      (hresponds : Responds i w.server c r s') :
    Serves i w (.command c) failure ((w.serve s').drop i)
  | reply {c : Command κ} {r : Reply} {s' : Server ι κ} (hlinked : w.linked i = true)
      (hargc : c.argc ≤ maxArguments) (hresponds : Responds i w.server c r s') :
    Serves i w (.command c) (.reply r) (w.serve s')
  | invalidate : Serves i w .invalidate () (w.drop i)

/-! ### A server that answers -/

/-- The answer to a command when nothing goes wrong; scans are left out. -/
def Server.respond (now : ℕ) (i : ι) (s : Server ι κ) (c : Command κ) :
    Option (Reply × Server ι κ) :=
  match (s.sessions i).queue, c with
  | none, .watch keys =>
    some (.status "OK", s.update i fun x => { x with watched := x.watched ++ keys })
  | none, .unwatch => some (.status "OK", s.update i fun x =>
      { x with watched := [], dirty := false })
  | none, .multi =>
    some (.status "OK", s.update i fun x => { x with queue := some [], aborted := false })
  | none, c =>
    if c.isData then
      some ((c.run now s.db).reply, s.commit (c.run now s.db).db (c.run now s.db).touched)
    else none
  | some q, .exec =>
    if (s.sessions i).aborted then none
    else if (s.sessions i).dirty then some (.nil, s.update i Session.reset)
    else some (.array (execReplies now s.db q),
      (s.update i Session.reset).commit (execDb now s.db q) (execTouched now s.db q))
  | some q, c =>
    if c.isQueued then some (.status "QUEUED", s.update i fun x =>
      { x with queue := some (q ++ [c]) })
    else none

theorem Server.responds_of_respond {now : ℕ} {i : ι} {s s' : Server ι κ} {c : Command κ} {r : Reply}
    (h : s.respond now i c = some (r, s')) : Responds i s c r s' := by
  unfold respond at h
  split at h
  · cases h
    exact .watch ‹_›
  · cases h
    exact .unwatch ‹_›
  · cases h
    exact .multi ‹_›
  · split_ifs at h with hdata
    cases h
    exact .run now ‹_› hdata
  · split_ifs at h with haborted hdirty
    · cases h
      exact .execConflict ‹_› (Bool.eq_false_iff.mpr haborted) hdirty
    · cases h
      exact .exec now ‹_› (Bool.eq_false_iff.mpr haborted) (Bool.eq_false_iff.mpr hdirty)
  · split_ifs at h with hqueued
    cases h
    exact .queue ‹_› hqueued

/-- The answer to an operation of an open connection when nothing goes wrong. -/
def World.answer (now : ℕ) (i : ι) :
    (op : ConnectionOp κ) → World ι κ → Option (op.Reply × World ι κ)
  | .command c, w =>
    if w.linked i = true ∧ c.argc ≤ maxArguments then
      (w.server.respond now i c).map fun x => (.reply x.1, w.serve x.2)
    else none
  | .invalidate, w => some ((), w.drop i)

theorem World.serves_of_answer {now : ℕ} {i : ι} {w w' : World ι κ} {op : ConnectionOp κ}
    {r : op.Reply} (h : World.answer now i op w = some (r, w')) : Serves i w op r w' := by
  cases op with
  | command c =>
    simp only [answer] at h
    split_ifs at h with hopen
    obtain ⟨x, hx, heq⟩ := Option.map_eq_some_iff.mp h
    cases heq
    exact .reply hopen.1 hopen.2 (Server.responds_of_respond hx)
  | invalidate =>
    cases h
    exact .invalidate

end Redis

end AegisFlow
