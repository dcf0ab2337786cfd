import AegisFlow.Interaction.Wp
import AegisFlow.Redis.Server

/-!
# What a connection is left with

A connection that is used again must not carry over watched keys or an open `MULTI` from its
earlier use.  `Connection` keeps just that about the session of a connection.

* `Connection.Reacts` : how it changes by an operation, for **any** replies: a confirmation means
  that the command was done, every other reply says nothing about it.  `EXEC` ends an open
  transaction whatever the reply;
* `Connection.reacts_of_serves` : the server does nothing else.
-/

namespace AegisFlow

namespace Redis

/-- What a connection is left with. -/
structure Connection where
  /-- It is open. -/
  linked : Bool
  /-- The session watches keys. -/
  watching : Bool
  /-- The session has an open `MULTI`. -/
  multi : Bool
  deriving DecidableEq, Repr

namespace Connection

/-- The connection was dropped. -/
def dropped : Connection := ⟨false, false, false⟩

/-- The connection can be used again. -/
def Clean (x : Connection) : Prop := x.linked = true → x.watching = false ∧ x.multi = false

/-- What a session may become by a command that was answered. -/
inductive Follows {κ : Type} (x : Connection) : Command κ → Reply → Connection → Prop
  | quiet {c : Command κ} {r : Reply} (hc : c.isQuiet = true) : Follows x c r x
  | watch {keys : List κ} {r : Reply} (watching : Bool) :
    Follows x (.watch keys) r { x with watching := watching }
  | unwatched {r : Reply} : Follows x .unwatch r { x with watching := false }
  | notUnwatched {r : Reply} (hr : r ≠ .status "OK") : Follows x .unwatch r x
  | opened {r : Reply} : Follows x .multi r { x with multi := true }
  | notOpened {r : Reply} (hr : r ≠ .status "OK") : Follows x .multi r x
  | discarded {r : Reply} : Follows x .discard r { x with watching := false, multi := false }
  | notDiscarded {r : Reply} (hr : r ≠ .status "OK") : Follows x .discard r x
  | executed {r : Reply} : Follows x .exec r { x with watching := false, multi := false }
  | notExecuted {r : Reply} (hmulti : x.multi = false) : Follows x .exec r x

/-- What a connection may become by an operation. -/
inductive Reacts {κ : Type} (x : Connection) : (op : ConnectionOp κ) → op.Reply → Connection → Prop
  | late {c : Command κ} : Reacts x (.command c) .deadlineExceeded x
  | oversized {c : Command κ} (hargc : maxArguments < c.argc) : Reacts x (.command c) .ioError x
  | lost {c : Command κ} {failure : CommandResult}
      (hfailure : failure = .ioError ∨ failure = .protocolError) :
    Reacts x (.command c) failure dropped
  | answered {c : Command κ} {r : Reply} {x' : Connection} (hlinked : x.linked = true)
      (hfollows : Follows x c r x') : Reacts x (.command c) (.reply r) x'
  | invalidate : Reacts x .invalidate () dropped

end Connection

/-! ### The server -/

variable {ι κ : Type} [DecidableEq ι] [DecidableEq κ]

/-- What an open connection with the given session is left with. -/
def Session.connection (x : Session κ) : Connection := ⟨true, !x.watched.isEmpty, x.queue.isSome⟩

/-- What a connection is left with. -/
def World.connection (w : World ι κ) (i : ι) : Connection :=
  if w.linked i then (w.server.sessions i).connection else .dropped

theorem Session.connection_reject (x : Session κ) (c : Command κ) :
    (x.reject c).connection = x.connection ∨ c = .exec ∧ (x.reject c).connection =
      { x.connection with watching := false, multi := false } := by
  unfold Session.reject
  split_ifs with hqueue hexec
  · exact .inl rfl
  · exact .inr ⟨hexec, rfl⟩
  · exact .inl rfl

/-- A rejected command changes nothing, unless it is `EXEC`. -/
theorem Connection.follows_reject {x : Session κ} {c : Command κ} {text : String} :
    x.connection.Follows c (.error text) (x.reject c).connection := by
  rcases x.connection_reject c with h | ⟨rfl, h⟩
  · rw [h]
    cases c with
    | watch keys => exact .watch x.connection.watching
    | unwatch => exact .notUnwatched (by simp)
    | multi => exact .notOpened (by simp)
    | discard => exact .notDiscarded (by simp)
    | exec =>
      cases hqueue : x.queue with
      | none => exact .notExecuted (by simp [Session.connection, hqueue])
      | some q =>
        simp only [Session.reject, hqueue, Option.isNone_some, if_true, Bool.false_eq_true,
          if_false] at h
        rw [← h]
        exact .executed
    | _ => exact .quiet rfl
  · rw [h]
    exact .executed

/-- The server changes a session as `Connection.Follows` says. -/
theorem Responds.follows {i : ι} {s s' : Server ι κ} {c : Command κ} {r : Reply}
    (h : Responds i s c r s') :
    (s.sessions i).connection.Follows c r (s'.sessions i).connection := by
  have hself (f : Session κ → Session κ) : (s.update i f).sessions i = f (s.sessions i) :=
    Function.update_self _ _ _
  have hnone {x : Session κ} (hqueue : x.queue = none) : x.connection.multi = false := by
    simp [Session.connection, hqueue]
  cases h with
  | run now hqueue hdata =>
    refine .quiet ?_
    cases c <;> first | rfl | cases hdata
  | scan hqueue hfields hpage hdone =>
    rw [hself]
    exact .quiet rfl
  | scanWrongType => exact .quiet rfl
  | watch hqueue =>
    rw [hself]
    exact .watch _
  | unwatch hqueue =>
    rw [hself]
    exact .unwatched
  | multi hqueue =>
    rw [hself]
    exact .opened
  | noMulti hqueue hc =>
    obtain rfl | rfl := hc
    · exact .notExecuted (hnone hqueue)
    · exact .notDiscarded (by simp)
  | queue hqueue hc =>
    rw [hself]
    have hsame (q : List (Command κ)) :
        Session.connection { s.sessions i with queue := some q } = (s.sessions i).connection := by
      simp [Session.connection, hqueue]
    rw [hsame]
    cases c with
    | watch | multi | exec | discard => cases hc
    | unwatch => exact .notUnwatched (by simp)
    | _ => exact .quiet rfl
  | nested hqueue hc =>
    obtain rfl | ⟨keys, rfl⟩ := hc
    · exact .notOpened (by simp)
    · exact .watch _
  | discard hqueue =>
    rw [hself]
    exact .discarded
  | execAborted | execConflict =>
    rw [hself]
    exact .executed
  | exec now hqueue =>
    change Connection.Follows _ _ _ ((s.update i Session.reset).sessions i).connection
    rw [hself]
    exact .executed
  | reject text =>
    rw [hself]
    exact Connection.follows_reject

omit [DecidableEq κ] in
theorem World.connection_drop (w : World ι κ) (i : ι) : (w.drop i).connection i = .dropped := by
  simp [World.connection, World.drop]

/-- The server does nothing to a connection that `Connection.Reacts` does not say. -/
theorem Connection.reacts_of_serves {i : ι} {w w' : World ι κ} {op : ConnectionOp κ}
    {r : op.Reply} (h : Serves i w op r w') : (w.connection i).Reacts op r (w'.connection i) := by
  cases h with
  | unlinked hlinked =>
    have hdropped : w.connection i = .dropped := by simp [World.connection, hlinked]
    rw [hdropped]
    exact .lost (.inl rfl)
  | oversized hargc => exact .oversized hargc
  | deadline => exact .late
  | lost hlinked hargc hfailure =>
    rw [World.connection_drop]
    exact .lost hfailure
  | lostReply hlinked hargc hfailure hresponds =>
    rw [World.connection_drop]
    exact .lost hfailure
  | reply hlinked hargc hresponds =>
    have hopen (s : Server ι κ) : (w.serve s).connection i = (s.sessions i).connection :=
      if_pos hlinked
    rw [hopen, show w.connection i = _ from hopen w.server]
    exact .answered rfl hresponds.follows
  | invalidate =>
    rw [World.connection_drop]
    exact .invalidate

end Redis

end AegisFlow
