import AegisFlow.Redis.Server
import Mathlib.Data.Set.Basic

/-!
# Optimistic transactions

A client that watches keys, reads them and then executes a queue of commands acts as if it had
read and written in one moment: `EXEC` runs only if no watched key was touched, so the database it
runs on agrees with everything the client read.

* `View` : what a client can know from its commands and their replies, in particular the set
  `known` of the databases that agree with what it read under `WATCH`;
* `Sync` : the view of a client agrees with its session, and as long as no watched key was touched
  the database is one of the known ones;
* `Sync.answered`, `Sync.other` : the commands of the client and of all other clients keep this;
* `Responds.effect` : **the database changes only by a single command outside of a transaction, or
  by the queue of a transaction that runs on a known database**.
-/

namespace AegisFlow

namespace Redis

variable {ι κ C : Type}

/-- The commands that only read, and whose reply is determined by the database. -/
def Command.isRead {κ : Type} : Command κ → Bool
  | type _ | get _ | hget .. | hmget .. | hlen _ | xrange .. | xlen _ => true
  | _ => false

/-- What a client can know. -/
structure View (κ C : Type) where
  call : Option C
  watched : List κ
  queue : Option (List (Command κ))
  /-- The databases that agree with what it read under `WATCH`. -/
  known : Set (Db κ)
  /-- The transactions of this call that ran or may have run, with the replies if they arrived. -/
  execs : List (List (Command κ) × Option (List Reply))

namespace View

/-- No transaction. -/
def clear (v : View κ C) : View κ C := { v with watched := [], queue := none, known := Set.univ }

/-- A call begins. -/
def enter (c : C) (v : View κ C) : View κ C := { v with call := some c, execs := [] }

end View

/-- The view of a client agrees with its session and with the database. -/
structure Sync (v : View κ C) (x : Session κ) (db : Db κ) : Prop where
  watched : x.watched = v.watched
  queue : x.queue = v.queue
  /-- The database is known until a watched key is touched. -/
  known : x.dirty = false → db ∈ v.known
  /-- Only watched keys matter. -/
  closed : ∀ db db' : Db κ, (∀ k ∈ v.watched, db k = db' k) → db ∈ v.known → db' ∈ v.known

namespace Sync

variable {v : View κ C} {x : Session κ} {db : Db κ}

/-- A session without transaction agrees with a view without transaction. -/
theorem clear (hwatched : x.watched = []) (hqueue : x.queue = none) : Sync v.clear x db :=
  ⟨hwatched, hqueue, fun _ => Set.mem_univ _, fun _ _ _ _ => Set.mem_univ _⟩

/-- The rest of a session does not matter. -/
theorem congr {x' : Session κ} (h : Sync v x db) (hwatched : x'.watched = x.watched)
    (hqueue : x'.queue = x.queue) (hdirty : x'.dirty = x.dirty) : Sync v x' db :=
  ⟨hwatched.trans h.watched, hqueue.trans h.queue, fun hd => h.known (hdirty ▸ hd), h.closed⟩

end Sync

variable [DecidableEq ι] [DecidableEq κ]

/-! ### What a client knows -/

namespace View

/-- A reply to a read of watched keys was seen. -/
def learn (v : View κ C) (c : Command κ) (r : Reply) : View κ C :=
  if c.isRead = true ∧ ∀ k ∈ c.keys, k ∈ v.watched then
    { v with known := v.known ∩ {db | (c.run 0 db).reply = r} }
  else v

/-- A transaction ran, if the reply holds replies. -/
def ran (v : View κ C) (q : List (Command κ)) (r : Reply) : View κ C :=
  match r.elements? with
  | some replies => { v with execs := v.execs ++ [(q, some replies)] }
  | none => v

/-- A reply arrived while commands are queued. -/
def answeredInMulti (v : View κ C) (q : List (Command κ)) (c : Command κ) (r : Reply) : View κ C :=
  match c with
  | .exec => (v.ran q r).clear
  | .discard => if r.isStatus "OK" then v.clear else v
  | c => if c.isQueued && r.isStatus "QUEUED" then { v with queue := some (q ++ [c]) } else v

/-- A reply arrived outside of a transaction. -/
def answeredAtOnce (v : View κ C) (c : Command κ) (r : Reply) : View κ C :=
  if r.isError then v
  else match c with
    | .watch keys => { v with watched := v.watched ++ keys }
    | .unwatch => { v with watched := [], known := Set.univ }
    | .multi => { v with queue := some [] }
    | .exec | .discard => v.clear
    | c => v.learn c r

/-- A reply arrived. -/
def answered (v : View κ C) (c : Command κ) (r : Reply) : View κ C :=
  match v.queue with
  | some q => v.answeredInMulti q c r
  | none => v.answeredAtOnce c r

/-- The connection broke; a transaction may have run. -/
def lost (v : View κ C) (c : Command κ) : View κ C :=
  match v.queue with
  | some q => if c = .exec then { v with execs := v.execs ++ [(q, none)] }.clear else v.clear
  | none => v.clear

/-- What a client knows after an operation. -/
def upd (v : View κ C) : (op : ConnectionOp κ) → op.Reply → View κ C
  | .command c, .reply r => v.answered c r
  | .command _, .deadlineExceeded => v
  | .command c, .ioError | .command c, .protocolError =>
    if maxArguments < c.argc then v else v.lost c
  | .invalidate, _ => v.clear

end View

/-! ### Agreement with the server -/

namespace Sync

variable {v : View κ C} {x : Session κ} {db db' : Db κ} {s s' : Server ι κ} {i j : ι}
  {c : Command κ} {r : Reply}

/-- Keys were touched, by whomever. -/
theorem touch (h : Sync v x db) {touched : List κ} (hframe : ∀ k, k ∉ touched → db' k = db k) :
    Sync v (x.touch db' touched) db' where
  watched := h.watched
  queue := h.queue
  known := by
    intro hdirty
    simp only [Session.touch, Bool.or_eq_false_iff, List.any_eq_false, decide_eq_true_eq] at hdirty
    refine h.closed db db' (fun k hk => ?_) (h.known hdirty.1)
    exact (hframe k (hdirty.2 k (h.watched ▸ hk))).symm
  closed := h.closed

theorem reject (h : Sync v x db) (c : Command κ) (hc : c ≠ .exec) : Sync v (x.reject c) db := by
  unfold Session.reject
  split_ifs
  · exact h
  · exact h.congr rfl rfl rfl

omit [DecidableEq κ] in
theorem sessions_update_self (f : Session κ → Session κ) :
    (s.update i f).sessions i = f (s.sessions i) := Function.update_self _ _ _

omit [DecidableEq κ] in
theorem sessions_update_of_ne (hij : j ≠ i) (f : Session κ → Session κ) :
    (s.update i f).sessions j = s.sessions j := Function.update_of_ne hij _ _

/-- The commands of other clients keep the agreement. -/
theorem other (h : Sync v (s.sessions j) s.db) (hij : j ≠ i) (hr : Responds i s c r s') :
    Sync v (s'.sessions j) s'.db := by
  cases hr with
  | run now hqueue hdata => exact h.touch fun k hk => c.run_frames k hk
  | exec now hqueue haborted hdirty =>
    refine Sync.touch ?_ fun k hk => execDb_of_notMem hk
    rw [sessions_update_of_ne hij]
    exact h
  | scanWrongType | noMulti | nested => exact h
  | scan | watch | unwatch | multi | queue | discard | execAborted | execConflict | reject =>
    rw [sessions_update_of_ne hij]
    exact h

/-- The time does not matter to a read. -/
theorem reply_of_isRead (hread : c.isRead = true) (now : ℕ) :
    (c.run now db).reply = (c.run 0 db).reply := by
  cases c <;> first | rfl | cases hread

/-- A read under `WATCH` narrows the known databases down. -/
theorem learn (h : Sync v x db) (hreply : c.isRead = true → (c.run 0 db).reply = r) :
    Sync (v.learn c r) x db := by
  unfold View.learn
  split_ifs with hread
  · refine ⟨h.watched, h.queue, fun hd => ⟨h.known hd, hreply hread.1⟩, ?_⟩
    rintro db db' hagree ⟨hknown, hr⟩
    refine ⟨h.closed db db' hagree hknown, ?_⟩
    exact (Command.run_reply_congr fun k hk => hagree k (hread.2 k hk)).symm.trans hr
  · exact h

/-- A command on data was executed at once. -/
theorem ranAtOnce (h : Sync v x db) (hdata : c.isData = true) (now : ℕ) :
    Sync (v.answeredAtOnce c (c.run now db).reply)
      (x.touch (c.run now db).db (c.run now db).touched) (c.run now db).db := by
  have hframes : Outcome.Frames db (c.run now db) := c.run_frames
  have htouched := h.touch fun k hk => hframes k hk
  unfold View.answeredAtOnce
  split_ifs
  · exact htouched
  · have hlearn : Sync (v.learn c (c.run now db).reply)
        (x.touch (c.run now db).db (c.run now db).touched) (c.run now db).db := by
      refine htouched.learn fun hread => ?_
      have hdb : (c.run now db).db = db := by
        funext k
        refine c.run_frames k ?_
        cases c with
        | type | get => exact List.not_mem_nil
        | hget | hmget | hlen =>
          simp only [Command.run, Outcome.onHash]
          split <;> exact List.not_mem_nil
        | xrange | xlen =>
          simp only [Command.run, Outcome.onStream]
          split <;> exact List.not_mem_nil
        | _ => cases hread
      rw [hdb, reply_of_isRead hread now]
    cases c with
    | watch | unwatch | multi | exec | discard => cases hdata
    | _ => exact hlearn

/-- A rejected command tells nothing. -/
theorem rejected (h : Sync v x db) (c : Command κ) (text : String) :
    Sync (v.answered c (.error text)) (x.reject c) db := by
  unfold View.answered
  cases hqueue : v.queue with
  | none =>
    have hx : x.reject c = x := by
      simp [Session.reject, h.queue, hqueue]
    rw [hx]
    exact h
  | some q =>
    have hx : x.queue = some q := h.queue.trans hqueue
    cases c with
    | exec =>
      have hreset : x.reject .exec = x.reset := by simp [Session.reject, hx]
      rw [hreset]
      exact clear rfl rfl
    | _ =>
      simp only [View.answeredInMulti, Reply.isStatus, Bool.and_false, Bool.false_eq_true, if_false]
      exact h.reject _ (by simp)

/-- The commands of the client itself keep the agreement. -/
theorem answered (h : Sync v (s.sessions i) s.db) (hr : Responds i s c r s') :
    Sync (v.answered c r) (s'.sessions i) s'.db := by
  have hnone (hqueue : (s.sessions i).queue = none) : v.answered c r = v.answeredAtOnce c r := by
    simp only [View.answered, ← h.queue, hqueue]
  have hsome {q : List (Command κ)} (hqueue : (s.sessions i).queue = some q) :
      v.answered c r = v.answeredInMulti q c r := by
    simp only [View.answered, ← h.queue, hqueue]
  cases hr with
  | run now hqueue hdata =>
    rw [hnone hqueue]
    exact h.ranAtOnce hdata now
  | @scan key cursor next count fields page hqueue hfields hpage hdone =>
    have hview : v.answeredAtOnce (.hscan key cursor count) (scanReply next page) = v :=
      by simp [View.answeredAtOnce, View.learn, Command.isRead, scanReply, Reply.isError]
    rw [hnone hqueue, hview, sessions_update_self]
    exact h.congr rfl rfl rfl
  | scanWrongType hqueue =>
    rw [hnone hqueue]
    exact h
  | watch hqueue =>
    rw [hnone hqueue, sessions_update_self]
    refine ⟨congrArg (· ++ _) h.watched, h.queue, h.known, fun db db' hagree => ?_⟩
    exact h.closed db db' fun k hk => hagree k (List.mem_append_left _ hk)
  | unwatch hqueue =>
    rw [hnone hqueue, sessions_update_self]
    exact ⟨rfl, h.queue, fun _ => Set.mem_univ _, fun _ _ _ _ => Set.mem_univ _⟩
  | multi hqueue =>
    rw [hnone hqueue, sessions_update_self]
    exact ⟨h.watched, rfl, h.known, h.closed⟩
  | noMulti hqueue =>
    rw [hnone hqueue]
    exact h
  | @queue _ q hqueue hc =>
    rw [hsome hqueue, sessions_update_self]
    have hqueued : v.answeredInMulti q c (.status "QUEUED") =
        { v with queue := some (q ++ [c]) } := by
      cases c with
      | watch | multi | exec | discard => cases hc
      | _ => rfl
    rw [hqueued]
    exact ⟨h.watched, rfl, h.known, h.closed⟩
  | nested hqueue hc =>
    rw [hsome hqueue]
    obtain rfl | ⟨keys, rfl⟩ := hc <;> exact h
  | discard hqueue =>
    rw [hsome hqueue, sessions_update_self]
    exact clear rfl rfl
  | execAborted hqueue | execConflict hqueue =>
    rw [hsome hqueue, sessions_update_self]
    exact clear rfl rfl
  | exec now hqueue =>
    have hself (db : Db κ) (touched : List κ) :
        ((s.update i Session.reset).commit db touched).sessions i =
          (s.sessions i).reset.touch db touched := by
      simp only [Server.commit, sessions_update_self]
    rw [hsome hqueue, hself]
    exact clear rfl rfl
  | reject text =>
    rw [sessions_update_self]
    exact h.rejected c text

end Sync

/-! ### What an operation does to the database -/

/-- How an operation of a client changes the database, in terms of its view before and after. -/
inductive Effect (op : ConnectionOp κ) (v v' : View κ C) (db db' : Db κ) : Prop
  /-- Nothing happens; a transaction that did not run may look as if it might have. -/
  | none (hdb : db' = db) (hexecs : v'.execs = v.execs ∨
      ∃ q, v.queue = some q ∧ op = .command .exec ∧ v'.execs = v.execs ++ [(q, none)])
  /-- A single command is executed. -/
  | run (now : ℕ) {c : Command κ} (hdb : db' = (c.run now db).db) (hop : op = .command c)
      (hqueue : v.queue = .none) (hdata : c.isData = true) (hexecs : v'.execs = v.execs)
  /-- A transaction runs, on a known database. -/
  | exec (now : ℕ) {q : List (Command κ)} (hdb : db' = execDb now db q) (hop : op = .command .exec)
      (hqueue : v.queue = some q) (hknown : db ∈ v.known)
      (hexecs : v'.execs = v.execs ++ [(q, .none)] ∨
        v'.execs = v.execs ++ [(q, some (execReplies now db q))])

namespace View

variable {v : View κ C} {c : Command κ} {r : Reply} {q : List (Command κ)}

theorem learn_execs : (v.learn c r).execs = v.execs := by
  unfold learn; split_ifs <;> rfl

theorem answeredAtOnce_execs : (v.answeredAtOnce c r).execs = v.execs := by
  unfold answeredAtOnce
  split_ifs
  · rfl
  · cases c with
    | watch | unwatch | multi | exec | discard => rfl
    | _ => exact learn_execs

omit [DecidableEq κ] in
theorem answeredInMulti_execs (hc : c ≠ .exec) : (v.answeredInMulti q c r).execs = v.execs := by
  cases c with
  | exec => exact absurd rfl hc
  | _ => simp only [answeredInMulti]; split_ifs <;> rfl

theorem answered_execs (h : c ≠ .exec ∨ r.elements? = none) :
    (v.answered c r).execs = v.execs := by
  unfold answered
  split
  · rename_i q hqueue
    by_cases hc : c = .exec
    · subst hc
      obtain hc | hr := h
      · exact absurd rfl hc
      · simp [answeredInMulti, ran, hr, clear]
    · exact answeredInMulti_execs hc
  · exact answeredAtOnce_execs

theorem lost_execs : (v.lost c).execs = v.execs ∨
    ∃ q, v.queue = some q ∧ c = .exec ∧ (v.lost c).execs = v.execs ++ [(q, none)] := by
  unfold lost
  split
  · rename_i q hqueue
    split_ifs with hc
    · exact .inr ⟨q, hqueue, hc, rfl⟩
    · exact .inl rfl
  · exact .inl rfl

end View

section

variable {v : View κ C} {s s' : Server ι κ} {i : ι} {c : Command κ} {r : Reply}

/-- The database changes only by a single command outside of a transaction, or by the queue of a
transaction that runs on a known database. -/
theorem Responds.effect (hr : Responds i s c r s') (h : Sync v (s.sessions i) s.db) :
    Effect (.command c) v (v.answered c r) s.db s'.db := by
  cases hr with
  | run now hqueue hdata =>
    have hc : c ≠ .exec := by rintro rfl; cases hdata
    exact .run now rfl rfl (h.queue ▸ hqueue) hdata (View.answered_execs (.inl hc))
  | @exec now q hqueue haborted hdirty =>
    have hview : v.queue = some q := h.queue ▸ hqueue
    refine .exec now rfl rfl hview (h.known hdirty) (.inr ?_)
    simp [View.answered, hview, View.answeredInMulti, View.ran, Reply.elements?, View.clear]
  | scan => exact .none rfl (.inl (View.answered_execs (.inl (by simp))))
  | _ => exact .none rfl (.inl (View.answered_execs (.inr rfl)))

/-- The same when the reply is lost. -/
theorem Responds.effect_lost (hr : Responds i s c r s') (h : Sync v (s.sessions i) s.db) :
    Effect (.command c) v (v.lost c) s.db s'.db := by
  cases hr.effect h with
  | none hdb => exact .none hdb (by simpa using View.lost_execs)
  | run now hdb hop hqueue hdata =>
    exact .run now hdb hop hqueue hdata (by simp [View.lost, hqueue, View.clear])
  | exec now hdb hop hqueue hknown =>
    obtain rfl : c = .exec := by simpa using hop
    exact .exec now hdb rfl hqueue hknown (.inl (by simp [View.lost, hqueue, View.clear]))

end

/-! ### Connections -/

/-- A client without transaction. -/
def View.Idle (v : View κ C) : Prop := v.watched = [] ∧ v.queue = none ∧ v.known = Set.univ

/-- Every client agrees with the server; a client without connection has no transaction. -/
structure Synced (w : World ι κ) (v : ι → View κ C) : Prop where
  sync : ∀ i, Sync (v i) (w.server.sessions i) w.server.db
  /-- A dropped connection leaves no transaction. -/
  unlinked : ∀ i, w.linked i = false → (v i).Idle

/-- One client agrees with the server; without connection it has no transaction. -/
structure SyncedAt (w : World ι κ) (i : ι) (v : View κ C) : Prop where
  sync : Sync v (w.server.sessions i) w.server.db
  /-- A dropped connection leaves no transaction. -/
  unlinked : w.linked i = false → v.Idle

omit [DecidableEq ι] [DecidableEq κ] in
theorem Synced.at {w : World ι κ} {v : ι → View κ C} (h : Synced w v) (i : ι) :
    SyncedAt w i (v i) := ⟨h.sync i, h.unlinked i⟩

omit [DecidableEq κ] in
theorem View.clear_idle (v : View κ C) : v.clear.Idle := ⟨rfl, rfl, rfl⟩

theorem View.lost_idle (v : View κ C) (c : Command κ) : (v.lost c).Idle := by
  unfold View.lost
  split
  · split_ifs <;> exact View.clear_idle _
  · exact View.clear_idle _

theorem View.upd_failure (v : View κ C) {c : Command κ} {failure : CommandResult}
    (hargc : c.argc ≤ maxArguments) (hfailure : failure = .ioError ∨ failure = .protocolError) :
    v.upd (.command c) failure = v.lost c := by
  obtain rfl | rfl := hfailure <;> exact if_neg (Nat.not_lt.2 hargc)

namespace Synced

variable {w w' : World ι κ} {v : ι → View κ C} {i : ι}

omit [DecidableEq κ] in
/-- A client drops its connection. -/
theorem drop (h : Synced w v) {x : View κ C} (hx : x.Idle) :
    Synced (w.drop i) (Function.update v i x) := by
  obtain ⟨hwatched, hqueue, hknown⟩ := hx
  constructor
  · intro j
    by_cases hj : j = i
    · subst hj
      simp only [World.drop, Sync.sessions_update_self, Function.update_self]
      exact ⟨hwatched.symm, hqueue.symm, fun _ => hknown ▸ Set.mem_univ _,
        fun _ _ _ _ => hknown ▸ Set.mem_univ _⟩
    · simp only [World.drop, Sync.sessions_update_of_ne hj, Function.update_of_ne hj]
      exact h.sync j
  · intro j hlinked
    by_cases hj : j = i
    · subst hj
      rw [Function.update_self]
      exact ⟨hwatched, hqueue, hknown⟩
    · rw [Function.update_of_ne hj]
      exact h.unlinked j (by simpa [World.drop, hj] using hlinked)

omit [DecidableEq κ] in
/-- A client gets a new connection. -/
theorem connect (h : Synced w v) (hlinked : w.linked i = false) : Synced (w.connect i) v := by
  obtain ⟨hwatched, hqueue, hknown⟩ := h.unlinked i hlinked
  constructor
  · intro j
    by_cases hj : j = i
    · subst hj
      simp only [World.connect, Sync.sessions_update_self]
      exact ⟨hwatched.symm, hqueue.symm, fun _ => hknown ▸ Set.mem_univ _,
        fun _ _ _ _ => hknown ▸ Set.mem_univ _⟩
    · simp only [World.connect, Sync.sessions_update_of_ne hj]
      exact h.sync j
  · intro j hj
    by_cases hji : j = i
    · subst hji
      simp [World.connect] at hj
    · exact h.unlinked j (by simpa [World.connect, hji] using hj)

/-- The server answers a client. -/
theorem responds (h : Synced w v) {c : Command κ} {r : Reply} {s' : Server ι κ} {x : View κ C}
    (hlinked : w.linked i = true) (hr : Responds i w.server c r s')
    (hx : Sync x (s'.sessions i) s'.db) : Synced (w.serve s') (Function.update v i x) := by
  constructor
  · intro j
    by_cases hj : j = i
    · subst hj
      rw [Function.update_self]
      exact hx
    · rw [Function.update_of_ne hj]
      exact (h.sync j).other hj hr
  · intro j hj
    have hji : j ≠ i := by
      rintro rfl
      exact absurd hlinked (by simpa [World.serve] using hj)
    rw [Function.update_of_ne hji]
    exact h.unlinked j hj

omit [DecidableEq κ] in
theorem update_self (h : Synced w v) {x : View κ C} (hx : x = v i) :
    Synced w (Function.update v i x) := by
  rw [hx, Function.update_eq_self]
  exact h

omit [DecidableEq κ] in
/-- A call begins. -/
theorem enter (h : Synced w v) (c : C) : Synced w (Function.update v i ((v i).enter c)) := by
  constructor
  · intro j
    by_cases hj : j = i
    · subst hj
      rw [Function.update_self]
      exact ⟨(h.sync j).watched, (h.sync j).queue, (h.sync j).known, (h.sync j).closed⟩
    · rw [Function.update_of_ne hj]
      exact h.sync j
  · intro j hlinked
    by_cases hj : j = i
    · subst hj
      rw [Function.update_self]
      exact h.unlinked j hlinked
    · rw [Function.update_of_ne hj]
      exact h.unlinked j hlinked

/-- **Every operation keeps all clients in agreement with the server.** -/
theorem serves (h : Synced w v) {op : ConnectionOp κ} {r : op.Reply} (hs : Serves i w op r w') :
    Synced w' (Function.update v i ((v i).upd op r)) := by
  cases hs with
  | @unlinked c hlinked =>
    obtain ⟨hwatched, hqueue, hknown⟩ := h.unlinked i hlinked
    refine h.update_self ?_
    have hclear : (v i).clear = v i := by
      simp only [View.clear, ← hwatched, ← hqueue, ← hknown]
    simp only [View.upd, View.lost, hqueue, hclear, ite_self]
  | oversized hargc => exact h.update_self (if_pos hargc)
  | deadline => exact h.update_self rfl
  | @lost c failure hlinked hargc hfailure =>
    rw [View.upd_failure _ hargc hfailure]
    exact h.drop (View.lost_idle _ _)
  | @lostReply c r s' failure hlinked hargc hfailure hresponds =>
    rw [View.upd_failure _ hargc hfailure]
    have hserved := h.responds hlinked hresponds ((h.sync i).answered hresponds)
    have hdropped := hserved.drop (i := i) (View.lost_idle (v i) c)
    simpa using hdropped
  | @reply c r s' hlinked hargc hresponds =>
    exact h.responds hlinked hresponds ((h.sync i).answered hresponds)
  | invalidate => exact h.drop (View.clear_idle _)

end Synced

/-- What an operation does to the database. -/
theorem SyncedAt.effect {w w' : World ι κ} {i : ι} {v : View κ C} (h : SyncedAt w i v)
    {op : ConnectionOp κ} {r : op.Reply} (hs : Serves i w op r w') :
    Effect op v (v.upd op r) w.server.db w'.server.db := by
  have hlost {c : Command κ} : (View.lost v c).execs = v.execs ∨ ∃ q, v.queue = some q ∧
      ConnectionOp.command c = .command .exec ∧ (View.lost v c).execs = v.execs ++ [(q, none)] := by
    simpa using View.lost_execs
  cases hs with
  | @unlinked c hlinked =>
    obtain ⟨-, hqueue, -⟩ := h.unlinked hlinked
    refine .none rfl (.inl ?_)
    simp only [View.upd, View.lost, hqueue]
    split_ifs <;> rfl
  | oversized hargc => exact .none rfl (.inl (by simp [View.upd, hargc]))
  | deadline => exact .none rfl (.inl rfl)
  | lost hlinked hargc hfailure =>
    rw [View.upd_failure _ hargc hfailure]
    exact .none rfl hlost
  | lostReply hlinked hargc hfailure hresponds =>
    rw [View.upd_failure _ hargc hfailure]
    exact hresponds.effect_lost h.sync
  | reply hlinked hargc hresponds => exact hresponds.effect h.sync
  | invalidate => exact .none rfl (.inl rfl)

end Redis

end AegisFlow
