import AegisFlow.Redis.Optimistic
import AegisFlow.Storage.BlacklistState

/-!
# The contract of the store

What the calls of the store promise, in terms of what they know (`Redis.View`).

* `Commits call db db'` : what the transaction of a call does to the database;
* `Allow` : the operations a call performs.  It executes at most one transaction, and only if the
  queue does what `Commits` says **on every database that agrees with what the call read**;
* `Learns` : what code learns by reading under `WATCH`, with rules that follow the text of the
  code.
-/

namespace AegisFlow

open Redis

variable [Inet]

/-- What a call of the store knows. -/
abbrev StoreView := View RedisKey StoreCall

/-! ### What transactions do -/

/-- A counter of the reset barrier. -/
def BlacklistDb.barrierCounter (db : BlacklistDb) (field : Bytes) : Option ℕ :=
  (hash? (db .resetBarrier)).bind fun fields =>
    match fields.lookup field with
    | none => some 0
    | some text => parseUnsigned text kMaxRedisInteger

/-- A barrier was acknowledged. -/
structure BarrierCompleted (token : ℕ) (db db' : BlacklistDb) : Prop where
  /-- It was asked for, and no later one was acknowledged. -/
  counters : ∃ requested completed, db.barrierCounter (ascii "requested") = some requested ∧
    db.barrierCounter (ascii "completed") = some completed ∧ completed ≤ token ∧ token ≤ requested ∧
    db'.barrierCounter (ascii "requested") = some requested ∧
    db'.barrierCounter (ascii "completed") = some token
  others : ∀ k, k ≠ .resetBarrier → db' k = db k

/-- What the transaction of a call does. -/
def Commits : StoreCall → BlacklistDb → BlacklistDb → Prop
  | .applyMutations mutations, db, db' => Applied mutations db db'
  | .removeExpiredFields entries expectedRevision _, db, db' =>
    Removed entries expectedRevision db db'
  | .rebuildFromMysql entries, db, db' => Rebuilt entries db db'
  | .setPublishedRevision revision, db, db' =>
    db' = Function.update db .publishedRevision (some (.string (toText revision)))
  | .completeResetBarrier token, db, db' => BarrierCompleted token db db'
  | _, _, _ => False

/-- The calls whose transaction counts as a revision. -/
def StoreCall.counts : StoreCall → Bool
  | .applyMutations _ | .removeExpiredFields .. | .rebuildFromMysql _ => true
  | _ => false

/-- A natural number. -/
def natural? : Reply → Option ℕ
  | .integer value => if 0 ≤ value then some value.toNat else none
  | _ => none

/-- The revision that a transaction counted to. -/
def counted (q : List (Command RedisKey)) (replies : List Reply) : Option ℕ :=
  ((q.zip replies).find? fun p => p.1 == .incr .revision).bind fun p => natural? p.2

/-- A queue does what the call promises, on every database of a set, and no command of it fails. -/
def Sound (call : StoreCall) (known : Set BlacklistDb) (q : List (Command RedisKey)) : Prop :=
  ∀ now, ∀ db ∈ known, Commits call db (execDb now db q) ∧
    (∀ r ∈ execReplies now db q, r.isError = false) ∧
    (call.counts = true →
      counted q (execReplies now db q) = BlacklistDb.revision (execDb now db q))

/-- The writes outside of transactions. -/
def DirectWrite : StoreCall → Command RedisKey → Prop
  | .deletePending streamIds, c => c = .xdel .pending streamIds
  | .requestResetBarrier, c => c = .hincrby .resetBarrier (ascii "requested") 1
  | _, _ => False

/-- The operations a call performs. -/
def Allow (v : StoreView) : ConnectionOp RedisKey → Prop
  | .invalidate => True
  | .command c =>
    (c = .exec → v.execs = [] ∧ ∃ call q, v.call = some call ∧ v.queue = some q ∧
      Sound call v.known q) ∧
    (c.isData = true → v.queue = none → c.isRead = true ∨
      ∃ call, v.call = some call ∧ DirectWrite call c)

/-! ### Reading under `WATCH` -/

namespace Store

/-- A call watches keys, and knows something about the database. -/
structure Watching (call : StoreCall) (keys : List RedisKey) (A : BlacklistDb → Prop)
    (v : StoreView) : Prop where
  call : v.call = some call
  watched : v.watched = keys
  queue : v.queue = none
  execs : v.execs = []
  knows : ∀ db ∈ v.known, A db

/-- A call has failed before a transaction was opened. -/
structure Stopped (call : StoreCall) (v : StoreView) (status : StoreStatus) : Prop where
  call : v.call = some call
  queue : v.queue = none
  execs : v.execs = []
  failure : status ≠ .ok

/-- Code that reads watched keys and ends with a value of which it knows `B`. -/
def Learns {α : Type} (call : StoreCall) (keys : List RedisKey) (p : StoreCheck α)
    (B : α → BlacklistDb → Prop) : Prop :=
  ∀ ⦃A : BlacklistDb → Prop⦄ ⦃v : StoreView⦄, Watching call keys A v →
    Checked.Yields View.upd Allow
      (fun v a => Watching call keys (fun db => A db ∧ B a db) v) (Stopped call) v p

variable {α β : Type} {call : StoreCall} {keys : List RedisKey} {B : α → BlacklistDb → Prop}
  {p : StoreCheck α} {v : StoreView} {c : Command RedisKey} {status original : StoreStatus}
  {A : BlacklistDb → Prop} {q : List (Command RedisKey)}

theorem Learns.pure (a : α) : Learns call keys (Pure.pure a) fun b _ => b = a := by
  intro A v hv
  rw [Checked.yields_pure]
  exact ⟨hv.call, hv.watched, hv.queue, hv.execs, fun db hdb => ⟨hv.knows db hdb, rfl⟩⟩

theorem Learns.check {r : Except StoreStatus α} (hr : r ≠ .error .ok) :
    Learns call keys (Checked.check r) fun a _ => r = .ok a := by
  intro A v hv
  rw [Checked.yields_check]
  cases r with
  | ok a => exact ⟨hv.call, hv.watched, hv.queue, hv.execs, fun db hdb => ⟨hv.knows db hdb, rfl⟩⟩
  | error e => exact ⟨hv.call, hv.queue, hv.execs, fun h => hr (h ▸ rfl)⟩

theorem Learns.bind {f : α → StoreCheck β} {B' : α → β → BlacklistDb → Prop}
    (hp : Learns call keys p B) (hf : ∀ a, Learns call keys (f a) (B' a)) :
    Learns call keys (p >>= f) fun b db => ∃ a, B a db ∧ B' a b db := by
  intro A v hv
  refine (hp hv).bind fun v a ha => ((hf a) ha).mono (fun v b hb => ?_) fun _ _ h => h
  refine ⟨hb.call, hb.watched, hb.queue, hb.execs, fun db hdb => ?_⟩
  obtain ⟨⟨hA, hB⟩, hB'⟩ := hb.knows db hdb
  exact ⟨hA, a, hB, hB'⟩

theorem Learns.mono {B' : α → BlacklistDb → Prop} (hp : Learns call keys p B)
    (h : ∀ a db, B a db → B' a db) : Learns call keys p B' := by
  intro A v hv
  refine (hp hv).mono (fun v a ha => ?_) fun _ _ h => h
  exact ⟨ha.call, ha.watched, ha.queue, ha.execs, fun db hdb =>
    (ha.knows db hdb).imp id (h a db)⟩

theorem Learns.forM {as : List α} {f : α → StoreCheck PUnit}
    (hf : ∀ a ∈ as, Learns call keys (f a) fun _ db => B a db) :
    Learns call keys (as.forM f) fun _ db => ∀ a ∈ as, B a db := by
  induction as with
  | nil => exact (Learns.pure PUnit.unit).mono fun _ db _ a ha => absurd ha List.not_mem_nil
  | cons a as ih =>
    rw [List.forM_eq_forM, List.forM_cons]
    have hrest := ih fun b hb => hf b (List.mem_cons_of_mem a hb)
    refine ((hf a List.mem_cons_self).bind fun _ => hrest).mono fun _ db => ?_
    rintro ⟨-, ha, has⟩
    exact List.forall_mem_cons.2 ⟨ha, has⟩

/-- A failed command leaves a call without transaction. -/
theorem stopped_upd {result : CommandResult} (hcall : v.call = some call) (hqueue : v.queue = none)
    (hexecs : v.execs = []) (hc : c.isQuiet = true) (hstatus : status ≠ .ok) :
    Stopped call (v.upd (.command c) result) status := by
  have hlost : Stopped call (v.lost c) status := by
    simp only [View.lost, hqueue]
    exact ⟨hcall, rfl, hexecs, hstatus⟩
  cases result with
  | reply r =>
    simp only [View.upd, View.answered, hqueue, View.answeredAtOnce]
    split_ifs
    · exact ⟨hcall, hqueue, hexecs, hstatus⟩
    · cases c with
      | watch | unwatch | multi | exec | discard => cases hc
      | _ =>
        simp only [View.learn]
        split_ifs <;> exact ⟨hcall, hqueue, hexecs, hstatus⟩
  | deadlineExceeded => exact ⟨hcall, hqueue, hexecs, hstatus⟩
  | ioError | protocolError =>
    simp only [View.upd]
    split_ifs
    · exact ⟨hcall, hqueue, hexecs, hstatus⟩
    · exact hlost

theorem allow_read (hread : c.isRead = true) : Allow v (.command c) :=
  ⟨fun hc => absurd hread (by rw [hc]; decide), fun _ _ => .inl hread⟩

omit [Inet] in
theorem isQuiet_of_isRead (hread : c.isRead = true) : c.isQuiet = true := by
  cases c <;> first | rfl | cases hread

/-- A reply that passes its judge is what every known database would answer. -/
theorem Learns.ask {judge : Reply → Except StoreStatus α} (hread : c.isRead = true)
    (hkeys : ∀ k ∈ c.keys, k ∈ keys) (herror : ∀ text a, judge (.error text) ≠ .ok a)
    (hok : ∀ r, judge r ≠ .error .ok) :
    Learns call keys (Store.ask c judge) fun a db => judge (c.run 0 db).reply = .ok a := by
  intro A v hv
  refine Checked.yields_lift_bind.2 ⟨allow_read hread, fun result => ?_⟩
  have hstop (status : StoreStatus) (hstatus : status ≠ .ok) :
      Stopped call (v.upd (.command c) result) status :=
    stopped_upd hv.call hv.queue hv.execs (isQuiet_of_isRead hread) hstatus
  rw [Prog.meets_ret, Checked.yields_check]
  cases result with
  | reply r =>
    change Checked.Outcome _ _ _ (judge r)
    cases hjudge : judge r with
    | error status => exact hstop status fun h => hok r (h ▸ hjudge)
    | ok a =>
      have hnot : r.isError = false := by
        cases r with
        | error text => exact absurd hjudge (herror text a)
        | _ => rfl
      have hview : v.upd (.command c) (.reply r) =
          { v with known := v.known ∩ {db | (c.run 0 db).reply = r} } := by
        have hlearn : v.learn c r = { v with known := v.known ∩ {db | (c.run 0 db).reply = r} } :=
          if_pos ⟨hread, fun k hk => hv.watched ▸ hkeys k hk⟩
        rw [← hlearn]
        simp only [View.upd, View.answered, hv.queue, View.answeredAtOnce, hnot,
          Bool.false_eq_true, if_false]
        cases c with
        | watch | unwatch | multi | exec | discard => cases hread
        | _ => rfl
      rw [hview]
      refine ⟨hv.call, hv.watched, hv.queue, hv.execs, fun db hdb => ⟨hv.knows db hdb.1, ?_⟩⟩
      exact (congrArg judge hdb.2).trans hjudge
  | deadlineExceeded | ioError | protocolError => exact hstop _ (by simp [commandStatus])

/-! ### The frame of a transaction -/

/-- The statuses after which nothing was written. -/
def clean : StoreStatus → Bool
  | .watchConflict | .notReady | .invalidRemoteState | .deadlineExceeded | .ioError => true
  | _ => false

/-- A call has failed, and its status tells whether a transaction may have run. -/
structure Failed (call : StoreCall) (v : StoreView) (status : StoreStatus) : Prop where
  call : v.call = some call
  idle : v.Idle
  /-- At most one transaction may have run. -/
  once : v.execs.length ≤ 1
  none : clean status = true → v.execs = []
  failure : status ≠ .ok

/-- A transaction is being queued. -/
structure Queueing (call : StoreCall) (A : BlacklistDb → Prop) (q : List (Command RedisKey))
    (v : StoreView) : Prop where
  call : v.call = some call
  queue : v.queue = some q
  execs : v.execs = []
  knows : ∀ db ∈ v.known, A db

theorem allow_of_ne_exec (hexec : c ≠ .exec) (hdata : c.isData = true → v.queue ≠ none) :
    Allow v (.command c) :=
  ⟨fun hc => absurd hc hexec, fun hd hq => absurd hq (hdata hd)⟩

theorem idle_failed (hcall : v.call = some call) (hexecs : v.execs = []) (hstatus : status ≠ .ok) :
    Failed call v.clear status :=
  ⟨hcall, View.clear_idle v, by simp [View.clear, hexecs], fun _ => hexecs, hstatus⟩

/-- Dropping the connection ends every transaction. -/
theorem meets_invalidate {Q : StoreView → Unit → Prop} (h : Q v.clear ()) :
    Prog.Meets View.upd Allow Q v invalidate := ⟨trivial, fun _ => h⟩

/-- Only `EXEC` adds to the transactions of a call. -/
theorem upd_frame (hc : c ≠ .exec) (result : CommandResult) :
    (v.upd (.command c) result).call = v.call ∧ (v.upd (.command c) result).execs = v.execs := by
  have hlost : (v.lost c).call = v.call ∧ (v.lost c).execs = v.execs := by
    unfold View.lost
    split
    · rw [if_neg hc]
      exact ⟨rfl, rfl⟩
    · exact ⟨rfl, rfl⟩
  have hlearn (r : Reply) : (v.learn c r).call = v.call := by
    unfold View.learn
    split_ifs <;> rfl
  cases result with
  | reply r =>
    refine ⟨?_, View.answered_execs (.inl hc)⟩
    simp only [View.upd, View.answered]
    split
    · cases c with
      | exec => exact absurd rfl hc
      | _ => simp only [View.answeredInMulti]; split_ifs <;> rfl
    · simp only [View.answeredAtOnce]
      split_ifs
      · rfl
      · cases c with
        | watch | unwatch | multi | exec | discard => rfl
        | _ => exact hlearn r
  | deadlineExceeded => exact ⟨rfl, rfl⟩
  | ioError | protocolError =>
    simp only [View.upd]
    split_ifs
    · exact ⟨rfl, rfl⟩
    · exact hlost

/-- The commands that end a transaction that was not executed. -/
structure Leaving (v : StoreView) (c : Command RedisKey) : Prop where
  /-- `UNWATCH` before, `DISCARD` after `MULTI`. -/
  command : c = .unwatch ∧ v.queue = none ∨ c = .discard

theorem Leaving.idle (h : Leaving v c) : (v.upd (.command c) (.reply (.status "OK"))).Idle := by
  rcases h.command with ⟨rfl, hqueue⟩ | rfl
  · simp only [View.upd, View.answered, hqueue]
    exact ⟨rfl, hqueue, rfl⟩
  · simp only [View.upd, View.answered]
    split <;> exact View.clear_idle v

/-- Leaving a transaction that was not executed. -/
theorem Leaving.meets (h : Leaving v c) (hcall : v.call = some call) (hexecs : v.execs = [])
    (horiginal : original ≠ .ok) : Prog.Meets View.upd Allow (Failed call) v
      (leave (do return confirmed "OK" (← run c)) original) := by
  have hexec : c ≠ .exec := by rcases h.command with ⟨rfl, -⟩ | rfl <;> simp
  have hdata : c.isData = false := by rcases h.command with ⟨rfl, -⟩ | rfl <;> rfl
  have hallow : Allow v (.command c) := allow_of_ne_exec hexec fun hd => by simp [hdata] at hd
  refine Prog.meets_bind.2 (Prog.meets_bind.2 ⟨hallow, fun result => ?_⟩)
  obtain ⟨hcall', hexecs'⟩ := upd_frame (v := v) hexec result
  rw [hcall] at hcall'
  rw [hexecs] at hexecs'
  change Prog.Meets _ _ _ _ (if confirmed "OK" result ≠ .ok then _ else _)
  split_ifs with hok
  · exact Prog.meets_bind.2 (meets_invalidate (idle_failed hcall' hexecs' hok))
  · obtain rfl := confirmed_eq_ok.1 (not_not.1 hok)
    exact ⟨hcall', h.idle, by simp [hexecs'], fun _ => hexecs', horiginal⟩

theorem meets_leaveWatch (h : Stopped call v original) :
    Prog.Meets View.upd Allow (Failed call) v (leaveWatch original) :=
  Leaving.meets ⟨.inl ⟨rfl, h.queue⟩⟩ h.call h.execs h.failure

theorem meets_leaveTransaction (hcall : v.call = some call) (hexecs : v.execs = [])
    (horiginal : original ≠ .ok) :
    Prog.Meets View.upd Allow (Failed call) v (leaveTransaction original) :=
  Leaving.meets ⟨.inr rfl⟩ hcall hexecs horiginal

/-- A call is about to begin a transaction. -/
structure Fresh (call : StoreCall) (v : StoreView) : Prop where
  call : v.call = some call
  idle : v.Idle
  execs : v.execs = []

theorem Fresh.failed (h : Fresh call v) (hstatus : status ≠ .ok) : Failed call v status :=
  ⟨h.call, h.idle, by simp [h.execs], fun _ => h.execs, hstatus⟩

theorem yields_watch (hkeys : keys.length < 8) (hv : Fresh call v) :
    Checked.Yields View.upd Allow (fun v _ => Watching call keys (fun _ => True) v) (Failed call) v
      (watch keys) := by
  obtain ⟨hwatched, hqueue, hknown⟩ := hv.idle
  have hargc : ¬ maxArguments < (Command.watch keys).argc := by
    simp only [Command.argc, maxArguments]
    omega
  have hallow : Allow v (.command (.watch keys)) :=
    allow_of_ne_exec (by simp) fun hd => by cases hd
  have hlost : Fresh call (v.lost (.watch keys)) := by
    simp only [View.lost, hqueue]
    exact ⟨hv.call, View.clear_idle v, hv.execs⟩
  refine Checked.yields_lift_bind.2 ⟨hallow, fun result => ?_⟩
  rw [Prog.meets_ret]
  cases result with
  | reply r =>
    simp only [commandStatus, ne_eq, not_true_eq_false, if_false]
    split_ifs with hok
    · have hnot : r.isError = false := by
        cases r with
        | error => cases hok
        | _ => rfl
      simp only [Checked.yields_pure, View.upd, View.answered, hqueue, View.answeredAtOnce, hnot,
        Bool.false_eq_true, if_false]
      exact ⟨hv.call, by simp [hwatched], rfl, hv.execs, fun _ _ => trivial⟩
    · refine Checked.yields_lift_bind.2 (meets_invalidate (idle_failed ?_ ?_ (by simp)))
      · simp only [View.upd, View.answered, hqueue, View.answeredAtOnce]
        split_ifs <;> exact hv.call
      · simp only [View.upd, View.answered, hqueue, View.answeredAtOnce]
        split_ifs <;> exact hv.execs
  | deadlineExceeded => exact hv.failed (by simp [commandStatus])
  | ioError | protocolError =>
    simp only [View.upd, if_neg hargc]
    exact hlost.failed (by simp [commandStatus])

theorem yields_underWatch (hp : Learns call keys p B) (hv : Watching call keys (fun _ => True) v) :
    Checked.Yields View.upd Allow (fun v a => Watching call keys (B a) v) (Failed call) v
      (underWatch p) := by
  refine Checked.yields_lift_bind.2 (Prog.Meets.mono (hp hv) (fun _ _ h => h) fun v r hr => ?_)
  cases r with
  | ok a => exact ⟨hr.call, hr.watched, hr.queue, hr.execs, fun db hdb => (hr.knows db hdb).2⟩
  | error status => exact Checked.yields_lift_bind.2 (meets_leaveWatch hr)

theorem yields_orDiscard {Q : StoreView → Unit → Prop} (hcall : v.call = some call)
    (hexecs : v.execs = []) (hQ : status = .ok → Q v ()) :
    Checked.Yields View.upd Allow Q (Failed call) v (orDiscard status) := by
  unfold orDiscard
  split_ifs with hok
  · exact hQ hok
  · exact Checked.yields_lift_bind.2 (meets_leaveTransaction hcall hexecs hok)

theorem yields_multi (hv : Watching call keys A v) :
    Checked.Yields View.upd Allow (fun v _ => Queueing call A [] v) (Failed call) v multi := by
  have hallow : Allow v (.command .multi) := allow_of_ne_exec (by simp) fun hd => by cases hd
  refine Checked.yields_lift_bind.2 ⟨hallow, fun result => ?_⟩
  obtain ⟨hcall, hexecs⟩ := upd_frame (v := v) (c := .multi) (by simp) result
  refine yields_orDiscard (hcall.trans hv.call) (hexecs.trans hv.execs) fun hok => ?_
  obtain rfl := confirmed_eq_ok.1 hok
  simp only [View.upd, View.answered, hv.queue]
  exact ⟨hv.call, rfl, hv.execs, hv.knows⟩

theorem yields_queueOrDiscard (hc : c.isQuiet = true) (hv : Queueing call A q v) :
    Checked.Yields View.upd Allow (fun v _ => Queueing call A (q ++ [c]) v) (Failed call) v
      (queueOrDiscard c) := by
  have hexec : c ≠ .exec := by rintro rfl; cases hc
  have hallow : Allow v (.command c) := allow_of_ne_exec hexec fun _ => by simp [hv.queue]
  refine Checked.yields_lift_bind.2 (Prog.meets_bind.2 ⟨hallow, fun result => ?_⟩)
  obtain ⟨hcall, hexecs⟩ := upd_frame (v := v) hexec result
  refine yields_orDiscard (hcall.trans hv.call) (hexecs.trans hv.execs) fun hok => ?_
  obtain rfl := confirmed_eq_ok.1 hok
  have hview : v.upd (.command c) (.reply (.status "QUEUED")) =
      { v with queue := some (q ++ [c]) } := by
    simp only [View.upd, View.answered, hv.queue]
    cases c with
    | watch | unwatch | multi | exec | discard => cases hc
    | _ => rfl
  rw [hview]
  exact ⟨hv.call, rfl, hv.execs, hv.knows⟩

theorem yields_queueAll {cs : List (Command RedisKey)} (hcs : ∀ c ∈ cs, c.isQuiet = true)
    (hv : Queueing call A q v) :
    Checked.Yields View.upd Allow (fun v _ => Queueing call A (q ++ cs) v) (Failed call) v
      (cs.forM queueOrDiscard) := by
  induction cs generalizing q v with
  | nil => simpa using hv
  | cons c cs ih =>
    rw [List.forM_eq_forM, List.forM_cons]
    refine (yields_queueOrDiscard (hcs c List.mem_cons_self) hv).bind fun v _ hv => ?_
    have hrest := ih (fun c hc => hcs c (List.mem_cons_of_mem _ hc)) hv
    simpa using hrest

/-- A transaction ran, and its replies arrived. -/
structure Ran (call : StoreCall) (q : List (Command RedisKey)) (replies : List Reply)
    (v : StoreView) : Prop where
  call : v.call = some call
  idle : v.Idle
  execs : v.execs = [(q, some replies)]

theorem yields_checkedExecStatus {result : CommandResult} {Q : StoreView → List Reply → Prop}
    (hok : ∀ elements, result = .reply (.array elements) → elements.any Reply.isError = false →
      Q v elements) (hfail : ∀ status, execBaseStatus result = .error status →
      Failed call (if commandStatus result = .ok then v else v.clear) status) :
    Checked.Yields View.upd Allow Q (Failed call) v (checkedExecStatus result) := by
  unfold checkedExecStatus
  split_ifs with h
  · refine Checked.yields_lift_bind.2 (meets_invalidate ?_)
    rw [Checked.yields_check]
    cases hbase : execBaseStatus result with
    | ok elements => cases result <;> simp_all [execBaseStatus, commandStatus]
    | error status =>
      have hfailed := hfail status hbase
      rw [if_neg h] at hfailed
      exact hfailed
  · rw [Checked.yields_check]
    cases hbase : execBaseStatus result with
    | error status =>
      have hfailed := hfail status hbase
      rw [if_pos (not_not.1 h)] at hfailed
      exact hfailed
    | ok elements =>
      cases result with
      | reply r =>
        cases r with
        | array rs =>
          simp only [execBaseStatus] at hbase
          split_ifs at hbase with hany
          obtain rfl : rs = elements := by simpa using hbase
          exact hok rs rfl (by simpa using hany)
        | _ => cases hbase
      | _ => cases hbase

/-- **`EXEC` runs a sound queue, and the status tells what happened.** -/
theorem yields_exec (hsound : Sound call {db | A db} q) (hv : Queueing call A q v) :
    Checked.Yields View.upd Allow (fun v replies => Ran call q replies v) (Failed call) v exec := by
  have hallow : Allow v (.command .exec) := by
    refine ⟨fun _ => ⟨hv.execs, call, q, hv.call, hv.queue, fun now db hdb => ?_⟩,
      fun hd => by cases hd⟩
    exact hsound now db (hv.knows db hdb)
  refine Checked.yields_lift_bind.2 ⟨hallow, fun result => ?_⟩
  have hargc : ¬ maxArguments < (Command.exec : Command RedisKey).argc := by
    simp [Command.argc, maxArguments]
  have hlost : v.lost .exec = { v with execs := v.execs ++ [(q, none)] }.clear := by
    simp [View.lost, hv.queue]
  cases result with
  | reply r =>
    have hview : v.upd (.command .exec) (.reply r) = (v.ran q r).clear := by
      simp only [View.upd, View.answered, hv.queue, View.answeredInMulti]
    refine yields_checkedExecStatus (fun elements heq hany => ?_) fun status hstatus => ?_
    · obtain rfl : r = .array elements := by simpa using heq
      rw [hview]
      exact ⟨hv.call, View.clear_idle _, by simp [View.ran, Reply.elements?, View.clear, hv.execs]⟩
    · rw [hview]
      simp only [commandStatus, if_true]
      cases r with
      | array elements =>
        simp only [execBaseStatus] at hstatus
        split_ifs at hstatus with hany
        obtain rfl : StoreStatus.transactionError = status := by simpa using hstatus
        refine ⟨hv.call, View.clear_idle _, ?_, fun h => absurd h (by decide), by simp⟩
        simp [View.ran, Reply.elements?, View.clear, hv.execs]
      | _ =>
        obtain rfl := Except.error.inj hstatus
        refine ⟨hv.call, View.clear_idle _, ?_, fun _ => ?_, by simp⟩ <;>
          simp [View.ran, Reply.elements?, View.clear, hv.execs]
  | deadlineExceeded =>
    refine yields_checkedExecStatus (fun elements heq => by cases heq) fun status hstatus => ?_
    obtain rfl := Except.error.inj hstatus
    exact idle_failed hv.call hv.execs (by simp)
  | ioError | protocolError =>
    refine yields_checkedExecStatus (fun elements heq => by cases heq) fun status hstatus => ?_
    obtain rfl := Except.error.inj hstatus
    simp only [View.upd, if_neg hargc, hlost]
    exact ⟨hv.call, View.clear_idle _, by simp [View.clear, hv.execs],
      fun h => absurd h (by decide), by simp⟩

/-- **A transaction of the store**: what its precondition learns makes its queue sound. -/
theorem yields_watchedTransaction {commands : α → List (Command RedisKey)} (hkeys : keys.length < 8)
    (hp : Learns call keys p B) (hcommands : ∀ a, ∀ c ∈ commands a, c.isQuiet = true)
    (hsound : ∀ a, Sound call {db | B a db} (commands a)) (hv : Fresh call v) :
    Checked.Yields View.upd Allow (fun v r => Ran call (commands r.1) r.2 v) (Failed call) v
      (watchedTransaction keys p commands) := by
  refine (yields_watch hkeys hv).bind fun v _ hv => ?_
  refine (yields_underWatch hp hv).bind fun v a hv => ?_
  refine (yields_multi hv).bind fun v _ hv => ?_
  refine (yields_queueAll (hcommands a) hv).bind fun v _ hv => ?_
  exact (yields_exec (hsound a) (by simpa using hv)).bind fun v replies hv => hv

end Store

end AegisFlow
