import AegisFlow.Interaction.Drive
import AegisFlow.Storage.StoreCalls

/-!
# Clients of one store

Any number of clients, each making one call of the store after another, on one server, in any
interleaving at the granularity of single commands.

* `Evolves` : what an operation of a client can do to the database;
* `storePool` : the clients;
* `transactions_serializable` : **every transaction runs on the very database that its
  precondition saw, and counts as one revision**.
-/

namespace AegisFlow

open Redis

section

variable [Inet]

/-! ### What an operation does to the database -/

/-- How an operation of a client changes the database, in terms of its view before and after. -/
inductive Evolves (v v' : StoreView) (db db' : BlacklistDb) : Prop
  /-- Nothing happens; a transaction that did not run may look as if it might have. -/
  | same (hdb : db' = db) (hexecs : v'.execs = v.execs ∨
      ∃ q, v.execs = [] ∧ v'.execs = [(q, none)])
  /-- A write outside of transactions. -/
  | direct (now : ℕ) {call : StoreCall} {c : Command RedisKey} (hcall : v.call = some call)
      (hwrite : DirectWrite call c) (hdb : db' = (c.run now db).db) (hexecs : v'.execs = v.execs)
  /-- The transaction of the call. -/
  | commit (now : ℕ) {call : StoreCall} {q : List (Command RedisKey)} (hcall : v.call = some call)
      (hqueue : v.queue = some q) (hknown : db ∈ v.known) (hdb : db' = execDb now db q)
      (hcommits : Commits call db db')
      (herrors : ∀ r ∈ execReplies now db q, r.isError = false)
      (hcounted : call.counts = true → counted q (execReplies now db q) = db'.revision)
      (hfirst : v.execs = [])
      (hexecs : v'.execs = [(q, none)] ∨ v'.execs = [(q, some (execReplies now db q))])

omit [Inet] in
theorem db_of_isRead {c : Command RedisKey} (hread : c.isRead = true) (now : ℕ)
    (db : BlacklistDb) : (c.run now db).db = db := by
  cases c with
  | hget | hmget | hlen =>
    simp only [Command.run, Outcome.onHash]
    split <;> rfl
  | xrange | xlen =>
    simp only [Command.run, Outcome.onStream]
    split <;> rfl
  | type | get => rfl
  | _ => cases hread

variable {ι : Type} [DecidableEq ι] {op : ConnectionOp RedisKey} {i : ι}

/-- **An operation that the contract allows changes the database only as its call promises.** -/
theorem evolves {w w' : World ι RedisKey} {v : StoreView} {r : op.Reply} (h : SyncedAt w i v)
    (hallow : Allow v op) (hs : Serves i w op r w') :
    Evolves v (v.upd op r) w.server.db w'.server.db := by
  cases h.effect hs with
  | none hdb hexecs =>
    refine .same hdb (hexecs.imp id ?_)
    rintro ⟨q, -, rfl, hexecs⟩
    obtain ⟨hfirst, -⟩ := hallow.1 rfl
    exact ⟨q, hfirst, by simpa [hfirst] using hexecs⟩
  | @run now c hdb hop hqueue hdata hexecs =>
    subst hop
    rcases hallow.2 hdata hqueue with hread | ⟨call, hcall, hwrite⟩
    · exact .same (hdb.trans (db_of_isRead hread now _)) (.inl hexecs)
    · exact .direct now hcall hwrite hdb hexecs
  | @exec now q hdb hop hqueue hknown hexecs =>
    subst hop
    obtain ⟨hfirst, call, q', hcall, hq', hsound⟩ := hallow.1 rfl
    obtain rfl : q = q' := Option.some.inj (hqueue.symm.trans hq')
    obtain ⟨hcommits, herrors, hcounted⟩ := hsound now _ hknown
    refine .commit now hcall hqueue hknown hdb (hdb ▸ hcommits) herrors (hdb ▸ hcounted) hfirst ?_
    simpa [hfirst] using hexecs

/-! ### The clients -/

/-- A client that has made no call yet. -/
def StoreView.initial : StoreView := ⟨none, [], none, Set.univ, []⟩

variable (ι) in
/-- Clients that make calls of the store.  A client whose connection is gone may get a new one. -/
def storePool : Pool (ConnectionSig RedisKey) ι StoreCall ι (World ι RedisKey) StoreView Unit
    StoreReply where
  init w v _ := (∀ i, w.server.sessions i = {}) ∧ ∀ i, v i = StoreView.initial
  may _ _ := True
  code call := ⟨fun x => (fun reply => (some reply, x)) <$> call.code⟩
  serve i w op r w' := Serves i w op r w'
  env w i w' := w.linked i = false ∧ w' = w.connect i
  enter call v := v.enter call
  upd := View.upd

theorem initial_idle : StoreView.initial.Idle := ⟨rfl, rfl, rfl⟩

/-- What holds when a call ends. -/
def StoreCall.Ended (call : StoreCall) (v : StoreView) (reply : Option StoreReply) : Prop :=
  v.call = some call ∧ ∃ a, reply = some a ∧ call.Post v a

theorem storePool_meets (call : StoreCall) {v : StoreView} (hidle : v.Idle) (x : Unit) :
    Proc.Meets View.upd Allow (fun v _ reply => v.Idle ∧ call.Ended v reply) (v.enter call) x
      ((storePool ι).code call) := by
  refine Prog.meets_map.2 ((call.meets hidle).mono (fun _ _ h => h) fun v a h => ?_)
  exact ⟨h.2.1, h.1, a, rfl, h.2.2⟩

variable (ι) in
/-- What the clients promise. -/
def storeContract : Contract (storePool ι) where
  idle v _ := v.Idle
  allow := Allow
  post call v _ reply := call.Ended v reply
  init_idle h i := h.2 i ▸ initial_idle
  meets _ hidle := storePool_meets _ hidle _

/-- The states of a pool of clients. -/
abbrev StorePoolState (ι : Type) :=
  PoolState (ConnectionSig RedisKey) ι StoreCall (World ι RedisKey) StoreView Unit StoreReply

/-- The database. -/
abbrev dbOf (s : StorePoolState ι) : BlacklistDb := s.world.server.db

/-! ### What holds in every state -/

variable {s : StorePoolState ι} {a : StoreReply}

/-- The views agree with the server, and name the calls that are running. -/
structure StoreInv (s : StorePoolState ι) : Prop where
  synced : Synced s.world s.view
  call : ∀ i call p, s.run i = some (call, p) → (s.view i).call = some call

omit [DecidableEq ι] in
theorem initial_synced {w : World ι RedisKey} (hw : ∀ i, w.server.sessions i = {})
    {v : ι → StoreView} (hv : ∀ i, v i = StoreView.initial) : Synced w v where
  sync i := by
    rw [hw i, hv i]
    exact ⟨rfl, rfl, fun _ => Set.mem_univ _, fun _ _ _ _ => Set.mem_univ _⟩
  unlinked i _ := by
    rw [hv i]
    exact initial_idle

/-- An operation does not change which call is running. -/
theorem upd_call (v : StoreView) (op : ConnectionOp RedisKey) (r : op.Reply) :
    (v.upd op r).call = v.call := by
  cases op with
  | invalidate => rfl
  | command c =>
    by_cases hc : c = .exec
    · subst hc
      have hlost : (v.lost .exec).call = v.call := by
        unfold View.lost
        split
        · rfl
        · rfl
      cases r with
      | reply r =>
        simp only [View.upd, View.answered]
        split
        · simp only [View.answeredInMulti, View.ran]
          split <;> rfl
        · simp only [View.answeredAtOnce]
          split_ifs <;> rfl
      | deadlineExceeded => rfl
      | ioError | protocolError =>
        simp only [View.upd]
        split_ifs
        · rfl
        · exact hlost
    · exact (Store.upd_frame hc r).1

theorem storeInv (h : (storePool ι).system.Reachable s) : StoreInv s := by
  refine (storeContract ι).invariant h ?_ fun s l s' _ hi hst => ?_
  · rintro s ⟨⟨hw, hv⟩, hrun, -⟩
    exact ⟨initial_synced hw hv, fun i call p hp => by simp [hrun i] at hp⟩
  · cases hst with
    | @begin i c hrun hmay hidle =>
      refine ⟨hi.synced.enter c, fun j call p hp => ?_⟩
      by_cases hj : j = i
      · subst hj
        obtain ⟨rfl, -⟩ : c = call ∧ _ := by simpa using hp
        rw [PoolState.begin_view, Function.update_self]
        rfl
      · rw [PoolState.begin_view, Function.update_of_ne hj]
        exact hi.call j call p (by simpa [hj] using hp)
    | @op i c o k r w hrun hallow hserve =>
      refine ⟨hi.synced.serves hserve, fun j call p hp => ?_⟩
      by_cases hj : j = i
      · subst hj
        obtain ⟨rfl, -⟩ : c = call ∧ _ := by simpa using hp
        rw [PoolState.answer_view, Function.update_self]
        exact (upd_call _ _ _).trans (hi.call j c _ hrun)
      · rw [PoolState.answer_view, Function.update_of_ne hj]
        exact hi.call j call p (by simpa [hj] using hp)
    | @finish i c a x hrun hidle hpost =>
      refine ⟨hi.synced, fun j call p hp => ?_⟩
      by_cases hj : j = i
      · subst hj
        simp at hp
      · exact hi.call j call p (by simpa [hj] using hp)
    | @env i w henv =>
      obtain ⟨hlinked, rfl⟩ := henv
      exact ⟨hi.synced.connect hlinked, hi.call⟩

/-! ### Revisions -/

section

variable {db db' : BlacklistDb} {call : StoreCall} {v v' : StoreView}

/-- A write outside of transactions concerns the stream or the barrier only. -/
theorem DirectWrite.other {c : Command RedisKey} (h : DirectWrite call c) (now : ℕ) {k : RedisKey}
    (hpending : k ≠ .pending) (hbarrier : k ≠ .resetBarrier) : (c.run now db).db k = db k := by
  cases call with
  | deletePending ids =>
    obtain rfl := h
    exact Command.run_of_notMem_keys (by simpa [Command.keys] using hpending)
  | requestResetBarrier =>
    obtain rfl := h
    exact Command.run_of_notMem_keys (by simpa [Command.keys] using hbarrier)
  | _ => exact h.elim

omit [Inet] in
/-- The key of the revision determines the revision. -/
theorem revision_congr (h : db' .revision = db .revision) : db'.revision = db.revision := by
  simp only [BlacklistDb.revision, h]

theorem Commits.counts (h : Commits call db db') (hcounts : call.counts = true) :
    ∃ n, db.revision = some n ∧ db'.revision = some (n + 1) := by
  cases call with
  | applyMutations => exact h.revision
  | rebuildFromMysql => exact h.revision
  | removeExpiredFields => exact ⟨_, h.revision⟩
  | _ => cases hcounts

theorem Commits.keeps (h : Commits call db db') (hcounts : call.counts = false) :
    db'.revision = db.revision := by
  cases call with
  | setPublishedRevision revision =>
    obtain rfl := h
    exact revision_congr (Function.update_of_ne (by simp) _ _)
  | completeResetBarrier => exact revision_congr (h.others _ (by simp))
  | applyMutations | rebuildFromMysql | removeExpiredFields => cases hcounts
  | _ => exact h.elim

/-- The revision stays, or the transaction of the call raises it by one. -/
theorem Evolves.revision (h : Evolves v v' db db') : db'.revision = db.revision ∨
    ∃ call n, v.call = some call ∧ call.counts = true ∧ db.revision = some n ∧
      db'.revision = some (n + 1) := by
  cases h with
  | same hdb => exact .inl (by rw [hdb])
  | direct now hcall hwrite hdb =>
    rw [hdb]
    exact .inl (revision_congr (hwrite.other now (by simp) (by simp)))
  | @commit now call q hcall hqueue hknown hdb hcommits =>
    cases hcounts : call.counts with
    | true =>
      obtain ⟨n, hn, hn'⟩ := hcommits.counts hcounts
      exact .inr ⟨call, n, hcall, hcounts, hn, hn'⟩
    | false => exact .inl (hcommits.keeps hcounts)

/-- A revision was reached. -/
def Reached (db : BlacklistDb) (n : ℕ) : Prop := ∃ m, db.revision = some m ∧ n ≤ m

theorem Evolves.reached (h : Evolves v v' db db') {n : ℕ} (hn : Reached db n) : Reached db' n := by
  obtain ⟨m, hm, hle⟩ := hn
  rcases h.revision with heq | ⟨call, k, -, -, hk, hk'⟩
  · exact ⟨m, heq.trans hm, hle⟩
  · obtain rfl : k = m := Option.some.inj (hk.symm.trans hm)
    exact ⟨k + 1, hk', by omega⟩

/-- The revision that the transaction of a call counted to, if its replies arrived. -/
def issued (v : StoreView) : Option ℕ :=
  match v.execs with
  | [(q, some replies)] => counted q replies
  | _ => none

/-- An operation of a counting call issues no revision, or a new one. -/
theorem Evolves.issued (h : Evolves v v' db db') (hcall : v.call = some call)
    (hcounts : call.counts = true) :
    AegisFlow.issued v' = AegisFlow.issued v ∨ AegisFlow.issued v' = none ∨
      ∃ n, db.revision = some n ∧ db'.revision = some (n + 1) ∧
        AegisFlow.issued v' = some (n + 1) := by
  cases h with
  | same hdb hexecs =>
    rcases hexecs with hexecs | ⟨q, -, hexecs⟩
    · exact .inl (by simp only [AegisFlow.issued, hexecs])
    · exact .inr (.inl (by simp only [AegisFlow.issued, hexecs]))
  | direct now _ _ _ hexecs => exact .inl (by simp only [AegisFlow.issued, hexecs])
  | @commit now call' q hcall' hqueue hknown hdb hcommits herrors hcounted hfirst hexecs =>
    obtain rfl : call = call' := Option.some.inj (hcall.symm.trans hcall')
    obtain ⟨n, hn, hn'⟩ := hcommits.counts hcounts
    rcases hexecs with hexecs | hexecs
    · exact .inr (.inl (by simp only [AegisFlow.issued, hexecs]))
    · refine .inr (.inr ⟨n, hn, hn', ?_⟩)
      simp only [AegisFlow.issued, hexecs]
      exact (hcounted hcounts).trans hn'

end

/-! ### Every revision is returned once -/

/-- The revision that a client's running call has counted to. -/
def issuedBy (s : StorePoolState ι) (i : ι) : Option ℕ :=
  (s.run i).bind fun r => if r.1.counts = true then issued (s.view i) else none

/-- The revision a call returned with `Ok`. -/
def StoreReply.okRevision (call : StoreCall) : StoreReply → Option ℕ
  | .result ⟨.ok, some n⟩ => if call.counts = true then some n else none
  | _ => none

/-- The revisions that calls returned with `Ok`, in the order in which the calls ended. -/
def returned (s : StorePoolState ι) : List ℕ :=
  s.ended.filterMap fun e => e.2.2.bind (StoreReply.okRevision e.2.1)

/-- Revisions are issued and returned once each. -/
structure RevisionsOnce (s : StorePoolState ι) : Prop where
  /-- What is issued was reached, and not returned yet. -/
  issued : ∀ i n, issuedBy s i = some n → Reached (dbOf s) n ∧ n ∉ returned s
  /-- No two running calls were issued the same. -/
  distinct : ∀ i j n, issuedBy s i = some n → issuedBy s j = some n → i = j
  reached : ∀ n ∈ returned s, Reached (dbOf s) n
  nodup : (returned s).Nodup

/-- A step of a client that returns nothing. -/
theorem RevisionsOnce.step {s' : StorePoolState ι} (h : RevisionsOnce s)
    (hothers : ∀ j, j ≠ i → issuedBy s' j = issuedBy s j) (hreturned : returned s' = returned s)
    (hreached : ∀ n, Reached (dbOf s) n → Reached (dbOf s') n)
    (hself : issuedBy s' i = issuedBy s i ∨ issuedBy s' i = none ∨
      ∃ n, (dbOf s).revision = some n ∧ Reached (dbOf s') (n + 1) ∧
        issuedBy s' i = some (n + 1)) : RevisionsOnce s' := by
  have hnew {n m : ℕ} (hn : (dbOf s).revision = some n)
      (hm : Reached (dbOf s) m) : m ≠ n + 1 := by
    obtain ⟨k, hk, hle⟩ := hm
    obtain rfl : n = k := Option.some.inj (hn.symm.trans hk)
    omega
  -- what a call is issued now, it was issued before, or it is the new revision
  have hcases (j : ι) (m : ℕ) (hj : issuedBy s' j = some m) : issuedBy s j = some m ∨
      j = i ∧ ∃ n, (dbOf s).revision = some n ∧ Reached (dbOf s') (n + 1) ∧
        m = n + 1 := by
    by_cases hji : j = i
    · subst hji
      rcases hself with hself | hself | ⟨n, hn, hr, hself⟩
      · exact .inl (hself ▸ hj)
      · rw [hself] at hj
        cases hj
      · exact .inr ⟨rfl, n, hn, hr, Option.some.inj (hj.symm.trans hself)⟩
    · exact .inl (hothers j hji ▸ hj)
  refine ⟨fun j m hj => ?_, fun j k m hj hk => ?_, fun m hm => ?_, hreturned ▸ h.nodup⟩
  · rw [hreturned]
    rcases hcases j m hj with hold | ⟨-, n, hn, hr, rfl⟩
    · exact ⟨hreached m (h.issued j m hold).1, (h.issued j m hold).2⟩
    · exact ⟨hr, fun hmem => hnew hn (h.reached _ hmem) rfl⟩
  · rcases hcases j m hj with hj' | ⟨rfl, n, hn, -, rfl⟩
    · rcases hcases k m hk with hk' | ⟨rfl, n, hn, -, rfl⟩
      · exact h.distinct j k m hj' hk'
      · exact absurd rfl (hnew hn (h.issued j _ hj').1)
    · rcases hcases k _ hk with hk' | ⟨rfl, -⟩
      · exact absurd rfl (hnew hn (h.issued k _ hk').1)
      · rfl
  · exact hreached m (h.reached m (hreturned ▸ hm))

theorem returned_finish {call : StoreCall} {x : Unit} : returned (s.finish i call (some a) x) =
      returned s ++ (a.okRevision call).toList := by
  simp only [returned, PoolState.finish_ended, List.filterMap_append, List.filterMap_cons,
    List.filterMap_nil, Option.bind_some]
  cases a.okRevision call <;> rfl

/-- A call that returns `Ok` returns the revision it was issued. -/
theorem StoreCall.Post.okRevision {call : StoreCall} {v : StoreView} {n : ℕ} (h : call.Post v a)
    (hn : a.okRevision call = some n) : call.counts = true ∧ AegisFlow.issued v = some n := by
  unfold StoreReply.okRevision at hn
  split at hn
  · split_ifs at hn with hcounts
    cases hn
    obtain ⟨q, replies, m, hexecs, hm, hcounted⟩ := h.ok _ rfl hcounts rfl
    cases hm
    exact ⟨hcounts, by simp only [issued, hexecs, hcounted]⟩
  · cases hn

/-- A call ends. -/
theorem RevisionsOnce.finish {call : StoreCall} {x : Unit}
    {p : Prog (ConnectionSig RedisKey) (Option StoreReply × Unit)} (h : RevisionsOnce s)
    (hrun : s.run i = some (call, p)) (hpost : call.Post (s.view i) a) :
    RevisionsOnce (s.finish i call (some a) x) := by
  have hself : issuedBy (s.finish i call (some a) x) i = none := by simp [issuedBy]
  have hothers (j : ι) (hj : j ≠ i) : issuedBy (s.finish i call (some a) x) j = issuedBy s j := by
    simp [issuedBy, hj]
  have hold (j : ι) (n : ℕ) (hj : issuedBy (s.finish i call (some a) x) j = some n) :
      j ≠ i ∧ issuedBy s j = some n := by
    have hji : j ≠ i := by
      rintro rfl
      rw [hself] at hj
      cases hj
    exact ⟨hji, hothers j hji ▸ hj⟩
  have hissued (n : ℕ) (hn : n ∈ (a.okRevision call).toList) : issuedBy s i = some n := by
    obtain ⟨hcounts, hn⟩ := hpost.okRevision (Option.mem_toList.1 hn)
    simp only [issuedBy, hrun, Option.bind_some, hcounts, if_true, hn]
  refine ⟨fun j n hj => ?_, fun j k n hj hk => ?_, fun n hn => ?_, ?_⟩
  · obtain ⟨hji, hj⟩ := hold j n hj
    refine ⟨(h.issued j n hj).1, fun hmem => ?_⟩
    rw [returned_finish] at hmem
    rcases List.mem_append.1 hmem with hmem | hmem
    · exact (h.issued j n hj).2 hmem
    · exact hji (h.distinct j i n hj (hissued n hmem))
  · exact h.distinct j k n (hold j n hj).2 (hold k n hk).2
  · rw [returned_finish] at hn
    rcases List.mem_append.1 hn with hn | hn
    · exact h.reached n hn
    · exact (h.issued i n (hissued n hn)).1
  · rw [returned_finish]
    refine List.nodup_append.2 ⟨h.nodup, ?_, fun n hn m hm => ?_⟩
    · cases a.okRevision call <;> simp
    · rintro rfl
      exact (h.issued i n (hissued n hm)).2 hn

theorem revisionsOnce (h : (storePool ι).system.Reachable s) : RevisionsOnce s := by
  refine (storeContract ι).invariant h ?_ fun s l s' hr hi hst => ?_
  · rintro s ⟨-, hrun, hended⟩
    have hnone (i : ι) (n : ℕ) : issuedBy s i ≠ some n := by simp [issuedBy, hrun i]
    refine ⟨fun i n hn => absurd hn (hnone i n), fun i j n hn => absurd hn (hnone i n), ?_, ?_⟩
    · simp [returned, hended]
    · simp [returned, hended]
  · cases hst with
    | @begin i c hrun hmay hidle =>
      refine hi.step (i := i) (fun j hj => by simp [issuedBy, hj]) rfl (fun _ h => h)
        (.inr (.inl ?_))
      simp [issuedBy, storePool, View.enter, issued]
    | @op i c o k r w hrun hallow hserve =>
      have hevolves := evolves ((storeInv hr).synced.at _) hallow hserve
      refine hi.step (i := i) (fun j hj => by simp [issuedBy, hj]) rfl
        (fun n hn => hevolves.reached hn) ?_
      by_cases hcounts : c.counts = true
      · have hissued := hevolves.issued ((storeInv hr).call i c _ hrun) hcounts
        have hself : issuedBy (s.answer i c w ((storePool ι).upd (s.view i) o r) (k r)) i =
            AegisFlow.issued ((s.view i).upd o r) := by
          simp [issuedBy, hcounts, storePool]
        have hbefore : issuedBy s i = AegisFlow.issued (s.view i) := by
          simp [issuedBy, hrun, hcounts]
        rw [hself, hbefore]
        refine hissued.imp id (Or.imp id ?_)
        rintro ⟨n, hn, hn', hissued⟩
        exact ⟨n, hn, ⟨n + 1, hn', le_rfl⟩, hissued⟩
      · exact .inr (.inl (by simp [issuedBy, hcounts]))
    | @finish i c a x hrun hidle hpost =>
      obtain ⟨-, a, rfl, hpost⟩ := hpost
      exact hi.finish hrun hpost
    | @env i w henv =>
      obtain ⟨hlinked, rfl⟩ := henv
      exact ⟨hi.issued, hi.distinct, hi.reached, hi.nodup⟩

/-! ### Serializability -/

/-- A transaction of a call took effect. -/
structure Took (call : StoreCall) (v : StoreView) (op : ConnectionOp RedisKey)
    (db db' : BlacklistDb) : Prop where
  /-- It is the only one of the call. -/
  only : v.execs = []
  /-- The database is one that agrees with everything the call read under `WATCH`. -/
  known : db ∈ v.known
  /-- The queue is executed as a whole, and none of its commands fails. -/
  executed : op = .command .exec ∧ ∃ q now, v.queue = some q ∧ db' = execDb now db q ∧
    ∀ r ∈ execReplies now db q, r.isError = false
  commits : Commits call db db'
  revision : ∃ n, db.revision = some n ∧ db'.revision = some (n + 1)

/-- An operation of a counting call changes nothing, or is the transaction of the call. -/
theorem Evolves.took {v v' : StoreView} {db db' : BlacklistDb} {call : StoreCall}
    (h : Evolves v v' db db') (hcall : v.call = some call) (hcounts : call.counts = true)
    (hop : v'.execs ≠ v.execs → op = .command .exec) :
    db' = db ∧ (∀ q replies, v'.execs ≠ v.execs ++ [(q, some replies)]) ∨
      v'.execs ≠ v.execs ∧ Took call v op db db' := by
  cases h with
  | same hdb hexecs =>
    refine .inl ⟨hdb, fun q replies => ?_⟩
    rcases hexecs with hexecs | ⟨q', hfirst, hexecs⟩
    · simp [hexecs]
    · simp [hfirst, hexecs]
  | @direct now call' c hcall' hwrite =>
    obtain rfl : call = call' := Option.some.inj (hcall.symm.trans hcall')
    cases call <;> first | exact hwrite.elim | cases hcounts
  | @commit now call' q hcall' hqueue hknown hdb hcommits herrors hcounted hfirst hexecs =>
    obtain rfl : call = call' := Option.some.inj (hcall.symm.trans hcall')
    have hne : v'.execs ≠ v.execs := by
      rw [hfirst]
      rcases hexecs with hexecs | hexecs <;> simp [hexecs]
    exact .inr ⟨hne, hfirst, hknown, ⟨hop hne, q, now, hqueue, hdb, herrors⟩, hcommits,
      hcommits.counts hcounts⟩

/-- Only `EXEC` adds to the transactions of a call. -/
theorem exec_of_execs_ne {v : StoreView} {r : op.Reply} (h : (v.upd op r).execs ≠ v.execs) :
    op = .command .exec := by
  cases op with
  | invalidate => exact absurd rfl h
  | command c =>
    by_contra hc
    exact h (Store.upd_frame (fun heq => hc (by rw [heq])) r).2

/-- **Transactions are serializable and numbered by revision.**  Of the commands of a call that
counts as a revision, only a successful `EXEC` changes the database; it runs the whole queue on a
database that agrees with everything the call read, no command of it fails, and it raises the
revision by one.  No two calls return the same revision. -/
theorem transactions_serializable {s : StorePoolState ι} (h : (storePool ι).system.Reachable s) :
    (∀ i call p op r s', s.run i = some (call, p) → call.counts = true →
      (storePool ι).system.step s (.op i op r) s' →
        dbOf s' = dbOf s ∨ Took call (s.view i) op (dbOf s) (dbOf s')) ∧
    (∀ i call p r s', s.run i = some (call, p) → call.counts = true →
      (storePool ι).system.step s (.op i (.command .exec) (.reply r)) s' →
        if r.elements?.isSome = true then Took call (s.view i) (.command .exec) (dbOf s) (dbOf s')
        else dbOf s' = dbOf s) ∧
    (returned s).Nodup := by
  have hop (i : ι) (call : StoreCall) (p) (op) (r) (s') (hrun : s.run i = some (call, p))
      (hstep : (storePool ι).system.step s (.op i op r) s') :
      (s.view i).call = some call ∧ Allow (s.view i) op ∧
        Evolves (s.view i) ((s.view i).upd op r) (dbOf s) (dbOf s') := by
    have hcall := (storeInv h).call i call p hrun
    cases (storeContract ι).lawful h hstep with
    | op hrun' hallow hserve => exact ⟨hcall, hallow,
        evolves ((storeInv h).synced.at _) hallow hserve⟩
  refine ⟨fun i call p op r s' hrun hcounts hstep => ?_,
    fun i call p r s' hrun hcounts hstep => ?_, (revisionsOnce h).nodup⟩
  · obtain ⟨hcall, -, hevolves⟩ := hop i call p op r s' hrun hstep
    exact (hevolves.took hcall hcounts exec_of_execs_ne).imp And.left And.right
  · obtain ⟨hcall, hallow, hevolves⟩ := hop i call p _ _ s' hrun hstep
    obtain ⟨-, -, q, -, hqueue, -⟩ := hallow.1 rfl
    have htook := hevolves.took hcall hcounts fun _ => rfl
    have hexecs : ((s.view i).upd (.command .exec) (.reply r)).execs =
        ((s.view i).ran q r).execs := by
      simp only [View.upd, View.answered, hqueue, View.answeredInMulti]
      rfl
    rw [hexecs] at htook
    cases hr : r.elements? with
    | none =>
      have hsame : ((s.view i).ran q r).execs = (s.view i).execs := by simp [View.ran, hr]
      exact (htook.resolve_right fun h => h.1 hsame).1
    | some replies =>
      have hadded : ((s.view i).ran q r).execs = (s.view i).execs ++ [(q, some replies)] := by
        simp [View.ran, hr]
      exact (htook.resolve_left fun h => h.2 q replies hadded).2

/-! ### Runs on a server that answers -/

/-- A server with this database, and clients that have done nothing. -/
def poolAt (db : BlacklistDb) : StorePoolState ι :=
  ⟨⟨⟨db, fun _ => {}⟩, fun _ => true⟩, fun _ => StoreView.initial, fun _ => (), fun _ => none, []⟩

theorem poolAt_reachable (db : BlacklistDb) : (storePool ι).system.Reachable (poolAt db) :=
  .init ⟨⟨fun _ => rfl, fun _ => rfl⟩, fun _ => rfl, rfl⟩

/-- Client `i` performs its next `n` operations. -/
def proceed (i : ι) (n : ℕ) (s : StorePoolState ι) : StorePoolState ι :=
  (storePool ι).drive (World.answer 0 i) i n s

/-- Client `i` begins a call and performs `n` operations. -/
def perform (i : ι) (call : StoreCall) (n : ℕ) (s : StorePoolState ι) : StorePoolState ι :=
  proceed i n ((storePool ι).launch i call s)

theorem answer_sound (i : ι) (w : World ι RedisKey) (o : ConnectionOp RedisKey) (r : o.Reply)
    (w' : World ι RedisKey) (h : World.answer 0 i o w = some (r, w')) :
    (storePool ι).serve i w o r w' := World.serves_of_answer h

theorem leads_proceed (i : ι) (n : ℕ) (s : StorePoolState ι) :
    (storePool ι).system.Leads s (proceed i n s) := Pool.leads_drive (answer_sound i) n s

theorem leads_perform (i : ι) (call : StoreCall) (n : ℕ) (s : StorePoolState ι) :
    (storePool ι).system.Leads s (perform i call n s) :=
  (Pool.leads_launch trivial s).trans (leads_proceed i n _)

end

/-- A reply came, and it passes the test. -/
def repliesWith (p : Reply → Bool) : CommandResult → Bool
  | .reply r => p r
  | _ => false

theorem repliesWith_iff {p : Reply → Bool} {result : CommandResult} :
    repliesWith p result = true ↔ ∃ r, result = .reply r ∧ p r = true := by
  cases result <;> simp [repliesWith]

section Witness

local instance poolInet : Inet := Inet.sample

/-- A store that is ready, with no entry, at revision 6. -/
def readyDb : BlacklistDb :=
  Function.update (Function.update (fun _ => none) .cacheReady (some (.string (ascii "1"))))
    .revision (some (.string (ascii "6")))

/-- Ban the user `u` for ever. -/
def poolBan : BlacklistMutation := .banUser (ascii "u") ⟨ascii "u", by decide⟩

/-- Two clients ban the user.  The second one begins when the first is watching, and is about to
commit. -/
def contended : StorePoolState Bool :=
  perform true (.applyMutations [poolBan]) 11
    (perform false (.applyMutations [poolBan]) 1 (poolAt readyDb))

/-- The second client has committed, and now the first is about to. -/
def overtaken : StorePoolState Bool := proceed false 10 (proceed true 1 contended)

theorem contended_reachable : (storePool Bool).system.Reachable contended :=
  (poolAt_reachable _).leads ((leads_perform ..).trans (leads_perform ..))

theorem overtaken_reachable : (storePool Bool).system.Reachable overtaken :=
  contended_reachable.leads ((leads_proceed ..).trans (leads_proceed ..))

/-- The theorem for that run: the second client commits, and the first one, whose transaction the
server refuses, changes nothing. -/
theorem transactions_serializable_contended :
    Took (.applyMutations [poolBan]) (contended.view true) (.command .exec)
      (dbOf contended) (dbOf (proceed true 1 contended)) ∧
    dbOf (proceed false 1 overtaken) = dbOf overtaken := by
  obtain ⟨p, r, hrun, hstep, hr⟩ := Pool.step_drive (answer_sound true) (s := contended)
    (c := .applyMutations [poolBan]) (o := .command .exec) rfl
    (p := repliesWith (·.elements?.isSome)) (by rfl)
  obtain ⟨q, t, hrun', hstep', ht⟩ := Pool.step_drive (answer_sound false) (s := overtaken)
    (c := .applyMutations [poolBan]) (o := .command .exec) rfl
    (p := repliesWith (·.elements?.isNone)) (by rfl)
  obtain ⟨r, rfl, hsome⟩ := repliesWith_iff.mp hr
  obtain ⟨t, rfl, hnone⟩ := repliesWith_iff.mp ht
  have htook := (transactions_serializable contended_reachable).2.1 true _ p r _ hrun rfl hstep
  have hrefused := (transactions_serializable overtaken_reachable).2.1 false _ q t _ hrun' rfl
    hstep'
  rw [if_pos hsome] at htook
  rw [if_neg (by simpa using hnone)] at hrefused
  exact ⟨htook, hrefused⟩

end Witness

end AegisFlow
