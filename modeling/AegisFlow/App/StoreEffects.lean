import AegisFlow.App.Processes

/-!
# What a call of the store did

A process sees the statuses that its calls return.  Here these are compared with what the commands
of the call really did to the database, among all that the other processes did meanwhile.

* `NoEffect`, `OneEffect` : the moments of a process in which it changed the database;
* `Tally` : what a call knows of its transaction, and what the transaction did;
* `rely_runStore` : **the result of a call of the store tells what its transaction did**.
-/

namespace AegisFlow

open Redis

variable [Inet] {ι : Type}

/-- What a process did at some moment. -/
abbrev Deed (ι : Type) := Moment DeploySig (Deployment ι)

/-- What there is to see from a process. -/
abbrev ProcessScene (ι : Type) := Scene DeploySig (Deployment ι) DeployView

/-- Nothing of this changed the database. -/
def NoEffect (deeds : List (Deed ι)) : Prop := ∀ d ∈ deeds, d.after.db = d.before.db

/-- One of this changed the database, in this way. -/
def OneEffect (deeds : List (Deed ι)) (change : BlacklistDb → BlacklistDb → Prop) : Prop :=
  ∃ before d after, deeds = before ++ d :: after ∧ NoEffect before ∧ NoEffect after ∧
    change d.before.db d.after.db

section

variable {deeds more : List (Deed ι)} {d : Deed ι}
  {change change' : BlacklistDb → BlacklistDb → Prop}

theorem NoEffect.append (h : NoEffect deeds) (h' : NoEffect more) : NoEffect (deeds ++ more) :=
  fun d hd => (List.mem_append.1 hd).elim (h d) (h' d)

theorem NoEffect.single (h : d.after.db = d.before.db) : NoEffect [d] := by
  intro d' hd'
  rw [List.mem_singleton.1 hd']
  exact h

theorem OneEffect.append (h : OneEffect deeds change) (h' : NoEffect more) :
    OneEffect (deeds ++ more) change := by
  obtain ⟨before, d, after, rfl, hbefore, hafter, hd⟩ := h
  exact ⟨before, d, after ++ more, by simp, hbefore, hafter.append h', hd⟩

theorem NoEffect.append_one (h : NoEffect deeds) (h' : OneEffect more change) :
    OneEffect (deeds ++ more) change := by
  obtain ⟨before, d, after, rfl, hbefore, hafter, hd⟩ := h'
  exact ⟨deeds ++ before, d, after, by simp, h.append hbefore, hafter, hd⟩

theorem OneEffect.single (h : change d.before.db d.after.db) : OneEffect [d] change :=
  ⟨[], d, [], rfl, by simp [NoEffect], by simp [NoEffect], h⟩

theorem OneEffect.mono (h : OneEffect deeds change)
    (hchange : ∀ db db', change db db' → change' db db') : OneEffect deeds change' := by
  obtain ⟨before, d, after, heq, hbefore, hafter, hd⟩ := h
  exact ⟨before, d, after, heq, hbefore, hafter, hchange _ _ hd⟩

end

/-- What a transaction did, in terms of what the call knows of it. -/
inductive TransactionDid (call : StoreCall) (v : StoreView) (deeds : List (Deed ι)) : Prop
  /-- It did not run. -/
  | nothing (hexecs : v.execs = []) (hnone : NoEffect deeds)
  /-- It may have run. -/
  | unknown {q : List (Command RedisKey)} (hexecs : v.execs = [(q, none)])
      (hdid : NoEffect deeds ∨ OneEffect deeds (Commits call))
  /-- It ran. -/
  | ran {q : List (Command RedisKey)} {replies : List Reply}
      (hexecs : v.execs = [(q, some replies)])
      (hdid : OneEffect deeds fun db db' => Commits call db db' ∧
        (call.counts = true → counted q replies = db'.revision))

/-- What a call knows of its transaction, and what the transaction did. -/
structure Tally (call : StoreCall) (past : List (Deed ι)) (y : ProcessScene ι) : Prop where
  inCall : y.view.store.call = some call
  did : ∃ deeds, y.past = past ++ deeds ∧ TransactionDid call y.view.store deeds

variable {call : StoreCall} {v : StoreView}

/-- An operation of a call that writes in a transaction only. -/
theorem TransactionDid.step {v' : StoreView} {deeds : List (Deed ι)} {d : Deed ι}
    (h : TransactionDid call v deeds) (hcall : v.call = some call)
    (hdirect : ∀ c, ¬ DirectWrite call c) (hevolves : Evolves v v' d.before.db d.after.db) :
    TransactionDid call v' (deeds ++ [d]) := by
  cases hevolves with
  | same hdb hexecs =>
    have hd : NoEffect [d] := .single hdb
    rcases hexecs with hexecs | ⟨q, hnone, hexecs⟩
    · cases h with
      | nothing h hnone => exact .nothing (hexecs.trans h) (hnone.append hd)
      | unknown h hdid =>
        exact .unknown (hexecs.trans h) (hdid.imp (·.append hd) (·.append hd))
      | ran h hdid => exact .ran (hexecs.trans h) (hdid.append hd)
    · cases h with
      | nothing h hdid => exact .unknown hexecs (.inl (hdid.append hd))
      | unknown h => simp [hnone] at h
      | ran h => simp [hnone] at h
  | @direct now call' c hcall' hwrite =>
    obtain rfl : call = call' := Option.some.inj (hcall.symm.trans hcall')
    exact absurd hwrite (hdirect c)
  | @commit now call' q hcall' hqueue hknown hdb hcommits herrors hcounted hfirst hexecs =>
    obtain rfl : call = call' := Option.some.inj (hcall.symm.trans hcall')
    cases h with
    | unknown h => simp [hfirst] at h
    | ran h => simp [hfirst] at h
    | nothing h hnone =>
      rcases hexecs with hexecs | hexecs
      · exact .unknown hexecs (.inr (hnone.append_one (.single hcommits)))
      · exact .ran hexecs (hnone.append_one (.single ⟨hcommits, hcounted⟩))

/-- What a result tells of the transaction of a call that counts as a revision. -/
structure Told (call : StoreCall) (result : StoreResult) (deeds : List (Deed ι)) : Prop where
  /-- There was one at most. -/
  once : NoEffect deeds ∨ OneEffect deeds (Commits call)
  /-- After `Ok` there was one, and the result is the revision that it counted to. -/
  ok : result.status = .ok → ∃ n, result.revision = some n ∧
    OneEffect deeds fun db db' => Commits call db db' ∧ db'.revision = some n
  /-- After the failures that promise it, there was none. -/
  clean : Store.clean result.status = true → NoEffect deeds

theorem TransactionDid.once {deeds : List (Deed ι)} (h : TransactionDid call v deeds) :
    NoEffect deeds ∨ OneEffect deeds (Commits call) := by
  cases h with
  | nothing _ hnone => exact .inl hnone
  | unknown _ hdid => exact hdid
  | ran _ hdid => exact .inr (hdid.mono fun _ _ h => h.1)

theorem TransactionDid.told {deeds : List (Deed ι)} {result : StoreResult}
    (h : TransactionDid call v deeds) (hpost : call.Post v (.result result))
    (hcounts : call.counts = true) : Told call result deeds := by
  refine ⟨h.once, fun hok => ?_, fun hclean => ?_⟩
  · obtain ⟨q, replies, n, hexecs, hn, hcounted⟩ := hpost.ok result rfl hcounts hok
    refine ⟨n, hn, ?_⟩
    cases h with
    | nothing h => simp [hexecs] at h
    | unknown h => simp [hexecs] at h
    | @ran q' replies' h hdid =>
      obtain ⟨rfl, rfl⟩ : q = q' ∧ replies = replies' := by simpa [hexecs] using h
      exact hdid.mono fun db db' hand => ⟨hand.1, (hand.2 hcounts).symm.trans hcounted⟩
  · have hexecs := hpost.clean result rfl hcounts hclean
    cases h with
    | nothing _ hnone => exact hnone
    | unknown h => simp [hexecs] at h
    | ran h => simp [hexecs] at h

theorem Told.prepend {result : StoreResult} {deeds before : List (Deed ι)}
    (h : Told call result deeds) (hbefore : NoEffect before) :
    Told call result (before ++ deeds) where
  once := h.once.imp hbefore.append hbefore.append_one
  ok hok := by
    obtain ⟨n, hn, hone⟩ := h.ok hok
    exact ⟨n, hn, hbefore.append_one hone⟩
  clean hclean := hbefore.append (h.clean hclean)

section

variable [DecidableEq ι] {config : BlacklistMaintenanceConfig} {roles : ι → Role} {i : ι}
  {must : ProcessScene ι → DeployOp → Prop} {x : ProcessScene ι}

/-- **The result of a call of the store tells what its transaction did.** -/
theorem rely_runStore {α : Type} {role : Role} {p : Store α} {f : α → StoreReply}
    (hcode : call.code = f <$> p) (hdirect : ∀ c, ¬ DirectWrite call c) (hx : AtRest role x.view)
    (henter : ∀ y, (surroundings config roles i).Drifts x y → must y (.enter call))
    (hmust : ∀ y op, Tally call x.past y → Allow y.view.store op → must y (.redis op)) :
    Prog.Rely (surroundings config roles i) must
      (fun y a => (AtRest role y.view ∧ y.view.store.call = some call ∧
        call.Post y.view.store (f a)) ∧ Tally call x.past y) x (Deploy.runStore call p) := by
  refine fun y hy => ⟨henter y hy, fun _ z hz => ?_⟩
  have hworld : z.world = y.world := DeployAnswers.of_enter hz.serve
  have hview : z.view = { x.view with store := x.view.store.enter call } := by
    rw [hz.view, hy.view]
    rfl
  have hpast : z.past = x.past ++ [⟨.enter call, (), y.world, y.world⟩] := by
    rw [hz.past, hy.past, hworld]
  have hmeets : Prog.Meets DeployView.upd DeployView.InStore
      (fun v a => AtRest role v ∧ v.store.call = some call ∧ call.Post v.store (f a)) z.view
      (p.interp Deploy.onRedis) := by
    rw [hview]
    exact meets_storeCall hcode hx
  refine Prog.Rely.of_meets (K := surroundings config roles i) (x := z) (fun y z hI hdrift => ?_)
    (fun y op hI _ hop => ?_) (fun y op r z hI hattuned hop hact => ?_) hmeets ?_
  · exact ⟨hdrift.view ▸ hI.inCall, by rw [hdrift.view, hdrift.past]; exact hI.did⟩
  · cases op with
    | redis op => exact hmust y op hI hop
    | _ => exact hop.elim
  · cases op with
    | redis op =>
      obtain ⟨deeds, hdeeds, hdid⟩ := hI.did
      obtain ⟨redis, hserves, hz⟩ := DeployAnswers.of_redis hact.serve
      have hevolves := evolves hattuned.synced hop hserves
      have hview : z.view.store = y.view.store.upd op r := by rw [hact.view]; rfl
      refine ⟨?_, deeds ++ [⟨.redis op, r, y.world, z.world⟩], ?_, ?_⟩
      · rw [hview, upd_call, hI.inCall]
      · rw [hact.past, hdeeds, List.append_assoc]
      · rw [hview]
        exact hdid.step hI.inCall hdirect (by rw [hz]; exact hevolves)
    | _ => exact hop.elim
  · refine ⟨by rw [hview]; rfl, _, hpast, .nothing (by rw [hview]; rfl) (.single rfl)⟩

/-- Nothing has changed for a process, and it has changed nothing. -/
structure Quietly (x y : ProcessScene ι) : Prop where
  view : y.view = x.view
  past : ∃ deeds, y.past = x.past ++ deeds ∧ NoEffect deeds

/-- An operation that neither the store nor the process sees. -/
theorem rely_ask {op : DeployOp} (hmust : ∀ y, (surroundings config roles i).Drifts x y → must y op)
    (hupd : ∀ v r, DeployView.upd v op r = v)
    (hsame : ∀ w r w', DeployAnswers i w op r w' → w'.db = w.db) :
    Prog.Rely (surroundings config roles i) must (fun y _ => Quietly x y) x (Deploy.ask op) := by
  refine fun y hy => ⟨hmust y hy, fun r z hz z' hz' => ⟨?_, ?_⟩⟩
  · rw [hz'.view, hz.view, hy.view]
    exact hupd _ r
  · exact ⟨[⟨op, r, y.world, z.world⟩], by rw [hz'.past, hz.past, hy.past],
      .single (hsame _ r _ hz.serve)⟩

end

end AegisFlow
