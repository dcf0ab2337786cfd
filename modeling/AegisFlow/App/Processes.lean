import AegisFlow.Tools.ManageBlacklist

/-!
# The processes of a deployment

Each process has a role, which says what it runs and which calls of the store it makes.

* `Role.Makes` : the calls of the store that a process of some role makes;
* `processes` : the processes of a deployment as a pool, in any interleaving of their commands;
* `processContract` : every process keeps the contract of the store, call by call;
* `Attuned`, `attuned` : **every process stays in agreement with the server**, and is in a call that
  its role makes;
* `surroundings` : what the other processes can do to the deployment, as a process sees it.
-/

namespace AegisFlow

open Redis

/-- What a process is. -/
inductive Role
  /-- It serves logins and maintains the blacklist. -/
  | server
  /-- The command line tool. -/
  | tool
  /-- It fills the cache when it starts. -/
  | starter
  /-- It reads the blacklist, applies mutations and removes what has expired. -/
  | client
  deriving DecidableEq, Repr

variable [Inet]

/-- The calls of the store that a process of some role makes. -/
def Role.Makes : Role → StoreCall → Prop
  | server, .applyMutations _ | server, .readRevision | server, .loadStableSnapshot .. => True
  | server, .removeExpiredFields .. | server, .setPublishedRevision _ => True
  | server, .readPending _ | server, .deletePending _ => True
  | server, .readResetBarrier | server, .completeResetBarrier _ => True
  | tool, .applyMutations _ | tool, .requestResetBarrier | tool, .readResetBarrier => True
  | tool, .readResetConvergence => True
  | starter, .readReadyRevision | starter, .rebuildFromMysql _ => True
  | starter, .loadStableSnapshot .. => True
  | client, .applyMutations _ | client, .removeExpiredFields .. | client, .readRevision => True
  | client, .readReadyRevision | client, .loadStableSnapshot .. | client, .readPending _ => True
  | client, .requestResetBarrier | client, .readResetBarrier | client, .readResetConvergence => True
  | _, _ => False

/-- What a process runs. -/
inductive Job
  /-- A call of the maintenance core; at most `fuel` steps of a scan fit before the deadline. -/
  | maintain (call : CoreCall) (fuel : ℕ)
  /-- A command of the tool. -/
  | manage (command : ManageBlacklistCommand) (fuel : ℕ)
  /-- A single call of the store. -/
  | call (role : Role) (call : StoreCall) (makes : role.Makes call)

/-- The role that a job belongs to. -/
def Job.role : Job → Role
  | maintain .. => .server
  | manage .. => .tool
  | call role .. => role

/-- What a job returns. -/
inductive JobResult
  | maintained (drained : Option Bool)
  | managed (outcome : CommandOutcome)
  | called (reply : StoreReply)

/-- The code of a job. -/
def Job.code (config : BlacklistMaintenanceConfig) : Job → Proc DeploySig CoreState JobResult
  | maintain coreCall fuel => ⟨fun core =>
      (fun result => (result.1.map .maintained, result.2)) <$>
        ((coreCall.code config).run core).interp (Deploy.answerCore fuel)⟩
  | manage command fuel => ⟨fun core =>
      (fun outcome => (some (.managed outcome), core)) <$>
        Tool.runManageBlacklistCommand command fuel⟩
  | call _ storeCall _ => ⟨fun core =>
      (fun reply => (some (.called reply), core)) <$> Deploy.runStore storeCall storeCall.code⟩

/-! ### Views -/

/-- What a process knows. -/
structure DeployView where
  role : Role
  store : StoreView

namespace DeployView

/-- What a process knows after an operation. -/
def upd (v : DeployView) : (op : DeployOp) → op.Reply → DeployView
  | .enter call, _ => { v with store := v.store.enter call }
  | .redis op, r => { v with store := v.store.upd op r }
  | _, _ => v

/-- The operations that a process performs. -/
def Allows (v : DeployView) : DeployOp → Prop
  | .enter call => v.role.Makes call ∧ v.store.Idle
  | .redis op => Allow v.store op
  | .core _ => v.role = .server
  | _ => True

@[simp] theorem upd_role (v : DeployView) (op : DeployOp) (r : op.Reply) :
    (v.upd op r).role = v.role := by
  cases op <;> rfl

end DeployView

variable {ι α : Type} [DecidableEq ι] {op : DeployOp} {p : Store α}

/-- The processes of a deployment.  A connection that is gone may be made again. -/
def processes (config : BlacklistMaintenanceConfig) (role : ι → Role) :
    Pool DeploySig ι Job ι (Deployment ι) DeployView CoreState JobResult where
  init w v _ := (∀ i, w.redis.server.sessions i = {}) ∧ ∀ i, v i = ⟨role i, StoreView.initial⟩
  may i job := job.role = role i
  code job := job.code config
  serve := DeployAnswers
  env w i w' := w.redis.linked i = false ∧ w' = { w with redis := w.redis.connect i }
  enter job v := { v with role := job.role }
  upd := DeployView.upd

/-- The states of the processes. -/
abbrev ProcessState (ι : Type) :=
  PoolState DeploySig ι Job (Deployment ι) DeployView CoreState JobResult

/-! ### The contract -/

/-- The operations of a process in a call of the store. -/
def DeployView.InStore (v : DeployView) : DeployOp → Prop
  | .redis op => Allow v.store op
  | _ => False

theorem DeployView.InStore.allows {v : DeployView} (h : v.InStore op) : v.Allows op := by
  cases op with
  | redis op => exact h
  | _ => exact h.elim

/-- A command of the store is allowed to a process if it is allowed to a client of the store. -/
theorem meets_onRedis {Q : StoreView → α → Prop} {v : DeployView}
    (h : Prog.Meets View.upd Allow Q v.store p) :
    Prog.Meets DeployView.upd DeployView.InStore (fun v' a => Q v'.store a ∧ v'.role = v.role) v
      (p.interp Deploy.onRedis) := by
  induction p generalizing v with
  | ret a => exact ⟨h, rfl⟩
  | call op k ih => exact ⟨h.1, fun r => ih r (v := v.upd (.redis op) r) (h.2 r)⟩

/-- A process between two calls of the store. -/
structure AtRest (role : Role) (v : DeployView) : Prop where
  role : v.role = role
  idle : v.store.Idle

variable {role : Role} {v : DeployView} {call : StoreCall} {f : α → StoreReply}

/-- The commands of a call of the store leave no transaction open, and the reply tells whether one
ran. -/
theorem meets_storeCall (hcode : call.code = f <$> p) (hv : AtRest role v) :
    Prog.Meets DeployView.upd DeployView.InStore
      (fun v a => AtRest role v ∧ v.store.call = some call ∧ call.Post v.store (f a))
      { v with store := v.store.enter call } (p.interp Deploy.onRedis) := by
  have hmeets := call.meets hv.idle
  rw [hcode] at hmeets
  refine (meets_onRedis (v := { v with store := v.store.enter call })
    (Prog.meets_map.1 hmeets)).mono (fun _ _ h => h) fun v' a hends => ?_
  obtain ⟨⟨hcall, hidle, hpost⟩, hrole⟩ := hends
  exact ⟨⟨hrole.trans hv.role, hidle⟩, hcall, hpost⟩

/-- The contract of code that leaves no transaction open. -/
abbrev KeepsRest {α : Type} (role : Role) (p : Deploy α) : Prop :=
  ∀ v, AtRest role v → Prog.Meets DeployView.upd DeployView.Allows (fun v _ => AtRest role v) v p

theorem keepsRest_runStore (hcode : call.code = f <$> p) (hmakes : role.Makes call) :
    KeepsRest role (Deploy.runStore call p) := by
  intro v hv
  refine ⟨⟨hv.role ▸ hmakes, hv.idle⟩, fun _ => ?_⟩
  exact (meets_storeCall hcode hv).mono (fun _ _ h => h.allows) fun _ _ h => h.1

theorem KeepsRest.bind {β : Type} {p : Deploy α} {f : α → Deploy β} (hp : KeepsRest role p)
    (hf : ∀ a, KeepsRest role (f a)) : KeepsRest role (p >>= f) := fun v hv =>
  (hp v hv).bind fun v a hv => hf a v hv

theorem keepsRest_pure (a : α) : KeepsRest role (pure a : Deploy α) := fun _ hv => hv

/-- An operation that the store does not see. -/
theorem keepsRest_ask (hallow : ∀ v, AtRest role v → v.Allows op)
    (hupd : ∀ v r, DeployView.upd v op r = v) : KeepsRest role (Deploy.ask op) := by
  intro v hv
  refine ⟨hallow v hv, fun r => ?_⟩
  rw [hupd]
  exact hv

theorem KeepsRest.ite {c : Prop} [Decidable c] {p q : Deploy α} (hp : KeepsRest role p)
    (hq : KeepsRest role q) : KeepsRest role (if c then p else q) := by
  split_ifs
  · exact hp
  · exact hq

/-! ### The server -/

theorem keepsRest_observe (status : StoreStatus) : KeepsRest role (Deploy.observe status) := by
  refine KeepsRest.ite (fun v hv => ⟨trivial, fun _ => ?_⟩) (keepsRest_pure ())
  exact ⟨hv.role, View.clear_idle _⟩

theorem keepsRest_method (hcode : call.code = f <$> p) (hmakes : role.Makes call)
    (status : α → StoreStatus) (refused : α) :
    KeepsRest role (Deploy.method call p status refused) := by
  have hthrows : KeepsRest role (Deploy.ask .throws) :=
    keepsRest_ask (fun _ _ => trivial) fun _ _ => rfl
  have hensure : KeepsRest role (Deploy.ask .ensureRedis) :=
    keepsRest_ask (fun _ _ => trivial) fun _ _ => rfl
  refine hthrows.bind fun thrown => KeepsRest.ite (keepsRest_pure _) ?_
  refine hensure.bind fun connected => KeepsRest.ite ?_ (keepsRest_pure _)
  refine (keepsRest_runStore hcode hmakes).bind fun result => ?_
  refine (keepsRest_observe _).bind fun _ => ?_
  exact hthrows.bind fun thrown => KeepsRest.ite (keepsRest_pure _) (keepsRest_pure _)

theorem keepsRest_answerCore (fuel : ℕ) (op : CoreOp) :
    KeepsRest .server (Deploy.answerCore fuel op) := by
  have hcore (op : CoreOp) : KeepsRest .server (Deploy.ask (.core op)) :=
    keepsRest_ask (fun _ hv => hv.role) fun _ _ => rfl
  cases op with
  | applyCandidates => exact keepsRest_method rfl (by trivial) _ _
  | readRevision => exact keepsRest_method rfl (by trivial) _ _
  | loadStableSnapshot => exact keepsRest_method rfl (by trivial) _ _
  | removeExpiredFields => exact keepsRest_method rfl (by trivial) _ _
  | setPublishedRevision => exact keepsRest_method rfl (by trivial) _ _
  | readPending => exact keepsRest_method rfl (by trivial) _ _
  | deletePending => exact keepsRest_method rfl (by trivial) _ _
  | readResetBarrier => exact keepsRest_method rfl (by trivial) _ _
  | completeResetBarrier => exact keepsRest_method rfl (by trivial) _ _
  | _ => exact hcore _

/-! ### The tool -/

section

open Tool

theorem keepsRest_clockNow : KeepsRest role clockNow :=
  keepsRest_ask (fun _ _ => trivial) fun _ _ => rfl

theorem keepsRest_sleepForPoll (deadline : ℕ) : KeepsRest role (sleepForPoll deadline) := by
  have hsleep (time : ℕ) : KeepsRest role (Deploy.ask (.sleepUntil time)) :=
    keepsRest_ask (fun _ _ => trivial) fun _ _ => rfl
  refine keepsRest_clockNow.bind fun now => KeepsRest.ite (keepsRest_pure _) ?_
  exact (hsleep _).bind fun _ => keepsRest_clockNow.bind fun later => keepsRest_pure _

theorem keepsRest_applyWithRetry (mutation : BlacklistMutation) (deadline fuel : ℕ) :
    KeepsRest .tool (applyWithRetry mutation deadline fuel) := by
  induction fuel with
  | zero => exact keepsRest_pure _
  | succ fuel ih =>
    refine keepsRest_clockNow.bind fun now => KeepsRest.ite ?_ (keepsRest_pure _)
    have happly : KeepsRest .tool (applyMutation mutation) := keepsRest_runStore rfl trivial
    refine happly.bind fun result => KeepsRest.ite (keepsRest_pure _) ?_
    exact (keepsRest_sleepForPoll deadline).bind fun _ => KeepsRest.ite ih (keepsRest_pure _)

theorem keepsRest_awaitBarrier (token deadline fuel : ℕ) :
    KeepsRest .tool (awaitBarrier token deadline fuel) := by
  induction fuel with
  | zero => exact keepsRest_pure _
  | succ fuel ih =>
    refine keepsRest_clockNow.bind fun now => KeepsRest.ite ?_ (keepsRest_pure _)
    have hread : KeepsRest .tool (Deploy.runStore .readResetBarrier Store.readResetBarrier) :=
      keepsRest_runStore rfl trivial
    refine hread.bind fun barrier => KeepsRest.ite (keepsRest_pure _) ?_
    refine KeepsRest.ite (keepsRest_pure _) ?_
    exact (keepsRest_sleepForPoll deadline).bind fun _ => KeepsRest.ite ih (keepsRest_pure _)

theorem keepsRest_awaitConvergence (deadline fuel : ℕ) :
    KeepsRest .tool (awaitConvergence deadline fuel) := by
  induction fuel with
  | zero => exact keepsRest_pure _
  | succ fuel ih =>
    refine keepsRest_clockNow.bind fun now => KeepsRest.ite ?_ (keepsRest_pure _)
    have hread : KeepsRest .tool
        (Deploy.runStore .readResetConvergence Store.readResetConvergence) :=
      keepsRest_runStore rfl trivial
    have hcount : KeepsRest .tool countEnabledBlacklists :=
      keepsRest_ask (fun _ _ => trivial) fun _ _ => rfl
    refine hread.bind fun redis => KeepsRest.ite (keepsRest_pure _) ?_
    refine hcount.bind fun counts => ?_
    cases counts with
    | none => exact keepsRest_clockNow.bind fun later => keepsRest_pure _
    | some counts =>
      refine KeepsRest.ite (keepsRest_pure _) ?_
      exact (keepsRest_sleepForPoll deadline).bind fun _ => KeepsRest.ite ih (keepsRest_pure _)

section

variable (command : ManageBlacklistCommand)

theorem keepsRest_runMutation (deadline fuel : ℕ) :
    KeepsRest .tool (runMutation command deadline fuel) := by
  refine (keepsRest_applyWithRetry _ deadline fuel).bind fun result => ?_
  split <;> exact keepsRest_pure _

theorem keepsRest_runClear (token deadline fuel : ℕ) :
    KeepsRest .tool (runClear command token deadline fuel) := by
  refine (keepsRest_applyWithRetry _ deadline fuel).bind fun result => ?_
  split
  · refine KeepsRest.ite ((keepsRest_awaitConvergence deadline fuel).bind fun waited => ?_)
      (keepsRest_pure _)
    split <;> exact keepsRest_pure _
  · exact keepsRest_pure _

theorem keepsRest_runReset (deadline fuel : ℕ) :
    KeepsRest .tool (runReset command deadline fuel) := by
  have hrequest : KeepsRest .tool
      (Deploy.runStore .requestResetBarrier Store.requestResetBarrier) :=
    keepsRest_runStore rfl trivial
  refine hrequest.bind fun requested => ?_
  split
  · refine KeepsRest.ite (keepsRest_pure _) ?_
    refine (keepsRest_awaitBarrier _ deadline fuel).bind fun waited => ?_
    split
    · exact keepsRest_pure _
    · exact keepsRest_pure _
    · exact keepsRest_runClear command _ deadline fuel
  · exact keepsRest_pure _

theorem keepsRest_runManageBlacklistCommand (fuel : ℕ) :
    KeepsRest .tool (runManageBlacklistCommand command fuel) := by
  have hopen : KeepsRest .tool (Deploy.ask .openBackend) :=
    keepsRest_ask (fun _ _ => trivial) fun _ _ => rfl
  refine keepsRest_clockNow.bind fun startedAt => hopen.bind fun opened => ?_
  refine KeepsRest.ite (keepsRest_pure _) (keepsRest_clockNow.bind fun now => ?_)
  refine KeepsRest.ite (keepsRest_pure _) (KeepsRest.ite ?_ ?_)
  · exact keepsRest_runReset command _ fuel
  · exact keepsRest_runMutation command _ fuel

end

end

/-! ### All processes together -/

section

variable {config : BlacklistMaintenanceConfig} {roles : ι → Role}

theorem keepsRest_job (job : Job) (core : CoreState) :
    KeepsRest job.role ((job.code config).run core) := by
  intro v hv
  cases job with
  | maintain coreCall fuel =>
    refine Prog.meets_map.2 ?_
    exact Prog.meets_interp (fun op v hv => keepsRest_answerCore fuel op v hv) hv _
  | manage command fuel =>
    exact Prog.meets_map.2 (keepsRest_runManageBlacklistCommand command fuel v hv)
  | call role call makes =>
    refine Prog.meets_map.2 (keepsRest_runStore (f := id) ?_ makes v hv)
    exact (id_map _).symm

variable (config roles) in
/-- What the processes promise. -/
def processContract : Contract (processes config roles) where
  idle v _ := v.store.Idle
  allow := DeployView.Allows
  post _ _ _ _ := True
  init_idle h i := h.2 i ▸ initial_idle
  meets {_ job v core} _ hidle :=
    (keepsRest_job job core { v with role := job.role } ⟨rfl, hidle⟩).mono (fun _ _ h => h)
      fun _ _ h => ⟨h.idle, trivial⟩

/-- A process agrees with the server, and is in a call that its role makes. -/
structure Attuned (roles : ι → Role) (i : ι) (w : Deployment ι) (v : DeployView) : Prop where
  role : v.role = roles i
  synced : SyncedAt w.redis i v.store
  makes : ∀ call, v.store.call = some call → (roles i).Makes call

omit [Inet] in
theorem update_apply_store {β : Type} (f : α → β) (v : ι → α) (i : ι) (x : α) :
    (fun j => f (Function.update v i x j)) = Function.update (fun j => f (v j)) i (f x) := by
  funext j
  by_cases hj : j = i
  · subst hj
    simp
  · simp [hj]

/-- What an operation leaves alone, the agreement does not see. -/
theorem synced_of_answers {w w' : Deployment ι} {v : ι → DeployView} {i : ι} {r : op.Reply}
    (h : Synced w.redis fun j => (v j).store) (hs : DeployAnswers i w op r w') :
    Synced w'.redis fun j => (Function.update v i ((v i).upd op r) j).store := by
  rw [update_apply_store DeployView.store]
  cases hs with
  | enter call => exact h.enter call
  | redis hserves => exact h.serves hserves
  | _ => exact h.update_self rfl

/-- What holds of all processes together. -/
structure ProcessInv (roles : ι → Role) (s : ProcessState ι) : Prop where
  synced : Synced s.world.redis fun j => (s.view j).store
  role : ∀ j, (s.view j).role = roles j
  makes : ∀ j call, (s.view j).store.call = some call → (roles j).Makes call

/-- An operation that the contract allows keeps a process in a call that its role makes. -/
theorem makes_upd (r : op.Reply) (hallow : v.Allows op)
    (h : ∀ call, v.store.call = some call → v.role.Makes call) (call : StoreCall)
    (hcall : (v.upd op r).store.call = some call) : v.role.Makes call := by
  cases op with
  | enter entered =>
    obtain rfl : entered = call := Option.some.inj hcall
    exact hallow.1
  | redis op => exact h call ((upd_call v.store op r).symm.trans hcall)
  | _ => exact h call hcall

theorem processInv {s : ProcessState ι} (h : (processes config roles).system.Reachable s) :
    ProcessInv roles s := by
  refine (processContract config roles).invariant h ?_ fun s l s' _ hi hst => ?_
  · rintro s ⟨⟨hw, hv⟩, -, -⟩
    refine ⟨initial_synced hw fun i => by rw [hv i], fun j => by rw [hv j], fun j call hcall => ?_⟩
    rw [hv j] at hcall
    cases hcall
  · cases hst with
    | @begin i job hrun hmay hidle =>
      have hstores : (fun j =>
          (Function.update s.view i { s.view i with role := job.role } j).store) =
          fun j => (s.view j).store := by
        rw [update_apply_store DeployView.store, Function.update_eq_self]
      refine ⟨?_, fun j => ?_, fun j call hcall => ?_⟩
      · have hsynced := hi.synced
        rw [← hstores] at hsynced
        exact hsynced
      · by_cases hj : j = i
        · subst hj
          simpa [processes] using hmay
        · simpa [hj] using hi.role j
      · refine hi.makes j call ?_
        rw [← congrFun hstores j]
        exact hcall
    | @op i job o k r w hrun hallow hserve =>
      refine ⟨synced_of_answers hi.synced hserve, fun j => ?_, fun j call hcall => ?_⟩
      · by_cases hj : j = i
        · subst hj
          simpa [processes] using hi.role j
        · simpa [hj] using hi.role j
      · by_cases hj : j = i
        · subst hj
          rw [← hi.role j]
          refine makes_upd r hallow (fun call => hi.role j ▸ hi.makes j call) call ?_
          simpa [processes] using hcall
        · exact hi.makes j call (by simpa [hj] using hcall)
    | finish => exact ⟨hi.synced, hi.role, hi.makes⟩
    | @env i w henv =>
      obtain ⟨hlinked, rfl⟩ := henv
      exact ⟨hi.synced.connect hlinked, hi.role, hi.makes⟩

/-- **Every process stays in agreement with the server.** -/
theorem attuned (s : ProcessState ι) (h : (processes config roles).system.Reachable s) (j : ι) :
    Attuned roles j s.world (s.view j) :=
  ⟨(processInv h).role j, (processInv h).synced.at j, (processInv h).makes j⟩

/-- A process has begun a job. -/
structure Begun (config : BlacklistMaintenanceConfig) (roles : ι → Role) (i : ι) (job : Job)
    (s₀ s₁ : ProcessState ι) : Prop where
  reachable : (processes config roles).system.Reachable s₁
  role : job.role = roles i
  run : s₁.run i = some (job, (job.code config).run (s₀.vars i))
  rest : AtRest job.role (s₁.view i)
  world : s₁.world = s₀.world
  vars : s₁.vars i = s₀.vars i

theorem begun {s₀ s₁ : ProcessState ι} {i : ι} {job : Job}
    (hr : (processes config roles).system.Reachable s₀)
    (hbegin : (processes config roles).system.step s₀ (.begin i job) s₁) :
    Begun config roles i job s₀ s₁ := by
  have hr₁ := hr.step hbegin
  cases hbegin with
  | begin hidle hmay =>
    have hrest : (s₀.view i).store.Idle :=
      ((processContract config roles).meets_running hr i).idle hidle
    exact ⟨hr₁, hmay, by simp [processes],
      ⟨by simp [processes], by simpa [processes] using hrest⟩, rfl, rfl⟩

/-! ### What the others do -/

variable (config roles) in
/-- The surroundings of a process. -/
abbrev surroundings (i : ι) : Setting DeploySig (Deployment ι) DeployView :=
  (processContract config roles).setting (Attuned roles) i

end

end AegisFlow
