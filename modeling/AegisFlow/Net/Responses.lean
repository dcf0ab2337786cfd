import AegisFlow.Interaction.Drive
import AegisFlow.Net.EventLoopContract

/-!
# Responses answer requests

The event loop, the worker pool and the mailbox of completions together: the loop's thread makes
its calls, and between any two of its operations workers take tasks, run them and post their
completions, in any order and with any delay.  What the kernel, the clock and the timers reply is
arbitrary.

* `ServerState`, `loopPool` : the system;
* `ServerInv` : per connection there is at most one task or undelivered completion, and it is for
  the request the loop regards as outstanding;
* `responses_answer_requests` : **every response answers the request of its own connection.**
-/

namespace AegisFlow

open EventLoop

/-! ### The system -/

/-- A task: a request and its number among the submissions for its connection. -/
structure PoolTask where
  number : ℕ
  request : BusinessRequest
  deriving DecidableEq, Repr

/-- What the loop shares with the workers. -/
structure ServerState where
  pool : BoundedWorkerPool PoolTask
  /-- The completions that wait for the loop. -/
  mailbox : LoopMailbox
  /-- How often a request of a connection of this loop was submitted, by generation. -/
  submissions : ℕ → ℕ := fun _ => 0
  /-- The tasks that have posted their completion, or found no mailbox for it. -/
  routed : List PoolTask := []
  /-- The tasks whose handler returned, with the results. -/
  handled : List (PoolTask × FrameBusinessResult) := []
  /-- How many requests the pool accepted since the loop last found its mailbox empty, less the
  completions that the loop took out. -/
  backlog : ℕ := 0

/-- What workers and other loops do. -/
inductive ServerMove
  | take
  /-- The handler has returned `result`, or thrown, and the completion is routed. -/
  | run (task : PoolTask) (maxPayload : ℕ) (result : Option FrameBusinessResult)
      (router : CompletionRouter) (wake : Bool)
  | finish (task : PoolTask)
  | close
  | cancelQueued
  | submitElsewhere (task : PoolTask)

namespace ServerState

/-- The task made of a request. -/
def taskFor (w : ServerState) (request : BusinessRequest) : PoolTask :=
  ⟨w.submissions request.token.generation, request⟩

/-- One more submission for a connection. -/
def bump (w : ServerState) (generation : ℕ) : ServerState := { w with
  submissions := Function.update w.submissions generation (w.submissions generation + 1) }

/-- The pool has decided about a request of the loop. -/
def submitted (w : ServerState) (request : BusinessRequest) : ServerState :=
  { w.bump request.token.generation with
    pool := (w.pool.trySubmit (some (w.taskFor request))).2
    backlog := if (w.pool.trySubmit (some (w.taskFor request))).1 = .accepted then w.backlog + 1
      else w.backlog }

/-- The handler of a task has returned, and the completion is routed. -/
def routedBy (w : ServerState) (loopId : ℕ) (task : PoolTask) (maxPayload : ℕ)
    (result : Option FrameBusinessResult) (router : CompletionRouter) (wake : Bool) :
    ServerState := { w with
  mailbox := router.tryRoute loopId w.mailbox (BusinessTask.run task.request maxPayload result) wake
  routed := task :: w.routed
  handled := w.handled ++ result.toList.map fun r => (task, r) }

/-- How the loop's operations are answered.  A submission may throw before it reaches the pool;
the replies of the kernel, the clock and the timers are arbitrary. -/
def serve (w : ServerState) : (op : LoopOp) → op.Reply → ServerState → Prop
  | .trySubmit request, reply, w' =>
    (reply = none ∧ w' = w.bump request.token.generation) ∨
    (reply = some (w.pool.trySubmit (some (w.taskFor request))).1 ∧ w' = w.submitted request)
  | .popCompletion, reply, w' =>
    (w.mailbox.tryPop = none ∧ reply = none ∧ w' = { w with backlog := 0 }) ∨
    ∃ completion mailbox, w.mailbox.tryPop = some (completion, mailbox) ∧
      reply = some completion ∧ w' = { w with mailbox := mailbox, backlog := w.backlog - 1 }
  | .closeMailboxes, _, w' => w' = { w with mailbox := w.mailbox.close }
  | _, _, w' => w' = w

/-- How workers and other loops change the state; `loopId` is the number of this loop. -/
def move (loopId : ℕ) (w : ServerState) : ServerMove → ServerState → Prop
  | .take, w' => ∃ pool, w.pool.take = some pool ∧ w' = { w with pool := pool }
  | .run task maxPayload result router wake, w' =>
    task ∈ w.pool.running ∧ task ∉ w.routed ∧
      w' = w.routedBy loopId task maxPayload result router wake
  | .finish task, w' =>
    task ∈ w.routed ∧ ∃ pool, w.pool.finish task = some pool ∧ w' = { w with pool := pool }
  | .close, w' => w' = { w with pool := w.pool.close }
  | .cancelQueued, w' => w' = { w with pool := w.pool.cancelQueued }
  | .submitElsewhere task, w' =>
    task.request.token.loopId ≠ loopId ∧
      w' = { w with pool := (w.pool.trySubmit (some task)).2 }

end ServerState

/-- The calls of a loop. -/
inductive LoopCall
  | adopt (fd : ℤ)
  | pollOnce (fuel : ℕ) (timeoutMs : ℤ)
  | shutdown
  deriving DecidableEq, Repr

variable (config : EventLoopConfig)

/-- The code of a call. -/
def LoopCall.code : LoopCall → Loop EventLoopStatus
  | .adopt fd => EventLoop.adopt config fd
  | .pollOnce fuel timeoutMs => EventLoop.pollOnce config fuel timeoutMs
  | .shutdown => do
    forceShutdown
    return .ok

/-- A new loop with its worker pool. -/
def loopPool : Pool LoopSig Unit LoopCall ServerMove ServerState (Option LoopView) LoopState
    EventLoopStatus where
  init w v x := w.pool.queue = [] ∧ w.pool.running = [] ∧ w.mailbox.queue = [] ∧
    w.submissions = (fun _ => 0) ∧ w.routed = [] ∧ w.handled = [] ∧ v () = some {} ∧ x () = {}
  may _ _ := True
  code := LoopCall.code config
  serve _ := ServerState.serve
  env := ServerState.move config.loopId
  enter _ v := v
  upd := LoopView.upd

/-- A state of the system. -/
abbrev LoopSystemState :=
  PoolState LoopSig Unit LoopCall ServerState (Option LoopView) LoopState EventLoopStatus

theorem loopInv_init : LoopInv config (some {}) {} := by
  intro v hv
  cases hv
  have hnone (fd : ℤ) (e : SessionEntry) : ({} : LoopState).sessions[fd]? ≠ some e := by simp
  exact ⟨fun fd e he => absurd he (hnone fd e), fun fd e he => absurd he (hnone fd e),
    fun fd _ e _ he => absurd he (hnone fd e), fun fd e he => absurd he (hnone fd e),
    .nil, by simp, fun _ _ => ⟨rfl, rfl, rfl, rfl, rfl⟩⟩

theorem LoopCall.preserves_code (c : LoopCall) : Preserves config (c.code config) := by
  cases c with
  | adopt fd => exact preserves_adopt
  | pollOnce fuel timeoutMs => exact preserves_pollOnce fuel timeoutMs
  | shutdown => exact preserves_forceShutdown.bind fun _ => stays_pure _

/-- The contract of the loop's thread. -/
def loopContract : Contract (loopPool config) where
  idle := LoopInv config
  allow := LoopView.allow config
  post _ _ _ _ := True
  init_idle := by
    rintro w v x ⟨-, -, -, -, -, -, hv, hx⟩ ⟨⟩
    rw [hv, hx]
    exact loopInv_init config
  meets := by
    intro i c s x _ hidle
    refine Proc.Meets.mono (c.preserves_code config s x hidle) ?_
    rintro s x a ⟨b, -, h⟩
    exact ⟨h, trivial⟩

/-! ### Tasks and completions under way -/

theorem countP_lt_countP {τ : Type} {l : List τ} {p q : τ → Bool}
    (h : ∀ a ∈ l, q a = true → p a = true) {a : τ} (ha : a ∈ l) (hp : p a = true)
    (hq : q a = false) : l.countP q < l.countP p := by
  obtain ⟨l₁, l₂, rfl⟩ := List.append_of_mem ha
  have h₁ := List.countP_mono_left fun b (hb : b ∈ l₁) => h b (List.mem_append_left _ hb)
  have h₂ := List.countP_mono_left fun b (hb : b ∈ l₂) =>
    h b (List.mem_append_right _ (List.mem_cons_of_mem _ hb))
  rw [List.countP_append, List.countP_append, List.countP_cons_of_pos hp,
    List.countP_cons_of_neg (by simp [hq])]
  omega

variable {completion : BusinessCompletion} {task : PoolTask} {mailbox : LoopMailbox}

namespace ServerState

/-- The number of tasks that have not posted their completion, and of completions not delivered,
for the tokens in `p`. -/
def count (w : ServerState) (p : ConnectionToken → Bool) : ℕ :=
  (w.pool.queue ++ w.pool.running).countP (fun t => p t.request.token && !w.routed.contains t) +
    w.mailbox.queue.countP fun c => p c.token

variable {w w' : ServerState} {p q : ConnectionToken → Bool}

theorem count_mono (h : ∀ token, p token = true → q token = true) : w.count p ≤ w.count q := by
  refine Nat.add_le_add (List.countP_mono_left fun t _ ht => ?_)
    (List.countP_mono_left fun c _ hc => h _ hc)
  rw [Bool.and_eq_true] at ht ⊢
  exact ⟨h _ ht.1, ht.2⟩

/-- A task in the pool, or a completion in the mailbox, counts. -/
theorem count_pos_of_task {t : PoolTask} (ht : w.pool.Inflight t) (hrouted : t ∉ w.routed)
    (hp : p t.request.token = true) : 0 < w.count p := by
  refine Nat.lt_of_lt_of_le (List.countP_pos_iff.mpr ⟨t, ?_, ?_⟩) (Nat.le_add_right _ _)
  · exact List.mem_append.mpr ht
  · simp [hp, hrouted]

theorem count_pos_of_completion {c : BusinessCompletion} (hc : c ∈ w.mailbox.queue)
    (hp : p c.token = true) : 0 < w.count p :=
  Nat.lt_of_lt_of_le (List.countP_pos_iff.mpr ⟨c, hc, hp⟩) (Nat.le_add_left _ _)

/-- Fewer tasks and fewer completions. -/
theorem count_le (htasks : (w'.pool.queue ++ w'.pool.running).Subperm
      (w.pool.queue ++ w.pool.running)) (hrouted : w'.routed = w.routed)
    (hmail : w'.mailbox.queue.Sublist w.mailbox.queue) : w'.count p ≤ w.count p := by
  unfold count
  rw [hrouted]
  exact Nat.add_le_add (htasks.countP_le _) (hmail.countP_le)

/-- A completion was delivered. -/
theorem count_pop (h : w.mailbox.tryPop = some (completion, mailbox)) :
    w.count p = { w with mailbox := mailbox }.count p + if p completion.token then 1 else 0 := by
  unfold count
  rw [LoopMailbox.queue_of_tryPop h, List.countP_cons, Nat.add_assoc]

/-- A task posted its completion: it counts once, as before. -/
theorem count_run (hmem : task ∈ w.pool.running) (hrouted : task ∉ w.routed)
    (htoken : completion.token = task.request.token)
    (hmail : mailbox.queue = w.mailbox.queue ∨ mailbox.queue = w.mailbox.queue ++ [completion])
    (handled : List (PoolTask × FrameBusinessResult)) :
    { w with mailbox := mailbox, routed := task :: w.routed, handled := handled }.count p ≤
      w.count p := by
  have hle (t : PoolTask) : (p t.request.token && !(task :: w.routed).contains t) = true →
      (p t.request.token && !w.routed.contains t) = true := by
    simp only [List.contains_cons, Bool.not_or, Bool.and_eq_true]
    exact fun h => ⟨h.1, h.2.2⟩
  have htasks := List.countP_mono_left fun t (_ : t ∈ w.pool.queue ++ w.pool.running) => hle t
  have hposted : mailbox.queue.countP (fun c => p c.token) ≤
      w.mailbox.queue.countP (fun c => p c.token) + if p task.request.token then 1 else 0 := by
    rcases hmail with hmail | hmail
    · rw [hmail]; omega
    · rw [hmail, List.countP_append, List.countP_singleton, htoken]
  unfold count
  dsimp only
  by_cases hp : p task.request.token = true
  · have hlt := countP_lt_countP (fun t _ => hle t)
      (List.mem_append_right w.pool.queue hmem) (by simp [hp, hrouted]) (by simp)
    rw [if_pos hp] at hposted
    omega
  · rw [if_neg hp] at hposted
    omega

/-- A task was accepted. -/
theorem count_submit {pool : BoundedWorkerPool PoolTask} {submissions : ℕ → ℕ}
    (hqueue : pool.queue = w.pool.queue ++ [task]) (hrunning : pool.running = w.pool.running) :
    { w with pool := pool, submissions := submissions }.count p ≤
      w.count p + if p task.request.token then 1 else 0 := by
  unfold count
  dsimp only
  rw [hqueue, hrunning]
  simp only [List.countP_append, List.countP_singleton]
  by_cases hp : p task.request.token = true
  · rw [if_pos hp]
    split_ifs <;> omega
  · rw [if_neg hp, if_neg (by simp [hp])]
    omega

end ServerState

/-- The tokens of a connection of the loop. -/
def ofGeneration (loopId generation : ℕ) (token : ConnectionToken) : Bool :=
  token.loopId == loopId && token.generation == generation

/-- The handler returned the payload of the frame for the task made of the request. -/
def Handled (w : ServerState) (loopId generation number : ℕ) (request frame : Bytes) : Prop :=
  ∃ token result, token.loopId = loopId ∧ token.generation = generation ∧
    (⟨number, ⟨token, request⟩⟩, result) ∈ w.handled ∧ result.status = .response ∧
    frame = encodeFrame result.responsePayload

theorem Handled.mono {w w' : ServerState} {loopId generation number : ℕ} {request frame : Bytes}
    (h : Handled w loopId generation number request frame) (hsub : w.handled ⊆ w'.handled) :
    Handled w' loopId generation number request frame := by
  obtain ⟨token, result, hloop, hgen, hmem, hrest⟩ := h
  exact ⟨token, result, hloop, hgen, hsub hmem, hrest⟩

/-- What is under way is for the outstanding requests. -/
structure ServerInv (v : LoopView) (w : ServerState) : Prop where
  count : ∀ g, w.count (ofGeneration config.loopId g) ≤
    if (v.outstanding g).isSome then 1 else 0
  tasks : ∀ t, w.pool.Inflight t → t ∉ w.routed → t.request.token.loopId = config.loopId →
    v.outstanding t.request.token.generation = some (t.number, t.request.requestPayload)
  owner : ∀ c ∈ w.mailbox.queue, c.token.loopId = config.loopId
  completions : ∀ c ∈ w.mailbox.queue, c.status = .response → ∃ i request,
    v.outstanding c.token.generation = some (i, request) ∧
    Handled w config.loopId c.token.generation i request c.responseFrame
  results : ∀ g i request frame, (i, request, frame) ∈ v.results g →
    Handled w config.loopId g i request frame
  submissions : w.submissions = v.attempts
  exchange : ∀ g, Exchange (Answers config v g) (v.received g) (v.sent g)

variable {config} {v v' : LoopView} {w w' : ServerState} {st : LoopState}

section

variable (h : ServerInv config v w)
include h

/-- Tasks moved or ended without a completion, or the mailbox was closed. -/
theorem ServerInv.shrink
    (htasks : (w'.pool.queue ++ w'.pool.running).Subperm (w.pool.queue ++ w.pool.running))
    (hmail : w'.mailbox.queue.Sublist w.mailbox.queue) (hrouted : w'.routed = w.routed)
    (hhandled : w'.handled = w.handled) (hsub : w'.submissions = w.submissions) :
    ServerInv config v w' where
  count g := (ServerState.count_le htasks hrouted hmail).trans (h.count g)
  tasks t ht hr := by
    rw [hrouted] at hr
    exact h.tasks t (List.mem_append.mp (htasks.subset (List.mem_append.mpr ht))) hr
  owner c hc := h.owner c (hmail.subset hc)
  completions c hc hstatus := by
    obtain ⟨i, request, hout, hhand⟩ := h.completions c (hmail.subset hc) hstatus
    exact ⟨i, request, hout, hhand.mono (by rw [hhandled]; exact List.Subset.refl _)⟩
  results g i request frame hmem :=
    (h.results g i request frame hmem).mono (by rw [hhandled]; exact List.Subset.refl _)
  submissions := hsub.trans h.submissions
  exchange := h.exchange

theorem ServerInv.backlog (n : ℕ) : ServerInv config v { w with backlog := n } :=
  h.shrink (List.Subperm.refl _) (List.Sublist.refl _) rfl rfl rfl

/-- A worker ran a task and its completion was routed. -/
theorem ServerInv.run {maxPayload : ℕ} {result : Option FrameBusinessResult}
    {router : CompletionRouter} {wake : Bool} (hmem : task ∈ w.pool.running)
    (hrouted : task ∉ w.routed) :
    ServerInv config v (w.routedBy config.loopId task maxPayload result router wake) := by
  have hcases := router.tryRoute_cases config.loopId w.mailbox
    (BusinessTask.run task.request maxPayload result) wake
  have hgrow : w.handled ⊆ w.handled ++ result.toList.map fun r => (task, r) :=
    List.subset_append_left _ _
  unfold ServerState.routedBy
  refine ⟨fun g => ?_, fun t ht hr => ?_, fun c hc => ?_, fun c hc hstatus => ?_,
    fun g i request frame hm => (h.results g i request frame hm).mono hgrow, h.submissions,
    h.exchange⟩
  · have htoken := BusinessTask.run_token task.request maxPayload result
    exact (ServerState.count_run hmem hrouted htoken
      (hcases.imp_right fun hpost => hpost.2) _).trans (h.count g)
  · exact h.tasks t ht fun hmem => hr (List.mem_cons_of_mem _ hmem)
  · rcases hcases with hsame | ⟨hloop, hpost⟩
    · rw [hsame] at hc
      exact h.owner c hc
    · rw [hpost, List.mem_append, List.mem_singleton] at hc
      rcases hc with hc | rfl
      · exact h.owner c hc
      · exact hloop
  · have hcase : c ∈ w.mailbox.queue ∨
        (c = BusinessTask.run task.request maxPayload result ∧
          c.token.loopId = config.loopId) := by
      rcases hcases with hsame | ⟨hloop, hpost⟩
      · rw [hsame] at hc
        exact .inl hc
      · rw [hpost, List.mem_append, List.mem_singleton] at hc
        exact hc.imp_right fun heq => ⟨heq, heq ▸ hloop⟩
    rcases hcase with hc | ⟨rfl, hloop⟩
    · obtain ⟨i, request, hout, hhand⟩ := h.completions c hc hstatus
      exact ⟨i, request, hout, hhand.mono hgrow⟩
    · -- the completion of this task, which is for the outstanding request
      rw [BusinessTask.run_token] at hloop ⊢
      obtain ⟨r, rfl, hr, hframe⟩ := BusinessTask.run_response hstatus
      refine ⟨task.number, task.request.requestPayload, h.tasks task (.inr hmem) hrouted hloop,
        task.request.token, r, hloop, rfl, ?_, hr, hframe⟩
      exact List.mem_append_right _ (by simp)

/-- Another loop submitted a task. -/
theorem ServerInv.submitElsewhere (hloop : task.request.token.loopId ≠ config.loopId) :
    ServerInv config v { w with pool := (w.pool.trySubmit (some task)).2 } := by
  rcases w.pool.trySubmit_cases (some task) with ⟨-, heq⟩ | ⟨t, ht, -, hqueue, hrunning⟩
  · rw [heq]
    exact h.shrink (List.Subperm.refl _) (List.Sublist.refl _) rfl rfl rfl
  · cases ht
    refine ⟨fun g => ?_, fun t' ht' hr hown => ?_, h.owner, h.completions, h.results,
      h.submissions, h.exchange⟩
    · have hp : ofGeneration config.loopId g task.request.token = false := by
        simp [ofGeneration, hloop]
      have hle : { w with pool := (w.pool.trySubmit (some task)).2 }.count
          (ofGeneration config.loopId g) ≤ w.count (ofGeneration config.loopId g) +
            if ofGeneration config.loopId g task.request.token then 1 else 0 :=
        ServerState.count_submit hqueue hrunning
      rw [hp] at hle
      exact hle.trans (h.count g)
    · rcases BoundedWorkerPool.inflight_trySubmit ht' with hold | ⟨-, heq⟩
      · exact h.tasks t' hold hr hown
      · cases heq
        exact absurd hown hloop

theorem ServerInv.move {m : ServerMove} (hm : w.move config.loopId m w') :
    ServerInv config v w' := by
  cases m with
  | take =>
    obtain ⟨pool, hpool, rfl⟩ := hm
    exact h.shrink (BoundedWorkerPool.take_perm hpool).subperm (List.Sublist.refl _) rfl rfl rfl
  | run task maxPayload result router wake =>
    obtain ⟨hmem, hrouted, rfl⟩ := hm
    exact h.run hmem hrouted
  | finish task =>
    obtain ⟨-, pool, hpool, rfl⟩ := hm
    exact h.shrink (BoundedWorkerPool.finish_sublist hpool).subperm (List.Sublist.refl _) rfl rfl
      rfl
  | close =>
    obtain rfl := hm
    exact h.shrink (List.Subperm.refl _) (List.Sublist.refl _) rfl rfl rfl
  | cancelQueued =>
    obtain rfl := hm
    exact h.shrink (List.sublist_append_right _ _).subperm (List.Sublist.refl _) rfl rfl rfl
  | submitElsewhere task =>
    obtain ⟨hloop, rfl⟩ := hm
    exact h.submitElsewhere hloop

/-! ### Operations of the loop -/

/-- Bytes were received. -/
theorem ServerInv.recv (fd : ℤ) (bytes : Bytes) :
    ServerInv config { v with
      received := Function.update v.received (v.generationOf fd)
        (v.received (v.generationOf fd) ++ bytes) } w := by
  refine { h with exchange := fun g => ?_ }
  dsimp only
  by_cases hg : g = v.generationOf fd
  · subst hg
    rw [Function.update_self]
    exact (h.exchange _).receive bytes
  · rw [Function.update_of_ne hg]
    exact h.exchange g

/-- Bytes were sent. -/
theorem ServerInv.send {fd : ℤ} {bytes : Bytes}
    (hallow : LoopView.allow config (some v) (.send fd bytes)) (n : ℕ) :
    ServerInv config { v with
      sent := Function.update v.sent (v.generationOf fd)
        (v.sent (v.generationOf fd) ++ bytes.take n) } w := by
  refine { h with exchange := fun g => ?_ }
  dsimp only
  by_cases hg : g = v.generationOf fd
  · subst hg
    rw [Function.update_self]
    exact Exchange.of_prefix hallow
      (List.prefix_append_right_inj _ |>.mpr (List.take_prefix n bytes))
  · rw [Function.update_of_ne hg]
    exact h.exchange g

/-- The pool refused the request. -/
theorem ServerInv.refused (request : BusinessRequest) :
    ServerInv config (v.submit request false) (w.bump request.token.generation) :=
  { h with submissions := by rw [ServerState.bump, LoopView.submit, h.submissions] }

/-- The pool accepted the request. -/
theorem ServerInv.accepted {request : BusinessRequest}
    (hnone : v.outstanding request.token.generation = none) {pool : BoundedWorkerPool PoolTask}
    (hqueue : pool.queue = w.pool.queue ++ [w.taskFor request])
    (hrunning : pool.running = w.pool.running) :
    ServerInv config (v.submit request true)
      { w.bump request.token.generation with pool := pool } := by
  have hself : (v.submit request true).outstanding request.token.generation =
      some (v.attempts request.token.generation, request.requestPayload) :=
    v.submit_outstanding request true
  -- nothing was under way for this connection
  have hother (g : ℕ) (x : ℕ × Bytes) (hx : v.outstanding g = some x) :
      (v.submit request true).outstanding g = some x := by
    have hne : g ≠ request.token.generation := fun heq => by
      rw [heq, hnone] at hx
      cases hx
    rw [← hx]
    exact Function.update_of_ne hne _ _
  refine ⟨fun g => ?_, fun t ht hr hown => ?_, h.owner, fun c hc hstatus => ?_, h.results, ?_,
    h.exchange⟩
  · have hle : { w.bump request.token.generation with pool := pool }.count
        (ofGeneration config.loopId g) ≤ w.count (ofGeneration config.loopId g) +
          if ofGeneration config.loopId g request.token then 1 else 0 :=
      ServerState.count_submit hqueue hrunning
    have hcount := h.count g
    by_cases hg : g = request.token.generation
    · rw [hg] at hle hcount ⊢
      rw [hnone, Option.isSome_none, if_neg Bool.false_ne_true] at hcount
      rw [hself, Option.isSome_some, if_pos rfl]
      refine hle.trans ?_
      split_ifs <;> omega
    · have hp : ofGeneration config.loopId g request.token = false := by
        simp [ofGeneration, Ne.symm hg]
      rw [hp] at hle
      have hsame : (v.submit request true).outstanding g = v.outstanding g :=
        Function.update_of_ne hg _ _
      rw [hsame]
      exact hle.trans hcount
  · have hcase : w.pool.Inflight t ∨ t = w.taskFor request := by
      rcases ht with ht | ht
      · dsimp only at ht
        rw [hqueue, List.mem_append, List.mem_singleton] at ht
        exact ht.imp_left .inl
      · dsimp only at ht
        rw [hrunning] at ht
        exact .inl (.inr ht)
    rcases hcase with hold | rfl
    · exact hother _ _ (h.tasks t hold hr hown)
    · rw [ServerState.taskFor, h.submissions]
      exact hself
  · obtain ⟨i, q, hout, hhand⟩ := h.completions c hc hstatus
    exact ⟨i, q, hother _ _ hout, hhand⟩
  · rw [ServerState.bump, LoopView.submit, h.submissions]

/-- A request was submitted. -/
theorem ServerInv.submit {request : BusinessRequest}
    (hnone : v.outstanding request.token.generation = none) {reply : Option WorkerSubmitStatus}
    (hserve : w.serve (.trySubmit request) reply w') :
    ServerInv config (v.submit request (reply = some .accepted)) w' := by
  rcases hserve with ⟨rfl, rfl⟩ | ⟨rfl, rfl⟩
  · exact h.refused request
  · rcases w.pool.trySubmit_cases (some (w.taskFor request)) with
      ⟨hne, heq⟩ | ⟨t, ht, hacc, hqueue, hrunning⟩ <;> unfold ServerState.submitted
    · have hreply : decide (some (w.pool.trySubmit (some (w.taskFor request))).1 =
          some WorkerSubmitStatus.accepted) = false := by simpa using hne
      rw [hreply, heq]
      exact (h.refused request).backlog _
    · cases ht
      have hreply : decide (some (w.pool.trySubmit (some (w.taskFor request))).1 =
          some WorkerSubmitStatus.accepted) = true := by simpa using hacc
      rw [hreply]
      exact (h.accepted hnone hqueue hrunning).backlog _

/-- **A completion is for the outstanding request**, and nothing else is under way for it. -/
theorem ServerInv.pop (hpop : w.mailbox.tryPop = some (completion, mailbox)) :
    ∃ request, v.outstanding completion.token.generation = some request ∧
      ServerInv config (v.complete completion request) { w with mailbox := mailbox } := by
  have hqueue := LoopMailbox.queue_of_tryPop hpop
  have hmem : completion ∈ w.mailbox.queue := by rw [hqueue]; exact List.mem_cons_self
  have hp : ofGeneration config.loopId completion.token.generation completion.token = true := by
    simp [ofGeneration, h.owner completion hmem]
  have hcount := h.count completion.token.generation
  have hpos := ServerState.count_pos_of_completion hmem hp
  have hsplit : w.count (ofGeneration config.loopId completion.token.generation) = _ :=
    ServerState.count_pop hpop
  rw [if_pos hp] at hsplit
  cases hout : v.outstanding completion.token.generation with
  | none =>
    rw [hout, Option.isSome_none, if_neg Bool.false_ne_true] at hcount
    omega
  | some request =>
    rw [hout, Option.isSome_some, if_pos rfl] at hcount
    -- At most one is in flight per generation, and it is the one popped.
    have hzero : { w with mailbox := mailbox }.count
        (ofGeneration config.loopId completion.token.generation) = 0 := by omega
    have hother (g : ℕ) (hg : g ≠ completion.token.generation) :
        (v.complete completion request).outstanding g = v.outstanding g :=
      Function.update_of_ne hg _ _
    have hrest (c : BusinessCompletion) (hc : c ∈ mailbox.queue) : c ∈ w.mailbox.queue := by
      rw [hqueue]; exact List.mem_cons_of_mem _ hc
    refine ⟨request, rfl, fun g => ?_, fun t ht hr hown => ?_, fun c hc => h.owner c (hrest c hc),
      fun c hc hstatus => ?_, fun g i q frame hm => ?_, h.submissions, fun g => ?_⟩
    · by_cases hg : g = completion.token.generation
      · rw [hg, hzero]; exact Nat.zero_le _
      · rw [hother g hg]
        have hle : { w with mailbox := mailbox }.count (ofGeneration config.loopId g) ≤
            w.count (ofGeneration config.loopId g) := by
          refine ServerState.count_le (List.Subperm.refl _) rfl ?_
          rw [hqueue]
          exact List.sublist_cons_self _ _
        exact hle.trans (h.count g)
    · have hne : t.request.token.generation ≠ completion.token.generation := fun heq => by
        have hpt : ofGeneration config.loopId completion.token.generation t.request.token =
            true := by
          simp [ofGeneration, hown, heq]
        have := ServerState.count_pos_of_task (w := { w with mailbox := mailbox }) ht hr hpt
        omega
      rw [hother _ hne]
      exact h.tasks t ht hr hown
    · have hne : c.token.generation ≠ completion.token.generation := fun heq => by
        have hpc : ofGeneration config.loopId completion.token.generation c.token = true := by
          simp [ofGeneration, h.owner c (hrest c hc), heq]
        have := ServerState.count_pos_of_completion (w := { w with mailbox := mailbox }) hc hpc
        omega
      rw [hother _ hne]
      exact h.completions c (hrest c hc) hstatus
    · by_cases hg : g = completion.token.generation
      · subst hg
        simp only [LoopView.complete, Function.update_self, List.mem_append] at hm
        rcases hm with hm | hm
        · exact h.results _ i q frame hm
        · split_ifs at hm with hstatus
          · simp only [List.mem_singleton, Prod.mk.injEq] at hm
            obtain ⟨rfl, rfl, rfl⟩ := hm
            obtain ⟨i, q, hout', hhand⟩ := h.completions completion hmem hstatus
            rw [hout] at hout'
            cases hout'
            exact hhand
          · simp at hm
      · simp only [LoopView.complete, Function.update_of_ne hg] at hm
        exact h.results g i q frame hm
    · refine (h.exchange g).mono fun i q r =>
        And.imp_right (Or.imp_right (Or.imp_right fun hm => ?_))
      by_cases hg : g = completion.token.generation
      · subst hg
        simp only [LoopView.complete, Function.update_self]
        exact List.mem_append_left _ hm
      · simpa only [LoopView.complete, Function.update_of_ne hg] using hm

/-- An operation of the loop that the contract allows. -/
theorem ServerInv.op {op : LoopOp} {r : op.Reply} (hallow : LoopView.allow config (some v) op)
    (hserve : w.serve op r w') :
    ∃ v', LoopView.upd (some v) op r = some v' ∧ ServerInv config v' w' := by
  by_cases hquiet : Quiet op
  · refine ⟨v, LoopView.upd_quiet hquiet r, ?_⟩
    have hw : w' = w ∨ w' = { w with mailbox := w.mailbox.close } := by
      cases op <;> first | exact .inl hserve | exact .inr hserve | exact hquiet.elim
    rcases hw with rfl | rfl
    · exact h
    · exact h.shrink (List.Subperm.refl _) (List.nil_sublist _) rfl rfl rfl
  cases op with
  | recv fd capacity =>
    obtain rfl := hserve
    cases r with
    | data bytes => exact ⟨_, rfl, h.recv fd bytes⟩
    | closed | interrupted | again | failed => exact ⟨v, rfl, h⟩
  | send fd bytes =>
    obtain rfl := hserve
    cases r with
    | sent n => exact ⟨_, rfl, h.send hallow n⟩
    | interrupted | again | failed => exact ⟨v, rfl, h⟩
  | epollAdd fd events generation =>
    obtain rfl := hserve
    exact ⟨_, rfl, h.count, h.tasks, h.owner, h.completions, h.results, h.submissions, h.exchange⟩
  | trySubmit request => exact ⟨_, rfl, h.submit hallow hserve⟩
  | popCompletion =>
    rcases hserve with ⟨-, rfl, rfl⟩ | ⟨completion, mailbox, hpop, rfl, rfl⟩
    · exact ⟨v, rfl, h.backlog 0⟩
    · obtain ⟨request, hout, hinv⟩ := h.pop hpop
      refine ⟨_, ?_, hinv.backlog _⟩
      exact Option.map_eq_some_iff.mpr ⟨request, hout, rfl⟩
  | _ => exact absurd trivial hquiet

end

/-- **The invariant of every run.** -/
theorem serverInv_of_reachable {s : LoopSystemState}
    (h : (loopPool config).system.Reachable s) :
    ∃ v, s.view () = some v ∧ ServerInv config v s.world := by
  refine (loopContract config).invariant
    (I := fun s => ∃ v, s.view () = some v ∧ ServerInv config v s.world) h ?_ ?_
  · rintro s ⟨⟨hqueue, hrunning, hmail, hsub, hrouted, hhandled, hv, -⟩, -, -⟩
    refine ⟨{}, hv, fun g => ?_, fun t ht => ?_, fun c hc => ?_, fun c hc => ?_,
      fun g i q f hm => ?_, hsub, fun g => Exchange.nil⟩
    · simp [ServerState.count, hqueue, hrunning, hmail]
    · simp [BoundedWorkerPool.Inflight, hqueue, hrunning] at ht
    · simp [hmail] at hc
    · simp [hmail] at hc
    · simp at hm
  · intro s l s' _ hinv hstep
    cases hstep with
    | begin hrun hmay hidle => simpa [loopPool] using hinv
    | @op i c o k r w hrun hallow hserve =>
      obtain ⟨v, hv, hinv⟩ := hinv
      change LoopView.allow config (s.view ()) o at hallow
      rw [hv] at hallow
      obtain ⟨v', hv', hinv'⟩ := hinv.op hallow hserve
      refine ⟨v', ?_, hinv'⟩
      simp only [PoolState.answer_view, Function.update_self]
      change LoopView.upd (s.view ()) o r = some v'
      rw [hv, hv']
    | finish hrun hidle hpost => exact hinv
    | env henv =>
      obtain ⟨v, hv, hinv⟩ := hinv
      exact ⟨v, hv, hinv.move henv⟩

/-! ### Late completions and timeouts -/

theorem run_find_bind {α : Type} {fd : ℤ} {f : Option SessionEntry → Loop α} :
    (find fd >>= f).run st = (f st.sessions[fd]?).run st := rfl

/-- A completion for another connection than the one on its descriptor is ignored. -/
theorem applyCompletion_stale {e : SessionEntry} (he : st.sessions[completion.token.fd]? = some e)
    (hne : e.session.token ≠ completion.token) (fuel : ℕ) :
    (applyCompletion config fuel completion).run st = .ret (some (), st) := by
  have hstale : (!e.session.matchesToken completion.token) = true := by
    simpa [Session.matchesToken] using hne
  rw [applyCompletion, run_find_bind, he]
  dsimp only
  rw [if_pos hstale]
  rfl

/-- A timeout for another connection than the one on its descriptor is ignored. -/
theorem handleTimeoutEvent_stale {event : TimerEvent} {e : SessionEntry}
    (he : st.sessions[event.targetFd]? = some e)
    (hne : event.targetGeneration ≠ e.session.token.generation) (fuel : ℕ) :
    (handleTimeoutEvent config fuel event).run st = .ret (some (), st) := by
  rw [handleTimeoutEvent, run_find_bind, he]
  dsimp only
  rw [if_pos (.inr (.inr (.inl hne)))]
  rfl

/-- **Every response answers the outstanding request of its own connection.**  In every reachable
state, whatever the workers, the kernel and the timers did:

* there is at most one task or undelivered completion for a token, and none, between two calls,
  for a session that is reading, or writing without an expired request;
* the bytes sent on a connection are the frames of responses, none of them empty, of which the
  `i`-th is the overload frame, the timeout frame, or the result of the task made of the `i`-th
  request frame received on the same connection;
* connections get increasing generations, and a completion or timeout for another connection than
  the one that has the descriptor now does nothing. -/
theorem responses_answer_requests (config : EventLoopConfig) {s : LoopSystemState}
    (h : (loopPool config).system.Reachable s) :
    ∃ v, s.view () = some v ∧
      (∀ token, token.loopId = config.loopId → s.world.count (· == token) ≤ 1) ∧
      (s.run () = none → ∀ (fd : ℤ) e, (s.vars ()).sessions[fd]? = some e →
        e.session.state = .reading ∨
          (e.session.state = .writing ∧ e.businessExpired = false) →
        s.world.count (· == e.session.token) = 0) ∧
      (∀ g, Exchange (fun i request response => response ≠ [] ∧
        (response = config.overloadResponseFrame ∨
          response = config.businessTimeoutResponseFrame ∨
          Handled s.world config.loopId g i request response)) (v.received g) (v.sent g)) ∧
      (s.run () = none → v.adopted.Pairwise (· < ·) ∧
        ∀ (fd : ℤ) e, (s.vars ()).sessions[fd]? = some e →
          e.session.token = ⟨config.loopId, fd, v.generationOf fd⟩ ∧
          v.generationOf fd ∈ v.adopted) ∧
      (∀ fuel (st : LoopState) (completion : BusinessCompletion) e,
        st.sessions[completion.token.fd]? = some e → e.session.token ≠ completion.token →
        (applyCompletion config fuel completion).run st = .ret (some (), st)) ∧
      (∀ fuel (st : LoopState) (event : TimerEvent) e,
        st.sessions[event.targetFd]? = some e →
        event.targetGeneration ≠ e.session.token.generation →
        (handleTimeoutEvent config fuel event).run st = .ret (some (), st)) := by
  obtain ⟨v, hv, hinv⟩ := serverInv_of_reachable h
  have hidle (hrun : s.run () = none) : ViewInv config v (s.vars ()) :=
    ((loopContract config).meets_running h ()).idle hrun v hv
  have hcount (token : ConnectionToken) (hloop : token.loopId = config.loopId) :
      s.world.count (· == token) ≤ if (v.outstanding token.generation).isSome then 1 else 0 := by
    refine (ServerState.count_mono fun token' htoken => ?_).trans (hinv.count token.generation)
    rw [beq_iff_eq] at htoken
    simp [ofGeneration, htoken, hloop]
  refine ⟨v, hv, fun token hloop => ?_, fun hrun fd e he hstate => ?_, fun g => ?_, fun hrun => ?_,
    fun fuel st completion e he hne => applyCompletion_stale he hne fuel,
    fun fuel st event e he hne => handleTimeoutEvent_stale he hne fuel⟩
  · refine (hcount token hloop).trans ?_
    split_ifs <;> omega
  · have htoken := (hidle hrun).token fd e he
    obtain ⟨events, hev⟩ := (hidle hrun).entry fd e he (by
      rcases hstate with hs | ⟨hs, -⟩ <;> simp [Session.isOpen, hs])
    have hnone : v.outstanding (v.generationOf fd) = none := by
      rcases hstate with hs | ⟨hs, hexp⟩
      · exact (hev.reading hs).1
      · exact ((hev.writing hs).resolve_right (by simp [hexp])).1
    have hle := hcount e.session.token (by rw [htoken])
    rw [htoken] at hle ⊢
    rw [hnone, Option.isSome_none, if_neg Bool.false_ne_true] at hle
    exact Nat.le_zero.mp hle
  · exact (hinv.exchange g).mono fun i q r =>
      And.imp_right (Or.imp_right (Or.imp_right (hinv.results g i q r)))
  · exact ⟨(hidle hrun).increasing, fun fd e he =>
      ⟨(hidle hrun).token fd e he, (hidle hrun).known fd e he⟩⟩

/-! ### A run -/

namespace ServerState

/-- One way the operations of the loop are answered; `reply` is what the kernel says. -/
def answer (reply : (op : LoopOp) → Option op.Reply) :
    (op : LoopOp) → ServerState → Option (op.Reply × ServerState)
  | .trySubmit request, w =>
    some (some (w.pool.trySubmit (some (w.taskFor request))).1, w.submitted request)
  | .popCompletion, w =>
    match w.mailbox.tryPop with
    | none => some (none, { w with backlog := 0 })
    | some (completion, mailbox) =>
      some (some completion, { w with mailbox := mailbox, backlog := w.backlog - 1 })
  | .closeMailboxes, _ => none
  | op, w => (reply op).map (·, w)

theorem answer_sound (reply : (op : LoopOp) → Option op.Reply) (w : ServerState) (op : LoopOp)
    (r : op.Reply) (w' : ServerState) (h : answer reply op w = some (r, w')) : w.serve op r w' := by
  cases op with
  | trySubmit request =>
    cases h
    exact .inr ⟨rfl, rfl⟩
  | popCompletion =>
    cases hpop : w.mailbox.tryPop with
    | none =>
      simp only [answer, hpop] at h
      cases h
      exact .inl ⟨hpop, rfl, rfl⟩
    | some popped =>
      simp only [answer, hpop] at h
      cases h
      exact .inr ⟨popped.1, popped.2, hpop, rfl, rfl⟩
  | closeMailboxes => cases h
  | _ =>
    obtain ⟨r', -, heq⟩ := Option.map_eq_some_iff.mp h
    exact (Prod.mk.inj heq).2.symm

/-- The moves of workers and other loops, where they can be made. -/
def next (loopId : ℕ) (w : ServerState) : ServerMove → Option ServerState
  | .take => w.pool.take.map fun pool => { w with pool := pool }
  | .run task maxPayload result router wake =>
    if task ∈ w.pool.running ∧ task ∉ w.routed then
      some (w.routedBy loopId task maxPayload result router wake)
    else none
  | .finish task =>
    if task ∈ w.routed then (w.pool.finish task).map fun pool => { w with pool := pool } else none
  | .submitElsewhere task =>
    if task.request.token.loopId ≠ loopId then
      some { w with pool := (w.pool.trySubmit (some task)).2 }
    else none
  | .close | .cancelQueued => none

theorem next_sound (loopId : ℕ) (w : ServerState) (m : ServerMove) (w' : ServerState)
    (h : w.next loopId m = some w') : w.move loopId m w' := by
  cases m with
  | take =>
    obtain ⟨pool, hpool, rfl⟩ := Option.map_eq_some_iff.mp h
    exact ⟨pool, hpool, rfl⟩
  | run task maxPayload result router wake =>
    obtain ⟨hmem, heq⟩ := Option.ite_none_right_eq_some.mp h
    exact ⟨hmem.1, hmem.2, (Option.some.inj heq).symm⟩
  | finish task =>
    obtain ⟨hmem, heq⟩ := Option.ite_none_right_eq_some.mp h
    obtain ⟨pool, hpool, rfl⟩ := Option.map_eq_some_iff.mp heq
    exact ⟨hmem, pool, hpool, rfl⟩
  | submitElsewhere task =>
    obtain ⟨hne, heq⟩ := Option.ite_none_right_eq_some.mp h
    exact ⟨hne, (Option.some.inj heq).symm⟩
  | close | cancelQueued => cases h

end ServerState

/-- The run of a script from the start of a server with one worker thread, a queue for one task and
a mailbox for `capacity` completions. -/
def scripted (config : EventLoopConfig) (capacity : ℕ)
    (cues : List (Cue Unit LoopCall ServerMove ((op : LoopOp) → Option op.Reply))) :
    LoopSystemState :=
  (loopPool config).play (fun reply _ => ServerState.answer reply) (ServerState.next config.loopId)
    cues
    { world := {
        pool := .empty 1 1
        mailbox := .empty capacity (16 * 1024 * 1024) (kFrameHeaderSize + kMaxPayloadSize) }
      view _ := some {}
      vars _ := {}
      run _ := none
      ended := [] }

theorem scripted_reachable (config : EventLoopConfig) (capacity : ℕ)
    (cues : List (Cue Unit LoopCall ServerMove ((op : LoopOp) → Option op.Reply))) :
    (loopPool config).system.Reachable (scripted config capacity cues) :=
  System.Reachable.leads (.init ⟨⟨rfl, rfl, rfl, rfl, rfl, rfl, rfl, rfl⟩, fun _ => rfl, rfl⟩)
    (Pool.leads_play (fun _ _ => trivial) (fun reply _ => ServerState.answer_sound reply)
      (ServerState.next_sound config.loopId) cues _)

/-- The worker takes the next task, runs it with the result `[9]` and ends it. -/
def worked (task : PoolTask) :
    List (Cue Unit LoopCall ServerMove ((op : LoopOp) → Option op.Reply)) :=
  [.env .take, .env (.run task 16 (some ⟨.response, [9]⟩) ⟨0, 1, fun _ => true, true⟩ true),
    .env (.finish task)]

/-- A loop that has frames for both refusals. -/
def answeringConfig : EventLoopConfig where
  overloadResponseFrame := encodeFrame [1]
  businessTimeoutResponseFrame := encodeFrame [2]

/-- A connection with two requests: a worker answers the first; when the second comes, tasks of
another loop fill the pool. -/
def answered : LoopSystemState := scripted answeringConfig 1 (List.flatten
  [[.begin () (.adopt 5), .ops () 2 (kernel [] .again), .finish (),
    .begin () (.pollOnce 4 0), .ops () 5
      (kernel [(1, { input := true })] (.data (encodeFrame [7]))),
    .ops () 9 (kernel [] .again), .finish ()],
    worked ⟨0, ⟨⟨0, 5, 1⟩, [7]⟩⟩,
    [.begin () (.pollOnce 4 0), .ops () 9 (kernel [(0, {})] .again), .finish (),
    .env (.submitElsewhere ⟨0, ⟨⟨1, 6, 1⟩, [3]⟩⟩), .env .take,
    .env (.submitElsewhere ⟨0, ⟨⟨1, 7, 2⟩, [4]⟩⟩),
    .begin () (.pollOnce 4 0), .ops () 5
      (kernel [(1, { input := true })] (.data (encodeFrame [8]))),
    .ops () 9 (kernel [] .again), .finish ()]])

/-- The two responses are the result of the worker and the overload frame. -/
theorem responses_answer_requests_answered : ∃ v, answered.view () = some v ∧
    v.received 1 = encodeFrame [7] ++ encodeFrame [8] ∧
    v.sent 1 = encodeFrame [9] ++ encodeFrame [1] ∧
    Exchange (fun i request response => response ≠ [] ∧ (response = encodeFrame [1] ∨
      response = encodeFrame [2] ∨ Handled answered.world 0 1 i request response))
      (v.received 1) (v.sent 1) ∧
    answered.world.count (· == ⟨0, 5, 1⟩) = 0 := by
  have hr : (loopPool answeringConfig).system.Reachable answered :=
    scripted_reachable answeringConfig 1 _
  obtain ⟨v, hv, -, hzero, hexchange, -⟩ := responses_answer_requests answeringConfig hr
  have hreceived : (answered.view ()).map (·.received 1) =
      some (encodeFrame [7] ++ encodeFrame [8]) := by
    decide +kernel
  have hsent : (answered.view ()).map (·.sent 1) = some (encodeFrame [9] ++ encodeFrame [1]) := by
    decide +kernel
  rw [hv] at hreceived hsent
  have hsession : ((answered.vars ()).sessions[(5 : ℤ)]?).map
      (fun e => (e.session.state, e.session.token)) = some (.reading, ⟨0, 5, 1⟩) := by
    decide +kernel
  obtain ⟨e, he, hstate⟩ := Option.map_eq_some_iff.mp hsession
  obtain ⟨hreading, htoken⟩ := Prod.mk.inj hstate
  have hidle : answered.run () = none := Option.isNone_iff_eq_none.mp (by decide +kernel)
  exact ⟨v, hv, Option.some.inj hreceived, Option.some.inj hsent, hexchange 1,
    htoken ▸ hzero hidle 5 e he (.inl hreading)⟩

end AegisFlow
