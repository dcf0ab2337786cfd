import AegisFlow.Net.Responses

/-!
# The capacity of the completion mailbox

The limits of a server make the mailbox of completions as large as queue and workers of the pool
together.  But a task leaves the pool when its completion enters the mailbox, and the loop may
dispatch further requests before it looks at the mailbox.

* `validLimits` : the limits a server accepts;
* `backed_of_reachable` : what is under way for the loop is bounded by the pool and by the
  requests dispatched since the loop last found its mailbox empty;
* `completion_never_refused` : **no completion finds the mailbox full if queue, workers and the
  requests dispatched since then fit into it**;
* `completion_refused` : with limits that are accepted, the third of three requests that are
  dispatched in one go loses its response.
-/

namespace AegisFlow

/-! ### Limits -/

/-- The limits of a server. -/
structure LimitsConfig where
  maxConnections : ℕ := 65536
  maxConnectionsPerLoop : ℕ := 65536
  connectionQueueCapacity : ℕ := 1024
  businessQueueCapacity : ℕ := 1024
  completionQueueCapacity : ℕ := 2048
  completionQueueByteCapacity : ℕ := 16 * 1024 * 1024
  maxFramePayloadBytes : ℕ := kMaxPayloadSize
  inputSoftWatermarkBytes : ℕ := 64 * 1024
  maxInputBufferBytes : ℕ := kFrameHeaderSize + kMaxPayloadSize
  outputSoftWatermarkBytes : ℕ := 64 * 1024
  maxOutputBufferBytes : ℕ := kFrameHeaderSize + kMaxPayloadSize
  deriving DecidableEq, Repr

/-- Whether the limits make sense for a number of loops and of workers; sizes are 64 bits wide. -/
def validLimits (limits : LimitsConfig) (loopCount workerThreads : ℕ) : Bool :=
  let maximum := 2 ^ 64 - 1
  if loopCount = 0 ∨ workerThreads = 0 ∨ limits.maxConnections = 0 ∨
      limits.maxConnectionsPerLoop = 0 ∨ limits.connectionQueueCapacity = 0 ∨
      limits.businessQueueCapacity = 0 ∨ limits.completionQueueCapacity = 0 ∨
      limits.completionQueueByteCapacity = 0 ∨ limits.maxFramePayloadBytes = 0 ∨
      limits.inputSoftWatermarkBytes = 0 ∨ limits.maxInputBufferBytes = 0 ∨
      limits.outputSoftWatermarkBytes = 0 ∨ limits.maxOutputBufferBytes = 0 then false
  else if kMaxPayloadSize < limits.maxFramePayloadBytes ∨
      maximum - kFrameHeaderSize < limits.maxFramePayloadBytes ∨
      limits.maxInputBufferBytes < kFrameHeaderSize + limits.maxFramePayloadBytes ∨
      kFrameHeaderSize + kMaxPayloadSize < limits.maxInputBufferBytes ∨
      limits.maxInputBufferBytes < limits.inputSoftWatermarkBytes ∨
      limits.maxOutputBufferBytes < kFrameHeaderSize + 1 ∨
      kFrameHeaderSize + kMaxPayloadSize < limits.maxOutputBufferBytes ∨
      limits.maxOutputBufferBytes < limits.outputSoftWatermarkBytes then false
  else if maximum / loopCount < limits.maxConnectionsPerLoop ∨
      loopCount * limits.maxConnectionsPerLoop < limits.maxConnections ∨
      limits.maxConnectionsPerLoop < limits.connectionQueueCapacity ∨
      maximum - limits.businessQueueCapacity < workerThreads ∨
      limits.completionQueueCapacity < limits.businessQueueCapacity + workerThreads ∨
      limits.completionQueueByteCapacity < limits.maxOutputBufferBytes then false
  else true

/-- Pool, mailbox and loop have the sizes that the limits say. -/
structure Sized (limits : LimitsConfig) (workerThreads : ℕ) (config : EventLoopConfig)
    (w : ServerState) : Prop where
  workers : w.pool.threadCount = workerThreads
  queue : w.pool.queueCapacity = limits.businessQueueCapacity
  capacity : w.mailbox.capacity = limits.completionQueueCapacity
  byteCapacity : w.mailbox.byteCapacity = limits.completionQueueByteCapacity
  maxBytes : w.mailbox.maxCompletionBytes = limits.maxOutputBufferBytes
  connections : config.maxConnections = limits.maxConnectionsPerLoop

/-! ### What is under way for the loop -/

/-- The tokens of a loop. -/
def ofLoop (loopId : ℕ) (token : ConnectionToken) : Bool := token.loopId == loopId

/-- A worker is about to post the completion of an accepted task of the loop, and the mailbox has no
free slot. -/
def Refused (config : EventLoopConfig) (w : ServerState) : Prop :=
  ∃ task ∈ w.pool.running, task ∉ w.routed ∧ task.request.token.loopId = config.loopId ∧
    w.mailbox.accepting = true ∧ w.mailbox.queue.length = w.mailbox.capacity

/-- Mailbox entries and a task of the loop that has not posted count. -/
theorem ServerState.count_lt_of_task {config : EventLoopConfig} {v : LoopView} {w : ServerState}
    (h : ServerInv config v w) {task : PoolTask} (hmem : task ∈ w.pool.running)
    (hrouted : task ∉ w.routed) (hloop : task.request.token.loopId = config.loopId) :
    w.mailbox.queue.length < w.count (ofLoop config.loopId) := by
  have htasks : 0 < (w.pool.queue ++ w.pool.running).countP fun t =>
      ofLoop config.loopId t.request.token && !w.routed.contains t := by
    refine List.countP_pos_iff.mpr ⟨task, List.mem_append_right _ hmem, ?_⟩
    simp [ofLoop, hloop, hrouted]
  have hmail : w.mailbox.queue.countP (fun c => ofLoop config.loopId c.token) =
      w.mailbox.queue.length :=
    List.countP_eq_length.mpr fun c hc => by simp [ofLoop, h.owner c hc]
  unfold ServerState.count
  omega

section Bound

variable {config : EventLoopConfig} {limits : LimitsConfig} {workerThreads : ℕ}
  {s : LoopSystemState} {v : LoopView} {w w' : ServerState}

/-- What is under way for the loop fits into queue, workers and backlog. -/
def Backed (config : EventLoopConfig) (w : ServerState) : Prop :=
  w.count (ofLoop config.loopId) ≤ w.pool.queueCapacity + w.pool.threadCount + w.backlog

/-- Nothing new is under way, the pool has the same size and the backlog stays. -/
theorem Backed.of_le (h : Backed config w)
    (hcount : w'.count (ofLoop config.loopId) ≤ w.count (ofLoop config.loopId))
    (hpool : w'.pool.SameSize w.pool) (hbacklog : w'.backlog = w.backlog) : Backed config w' := by
  unfold Backed at h ⊢
  rw [hpool.1, hpool.2, hbacklog]
  exact hcount.trans h

/-- With an empty mailbox only the pool counts. -/
theorem Backed.of_empty (h : w.mailbox.queue = []) : Backed config w := by
  have hle : w.count (ofLoop config.loopId) ≤ (w.pool.queue ++ w.pool.running).length := by
    unfold ServerState.count
    rw [h, List.countP_nil]
    exact List.countP_le_length
  rw [List.length_append] at hle
  have hqueue := w.pool.queue_le
  have hrunning := w.pool.running_le
  unfold Backed
  omega

theorem Backed.serve (hinv : ServerInv config v w) (h : Backed config w) {op : LoopOp}
    {r : op.Reply} (hserve : w.serve op r w') : Backed config w' := by
  cases op with
  | trySubmit request =>
    rcases hserve with ⟨-, rfl⟩ | ⟨-, rfl⟩
    · exact h
    · have hsize := w.pool.sameSize_trySubmit (some (w.taskFor request))
      rcases w.pool.trySubmit_cases (some (w.taskFor request)) with
        ⟨hne, heq⟩ | ⟨t, -, hacc, hqueue, hrunning⟩
      · refine h.of_le (Nat.le_of_eq ?_) hsize (if_neg hne)
        unfold ServerState.count ServerState.submitted
        rw [heq]
        rfl
      · have hcount : (w.submitted request).count (ofLoop config.loopId) ≤
            w.count (ofLoop config.loopId) +
              if ofLoop config.loopId t.request.token then 1 else 0 :=
          @ServerState.count_submit t w _ _ (w.submitted request).submissions hqueue hrunning
        have hone : (if ofLoop config.loopId t.request.token then 1 else 0) ≤ 1 := by
          split_ifs <;> omega
        -- An accepted submission adds one to both sides.
        have hbacklog : (w.submitted request).backlog = w.backlog + 1 := if_pos hacc
        unfold Backed at h ⊢
        rw [show (w.submitted request).pool.queueCapacity = w.pool.queueCapacity from hsize.1,
          show (w.submitted request).pool.threadCount = w.pool.threadCount from hsize.2, hbacklog]
        omega
  | popCompletion =>
    rcases hserve with ⟨hpop, -, rfl⟩ | ⟨completion, mailbox, hpop, -, rfl⟩
    · exact .of_empty (LoopMailbox.queue_of_tryPop_none hpop)
    · have hqueue := LoopMailbox.queue_of_tryPop hpop
      have howner := hinv.owner completion (hqueue ▸ List.mem_cons_self)
      have hcount : w.count (ofLoop config.loopId) = _ := ServerState.count_pop hpop
      rw [if_pos (by simp [ofLoop, howner])] at hcount
      unfold Backed at h ⊢
      change { w with mailbox := mailbox }.count (ofLoop config.loopId) ≤
        w.pool.queueCapacity + w.pool.threadCount + (w.backlog - 1)
      omega
  | closeMailboxes =>
    obtain rfl := hserve
    exact .of_empty rfl
  | _ =>
    obtain rfl := hserve
    exact h

theorem Backed.move (h : Backed config w) {m : ServerMove} (hm : w.move config.loopId m w') :
    Backed config w' := by
  cases m with
  | take =>
    obtain ⟨pool, hpool, rfl⟩ := hm
    exact h.of_le (ServerState.count_le (BoundedWorkerPool.take_perm hpool).subperm rfl
      (List.Sublist.refl _)) (BoundedWorkerPool.sameSize_take hpool) rfl
  | run task maxPayload result router wake =>
    obtain ⟨hmem, hrouted, rfl⟩ := hm
    have hcases := router.tryRoute_cases config.loopId w.mailbox
      (BusinessTask.run task.request maxPayload result) wake
    exact h.of_le (ServerState.count_run hmem hrouted
      (BusinessTask.run_token task.request maxPayload result)
      (hcases.imp_right fun hpost => hpost.2) _) ⟨rfl, rfl⟩ rfl
  | finish task =>
    obtain ⟨-, pool, hpool, rfl⟩ := hm
    exact h.of_le (ServerState.count_le (BoundedWorkerPool.finish_sublist hpool).subperm rfl
      (List.Sublist.refl _)) (BoundedWorkerPool.sameSize_finish hpool) rfl
  | close =>
    obtain rfl := hm
    exact h
  | cancelQueued =>
    obtain rfl := hm
    exact h.of_le (ServerState.count_le (List.sublist_append_right _ _).subperm rfl
      (List.Sublist.refl _)) ⟨rfl, rfl⟩ rfl
  | submitElsewhere task =>
    obtain ⟨hloop, rfl⟩ := hm
    refine h.of_le ?_ (w.pool.sameSize_trySubmit (some task)) rfl
    rcases w.pool.trySubmit_cases (some task) with ⟨-, heq⟩ | ⟨t, ht, -, hqueue, hrunning⟩
    · rw [heq]
    · cases ht
      have hle : { w with pool := (w.pool.trySubmit (some task)).2 }.count (ofLoop config.loopId) ≤
          w.count (ofLoop config.loopId) +
            if ofLoop config.loopId task.request.token then 1 else 0 :=
        ServerState.count_submit hqueue hrunning
      rwa [if_neg (by simp [ofLoop, hloop])] at hle

/-- **What is under way for the loop** fits into the pool and the requests that were dispatched
since the loop last found its mailbox empty. -/
theorem backed_of_reachable (h : (loopPool config).system.Reachable s) :
    Backed config s.world := by
  refine h.invariant (I := fun s => (loopPool config).system.Reachable s ∧ Backed config s.world)
    (fun s hinit => ⟨.init hinit, .of_empty hinit.1.2.2.1⟩)
    (fun s l s' _ ⟨hr, hbacked⟩ hst => ?_) |>.2
  refine ⟨hr.step hst, ?_⟩
  cases hst with
  | begin hidle hmay => exact hbacked
  | op hrun hserve =>
    obtain ⟨v, -, hinv⟩ := serverInv_of_reachable hr
    exact hbacked.serve hinv hserve
  | finish hrun => exact hbacked
  | env henv => exact hbacked.move henv

/-- **The mailbox covers the loop** as long as it has room for what the pool holds and for the
requests that were dispatched, less the completions that were taken out, since the loop last found
it empty: no completion is refused for lack of a slot. -/
theorem completion_never_refused (h : (loopPool config).system.Reachable s)
    (hsized : Sized limits workerThreads config s.world)
    (hroom : limits.businessQueueCapacity + workerThreads + s.world.backlog ≤
      limits.completionQueueCapacity) : ¬ Refused config s.world := by
  rintro ⟨task, hmem, hrouted, hloop, -, hfull⟩
  obtain ⟨v, -, hinv⟩ := serverInv_of_reachable h
  have hlt := ServerState.count_lt_of_task hinv hmem hrouted hloop
  have hbacked : _ ≤ _ := backed_of_reachable h
  rw [hsized.queue, hsized.workers] at hbacked
  rw [hsized.capacity] at hfull
  omega

end Bound

/-- Limits for three connections, one worker and a queue for one task. -/
def tightLimits (capacity : ℕ) : LimitsConfig where
  maxConnections := 3
  maxConnectionsPerLoop := 3
  connectionQueueCapacity := 3
  businessQueueCapacity := 1
  completionQueueCapacity := capacity

/-- A loop with three connections at most. -/
def tightConfig : EventLoopConfig where
  maxConnections := 3

/-- Three connections that send a request each, all reported by one `epoll_wait`.  The worker is
done with each of the first two before the loop reads the next, and has taken the third. -/
def threeRequests (capacity : ℕ) : LoopSystemState := scripted tightConfig capacity (List.flatten
  [[.begin () (.adopt 3), .ops () 2 (kernel [] .again), .finish (),
    .begin () (.adopt 4), .ops () 2 (kernel [] .again), .finish (),
    .begin () (.adopt 5), .ops () 2 (kernel [] .again), .finish (),
    .begin () (.pollOnce 4 0),
    .ops () 5 (kernel [(1, { input := true }), (2, { input := true }), (3, { input := true })]
      (.data (encodeFrame [7])))],
    worked ⟨0, ⟨⟨0, 3, 1⟩, [7]⟩⟩,
    [.ops () 1 (kernel [] .again), .ops () 4 (kernel [] (.data (encodeFrame [7])))],
    worked ⟨0, ⟨⟨0, 4, 2⟩, [7]⟩⟩,
    [.ops () 1 (kernel [] .again), .ops () 4 (kernel [] (.data (encodeFrame [7]))), .env .take]])

/-- Two completions wait, a worker runs the third task, and there is room for its completion. -/
theorem completion_never_refused_waiting : validLimits (tightLimits 5) 1 1 = true ∧
    (threeRequests 5).world.mailbox.queue.length = 2 ∧
    (threeRequests 5).world.pool.running = [⟨0, ⟨⟨0, 5, 3⟩, [7]⟩⟩] ∧
    (threeRequests 5).world.backlog = 3 ∧ ¬ Refused tightConfig (threeRequests 5).world :=
  ⟨by decide, by decide +kernel, by decide +kernel, by decide +kernel,
    completion_never_refused (scripted_reachable tightConfig 5 _)
      (show Sized (tightLimits 5) 1 tightConfig (threeRequests 5).world by
        constructor <;> decide +kernel) (by decide +kernel)⟩

/-- **Three requests in one go**: limits that are accepted, and the third completion finds the
mailbox full. -/
theorem completion_refused : validLimits (tightLimits 2) 1 1 = true ∧
    ∃ s : LoopSystemState, (loopPool tightConfig).system.Reachable s ∧
      Sized (tightLimits 2) 1 tightConfig s.world ∧ (s.vars ()).routerBound = true ∧
      Refused tightConfig s.world :=
  ⟨by decide, threeRequests 2, scripted_reachable tightConfig 2 _,
    by constructor <;> decide +kernel, by decide +kernel,
    ⟨0, ⟨⟨0, 5, 3⟩, [7]⟩⟩, by decide +kernel, by decide +kernel, by decide +kernel,
    by decide +kernel, by decide +kernel⟩

end AegisFlow
