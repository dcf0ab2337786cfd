import AegisFlow.App.CandidateFlow
import AegisFlow.Interaction.Drive

/-!
# No accepted candidate is lost

The accepted candidates of a run are at every moment of three kinds, in the order of their
acceptance: those covered by a batch that the backend confirmed, those merged into the
reserved batch, and those still queued.  `FlowWorld.Split` states this, for the candidates of
all tasks or only for those of recent ones; every step of the system keeps it until the rest
of the queue is discarded on shutdown.

* `FlowInv` : the invariant of queue, worker pool and maintenance core;
* `flowInv_of_reachable` : it holds in every reachable state;
* `accepted_candidates_kept` : **no accepted candidate is lost before shutdown**.
-/

namespace AegisFlow

section

variable [Inet]

variable {e : FlowEvent} {op : CoreOp} {r : op.Reply}

namespace FlowWorld

variable {w w' : FlowWorld} {N : ℕ}

/-- A confirmed batch covers the candidate. -/
def Applied (w : FlowWorld) (c : BlacklistMutation) : Prop :=
  ∃ batch ∈ w.applied, Covered batch c

/-- The candidate does not come from one of the first `N` business tasks. -/
def Recent (N : ℕ) (e : Option ℕ × BlacklistMutation) : Prop := ∀ task ∈ e.1, N ≤ task

/-- None of the first `N` business tasks is under way. -/
def Quiet (w : FlowWorld) (N : ℕ) : Prop := ∀ task, w.pool.Inflight task → N ≤ task

/-- The accepted candidates fall into covered, reserved and queued ones; what is reserved or
queued does not come from the first `N` business tasks. -/
def Split (w : FlowWorld) (N : ℕ) : Prop :=
  ∃ covered reserved waiting, w.accepted = covered ++ reserved ++ waiting ∧
    w.queue.reservedBatch = mergeAll [] (reserved.map Prod.snd) ∧
    w.queue.queued = waiting.map Prod.snd ∧
    (∀ e ∈ covered, w.Applied e.2) ∧ ∀ e ∈ reserved ++ waiting, Recent N e

/-! ### What keeps a split -/

theorem Applied.mono {c : BlacklistMutation} (h : w.Applied c)
    (happlied : w.applied ⊆ w'.applied) : w'.Applied c := by
  obtain ⟨batch, hb, hc⟩ := h
  exact ⟨batch, happlied hb, hc⟩

section

variable (h : w.Split N)
include h

theorem Split.congr (haccepted : w'.accepted = w.accepted) (happlied : w.applied ⊆ w'.applied)
    (hqueued : w'.queue.queued = w.queue.queued)
    (hreserved : w'.queue.reservedBatch = w.queue.reservedBatch) : w'.Split N := by
  obtain ⟨covered, reserved, waiting, hacc, hres, hq, hcov, hrec⟩ := h
  exact ⟨covered, reserved, waiting, haccepted.trans hacc, hreserved.trans hres,
    hqueued.trans hq, fun e he => (hcov e he).mono happlied, hrec⟩

theorem Split.submit {source : Option ℕ} {m : BlacklistMutation} (hrecent : Recent N (source, m))
    (haccepted : w'.accepted = w.accepted ++ [(source, m)]) (happlied : w'.applied = w.applied)
    (hqueued : w'.queue.queued = w.queue.queued ++ [m])
    (hreserved : w'.queue.reservedBatch = w.queue.reservedBatch) : w'.Split N := by
  obtain ⟨covered, reserved, waiting, hacc, hres, hq, hcov, hrec⟩ := h
  refine ⟨covered, reserved, waiting ++ [(source, m)], by simp [haccepted, hacc],
    hreserved.trans hres, by simp [hqueued, hq],
    fun e he => (hcov e he).mono (by simp [happlied]), ?_⟩
  intro e he
  rw [← List.append_assoc, List.mem_append, List.mem_singleton] at he
  rcases he with he | rfl
  · exact hrec e he
  · exact hrecent

/-- Taking a batch out moves the oldest waiting candidates to the reserved ones. -/
theorem Split.reserve (n : ℕ) : { w with queue := (w.queue.reserveBatch n).2 }.Split N := by
  obtain ⟨covered, reserved, waiting, hacc, hres, hq, hcov, hrec⟩ := h
  rcases w.queue.reserveBatch_cases n with ⟨-, hsame⟩ | ⟨hempty, seg, rest, hsplit, -, hb, hr, -⟩
  · exact ⟨covered, reserved, waiting, hacc, by rw [hsame]; exact hres, by rw [hsame]; exact hq,
      hcov, hrec⟩
  · -- the reserved batch was empty, so nothing had been merged into it
    have hnil : reserved = [] := by
      have := (mergeAll_eq_nil (hres.symm.trans hempty)).2
      simpa using this
    subst hnil
    obtain ⟨moved, kept, rfl, hmoved, hkept⟩ := List.map_eq_append_iff.mp (hq.symm.trans hsplit)
    refine ⟨covered, moved, kept, by simpa using hacc, ?_, ?_, hcov, by simpa using hrec⟩
    · rw [hmoved]; exact hb
    · rw [hkept]; exact hr

/-- Acknowledging a confirmed batch makes the reserved candidates covered ones. -/
theorem Split.acknowledge (hcand : ∀ e ∈ w.accepted, isCandidate e.2 = true)
    (happlied : w.queue.reservedBatch ∈ w.applied) :
    { w with queue := w.queue.acknowledgeReserved }.Split N := by
  obtain ⟨covered, reserved, waiting, hacc, hres, hq, hcov, hrec⟩ := h
  refine ⟨covered ++ reserved, [], waiting, by simp [hacc], rfl, hq, ?_,
    fun e he => hrec e (List.mem_append_right _ (by simpa using he))⟩
  intro e he
  rcases List.mem_append.mp he with he | he
  · exact hcov e he
  · refine ⟨w.queue.reservedBatch, happlied, ?_⟩
    rw [hres]
    refine mergeAll_covers (by simp) (fun x hx => ?_) (.inr (List.mem_map_of_mem he))
    obtain ⟨e', he', rfl⟩ := List.mem_map.mp hx
    exact hcand e' (by simp [hacc, he'])

/-- An empty queue means that every accepted candidate is covered. -/
theorem Split.of_empty (hempty : w.queue.empty = true) (M : ℕ) : w.Split M := by
  obtain ⟨covered, reserved, waiting, hacc, hres, hq, hcov, -⟩ := h
  obtain ⟨hqueued, hreserved⟩ := w.queue.empty_iff.mp hempty
  have hnil : reserved = [] := by
    have := (mergeAll_eq_nil (hres.symm.trans hreserved)).2
    simpa using this
  have hwait : waiting = [] := by simpa using hq.symm.trans hqueued
  subst hnil hwait
  exact ⟨covered, [], [], hacc, hres, hq, hcov, by simp⟩

/-- A candidate that is not recent is covered by a confirmed batch. -/
theorem Split.applied {e : Option ℕ × BlacklistMutation} (he : e ∈ w.accepted)
    (hold : ¬ Recent N e) : w.Applied e.2 := by
  obtain ⟨covered, reserved, waiting, hacc, -, -, hcov, hrec⟩ := h
  rw [hacc, List.append_assoc] at he
  rcases List.mem_append.mp he with he | he
  · exact hcov e he
  · exact absurd (hrec e he) hold

/-- Every accepted candidate is covered by something that is still there. -/
theorem Split.covered (hcand : ∀ e ∈ w.accepted, isCandidate e.2 = true)
    {e : Option ℕ × BlacklistMutation} (he : e ∈ w.accepted) :
    Covered w.queue.queued e.2 ∨ Covered w.queue.reservedBatch e.2 ∨ w.Applied e.2 := by
  obtain ⟨covered, reserved, waiting, hacc, hres, hq, hcov, -⟩ := h
  have hself : Covers e.2 e.2 := .refl (hcand e he)
  rw [hacc, List.append_assoc] at he
  rcases List.mem_append.mp he with he | he
  · exact .inr (.inr (hcov e he))
  · rcases List.mem_append.mp he with he | he
    · refine .inr (.inl ?_)
      rw [hres]
      refine mergeAll_covers (by simp) (fun x hx => ?_) (.inr (List.mem_map_of_mem he))
      obtain ⟨e', he', rfl⟩ := List.mem_map.mp hx
      exact hcand e' (by simp [hacc, he'])
    · exact .inl ⟨e.2, by rw [hq]; exact List.mem_map_of_mem he, hself⟩

end

/-! ### The producers' steps -/

theorem next_submitCandidate {source : Option ℕ} {m : BlacklistMutation}
    (h : w.next (.submitCandidate source m) = some w') :
    (∀ task ∈ source, task ∈ w.pool.running) ∧ w' = w.submitted source m := by
  simp only [next, Option.ite_none_right_eq_some, Option.some.injEq] at h
  exact ⟨h.1, h.2.symm⟩

/-- What an event does to the business pool: it may add the next task. -/
theorem next_inflight (h : w.next e = some w') :
    w.taskCount ≤ w'.taskCount ∧ ∀ t, w'.pool.Inflight t →
      w.pool.Inflight t ∨ (t = w.taskCount ∧ w'.taskCount = w.taskCount + 1) := by
  cases e with
  | submitTask =>
    cases h
    refine ⟨by dsimp only; split_ifs <;> omega, fun t ht => ?_⟩
    rcases BoundedWorkerPool.inflight_trySubmit ht with ht | ⟨hacc, ht⟩
    · exact .inl ht
    · exact .inr ⟨(Option.some.inj ht).symm, if_pos hacc⟩
  | takeTask =>
    obtain ⟨pool, hp, rfl⟩ := Option.map_eq_some_iff.mp h
    exact ⟨le_rfl, fun t ht => .inl (BoundedWorkerPool.inflight_take hp ht)⟩
  | finishTask task =>
    obtain ⟨pool, hp, rfl⟩ := Option.map_eq_some_iff.mp h
    exact ⟨le_rfl, fun t ht => .inl (BoundedWorkerPool.inflight_finish hp ht)⟩
  | cancelTasks =>
    cases h
    exact ⟨le_rfl, fun t ht => .inl (BoundedWorkerPool.inflight_cancelQueued ht)⟩
  | closePool | closeQueue | discardRemaining =>
    cases h
    exact ⟨le_rfl, fun t ht => .inl ht⟩
  | submitCandidate source m =>
    obtain ⟨-, rfl⟩ := next_submitCandidate h
    exact ⟨le_rfl, fun t ht => .inl ht⟩

/-- Only the shutdown throws away the rest of the queue. -/
theorem next_discarded (h : w.next e = some w') (he : e ≠ .discardRemaining) :
    w'.discarded = w.discarded := by
  cases e with
  | submitTask | cancelTasks | closePool | closeQueue =>
    cases h
    rfl
  | takeTask | finishTask _ =>
    obtain ⟨_, -, rfl⟩ := Option.map_eq_some_iff.mp h
    rfl
  | discardRemaining => exact absurd rfl he
  | submitCandidate source m =>
    obtain ⟨-, rfl⟩ := next_submitCandidate h
    rfl

theorem Quiet.next (hq : w.Quiet N) (h : w.next e = some w') (hN : N ≤ w.taskCount) :
    w'.Quiet N := by
  intro t ht
  rcases (next_inflight h).2 t ht with ht | ⟨rfl, -⟩
  · exact hq t ht
  · exact hN

/-- What an event does to the history: it may add one accepted candidate, which then waits at
the end of the queue. -/
theorem next_cases (h : w.next e = some w') (hd : w'.discarded = false) :
    w.discarded = false ∧ w'.applied = w.applied ∧ w'.observed = w.observed ∧
    w'.queue.reservedBatch = w.queue.reservedBatch ∧ w'.queue.capacity = w.queue.capacity ∧
    ((w'.accepted = w.accepted ∧ w'.queue.queued = w.queue.queued) ∨
      ∃ source m, (∀ task ∈ source, w.pool.Inflight task) ∧ isCandidate m = true ∧
        w'.accepted = w.accepted ++ [(source, m)] ∧
        w'.queue.queued = w.queue.queued ++ [m]) := by
  cases e with
  | submitTask | cancelTasks | closePool | closeQueue =>
    cases h
    exact ⟨hd, rfl, rfl, rfl, rfl, .inl ⟨rfl, rfl⟩⟩
  | takeTask | finishTask _ =>
    obtain ⟨_, -, rfl⟩ := Option.map_eq_some_iff.mp h
    exact ⟨hd, rfl, rfl, rfl, rfl, .inl ⟨rfl, rfl⟩⟩
  | discardRemaining =>
    cases h
    exact absurd hd (by simp)
  | submitCandidate source m =>
    obtain ⟨hrun, rfl⟩ := next_submitCandidate h
    rcases w.queue.trySubmit_cases m with ⟨hacc, hc, hq, hr, hcap⟩ | ⟨hacc, hq, hr, hcap⟩
    · exact ⟨hd, rfl, rfl, hr, hcap, .inr ⟨source, m, fun t ht => .inr (hrun t ht), hc,
        by simp [submitted, hacc], hq⟩⟩
    · exact ⟨hd, rfl, rfl, hr, hcap, .inl ⟨by simp [submitted, hacc], hq⟩⟩

theorem Split.next (hs : w.Split N) (hq : w.Quiet N) (h : w.next e = some w')
    (hd : w'.discarded = false) : w'.Split N := by
  obtain ⟨-, happ, -, hres, -, ⟨hacc, hqueue⟩ | ⟨source, m, hrun, -, hacc, hqueue⟩⟩ :=
    next_cases h hd
  · exact hs.congr hacc (by simp [happ]) hqueue hres
  · exact hs.submit (fun t ht => hq t (hrun t ht)) hacc happ hqueue hres

end FlowWorld

/-! ### The invariant -/

/-- The invariant that ties the view of the core to the queue, the pool and the history, until
the rest of the queue is discarded. -/
structure FlowInv (w : FlowWorld) (v : CoreView) : Prop where
  /-- Tasks under way were accepted. -/
  tasks : ∀ t, w.pool.Inflight t → t < w.taskCount
  /-- Only upserts of entities are accepted. -/
  candidates : ∀ e ∈ w.accepted, isCandidate e.2 = true
  observed_le : w.observed ≤ w.taskCount
  /-- A batch the core takes for written was confirmed. -/
  written : v.written = true → v.batch ≠ [] ∧ v.batch ∈ w.applied
  /-- The core saw no task under way: none of those accepted by then is. -/
  quiet : v.quiet = true → w.Quiet w.observed
  batch : v.batch ≠ [] → w.queue.reservedBatch = v.batch
  split : w.Split 0
  /-- The core then saw the queue empty: only recent candidates are not covered. -/
  drained : v.drained = true → v.quiet = true ∧ w.Split w.observed

namespace FlowInv

variable {w w' : FlowWorld} {v : CoreView}

section

variable (hi : FlowInv w v)
include hi

theorem next (h : w.next e = some w') (hd : w'.discarded = false) : FlowInv w' v := by
  obtain ⟨-, happ, hobs, hres, -, hcases⟩ := FlowWorld.next_cases h hd
  obtain ⟨hcount, hinflight⟩ := FlowWorld.next_inflight h
  constructor
  case tasks =>
    intro t ht
    rcases hinflight t ht with ht | ⟨rfl, hc⟩
    · exact (hi.tasks t ht).trans_le hcount
    · omega
  case candidates =>
    rcases hcases with ⟨hacc, -⟩ | ⟨source, m, -, hm, hacc, -⟩
    · exact hacc ▸ hi.candidates
    · intro e he
      rw [hacc, List.mem_append, List.mem_singleton] at he
      rcases he with he | rfl
      · exact hi.candidates e he
      · exact hm
  case observed_le => exact hobs ▸ hi.observed_le.trans hcount
  case written => exact happ ▸ hi.written
  case quiet => exact fun hv => hobs ▸ (hi.quiet hv).next h hi.observed_le
  case batch => exact fun hv => hres.trans (hi.batch hv)
  case split => exact hi.split.next (fun _ _ => Nat.zero_le _) h hd
  case drained =>
    intro hv
    obtain ⟨hq, hs⟩ := hi.drained hv
    exact ⟨hq, hobs ▸ hs.next (hi.quiet hq) h hd⟩

/-- The reserved batch that the core is about to acknowledge was confirmed. -/
theorem reserved_mem_applied (hv : v.written = true) : w.queue.reservedBatch ∈ w.applied := by
  obtain ⟨hne, happ⟩ := hi.written hv
  rwa [hi.batch hne]

theorem split_serve {N : ℕ} (ha : v.allow op) (h : w.serve op r w') (hs : w.Split N) :
    w'.Split N := by
  cases op with
  | reserveBatch n => obtain ⟨-, rfl⟩ := h; exact hs.reserve n
  | acknowledgeReserved =>
    obtain rfl := h; exact hs.acknowledge hi.candidates (hi.reserved_mem_applied ha)
  | businessInflight | queueEmpty | takeDroppedSinceLastReport =>
    obtain ⟨-, rfl⟩ := h; exact hs.congr rfl (fun _ h => h) rfl rfl
  | applyCandidates batch =>
    obtain rfl := h
    split_ifs
    · exact hs.congr rfl (fun _ h => List.mem_append_left _ h) rfl rfl
    · exact hs
  | _ => obtain rfl := h; exact hs

theorem businessInflight {n : ℕ} (hn : n = w.pool.inflightCount) :
    FlowInv { w with observed := w.taskCount } (v.upd .businessInflight n) := by
  refine { hi with observed_le := le_rfl, quiet := fun hv t ht => ?_, drained := ?_ }
  · have hzero : w.pool.inflightCount = 0 := by simpa [CoreView.upd, hn] using hv
    exact absurd ht (BoundedWorkerPool.not_inflight_of_inflightCount_eq_zero hzero t)
  · simp [CoreView.upd]

theorem queueEmpty {b : Bool} (hb : b = w.queue.empty) : FlowInv w (v.upd .queueEmpty b) := by
  refine { hi with drained := fun hv => ?_ }
  simp only [CoreView.upd, Bool.or_eq_true, Bool.and_eq_true] at hv ⊢
  rcases hv with hv | ⟨hq, he⟩
  · exact hi.drained hv
  · exact ⟨hq, hi.split.of_empty (hb ▸ he) _⟩

/-- The operations of the core, if they are allowed, keep the invariant. -/
theorem serve (ha : v.allow op) (h : w.serve op r w') : FlowInv w' (v.upd op r) := by
  have hsplit {N : ℕ} (hs : w.Split N) : w'.Split N := hi.split_serve ha h hs
  cases op with
  | businessInflight => obtain ⟨hn, rfl⟩ := h; exact hi.businessInflight hn
  | queueEmpty => obtain ⟨hb, rfl⟩ := h; exact hi.queueEmpty hb
  | reserveBatch n =>
    obtain ⟨rfl, rfl⟩ := h
    refine { hi with
      written := by simp [CoreView.upd], batch := fun _ => ?_, split := hsplit hi.split
      drained := fun hv => (hi.drained hv).imp_right hsplit }
    rcases w.queue.reserveBatch_cases n with ⟨hb, hq⟩ | ⟨-, _, _, -, hb, hq, -⟩
    · simp only [CoreView.upd, hb, hq]
    · simp only [CoreView.upd, hb, hq]
  | acknowledgeReserved =>
    obtain rfl := h
    exact { hi with
      written := by simp [CoreView.upd], batch := by simp [CoreView.upd]
      split := hsplit hi.split, drained := fun hv => (hi.drained hv).imp_right hsplit }
  | takeDroppedSinceLastReport =>
    obtain ⟨-, rfl⟩ := h
    exact { hi with
      split := hsplit hi.split, drained := fun hv => (hi.drained hv).imp_right hsplit }
  | applyCandidates batch =>
    obtain rfl := h
    obtain ⟨hbatch, hne⟩ := ha
    split_ifs at hsplit ⊢ with hr
    · refine { hi with
        written := fun _ => ?_, split := hsplit hi.split
        drained := fun hv => (hi.drained hv).imp_right hsplit }
      simp [CoreView.upd, ← hbatch, hne]
    · exact { hi with written := by simp [CoreView.upd, hr] }
  | _ => obtain rfl := h; exact hi

end

end FlowInv

/-- The core neither discards the queue nor touches the business pool. -/
theorem FlowWorld.serve_frame {w w' : FlowWorld} (h : w.serve op r w') :
    w'.discarded = w.discarded ∧ w'.pool = w.pool ∧ w'.taskCount = w.taskCount := by
  cases op with
  | businessInflight | queueEmpty | reserveBatch _ | takeDroppedSinceLastReport =>
    obtain ⟨-, rfl⟩ := h; exact ⟨rfl, rfl, rfl⟩
  | applyCandidates batch => obtain rfl := h; split_ifs <;> exact ⟨rfl, rfl, rfl⟩
  | _ => obtain rfl := h; exact ⟨rfl, rfl, rfl⟩

variable {config : BlacklistMaintenanceConfig} {s s' : FlowState}

/-- A state of the core, its queue and its producers. -/
abbrev FlowState := PoolState CoreSig Unit CoreCall FlowWorld CoreView CoreState (Option Bool)

/-- **The invariant holds in every reachable state** before the shutdown. -/
theorem flowInv_of_reachable (h : (candidateFlow config).system.Reachable s)
    (hd : s.world.discarded = false) : FlowInv s.world (s.view ()) := by
  refine (coreContract config).invariant
    (I := fun s => s.world.discarded = false → FlowInv s.world (s.view ())) h ?_ ?_ hd
  · rintro s ⟨⟨hq, hr, hpq, hpr, hc, hacc, happ, hobs, hdis, hv⟩, -⟩ -
    rw [hv]
    refine ⟨fun t ht => ?_, by simp [hacc], by simp [hobs], by simp, by simp, by simp,
      ⟨[], [], [], by simp [hacc], hr, hq, by simp, by simp⟩, by simp⟩
    simp [BoundedWorkerPool.Inflight, hpq, hpr] at ht
  · intro s l s' _ hi hst hd
    cases hst with
    | begin => exact hi hd
    | @op i c o k r w hrun hallow hserve =>
      have hd' : s.world.discarded = false := (FlowWorld.serve_frame hserve).1 ▸ hd
      simpa [candidateFlow] using (hi hd').serve hallow hserve
    | finish => exact hi hd
    | env henv => exact (hi (FlowWorld.next_cases henv hd).1).next henv hd

/-- What was not discarded by the end was not discarded before. -/
theorem discarded_of_step {l : PoolLabel CoreSig Unit CoreCall FlowEvent (Option Bool)}
    (h : (candidateFlow config).Step s l s') (hd : s'.world.discarded = false) :
    s.world.discarded = false := by
  cases h with
  | begin | finish => exact hd
  | op hrun hserve => exact (FlowWorld.serve_frame hserve).1 ▸ hd
  | env henv => exact (FlowWorld.next_cases henv hd).1

/-! ### What the core writes -/

/-- The core is about to perform an operation. -/
def FlowState.Performs (s : FlowState) (op : CoreOp) : Prop :=
  ∃ c k, s.run () = some (c, .call op k)

theorem FlowState.Performs.allow (h : s.Performs op)
    (hr : (candidateFlow config).system.Reachable s) : (s.view ()).allow op := by
  obtain ⟨c, k, hrun⟩ := h
  exact (((coreContract config).meets_running hr ()).meets hrun).1

/-- A batch that the core writes is merged from a segment of the accepted candidates. -/
theorem batch_of_applyCandidates {N : ℕ} {batch : List BlacklistMutation}
    (hr : (candidateFlow config).system.Reachable s) (hd : s.world.discarded = false)
    (hs : s.world.Split N) (hop : s.Performs (.applyCandidates batch)) :
    ∃ segment, segment <:+: s.world.accepted ∧ batch = mergeAll [] (segment.map Prod.snd) ∧
      ∀ e ∈ segment, isCandidate e.2 = true ∧ FlowWorld.Recent N e := by
  have hi := flowInv_of_reachable hr hd
  obtain ⟨hb, hne⟩ := hop.allow hr
  obtain ⟨covered, reserved, waiting, hacc, hmerge, -, -, hrecent⟩ := hs
  refine ⟨reserved, ⟨covered, waiting, hacc.symm⟩, ?_, fun e he =>
    ⟨hi.candidates e ?_, hrecent e (List.mem_append_left _ he)⟩⟩
  · rw [hb, ← hi.batch (hb ▸ hne), hmerge]
  · rw [hacc]
    exact List.mem_append_left _ (List.mem_append_right _ he)

/-! ### First in, first out -/

/-- From `w` to `w'` the queue lost a prefix and gained what was accepted in between. -/
def FlowWorld.Fifo (w w' : FlowWorld) : Prop :=
  w'.queue.capacity = w.queue.capacity ∧ ∃ fresh, w'.accepted = w.accepted ++ fresh ∧
    w'.queue.queued <:+ w.queue.queued ++ fresh.map Prod.snd

namespace FlowWorld

variable {w w' w'' : FlowWorld}

theorem Fifo.of_eq (hcap : w'.queue.capacity = w.queue.capacity)
    (hacc : w'.accepted = w.accepted) (hq : w'.queue.queued <:+ w.queue.queued) : w.Fifo w' :=
  ⟨hcap, [], by simp [hacc], by simpa using hq⟩

theorem Fifo.trans (h : w.Fifo w') (h' : w'.Fifo w'') : w.Fifo w'' := by
  obtain ⟨hcap, fresh, hacc, left, hq⟩ := h
  obtain ⟨hcap', fresh', hacc', left', hq'⟩ := h'
  refine ⟨hcap'.trans hcap, fresh ++ fresh', by simp [hacc, hacc'], left ++ left', ?_⟩
  rw [List.append_assoc, hq', List.map_append, ← List.append_assoc, ← List.append_assoc, hq]

theorem fifo_serve (h : w.serve op r w') : w.Fifo w' := by
  cases op with
  | reserveBatch n =>
    obtain ⟨-, rfl⟩ := h
    rcases w.queue.reserveBatch_cases n with ⟨-, hq⟩ | ⟨-, seg, rest, hsplit, -, -, hq, hcap⟩
    · exact .of_eq (by rw [hq]) rfl (by rw [hq])
    · exact .of_eq hcap rfl ⟨seg, by rw [hsplit, hq]⟩
  | businessInflight | queueEmpty | takeDroppedSinceLastReport =>
    obtain ⟨-, rfl⟩ := h; exact .of_eq rfl rfl List.suffix_rfl
  | applyCandidates batch =>
    obtain rfl := h
    split_ifs <;> exact .of_eq rfl rfl List.suffix_rfl
  | _ => obtain rfl := h; exact .of_eq rfl rfl List.suffix_rfl

theorem fifo_next (h : w.next e = some w') (hd : w'.discarded = false) : w.Fifo w' := by
  obtain ⟨-, -, -, -, hcap, ⟨hacc, hq⟩ | ⟨source, m, -, -, hacc, hq⟩⟩ := next_cases h hd
  · exact .of_eq hcap hacc (by rw [hq])
  · exact ⟨hcap, [(source, m)], hacc, by rw [hq]; exact List.suffix_rfl⟩

end FlowWorld

theorem fifo_of_leads (h : (candidateFlow config).system.Reachable s)
    (hl : (candidateFlow config).system.Leads s s') (hd : s'.world.discarded = false) :
    s.world.Fifo s'.world := by
  refine hl.invariant (I := fun s' => s'.world.discarded = false → s.world.Fifo s'.world) h
    (fun _ => .of_eq rfl rfl List.suffix_rfl) ?_ hd
  intro s₁ l s₂ _ hi _ hst hd
  have hfifo := hi (discarded_of_step hst hd)
  cases hst with
  | begin | finish => exact hfifo
  | op hrun hserve => exact hfifo.trans (FlowWorld.fifo_serve hserve)
  | env henv => exact hfifo.trans (FlowWorld.fifo_next henv hd)

/-! ### The reserved batch -/

/-- Everything but an acknowledgement of the reserved batch. -/
def Unacknowledged (l : PoolLabel CoreSig Unit CoreCall FlowEvent (Option Bool)) : Prop :=
  ∀ r, l ≠ .op () .acknowledgeReserved r

theorem FlowWorld.serve_reserved {w w' : FlowWorld} (h : w.serve op r w')
    (hop : op ≠ .acknowledgeReserved) (hne : w.queue.reservedBatch ≠ []) :
    w'.queue.reservedBatch = w.queue.reservedBatch := by
  cases op with
  | reserveBatch n => obtain ⟨-, rfl⟩ := h; simp [w.queue.reserveBatch_reserved hne n]
  | acknowledgeReserved => exact absurd rfl hop
  | businessInflight | queueEmpty | takeDroppedSinceLastReport => obtain ⟨-, rfl⟩ := h; rfl
  | applyCandidates batch => obtain rfl := h; split_ifs <;> rfl
  | _ => obtain rfl := h; rfl

/-- A reserved batch stays until it is acknowledged. -/
theorem reserved_of_leadsBy (h : (candidateFlow config).system.Reachable s)
    (hl : (candidateFlow config).system.LeadsBy Unacknowledged s s')
    (hne : s.world.queue.reservedBatch ≠ []) (hd : s'.world.discarded = false) :
    s'.world.queue.reservedBatch = s.world.queue.reservedBatch := by
  refine hl.invariant (I := fun s' => s'.world.discarded = false →
    s'.world.queue.reservedBatch = s.world.queue.reservedBatch) h (fun _ => rfl) ?_ hd
  intro s₁ l s₂ _ hi hl hst hd
  have hsame := hi (discarded_of_step hst hd)
  cases hst with
  | begin | finish => exact hsame
  | @op i c o k r w hrun hserve =>
    have hop : o ≠ .acknowledgeReserved := by rintro rfl; exact hl r rfl
    exact (FlowWorld.serve_reserved hserve hop (hsame ▸ hne)).trans hsame
  | env henv =>
    obtain ⟨-, -, -, hres, -⟩ := FlowWorld.next_cases henv hd
    exact hres.trans hsame

/-- **No accepted candidate is lost before shutdown.**  In every run, up to the moment the rest
of the queue is discarded: each accepted candidate is covered by a queued candidate, by the
reserved batch or by a batch the backend confirmed; candidates leave the queue in the order
in which they were accepted; queued and reserved candidates fit the capacity; and a reserved
batch is handed out unchanged until it is acknowledged. -/
theorem accepted_candidates_kept {s s' : FlowState}
    (hr : (candidateFlow config).system.Reachable s)
    (hl : (candidateFlow config).system.Leads s s') (hd : s'.world.discarded = false) :
    (∀ e ∈ s'.world.accepted, Covered s'.world.queue.queued e.2 ∨
      Covered s'.world.queue.reservedBatch e.2 ∨ ∃ batch ∈ s'.world.applied, Covered batch e.2) ∧
    (∃ fresh, s'.world.accepted = s.world.accepted ++ fresh ∧
      s'.world.queue.queued <:+ s.world.queue.queued ++ fresh.map Prod.snd) ∧
    s'.world.queue.queued.length + s'.world.queue.reservedBatch.length ≤
      s'.world.queue.capacity ∧ s'.world.queue.capacity = s.world.queue.capacity ∧
    ((candidateFlow config).system.LeadsBy Unacknowledged s s' →
      s.world.queue.reservedBatch ≠ [] → ∀ maxBatchSize,
        s'.world.queue.reserveBatch maxBatchSize =
          (s.world.queue.reservedBatch, s'.world.queue)) := by
  have hi := flowInv_of_reachable (hr.leads hl) hd
  obtain ⟨hcap, hfifo⟩ := fifo_of_leads hr hl hd
  refine ⟨fun e he => hi.split.covered hi.candidates he, hfifo, s'.world.queue.bounded, hcap, ?_⟩
  intro hby hne n
  have hres := reserved_of_leadsBy hr hby hne hd
  rw [CandidateQueue.reserveBatch_reserved _ (hres ▸ hne), hres]

end

section Example

local instance : Inet := Inet.sample

/-- A queue for two candidates, with one idle business worker and nothing done yet. -/
def flowStart : FlowState where
  world := ⟨.fresh 2 (by decide), .empty 1 1, 0, [], [], 0, false⟩
  view _ := ⟨[], false, false, false⟩
  vars _ := ⟨false, 0, false, 0, 0⟩
  run _ := none
  ended := []

/-- Candidates for the users `u` and `v`. -/
def flowFirst : BlacklistMutation := .banUser (ascii "u") ⟨ascii "u", by decide⟩

@[inherit_doc flowFirst]
def flowSecond : BlacklistMutation := .banUser (ascii "v") ⟨ascii "v", by decide⟩

/-- A backend that can be reached and has a barrier to complete; `stored` is its reply to batches.
-/
def flowAnswer (stored : Option StoreResult) :
    (op : CoreOp) → FlowWorld → Option (op.Reply × FlowWorld)
  | .createBackend, w => some (true, w)
  | .shouldStop, w => some (false, w)
  | .businessInflight, w => some (w.pool.inflightCount, { w with observed := w.taskCount })
  | .queueEmpty, w => some (w.queue.empty, w)
  | .reserveBatch n, w => some ((w.queue.reserveBatch n).1,
      { w with queue := (w.queue.reserveBatch n).2 })
  | .acknowledgeReserved, w => some ((), { w with queue := w.queue.acknowledgeReserved })
  | .takeDroppedSinceLastReport, w => some (w.queue.takeDroppedSinceLastReport.1,
      { w with queue := w.queue.takeDroppedSinceLastReport.2 })
  | .applyCandidates batch, w => some (stored,
      if FlowWorld.confirmed stored then { w with applied := w.applied ++ [batch] } else w)
  | .readResetBarrier, w => some (some ⟨.ok, ⟨1, 0⟩⟩, w)
  | _, _ => none

theorem flowAnswer_sound {stored : Option StoreResult} (w : FlowWorld) (op : CoreOp) (r : op.Reply)
    (w' : FlowWorld) (h : flowAnswer stored op w = some (r, w')) : w.serve op r w' := by
  cases op with
  | createBackend | shouldStop | businessInflight | queueEmpty | reserveBatch | acknowledgeReserved
  | takeDroppedSinceLastReport | applyCandidates | readResetBarrier =>
    cases h
    first | exact rfl | exact ⟨rfl, rfl⟩
  | _ => cases h

/-- The configuration of the maintenance. -/
abbrev flowConfig : BlacklistMaintenanceConfig := ⟨1, 1, 1, 1, 1⟩

/-- A business task submits a candidate and ends; the core begins a round and performs `n`
operations. -/
def flowRun (n : ℕ) : FlowState :=
  (candidateFlow flowConfig).drive (flowAnswer (some ⟨.ok, some 7⟩)) () n
    ((candidateFlow flowConfig).launch () (.runRound 2 0 0)
      (Pool.stir FlowWorld.next [.submitTask, .takeTask, .submitCandidate (some 0) flowFirst,
        .finishTask 0] flowStart))

/-- What everything but the end of the queue keeps, the run keeps. -/
theorem flowRun_induct {J : FlowState → Prop} (h₀ : J flowStart)
    (hstep : ∀ s l s', l ≠ .env .discardRemaining → s.world.discarded = false → J s →
      (candidateFlow flowConfig).Step s l s' → J s') (n : ℕ) : J (flowRun n) := by
  have hkeep {s : FlowState} {l} {s' : FlowState} (hl : l ≠ .env .discardRemaining)
      (h : J s ∧ s.world.discarded = false) (hst : (candidateFlow flowConfig).Step s l s') :
      J s' ∧ s'.world.discarded = false := by
    refine ⟨hstep s l s' hl h.2 h.1 hst, ?_⟩
    cases hst with
    | begin | finish => exact h.2
    | op hrun hserve => exact (FlowWorld.serve_frame hserve).1.trans h.2
    | env henv => exact (FlowWorld.next_discarded henv fun he => hl (by rw [he])).trans h.2
  refine (Pool.drive_induct (J := fun s => J s ∧ s.world.discarded = false) flowAnswer_sound
    (fun _ _ _ _ => hkeep (by simp)) n ?_).1
  refine Pool.launch_induct (fun _ _ => hkeep (by simp)) trivial ?_
  exact Pool.stir_induct (P := candidateFlow flowConfig) (fun _ _ _ h => h)
    (fun _ v _ hv => hkeep (by rintro ⟨rfl⟩; simp at hv)) ⟨h₀, rfl⟩

theorem flowRun_reachable (n : ℕ) : (candidateFlow flowConfig).system.Reachable (flowRun n) :=
  flowRun_induct (.init ⟨⟨rfl, rfl, rfl, rfl, rfl, rfl, rfl, rfl, rfl, rfl⟩, fun _ => rfl, rfl⟩)
    (fun _ _ _ _ _ h => h.step) n

theorem flowRun_reserved : (flowRun 10).world.queue.reservedBatch = [flowFirst] := by
  decide +kernel

/-- The core has reserved the first candidate; another one is submitted, and the backend throws when
the batch is written. -/
theorem flowRun_fails : ∃ s : FlowState,
    (candidateFlow flowConfig).system.LeadsBy Unacknowledged (flowRun 10) s ∧
    s.world.discarded = false ∧ s.world.accepted = [(some 0, flowFirst), (none, flowSecond)] ∧
    s.world.queue.queued = [flowSecond] ∧ s.world.applied = [] := by
  have hsubmit : (candidateFlow flowConfig).Step (flowRun 10)
      (.env (.submitCandidate none flowSecond))
      ((flowRun 10).move ((flowRun 10).world.submitted none flowSecond)) := .env rfl
  have hfail := Pool.Step.op (P := candidateFlow flowConfig) (i := ()) (r := none)
    (s := (flowRun 10).move ((flowRun 10).world.submitted none flowSecond))
    (o := .applyCandidates [flowFirst]) rfl rfl
  refine ⟨_, .tail (.single ⟨_, fun r => by simp, hsubmit⟩) ⟨_, fun r => by simp, hfail⟩, ?_⟩
  decide +kernel

/-- The theorem for that run: the first candidate is reserved, and handed out again. -/
theorem accepted_candidates_kept_failed : ∃ s : FlowState,
    s.world.accepted = [(some 0, flowFirst), (none, flowSecond)] ∧ s.world.applied = [] ∧
    Covered s.world.queue.reservedBatch flowFirst ∧
    (s.world.queue.reserveBatch 1).1 = [flowFirst] := by
  obtain ⟨s, hl, hd, hacc, hqueued, happlied⟩ := flowRun_fails
  have hleads : (candidateFlow flowConfig).system.Leads (flowRun 10) s :=
    Relation.ReflTransGen.mono (fun _ _ ⟨l, _, hst⟩ => ⟨l, trivial, hst⟩) _ _ hl
  obtain ⟨hcov, -, -, -, hagain⟩ := accepted_candidates_kept (flowRun_reachable 10) hleads hd
  refine ⟨s, hacc, happlied, ?_, ?_⟩
  · rcases hcov (some 0, flowFirst) (by simp [hacc]) with h | h | ⟨batch, hb, -⟩
    · -- the queued candidate is about another user
      obtain ⟨m, hm, hcovers⟩ := h
      rw [hqueued, List.mem_singleton] at hm
      exact absurd (hm ▸ hcovers.id) (by decide)
    · exact h
    · simp [happlied] at hb
  · rw [hagain hl (by simp [flowRun_reserved])]
    exact flowRun_reserved

end Example

end AegisFlow
