import AegisFlow.App.CandidateCoverage
import AegisFlow.Storage.BarrierCounters

/-!
# The reset barrier

An operator who wants the blacklist cleared requests a *barrier*; the maintenance core
completes it once no business task is under way and no candidate is left, so that candidates
of earlier decisions cannot reappear in the store after the barrier.

* `applied_of_completeResetBarrier` : **when the core completes a barrier, every candidate of a
  task accepted before its last look at the business pool is covered by a confirmed batch**;
* `batch_after_completeResetBarrier` : the batches written after that consist of candidates of
  later tasks only;
* `reset_barrier_sound` : **the counters in the store stay in order, and a completed barrier
  separates the candidates of earlier tasks from all later writes**.

On shutdown the rest of the queue is thrown away, but only when the maintenance worker has ended
(`ShutdownLast`), so no barrier is completed after that.
-/

namespace AegisFlow

section

variable [Inet] {config : BlacklistMaintenanceConfig} {s s' : FlowState}

section

variable (hr : (candidateFlow config).system.Reachable s)
include hr

theorem split_of_completeResetBarrier {token : ℕ} (hd : s.world.discarded = false)
    (hop : s.Performs (.completeResetBarrier token)) :
    s.world.Split s.world.observed ∧ s.world.Quiet s.world.observed := by
  have hi := flowInv_of_reachable hr hd
  obtain ⟨hquiet, hsplit⟩ := hi.drained (hop.allow hr)
  exact ⟨hsplit, hi.quiet hquiet⟩

/-- When the core completes a barrier, the candidates of all tasks that had been accepted when
it last asked for their number are covered by confirmed batches. -/
theorem applied_of_completeResetBarrier {token : ℕ} (hd : s.world.discarded = false)
    (hop : s.Performs (.completeResetBarrier token)) {task : ℕ} {m : BlacklistMutation}
    (hm : (some task, m) ∈ s.world.accepted) (ht : task < s.world.observed) :
    s.world.Applied m := by
  refine (split_of_completeResetBarrier hr hd hop).1.applied hm fun hrecent => ?_
  have := hrecent task rfl
  omega

/-- From a quiet moment on, only candidates of later tasks are reserved or queued. -/
theorem split_of_leads {N : ℕ} (hl : (candidateFlow config).system.Leads s s')
    (hd : s'.world.discarded = false) (hs : s.world.Split N) (hq : s.world.Quiet N)
    (hN : N ≤ s.world.taskCount) : s'.world.Split N := by
  refine (hl.invariant (I := fun s => s.world.discarded = false →
    s.world.Split N ∧ s.world.Quiet N ∧ N ≤ s.world.taskCount) hr (fun _ => ⟨hs, hq, hN⟩) ?_ hd).1
  intro s₁ l s₂ hr hi _ hst hd
  have hd' := discarded_of_step hst hd
  obtain ⟨hs, hq, hN⟩ := hi hd'
  cases (coreContract config).lawful hr hst with
  | begin | finish => exact ⟨hs, hq, hN⟩
  | op hrun hallow hserve =>
    obtain ⟨-, hpool, hcount⟩ := FlowWorld.serve_frame hserve
    exact ⟨(flowInv_of_reachable hr hd').split_serve hallow hserve hs,
      fun t ht => hq t (hpool ▸ ht), hN.trans_eq hcount.symm⟩
  | env henv =>
    exact ⟨hs.next hq henv hd, hq.next henv hN, hN.trans (FlowWorld.next_inflight henv).1⟩

/-- A batch that the core writes after it completed a barrier is merged from candidates of
tasks accepted after its last look at the business pool before the barrier. -/
theorem batch_after_completeResetBarrier {token : ℕ} {batch : List BlacklistMutation}
    (hop : s.Performs (.completeResetBarrier token)) (hl : (candidateFlow config).system.Leads s s')
    (hd : s'.world.discarded = false) (hop' : s'.Performs (.applyCandidates batch)) :
    ∃ segment, segment <:+: s'.world.accepted ∧ batch = mergeAll [] (segment.map Prod.snd) ∧
      ∀ e ∈ segment, FlowWorld.Recent s.world.observed e := by
  have hd₀ : s.world.discarded = false :=
    hl.invariant (I := fun s' => s'.world.discarded = false → s.world.discarded = false) hr
      (fun hd => hd) (fun _ _ _ _ hi _ hst hd => hi (discarded_of_step hst hd)) hd
  obtain ⟨hs, hq⟩ := split_of_completeResetBarrier hr hd₀ hop
  have hs' := split_of_leads hr hl hd hs hq (flowInv_of_reachable hr hd₀).observed_le
  obtain ⟨segment, hinfix, hbatch, hsegment⟩ := batch_of_applyCandidates (hr.leads hl) hd hs' hop'
  exact ⟨segment, hinfix, hbatch, fun e he => (hsegment e he).2⟩

end

/-! ### Shutdown -/

/-- The rest of the queue is thrown away between calls of the core, and no call follows. -/
def ShutdownLast (s : FlowState) :
    PoolLabel CoreSig Unit CoreCall FlowEvent (Option Bool) → Prop
  | .env .discardRemaining => s.run () = none
  | .begin _ _ => s.world.discarded = false
  | _ => True

/-- Business tasks, the maintenance worker and an orderly shutdown. -/
abbrev orderlyFlow (config : BlacklistMaintenanceConfig) :=
  (candidateFlow config).system.restrict ShutdownLast

/-- While the core runs a call, nothing was thrown away. -/
theorem discarded_of_run (hr : (orderlyFlow config).Reachable s) (hrun : s.run () ≠ none) :
    s.world.discarded = false := by
  refine hr.invariant (I := fun s => s.run () ≠ none → s.world.discarded = false) ?_ ?_ hrun
  · rintro s ⟨-, hnone, -⟩ hrun
    exact absurd (hnone ()) hrun
  · rintro s l s' - hi ⟨hst, hlast⟩ hrun
    cases hst with
    | begin => exact hlast
    | op hrun' hserve =>
      rw [PoolState.answer_world, (FlowWorld.serve_frame hserve).1]
      exact hi (by simp [hrun'])
    | finish => simp at hrun
    | @env e w henv =>
      have hd := hi hrun
      cases e with
      | discardRemaining => exact absurd hlast hrun
      | _ => exact (FlowWorld.next_discarded henv (by simp)).trans hd

theorem FlowState.Performs.run_ne {op : CoreOp} (h : s.Performs op) : s.run () ≠ none := by
  obtain ⟨c, k, hrun⟩ := h
  simp [hrun]

/-- **The reset barrier is sound.**  Whatever the clients of the store do, the counters stay in
order and none decreases.  When the core completes a barrier, the candidates of all tasks that the
business pool had accepted before the core last asked for their number are covered by confirmed
batches, and the batches written from then on are merged from candidates of later tasks only. -/
theorem reset_barrier_sound {ι : Type} [DecidableEq ι] (config : BlacklistMaintenanceConfig) :
    (∀ s s' : StorePoolState ι, (storePool ι).system.Reachable s →
      (storePool ι).system.Leads s s' → ∀ requested completed,
        BarrierAt (dbOf s) requested completed →
          ∃ requested' completed', requested ≤ requested' ∧ completed ≤ completed' ∧
            BarrierAt (dbOf s') requested' completed') ∧
    (∀ s : FlowState, (orderlyFlow config).Reachable s →
      ∀ token, s.Performs (.completeResetBarrier token) →
        (∀ task m, (some task, m) ∈ s.world.accepted → task < s.world.observed →
          s.world.Applied m) ∧
        ∀ s' : FlowState, (orderlyFlow config).Leads s s' →
          ∀ batch, s'.Performs (.applyCandidates batch) →
            ∃ segment, segment <:+: s'.world.accepted ∧
              batch = mergeAll [] (segment.map Prod.snd) ∧
              ∀ e ∈ segment, FlowWorld.Recent s.world.observed e) := by
  refine ⟨fun s s' hr hl requested completed hat => barrier_of_leads hr hl hat,
    fun s hr token hop => ⟨fun task m hm ht => ?_, fun s' hl batch hop' => ?_⟩⟩
  · exact applied_of_completeResetBarrier hr.of_restrict (discarded_of_run hr hop.run_ne) hop hm ht
  · exact batch_after_completeResetBarrier hr.of_restrict hop hl.of_restrict
      (discarded_of_run (hr.leads hl) hop'.run_ne) hop'

end

section Example

local instance barrierInet : Inet := Inet.sample

/-- A run without shutdown is orderly. -/
theorem flowRun_orderly (n : ℕ) : (orderlyFlow flowConfig).Reachable (flowRun n) := by
  refine flowRun_induct (.init ⟨⟨rfl, rfl, rfl, rfl, rfl, rfl, rfl, rfl, rfl, rfl⟩,
    fun _ => rfl, rfl⟩)
    (fun s l s' hl hd h hst => h.step ⟨hst, ?_⟩) n
  cases l with
  | begin => exact hd
  | env event =>
    cases event with
    | discardRemaining => exact absurd rfl hl
    | _ => trivial
  | _ => trivial

/-- The core has written the candidate of the task and is about to complete the barrier. -/
theorem flowRun_performs : (flowRun 16).Performs (.completeResetBarrier 1) :=
  have ⟨k, hrun⟩ := PoolState.run_of_upcoming (s := flowRun 16) (i := ())
    (c := .runRound 2 0 0) (o := .completeResetBarrier 1) rfl
  ⟨_, k, hrun⟩

/-- A client asked for a barrier. -/
def barrierAsked : StorePoolState Unit := perform () .requestResetBarrier 1 (poolAt readyDb)

/-- The same client completes it. -/
def barrierCompleted : StorePoolState Unit :=
  perform () (.completeResetBarrier 1) 20 (Pool.conclude () barrierAsked)

/-- The theorem for these runs: a barrier is asked for and completed, and the candidate of the task
that was accepted before is in a batch that the backend confirmed. -/
theorem reset_barrier_sound_flushed :
    (BarrierAt (dbOf barrierAsked) 1 0 ∧ ∃ requested completed, 1 ≤ requested ∧ completed = 1 ∧
      BarrierAt (dbOf barrierCompleted) requested completed) ∧
    (orderlyFlow flowConfig).Reachable (flowRun 16) ∧
    (flowRun 16).Performs (.completeResetBarrier 1) ∧
    (flowRun 16).world.accepted = [(some 0, flowFirst)] ∧ (flowRun 16).world.observed = 1 ∧
    (flowRun 16).world.Applied flowFirst := by
  obtain ⟨hcounters, hcovered⟩ := reset_barrier_sound (ι := Unit) flowConfig
  have hr : (storePool Unit).system.Reachable barrierAsked :=
    (poolAt_reachable _).leads (leads_perform ..)
  have hl : (storePool Unit).system.Leads barrierAsked barrierCompleted :=
    (Pool.leads_conclude () _).trans (leads_perform ..)
  have hasked : BarrierAt (dbOf barrierAsked) 1 0 := ⟨by rfl, by rfl, by decide⟩
  obtain ⟨requested, completed, hrequested, -, hat⟩ := hcounters _ _ hr hl 1 0 hasked
  have hdone : (dbOf barrierCompleted).barrierCounter (ascii "completed") = some 1 := by rfl
  have haccepted : (flowRun 16).world.accepted = [(some 0, flowFirst)] := by decide +kernel
  have hobserved : (flowRun 16).world.observed = 1 := by decide +kernel
  refine ⟨⟨hasked, requested, completed, hrequested, ?_, hat⟩, flowRun_orderly 16, flowRun_performs,
    haccepted, hobserved, ?_⟩
  · exact Option.some.inj (hat.done.symm.trans hdone)
  · refine (hcovered _ (flowRun_orderly 16) 1 flowRun_performs).1 0 flowFirst ?_ ?_
    · rw [haccepted]
      exact List.mem_cons_self
    · rw [hobserved]
      exact Nat.zero_lt_one

end Example

end AegisFlow
