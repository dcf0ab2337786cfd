import AegisFlow.Interaction.Drive
import AegisFlow.Net.DeadlineWorld

/-!
# No deadline is lost

The loop makes its calls, interleaved at every operation with the timer thread and the other
clients of the timer.

* `deadlinePool` : the loop, the timer thread and the other clients;
* `deadlineContract` : what the loop promises: its books are in order between two calls, until it
  is shut down with no session left;
* `deadline_never_lost` : **whenever the loop is between two calls, every active deadline is
  reserved, held by the timer thread, posted, or dropped with a scan asked for, and no session
  waits for an event that the loop has taken or scanned for**.
-/

namespace AegisFlow

/-- What the loop does. -/
inductive DeadlineCall
  | handle (handler : LoopHandler) (fuel : ℕ)
  /-- Serve the timeout mailbox. -/
  | serveTimeouts (fuel : ℕ)
  | shutdown

/-- The code of a call.  A loop that cannot serve its mailbox is shut down. -/
def DeadlineCall.code (config : EventLoopConfig) : DeadlineCall → Loop Unit
  | .handle handler fuel => handler.code config fuel
  | .serveTimeouts fuel => do
    if ← EventLoop.drainTimeoutMailbox config fuel then pure () else EventLoop.forceShutdown
  | .shutdown => EventLoop.forceShutdown

/-- The loop, the timer thread and the other clients.  The timer is configured and running, and
the mailbox can hold events. -/
def deadlinePool (config : EventLoopConfig) :
    Pool LoopSig Unit DeadlineCall DeadlineEvent DeadlineWorld DeadlineView LoopState Unit where
  init w v st := (∃ timerConfig, TimerCore.validConfig timerConfig = true ∧
      w.timer = { core := (({} : TimerCore DeadlineSink).init timerConfig false).2 }) ∧
    (∃ capacity, 0 < capacity ∧ w.mailbox = { capacity }) ∧ w.popped = [] ∧ w.dropped = [] ∧
    w.scanned = [] ∧ (∀ i, v i = {}) ∧ ∀ i, st i = {}
  may _ _ := True
  code := DeadlineCall.code config
  serve _ := DeadlineWorld.Serve
  env := DeadlineWorld.Env
  enter _ v := v
  upd := DeadlineView.upd

/-! ### Shutting down -/

/-- The loop is shut down: no session is left, and none is let in. -/
structure Shut (st : LoopState) : Prop where
  stopped : st.stopped = true
  sessions : ∀ fd : ℤ, st.sessions[fd]? = none
  unmapped : ∀ g : ℕ, st.eventToFd[g]? = none

/-- What a loop may do with its timers, including to close the mailbox. -/
def DeadlineView.mayClose (v : DeadlineView) (op : LoopOp) : Prop :=
  v.allow op ∨ op = .closeMailboxes

/-- A mailbox that was closed stays closed. -/
theorem DeadlineView.isOpen_upd_false {v : DeadlineView} (h : v.isOpen = false) (op : LoopOp)
    (r : op.Reply) : (v.upd op r).isOpen = false := by
  cases op with
  | scheduleAt deadline event => cases r <;> exact h
  | popTimeout => cases r <;> exact h
  | takeRescanRequest => cases r <;> exact h
  | closeMailboxes => rfl
  | _ => exact h

namespace EventLoop

variable {config : EventLoopConfig} {v : DeadlineView} {st : LoopState} {α : Type}

/-- The procedure does what a loop may do, shutting down included, and ends with `R`. -/
abbrev KeepsOrShuts (R : DeadlineView → LoopState → α → Prop) (v : DeadlineView)
    (st : LoopState) (m : Loop α) : Prop :=
  Proc.Ensures (E := LoopSig) DeadlineView.upd DeadlineView.mayClose R v st m

/-- A procedure of a loop with a closed mailbox. -/
theorem keepsOrShuts_of_keeps {R : DeadlineView → LoopState → α → Prop} {m : Loop α}
    (h : Keeps R v st m) :
    KeepsOrShuts (fun v' st' a => R v' st' a ∧ v'.isOpen = v.isOpen) v st m :=
  (h.invariant (I := fun v' => v'.isOpen = v.isOpen)
    (fun _ _ r hallow hopen => (DeadlineView.isOpen_upd hallow r).trans hopen) rfl).allow
    fun _ _ => .inl

/-- **Shutting down closes every session.** -/
theorem forceShutdown_shuts (h : Books config [] ∅ v.close st) :
    KeepsOrShuts (fun v' st' _ => v'.isOpen = false ∧ Shut st') v st forceShutdown := by
  have hclosed : Books config [] ∅ v.close { st with routerBound := false } :=
    h.congr (fun _ => rfl) (fun _ => rfl) rfl rfl
  unfold forceShutdown
  refine .get (.ite (fun hstopped => ?_) fun _ => ?_)
  · simp [h.table.running] at hstopped
  refine .modify (.call (.inr rfl) fun n => ?_)
  refine (Proc.Ensures.forEach (I := fun v' st' => v' = v.close ∧
    st' = { st with routerBound := false }) (fun _ v' st' hsame => ?_) _ ⟨rfl, rfl⟩).bind ?_
  · refine (keepsOrShuts_of_keeps (show Keeps _ _ _ (Proc.perform (E := LoopSig)
      .releaseConnection) from keeps_timerless trivial)).mono ?_
    rintro v₁ st₁ - ⟨⟨rfl, rfl⟩, -⟩
    exact hsame
  rintro v₁ st₁ - ⟨rfl, rfl⟩
  refine .get ?_
  -- what is left of the list has every session that is left
  refine (Proc.Ensures.forEach_rest (I := fun fds v st => Books config [] ∅ v st ∧
    v.isOpen = false ∧ ∀ fd : ℤ, st.sessions[fd]? ≠ none → fd ∈ fds)
    (fun fd fds v st ⟨hbooks, hclosed, hrest⟩ => ?_) _ ⟨hclosed, rfl, fun fd hfd => ?_⟩).bind ?_
  · refine (keepsOrShuts_of_keeps (closeSession_removes (hbooks.mono (Set.empty_subset {fd}))
      .localShutdown true)).mono fun v' st' _ ⟨⟨h', hremoved⟩, hopen⟩ =>
        ⟨h', hopen.trans hclosed, fun fd' hfd' => ?_⟩
    rw [hremoved] at hfd'
    split at hfd'
    · exact absurd rfl hfd'
    · rename_i hne
      exact (List.mem_cons.mp (hrest fd' hfd')).resolve_left (Ne.symm hne)
  · rw [Std.TreeMap.mem_keys]
    simpa using hfd
  rintro v₂ st₂ - ⟨hbooks, hclosed, hnone⟩
  have hsessions (fd : ℤ) : st₂.sessions[fd]? = none := by
    by_contra hfd
    simpa using hnone fd hfd
  refine .get ?_
  have hepoll : KeepsOrShuts (fun v' st' _ => v'.isOpen = false ∧ st' = st₂) v₂ st₂
      (Proc.when st₂.epollOpen (Proc.perform (E := LoopSig) .closeEpoll)) := by
    refine .when (fun _ => ?_) fun _ => ⟨hclosed, rfl⟩
    refine (keepsOrShuts_of_keeps (show Keeps _ _ _ (Proc.perform (E := LoopSig) .closeEpoll) from
      keeps_timerless trivial)).mono ?_
    rintro v' st' - ⟨⟨rfl, rfl⟩, -⟩
    exact ⟨hclosed, rfl⟩
  refine hepoll.bind ?_
  rintro v₃ st₃ - ⟨hclosed, rfl⟩
  refine .set ⟨hclosed, rfl, hsessions, fun g => ?_⟩
  by_contra hg
  obtain ⟨fd, hfd⟩ := Option.ne_none_iff_exists'.mp hg
  obtain ⟨e, he, -⟩ := (hbooks.table.mapped g fd).mp hfd
  exact absurd (he.symm.trans (hsessions fd)) (by simp)

/-! ### After the shutdown -/

/-- The procedure does nothing to a loop that is shut down. -/
def Idles (m : Loop α) : Prop := ∀ v st, Shut st → KeepsOrShuts (fun _ st' _ => Shut st') v st m

theorem idles_timerless_bind {op : LoopOp} (hop : Timerless op) {f : op.Reply → Loop α}
    (h : ∀ r, Idles (f r)) : Idles (Proc.perform (E := LoopSig) op >>= f) := fun _ _ hst =>
  .call (.inl (allow_timerless hop)) fun r => h r _ _ hst

theorem idles_pure (a : α) : Idles (pure a) := fun _ _ hst => .ret hst

/-- No session is found. -/
theorem idles_find_bind {fd : ℤ} {f : Option SessionEntry → Loop α} (h : Idles (f none)) :
    Idles (find fd >>= f) := fun v st hst => ensures_find_bind.mpr (by
  rw [hst.sessions]
  exact h v st hst)

theorem adopt_idles (fd : ℤ) : Idles (adopt config fd) := fun v st hst => by
  unfold adopt
  refine .get (.ite (fun _ => ?_) fun hrunning => ?_)
  · have hclose : KeepsOrShuts (fun _ st' _ => Shut st') v st
        (Proc.when (decide (0 ≤ fd)) (Proc.perform (E := LoopSig) (.closeSocket fd))) := by
      refine .when (fun _ => ?_) fun _ => hst
      refine (keepsOrShuts_of_keeps (show Keeps _ _ _ (Proc.perform (E := LoopSig)
        (.closeSocket fd)) from keeps_timerless trivial)).mono ?_
      rintro v' st' - ⟨⟨rfl, rfl⟩, -⟩
      exact hst
    exact hclose.bind fun _ _ _ hst => .ret hst
  · exact absurd hst.stopped hrunning

theorem handleSocketEvent_idles (fuel generation : ℕ) (events : EpollEvents) :
    Idles (handleSocketEvent config fuel generation events) := fun v st hst => by
  unfold handleSocketEvent
  refine .get ?_
  rw [hst.unmapped]
  exact .ret hst

theorem handleTimeoutEvent_idles (fuel : ℕ) (event : TimerEvent) :
    Idles (handleTimeoutEvent config fuel event) := idles_find_bind (idles_pure ())

theorem applyGracefulDrain_idles (fuel : ℕ) : Idles (applyGracefulDrain config fuel) := by
  refine idles_timerless_bind (by trivial) fun drained v st hst => .ite
    (fun _ => .get ?_) fun _ => .ret hst
  exact Proc.Ensures.forEach (I := fun _ st => Shut st)
    (fun fd => idles_find_bind (idles_pure ())) _ hst

theorem drainTimeouts_idles (fuel : ℕ) : Idles (drainTimeouts config fuel) := by
  induction fuel with
  | zero => exact fun v st _ => ensures_diverge fun _ => .inl trivial
  | succ fuel ih =>
    unfold drainTimeouts
    refine fun v st hst => .call (.inl trivial) fun r => ?_
    cases r with
    | none => exact .ret hst
    | some event =>
      exact (handleTimeoutEvent_idles fuel event _ st hst).bind fun v' st' _ h => ih v' st' h

theorem drainTimeoutMailbox_idles (fuel : ℕ) : Idles (drainTimeoutMailbox config fuel) := by
  unfold drainTimeoutMailbox
  refine fun v st hst => .ite (fun _ => .ret hst) fun _ => ?_
  refine idles_timerless_bind (by trivial) (fun awake v st hst => ?_) v st hst
  refine .ite (fun _ => ?_) fun _ => .ret hst
  refine (drainTimeouts_idles fuel v st hst).bind fun v₁ st₁ _ h₁ =>
    .call (.inl trivial) fun rescan => .ite (fun _ => ?_) fun _ => .ret h₁
  refine idles_timerless_bind (by trivial) (fun full v st hst => ?_) _ st₁ h₁
  refine .ite (fun _ => .ret hst) fun _ =>
    .call (.inl trivial) fun now => .get ?_
  exact (Proc.Ensures.forEach (I := fun _ st => Shut st)
    (fun event => handleTimeoutEvent_idles fuel event) _ hst).bind fun _ _ _ h =>
      .ret h

theorem forceShutdown_idles : Idles forceShutdown := fun v st hst => by
  unfold forceShutdown
  refine .get (.ite (fun _ => .ret hst) fun _ => .modify (.call (.inr rfl) fun n => ?_))
  have hrelease : Idles (Proc.perform (E := LoopSig) .releaseConnection) := fun v st hst =>
    Proc.Ensures.perform (.inl (allow_timerless (by trivial))) fun _ => hst
  have hepoll : Idles (Proc.perform (E := LoopSig) .closeEpoll) := fun v st hst =>
    Proc.Ensures.perform (.inl (allow_timerless (by trivial))) fun _ => hst
  have hunbound : Shut { st with routerBound := false } := ⟨hst.stopped, hst.sessions, hst.unmapped⟩
  refine (Proc.Ensures.forEach (I := fun _ st => Shut st) (fun _ => hrelease) _ hunbound).bind
    fun v₁ st₁ _ h₁ => .get ?_
  refine (Proc.Ensures.forEach (I := fun _ st => Shut st)
    (fun fd => idles_find_bind (idles_pure ())) _ h₁).bind fun v₂ st₂ _ h₂ =>
      .get ?_
  exact (Proc.Ensures.when (fun _ => hepoll v₂ st₂ h₂) fun _ => h₂).bind fun v₃ st₃ _ h₃ =>
    .set ⟨rfl, h₃.sessions, h₃.unmapped⟩

end EventLoop

theorem DeadlineCall.code_idles (config : EventLoopConfig) (call : DeadlineCall) :
    EventLoop.Idles (call.code config) := by
  cases call with
  | handle handler fuel =>
    cases handler with
    | adopt fd =>
      exact fun v st hst => (EventLoop.adopt_idles fd v st hst).bind fun _ _ _ h =>
        .ret h
    | socketEvent generation events => exact EventLoop.handleSocketEvent_idles fuel _ _
    | applyCompletion completion => exact EventLoop.idles_find_bind (EventLoop.idles_pure ())
    | timeout event => exact EventLoop.handleTimeoutEvent_idles fuel event
    | gracefulDrain => exact EventLoop.applyGracefulDrain_idles fuel
  | serveTimeouts fuel =>
    exact fun v st hst => (EventLoop.drainTimeoutMailbox_idles fuel v st hst).bind
      fun v' st' _ h => .ite (fun _ => .ret h) fun _ => EventLoop.forceShutdown_idles v' st' h
  | shutdown => exact EventLoop.forceShutdown_idles

/-! ### The contract of the loop -/

/-- The loop between two calls: its books are in order, or it is shut down. -/
def DeadlineIdle (config : EventLoopConfig) (v : DeadlineView) (st : LoopState) : Prop :=
  (v.isOpen = true ∧ Books config [] ∅ v st) ∨ (v.isOpen = false ∧ Shut st)

theorem DeadlineCall.code_keeps {config : EventLoopConfig} {v : DeadlineView} {st : LoopState}
    (h : DeadlineIdle config v st) (call : DeadlineCall) :
    EventLoop.KeepsOrShuts (fun v' st' _ => DeadlineIdle config v' st') v st
      (call.code config) := by
  rcases h with ⟨hopen, hbooks⟩ | ⟨hclosed, hshut⟩
  · have hclose {v : DeadlineView} {st : LoopState} (h : Books config [] ∅ v st) :
        Books config [] ∅ v.close st :=
      ⟨h.table, ⟨h.numbered.old, h.numbered.past, h.numbered.own⟩, fun hv => hv.elim, h.entries⟩
    cases call with
    | handle handler fuel =>
      exact (EventLoop.keepsOrShuts_of_keeps (handler.code_keeps hbooks fuel)).mono
        fun v' st' _ ⟨h', hsame⟩ => .inl ⟨hsame.trans hopen, h'⟩
    | serveTimeouts fuel =>
      refine (EventLoop.keepsOrShuts_of_keeps
        (EventLoop.drainTimeoutMailbox_keeps fuel hbooks)).bind fun v' st' ok ⟨h', hsame⟩ =>
          .ite (fun hok => .ret ?_) fun hok => ?_
      · rw [if_pos hok] at h'
        exact .inl ⟨hsame.trans hopen, h'⟩
      · rw [if_neg hok] at h'
        exact (EventLoop.forceShutdown_shuts h').mono fun _ _ _ => .inr
    | shutdown => exact (EventLoop.forceShutdown_shuts (hclose hbooks)).mono fun _ _ _ => .inr
  · exact ((call.code_idles config v st hshut).invariant (I := fun v => v.isOpen = false)
      (fun _ op r _ hclosed => DeadlineView.isOpen_upd_false hclosed op r) hclosed).mono
      fun _ _ _ ⟨hshut, hclosed⟩ => .inr ⟨hclosed, hshut⟩

/-- The loop keeps its books until it is shut down. -/
def deadlineContract (config : EventLoopConfig) : Contract (deadlinePool config) where
  idle := DeadlineIdle config
  allow := DeadlineView.mayClose
  post _ _ _ _ := True
  init_idle hinit i := by
    obtain ⟨-, -, -, -, -, hv, hst⟩ := hinit
    rw [hv, hst]
    exact .inl ⟨rfl, books_init config⟩
  meets _ hidle := by
    refine Proc.Meets.mono (DeadlineCall.code_keeps hidle _) ?_
    rintro v st a ⟨b, -, h⟩
    exact ⟨h, trivial⟩

/-! ### Runs -/

/-- In every run the timer runs, and no timer is lost while the mailbox is open. -/
theorem linked_of_reachable {config : EventLoopConfig}
    {s : PoolState LoopSig Unit DeadlineCall DeadlineWorld DeadlineView LoopState Unit}
    (h : (deadlinePool config).system.Reachable s) :
    TimerRuns s.world ∧ ((s.view ()).isOpen = true → Linked (s.view ()) s.world) := by
  refine (deadlineContract config).invariant (I := fun s => TimerRuns s.world ∧
    ((s.view ()).isOpen = true → Linked (s.view ()) s.world)) h (fun s hinit => ?_)
    fun s l s' _ ⟨hruns, hlinked⟩ hst => ?_
  · obtain ⟨⟨⟨timerConfig, hconfig, htimer⟩, ⟨capacity, -, hmailbox⟩, hpopped, hdropped, hscanned,
      hv, -⟩, -⟩ := hinit
    have hstep : TimerState.Step ({} : TimerState DeadlineSink) (.init timerConfig false)
        s.world.timer := htimer ▸ .init _ _ _
    refine ⟨⟨.step (.init rfl) hstep, ?_, ?_, ?_⟩, fun _ => ?_⟩
    · intro hmem
      rcases TimerState.stop_of_step hstep hmem with hmem | ⟨_, hl⟩
      · simp at hmem
      · cases hl
    · intro now hnow
      simp [htimer, TimerState.reading] at hnow
    · simp [htimer]
    · rw [hv]
      refine ⟨trivial, by simp [hmailbox], by simp, by simp, by simp [htimer], by simp [htimer],
        by simp [hmailbox, hpopped, hdropped, hscanned], by simp [hdropped],
        by simp, by simp, by simp⟩
  · cases hst with
    | begin hrun hmay hidle => exact ⟨hruns, by simpa [deadlinePool] using hlinked⟩
    | @op _ c o k r w hrun hallow hserve =>
      refine ⟨hruns.serve hserve, fun hopen => ?_⟩
      simp only [PoolState.answer_view, Function.update_self] at hopen ⊢
      have hwas : (s.view ()).isOpen = true := by
        by_contra hclosed
        rw [Bool.not_eq_true] at hclosed
        exact absurd (hopen.symm.trans (DeadlineView.isOpen_upd_false hclosed o r)) (by simp)
      rcases hallow with hallow | rfl
      · exact (hlinked hwas).serve hruns hallow hserve
      · cases hopen
    | finish hrun hidle hpost => exact ⟨hruns, hlinked⟩
    | env henv => exact ⟨hruns.env henv, fun hopen => (hlinked hopen).env hruns henv⟩

/-- **No deadline is lost.**  Whenever the loop is between two calls, every session has an active
deadline; its timer is reserved, held by the timer thread, posted, or was dropped with a scan asked
for; and events of the session that the loop has taken, or that were dropped before the loop took a
request for a scan, have lower sequence numbers. -/
theorem deadline_never_lost {config : EventLoopConfig}
    {s : PoolState LoopSig Unit DeadlineCall DeadlineWorld DeadlineView LoopState Unit}
    (h : (deadlinePool config).system.Reachable s) (hrun : s.run () = none)
    (henabled : config.deadlines.enabled = true) {fd : ℤ} {e : SessionEntry}
    (he : (s.vars ()).sessions[fd]? = some e) :
    e.deadlineActive = true ∧ Located s.world e.timer ∧
    ∀ event, event ∈ s.world.popped ∨ event ∈ s.world.scanned →
      event.targetGeneration = e.session.token.generation →
      event.targetSequence < e.deadlineSequence := by
  obtain ⟨hruns, hlinked⟩ := linked_of_reachable h
  rcases ((deadlineContract config).meets_running h ()).idle hrun with
    ⟨hopen, hbooks⟩ | ⟨-, hshut⟩
  · have hlink := hlinked hopen
    obtain ⟨hactive, -⟩ := (hbooks.entries fd e (Set.notMem_empty fd) he).deadline henabled
    have hmem : e.timer ∈ (s.view ()).armed :=
      ((hbooks.tracks hlink.honest).armed fd e he hactive).resolve_right fun hdue => by
        simpa using hdue.2
    obtain ⟨hlocated, hpopped, hscanned⟩ := hlink.armed _ hmem
    refine ⟨hactive, hlocated, fun event hevent hg => ?_⟩
    have hposted : PostedHere s.world event := hlink.posted event (.inr (.inr hevent))
    have hold := hlink.event_of_posted hruns hposted
    refine lt_of_le_of_ne (hbooks.numbered.past event hold fd e he hg) fun hsame => ?_
    -- an event with this number is the one the session waits for
    obtain rfl := hbooks.numbered.own event hold fd e he hactive hg hsame
    exact hevent.elim hpopped hscanned
  · exact absurd (he.symm.trans (hshut.sessions fd)) (by simp)

/-! ### A run -/

namespace DeadlineWorld

/-- One way the operations of the loop are answered; `reply` is what the kernel says. -/
def answer (reply : (op : LoopOp) → Option op.Reply) :
    (op : LoopOp) → DeadlineWorld → Option (op.Reply × DeadlineWorld)
  | .now, w => some (w.clock, w)
  | .scheduleAt deadline event, w =>
    let (status, id, _) := w.timer.core.scheduleAt deadline .mailbox false event false
    some (if status = .ok then some id else none,
      { w with timer := w.timer.scheduled deadline .mailbox false event false })
  | .cancelTimer id, w => some ((), { w with timer := w.timer.cancelledBy id })
  | .popTimeout, w => some (w.mailbox.tryPop.1, { w with
      mailbox := w.mailbox.tryPop.2, popped := w.popped ++ w.mailbox.tryPop.1.toList })
  | .takeRescanRequest, w => some (w.mailbox.takeRescanRequest.1, { w with
      mailbox := w.mailbox.takeRescanRequest.2
      dropped := if w.mailbox.takeRescanRequest.1 then [] else w.dropped
      scanned := if w.mailbox.takeRescanRequest.1 then w.scanned ++ w.dropped else w.scanned })
  | .closeMailboxes, _ => none
  | .drainWakeSignal mailbox, w => if mailbox = .timeout then some (true, w) else none
  | op, w => (reply op).map (·, w)

theorem answer_sound (reply : (op : LoopOp) → Option op.Reply) (w : DeadlineWorld) (op : LoopOp)
    (r : op.Reply) (w' : DeadlineWorld) (h : answer reply op w = some (r, w')) :
    w.Serve op r w' := by
  cases op with
  | now =>
    obtain ⟨rfl, rfl⟩ := Prod.mk.inj (Option.some.inj h)
    exact .now
  | scheduleAt deadline event =>
    obtain ⟨rfl, rfl⟩ := Prod.mk.inj (Option.some.inj h)
    exact .scheduleAt deadline event false
  | cancelTimer id =>
    obtain ⟨rfl, rfl⟩ := Prod.mk.inj (Option.some.inj h)
    exact .cancelTimer id
  | popTimeout =>
    obtain ⟨rfl, rfl⟩ := Prod.mk.inj (Option.some.inj h)
    exact .popTimeout
  | takeRescanRequest =>
    obtain ⟨rfl, rfl⟩ := Prod.mk.inj (Option.some.inj h)
    exact .takeRescanRequest
  | closeMailboxes => cases h
  | drainWakeSignal mailbox =>
    obtain ⟨rfl, heq⟩ := Option.ite_none_right_eq_some.mp h
    obtain ⟨rfl, rfl⟩ := Prod.mk.inj (Option.some.inj heq)
    exact .drainWakeSignal
  | _ =>
    obtain ⟨r', -, heq⟩ := Option.map_eq_some_iff.mp h
    obtain ⟨rfl, rfl⟩ := Prod.mk.inj heq
    exact .other (by trivial) (by simp) r'

/-- The steps of the clock and of the timer thread, where they can be taken. -/
def next (w : DeadlineWorld) : DeadlineEvent → Option DeadlineWorld
  | .tick now => if w.clock ≤ now then some { w with clock := now } else none
  | .timer l =>
    match l, w.timer.phase with
    | .runReady memory, .idle => some { w with timer := w.timer.started memory }
    | .sampleNow now, .sampling =>
      if now = w.clock then
        some { w with timer := { w.timer with phase := .dispatching w.clock } }
      else none
    | .takeDue, .dispatching now => some { w with timer := w.timer.taken now }
    | .post false, .posting now node =>
      if node.sink = .mailbox then some (w.post (w.timer.delivered now node false) node.event)
      else none
    | .finish, .finishing => some { w with
        timer := { w.timer with core := w.timer.core.cleanupStaleLocked, phase := .idle } }
    | _, _ => none

theorem next_sound (w : DeadlineWorld) (l : DeadlineEvent) (w' : DeadlineWorld)
    (h : w.next l = some w') : w.Env l w' := by
  cases l with
  | tick now =>
    obtain ⟨hnow, heq⟩ := Option.ite_none_right_eq_some.mp h
    cases heq
    exact .tick hnow
  | timer l =>
    unfold next at h
    dsimp only at h
    split at h
    · exact Option.some.inj h ▸ .runReady ‹_› _
    · obtain ⟨rfl, heq⟩ := Option.ite_none_right_eq_some.mp h
      exact Option.some.inj heq ▸ .sampleNow ‹_›
    · exact Option.some.inj h ▸ .takeDue ‹_›
    · obtain ⟨hsink, heq⟩ := Option.ite_none_right_eq_some.mp h
      exact Option.some.inj heq ▸ .post ‹_› hsink
    · exact Option.some.inj h ▸ .finish ‹_›
    · cases h

end DeadlineWorld

/-- Deadlines of a minute for idle connections. -/
def guardedConfig : EventLoopConfig where
  deadlines := ⟨true, 60000, 10000, 10000, 5000⟩

/-- Two connections become due at once; the mailbox has room for the event of the first only.  Then
both send the beginning of a frame, and the loop serves its mailbox: it takes the event of the first
and scans for the other. -/
def rearmed :
    PoolState LoopSig Unit DeadlineCall DeadlineWorld DeadlineView LoopState Unit :=
  (deadlinePool guardedConfig).play (fun reply _ => DeadlineWorld.answer reply) DeadlineWorld.next
    [.begin () (.handle (.adopt 3) 4), .ops () 9 (kernel [] .again), .finish (),
      .begin () (.handle (.adopt 4) 4), .ops () 9 (kernel [] .again), .finish (),
      .env (.tick 60000000007), .env (.timer (.runReady 9)), .env (.timer (.sampleNow 60000000007)),
      .env (.timer .takeDue), .env (.timer (.post false)), .env (.timer .takeDue),
      .env (.timer (.post false)), .env (.timer .takeDue), .env (.timer .finish),
      .begin () (.handle (.socketEvent 1 { input := true }) 4),
      .ops () 1 (kernel [] (.data [0, 0])), .ops () 9 (kernel [] .again), .finish (),
      .begin () (.handle (.socketEvent 2 { input := true }) 4),
      .ops () 1 (kernel [] (.data [0, 0])), .ops () 9 (kernel [] .again), .finish (),
      .begin () (.serveTimeouts 4), .ops () 9 (kernel [] .again), .finish ()]
    { world := {
        timer := { core := (({} : TimerCore DeadlineSink).init {} false).2 }
        clock := 7
        mailbox := { capacity := 1 } }
      view _ := {}
      vars _ := {}
      run _ := none
      ended := [] }

theorem rearmed_reachable : (deadlinePool guardedConfig).system.Reachable rearmed :=
  System.Reachable.leads (.init ⟨⟨⟨{}, rfl, rfl⟩, ⟨1, by decide, rfl⟩, rfl, rfl, rfl, fun _ => rfl,
    fun _ => rfl⟩, fun _ => rfl, rfl⟩) (Pool.leads_play (fun _ _ => trivial)
      (fun reply _ => DeadlineWorld.answer_sound reply) DeadlineWorld.next_sound _ _)

/-- Both sessions have a new deadline after an event that was taken and one that was dropped. -/
theorem deadline_never_lost_rearmed :
    rearmed.world.popped = [EventLoop.sessionTimerEvent .idleTimeout ⟨0, 3, 1⟩ 1] ∧
    rearmed.world.scanned = [EventLoop.sessionTimerEvent .idleTimeout ⟨0, 4, 2⟩ 1] ∧
    ∀ fd ∈ [(3 : ℤ), 4], ∃ e, (rearmed.vars ()).sessions[fd]? = some e ∧ e.deadlineActive = true ∧
      Located rearmed.world e.timer ∧
      ∀ event, event ∈ rearmed.world.popped ∨ event ∈ rearmed.world.scanned →
        event.targetGeneration = e.session.token.generation →
        event.targetSequence < e.deadlineSequence := by
  refine ⟨by decide +kernel, by decide +kernel, fun fd hfd => ?_⟩
  have hlive : ∀ fd ∈ [(3 : ℤ), 4], (rearmed.vars ()).sessions[fd]?.isSome = true := by
    decide +kernel
  obtain ⟨e, he⟩ := Option.isSome_iff_exists.mp (hlive fd hfd)
  have hidle : rearmed.run () = none := Option.isNone_iff_eq_none.mp (by decide +kernel)
  exact ⟨e, he, deadline_never_lost rearmed_reachable hidle rfl he⟩

end AegisFlow
