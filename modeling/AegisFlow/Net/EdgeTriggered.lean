import AegisFlow.Net.EventLoopSpec

/-!
# Edge-triggered reads

With edge-triggered epoll, data that is left in a socket produces no further event: whoever reads
must read until `EAGAIN`, or make epoll look again with `EPOLL_CTL_MOD`.  This file looks at what a
call of `handleRead` leaves behind.

* `ReadWatch`, `watchRead` : what matters of an execution of `handleRead`, read off the
  operations and their replies;
* `Driven` : the last `recv` returned `EAGAIN`, or a `MOD` followed the last `recv` that returned
  data;
* `handleRead_driven_iff` : **exactly when a call that leaves the session reading has driven the
  socket**: no request was refused after the last data, or the events registered before the call are
  not those of a session that reads, with or without `EPOLLOUT` as the last `send` demands;
* `handleRead_stalls` : a session in `reading` whose request is refused: the overload response is
  written, the call returns, and neither happened.
-/

namespace AegisFlow

/-- What matters of an execution for the obligation of edge-triggered reads. -/
structure ReadWatch where
  /-- The last `recv` returned `EAGAIN`. -/
  again : Bool := false
  /-- Epoll was made to look again since the last `recv` that returned data. -/
  modified : Bool := false
  /-- The worker pool did not accept a request since the last `recv` that returned data. -/
  refused : Bool := false
  /-- The last `send` since then returned `EAGAIN`. -/
  blocked : Bool := false
  deriving DecidableEq, Repr

/-- What an operation on behalf of the descriptor `fd` adds. -/
def watchRead (fd : ℤ) (w : ReadWatch) : (op : LoopOp) → op.Reply → ReadWatch
  | .recv fd' _, reply =>
    if fd' = fd then
      match reply with
      | .data _ => {}
      | .again => { w with again := true }
      | .closed | .interrupted | .failed => { w with again := false }
    else w
  | .send fd' _, reply => if fd' = fd then { w with blocked := reply = .again } else w
  | .epollMod fd' _ _, _ => if fd' = fd then { w with modified := true } else w
  | .trySubmit _, reply => if reply = some .accepted then w else { w with refused := true }
  | _, _ => w

/-- What matters of a complete execution. -/
def ReadWatch.of (fd : ℤ) (es : List (Prog.Event LoopSig)) : ReadWatch :=
  es.foldl (fun w e => watchRead fd w e.1 e.2) {}

/-- The obligation of edge-triggered reads is met. -/
def Driven (fd : ℤ) (es : List (Prog.Event LoopSig)) : Prop :=
  (ReadWatch.of fd es).again = true ∨ (ReadWatch.of fd es).modified = true

instance (fd : ℤ) (es : List (Prog.Event LoopSig)) : Decidable (Driven fd es) := by
  unfold Driven; infer_instance

namespace EventLoop

variable {config : EventLoopConfig} {fd : ℤ} {w : ReadWatch} {st st' : LoopState}
  {events : EpollEvents}

/-- Contracts in terms of `ReadWatch`. -/
abbrev Watch (fd : ℤ) {α : Type} (R : ReadWatch → LoopState → α → Prop) (w : ReadWatch)
    (st : LoopState) (m : Loop α) : Prop :=
  Proc.Ensures (E := LoopSig) (watchRead fd) (fun _ _ => True) R w st m

theorem silent_timerOp : Silent (watchRead fd) (fun _ _ => True) TimerOp where
  allowed _ _ _ := trivial
  unseen s op r h := by cases op <;> first | rfl | exact h.elim

theorem silent_closeOp : Silent (watchRead fd) (fun _ _ => True) CloseOp where
  allowed _ _ _ := trivial
  unseen s op r h := by cases op <;> first | rfl | exact h.elim

/-- The session on `fd`, if there is one, belongs to `fd` and is registered for `events`. -/
def Holding (fd : ℤ) (events : EpollEvents) (st : LoopState) : Prop :=
  ∀ e, st.sessions[fd]? = some e → e.session.token.fd = fd ∧ e.registeredEvents = events

theorem Holding.timersOnly (h : Holding fd events st) (ht : TimersOnly fd st st') :
    Holding fd events st' := by
  intro e' he'
  obtain ⟨e, he, het⟩ := ht.entry e' he'
  obtain ⟨timers, hsession⟩ := het.session
  obtain ⟨htoken, hreg⟩ := h e he
  exact ⟨by rw [hsession]; exact htoken, het.registered.trans hreg⟩

theorem Holding.put {e : SessionEntry} (htoken : e.session.token.fd = fd)
    (hevents : e.registeredEvents = events) : Holding fd events (st.put fd e) := by
  intro e' he'
  rw [TreeMap.lookup_insert, if_pos rfl] at he'
  cases he'
  exact ⟨htoken, hevents⟩

/-- What `handleWrite` leaves behind if it started with `events` registered: the session is gone or
does not read, or epoll was called if and only if its events are not the registered ones. -/
def Settles (fd : ℤ) (events : EpollEvents) (w : ReadWatch) (st : LoopState) : Prop :=
  ∀ e, st.sessions[fd]? = some e → e.session.interest.read = true →
    w.again = false ∧ w.refused = true ∧
    (w.modified = true ↔ events ≠ epollEventsFor ⟨true, w.blocked, true⟩)

theorem settles_of_gone (h : st.sessions[fd]? = none) : Settles fd events w st := by
  intro e he
  rw [h] at he
  cases he

/-- Epoll is called for a session that writes if the last `send` returned `EAGAIN`, and else for one
that does not. -/
theorem watch_settleInterest (h : Holding fd events st) {blocked : Bool}
    (hw : w = { refused := true, blocked })
    (hwriting : ∀ e, st.sessions[fd]? = some e → (e.session.state == .writing) = blocked) :
    Watch fd (fun w' st' _ => Settles fd events w' st') w st (settleInterest fd) := by
  refine (settleInterest_ensures (fun w => { w with modified := true }) silent_closeOp
    (fun _ _ _ => trivial) (fun s ev g r => by simp [watchRead])).mono ?_
  rintro w' st' - (hgone | ⟨e, hreg, hw'⟩)
  · exact settles_of_gone hgone.1.gone
  · intro e' he' hread
    rw [hreg.after] at he'
    cases he'
    obtain ⟨-, hevents⟩ := h e hreg.before
    have hinterest : e.session.interest = ⟨true, blocked, true⟩ := by
      rw [Session.interest_of_read hread, hwriting e hreg.before]
    rw [hw', hw, hevents, hinterest]
    by_cases hsame : events = epollEventsFor ⟨true, blocked, true⟩
    · simp [hsame]
    · simp [hsame]

theorem watch_closeSession {R : ReadWatch → LoopState → Unit → Prop} (reason : SessionCloseReason)
    (hR : ∀ st' : LoopState, st'.sessions[fd]? = none → R w st' ()) :
    Watch fd R w st (closeSession fd reason true) := by
  refine (closeSession_ensures silent_closeOp reason true).mono ?_
  rintro w' st' ⟨⟩ ⟨rfl, h⟩
  exact hR st' h.gone

theorem watch_close_settles (w : ReadWatch) (st : LoopState) (reason : SessionCloseReason) :
    Watch fd (fun w' st' _ => Settles fd events w' st') w st (closeSession fd reason true) :=
  watch_closeSession reason fun _ hgone => settles_of_gone hgone

theorem watch_clearBusinessExpired (h : Holding fd events st) :
    Watch fd (fun w' st' _ => w' = w ∧ Holding fd events st') w st (clearBusinessExpired fd) := by
  unfold Watch clearBusinessExpired
  refine .find (fun he => .ret ⟨rfl, h⟩) fun entry he => ?_
  obtain ⟨hfd, hevents⟩ := h entry he
  exact .set ⟨rfl, .put hfd hevents⟩

/-- A refused request: the session is closed, or `handleWrite` has settled it. -/
theorem watch_dispatchRequest {write : ℤ → Loop Unit} {b : Bool}
    (hwrite : ∀ st, Holding fd events st →
      Watch fd (fun w' st' _ => Settles fd events w' st') { refused := true } st (write fd))
    {token : ConnectionToken} (htoken : token.fd = fd) (request : Bytes)
    (h : Holding fd events st) :
    Watch fd (fun w' st' ok => (ok = true ∧ w' = { refused := b } ∧ Holding fd events st') ∨
        (ok = false ∧ Settles fd events w' st'))
      { refused := b } st (dispatchRequest config write token request) := by
  have hrefuse (w : ReadWatch) (st : LoopState) (reason : SessionCloseReason) :
      Watch fd (fun w' st' ok => (ok = true ∧ w' = { refused := b } ∧ Holding fd events st') ∨
        (ok = false ∧ Settles fd events w' st')) w st
        (do closeSession fd reason true; return false) := by
    refine Proc.Ensures.bind (Q := fun w' st' _ => Settles fd events w' st')
      (watch_close_settles w st reason) ?_
    intro w' st' _ hs
    exact .ret (.inr ⟨rfl, hs⟩)
  unfold dispatchRequest
  rw [htoken]
  simp only [Proc.ensures_perform_bind, Proc.ensures_ite, true_and]
  refine fun drain => ⟨fun _ => hrefuse _ _ _, fun _ submitted => ⟨fun hacc => ?_, fun hrej => ?_⟩⟩
  · -- accepted
    have hw : watchRead fd (watchRead fd { refused := b } .drainRequested drain)
        (.trySubmit ⟨token, request⟩) submitted = { refused := b } := by
      simp [watchRead, hacc]
    rw [hw]
    refine (watch_clearBusinessExpired h).bind ?_
    rintro w' st₁ - ⟨rfl, h₁⟩
    refine (syncDeadline_ensures silent_timerOp).bind ?_
    rintro w' st₂ ok ⟨rfl, h₂⟩
    rw [Proc.ensures_ite, Proc.ensures_pure]
    exact ⟨fun _ => .inl ⟨rfl, rfl, h₁.timersOnly h₂⟩, fun _ => hrefuse _ _ _⟩
  · -- refused: the overload response is queued and written
    have hw (drain') : watchRead fd (watchRead fd (watchRead fd { refused := b } .drainRequested
        drain) (.trySubmit ⟨token, request⟩) submitted) .drainRequested drain' =
        { refused := true } := by
      simp [watchRead, hrej]
    refine fun drain' => ⟨fun _ => hrefuse _ _ _, fun _ => ?_⟩
    rw [hw, ensures_find_bind]
    cases he : st.sessions[fd]? with
    | none => exact hrefuse _ _ _
    | some entry =>
      obtain ⟨hfd, hevents⟩ := h entry he
      simp only [Proc.ensures_ite, Proc.ensures_perform_bind, ensures_put_bind, true_and]
      refine ⟨fun _ => hrefuse _ _ _, fun _ oom => ⟨fun _ => hrefuse _ _ _, fun _ =>
        ⟨fun _ => ?_, fun _ => ⟨fun _ => hrefuse _ _ _, fun _ => hrefuse _ _ _⟩⟩⟩⟩
      refine (syncDeadline_ensures silent_timerOp).bind ?_
      rintro w' st₂ ok ⟨rfl, h₂⟩
      rw [Proc.ensures_ite]
      refine ⟨fun _ => ?_, fun _ => hrefuse _ _ _⟩
      have hput : Holding fd events (st.put fd { entry with
          session := (entry.session.queueResponse token config.overloadResponseFrame).2 }) :=
        .put (by simpa using hfd) hevents
      refine (hwrite st₂ (hput.timersOnly h₂)).bind ?_
      intro w' st' _ hs
      exact .ret (.inr ⟨rfl, hs⟩)

/-- `handleWrite` after a refused request. -/
theorem watch_handleWrite (fuel : ℕ) (h : Holding fd events st) :
    Watch fd (fun w' st' _ => Settles fd events w' st') { refused := true } st
      (handleWrite config fuel fd) := by
  induction fuel generalizing st with
  | zero => exact ensures_diverge fun _ => trivial
  | succ fuel ih =>
    unfold Watch handleWrite
    refine .find (fun he => .ret (settles_of_gone he)) fun entry he => ?_
    obtain ⟨hfd, hevents⟩ := h entry he
    simp only [Proc.ensures_ite, Proc.ensures_perform_bind, true_and]
    have hstate {b : Bool} (hb : (entry.session.state == .writing) = b) (e : SessionEntry)
        (he' : st.sessions[fd]? = some e) : (e.session.state == .writing) = b := by
      rw [he] at he'
      exact Option.some.inj he' ▸ hb
    refine ⟨fun _ => watch_close_settles _ _ _, fun _ => ⟨fun hwrites => watch_settleInterest h rfl
      (hstate (by simpa using hwrites)), fun hwrites =>
        ⟨fun _ => watch_close_settles _ _ _, fun _ reply => ?_⟩⟩⟩
    have hsend : watchRead fd { refused := true } (.send fd entry.session.pendingOutput) reply =
        { refused := true, blocked := reply = .again } := if_pos rfl
    rw [hsend]
    cases reply with
    | interrupted => exact ih h
    -- The buffer is full: epoll reports the descriptor again once there is room.
    | again => exact watch_settleInterest h rfl (hstate (by simpa using hwrites))
    | failed => exact watch_close_settles _ _ _
    | sent count =>
      simp only [Proc.ensures_ite, Proc.ensures_perform_bind, ensures_put_bind, true_and]
      refine ⟨fun _ => watch_close_settles _ _ _, fun _ oom =>
        ⟨fun _ => watch_close_settles _ _ _, fun _ => ?_⟩⟩
      have hput : Holding fd events (st.put fd { entry with
          session := (entry.session.onBytesWritten count).2 }) :=
        .put (by simpa using hfd) hevents
      change Watch fd _ { refused := true } _ _
      cases (entry.session.onBytesWritten count).1.request with
      | some request =>
        refine (watch_dispatchRequest (fun st hst => ih hst) hfd request hput).bind ?_
        rintro w' st' ok (⟨rfl, rfl, hst'⟩ | ⟨rfl, hs⟩)
        · rw [if_pos rfl]
          exact ih hst'
        · rw [if_neg (by simp)]
          exact .ret hs
      | none =>
        refine (syncDeadline_ensures silent_timerOp).bind ?_
        rintro w' st₂ ok ⟨rfl, h₂⟩
        rw [Proc.ensures_ite]
        exact ⟨fun _ => ih (hput.timersOnly h₂), fun _ => watch_close_settles _ _ _⟩

/-- What a call of `handleRead` leaves behind if it started with `events` registered. -/
def Leaves (fd : ℤ) (events : EpollEvents) (w : ReadWatch) (st : LoopState) : Prop :=
  ∀ e, st.sessions[fd]? = some e → e.session.isOpen → e.session.interest.read = true →
    ((w.again = true ∨ w.modified = true) ↔
      (w.refused = false ∨ events ≠ epollEventsFor ⟨true, w.blocked, true⟩))

theorem leaves_of_gone (h : st.sessions[fd]? = none) : Leaves fd events w st := by
  intro e he
  rw [h] at he
  cases he

theorem watch_close_leaves (w : ReadWatch) (st : LoopState) (reason : SessionCloseReason) :
    Watch fd (fun w' st' _ => Leaves fd events w' st') w st (closeSession fd reason true) :=
  watch_closeSession reason fun _ hgone => leaves_of_gone hgone

theorem Settles.leaves (h : Settles fd events w st) : Leaves fd events w st := by
  intro e he _ hread
  obtain ⟨hagain, hrefused, hmod⟩ := h e he hread
  simp [hagain, hrefused, hmod]

/-- At the end of the data, or if the session does not want to read. -/
theorem watch_settleInterest_leaves (hrefused : w.refused = false)
    (h : w.again = true ∨ ∀ e, st.sessions[fd]? = some e → e.session.interest.read = false) :
    Watch fd (fun w' st' _ => Leaves fd events w' st') w st (settleInterest fd) := by
  refine (settleInterest_ensures (fun w => { w with modified := true }) silent_closeOp
    (fun _ _ _ => trivial) (fun s ev g r => by simp [watchRead])).mono ?_
  rintro w' st' - (hgone | ⟨e, hreg, hw'⟩)
  · exact leaves_of_gone hgone.1.gone
  · intro e' he' hopen hread
    rw [hreg.after] at he'
    cases he'
    rcases h with hagain | hpaused
    · rw [hw']
      split_ifs <;> simp [hagain, hrefused]
    · rw [hpaused e hreg.before] at hread
      cases hread

theorem watch_afterInput {readOn : Loop Unit} {drainPeerClose : Bool} (hw : w.refused = false)
    (hread : ∀ st, Holding fd events st →
      Watch fd (fun w' st' _ => Leaves fd events w' st') w st readOn) (h : Holding fd events st) :
    Watch fd (fun w' st' _ => Leaves fd events w' st') w st
      (afterInput config fd drainPeerClose readOn) := by
  unfold Watch afterInput
  refine .find (fun he => .ret (leaves_of_gone he)) fun entry he => ?_
  have hgo (st' : LoopState) (ht : TimersOnly fd st st') :
      Watch fd (fun w' st' _ => Leaves fd events w' st') w st'
        (if (!drainPeerClose && !entry.session.interest.read) = true then settleInterest fd
          else readOn) := by
    refine .ite (fun hstop => ?_) fun _ => hread st' (h.timersOnly ht)
    refine watch_settleInterest_leaves hw (.inr fun e' he' => ?_)
    obtain ⟨e, he₀, het⟩ := ht.entry e' he'
    rw [he] at he₀
    obtain rfl := Option.some.inj he₀
    rw [het.interest]
    simp only [Bool.and_eq_true, Bool.not_eq_true'] at hstop
    exact hstop.2
  simp only [Proc.ensures_ite]
  refine ⟨fun _ => watch_close_leaves _ _ _, fun _ => ⟨fun _ => ?_, fun _ => ?_⟩⟩
  · refine (syncDeadline_ensures silent_timerOp).bind ?_
    rintro w' st₂ ok ⟨rfl, h₂⟩
    rw [Proc.ensures_ite]
    exact ⟨fun _ => watch_close_leaves _ _ _, fun _ => hgo st₂ h₂⟩
  · exact hgo st (.refl st)

theorem watch_peerClosed (hrefused : w.refused = false) :
    Watch fd (fun w' st' _ => Leaves fd events w' st') w st (peerClosed fd) := by
  unfold Watch peerClosed
  refine .find (fun he => .ret (leaves_of_gone he)) fun entry he => ?_
  dsimp only
  rw [ensures_put_bind, Proc.ensures_ite]
  refine ⟨fun _ => watch_close_leaves _ _ _,
    fun _ => watch_settleInterest_leaves hrefused (.inr fun e he' => ?_)⟩
  rw [TreeMap.lookup_insert, if_pos rfl] at he'
  cases he'
  exact entry.session.interest_onPeerReadClosed

/-- One call of `handleRead`, from any state of the loop. -/
theorem watch_handleRead {drainPeerClose : Bool} (fuel : ℕ) (hmod : w.modified = false)
    (hrefused : w.refused = false) (h : Holding fd events st) :
    Watch fd (fun w' st' _ => Leaves fd events w' st') w st
      (handleRead config fuel fd drainPeerClose) := by
  induction fuel generalizing w st with
  | zero => exact ensures_diverge fun _ => trivial
  | succ fuel ih =>
    unfold Watch handleRead
    refine .find (fun he => .ret (leaves_of_gone he)) fun entry he => ?_
    obtain ⟨hfd, hevents⟩ := h entry he
    simp only [Proc.ensures_perform_bind, true_and]
    intro reply
    cases reply with
    | closed => exact watch_peerClosed (by simp [watchRead, hrefused])
    | interrupted => exact ih (by simp [watchRead, hmod]) (by simp [watchRead, hrefused]) h
    | again =>
      exact watch_settleInterest_leaves (by simp [watchRead, hrefused])
        (.inl (by simp [watchRead]))
    | failed => exact watch_close_leaves _ _ _
    | data bytes =>
      have hw (oom) : watchRead fd (watchRead fd w (.recv fd config.readScratchBytes)
          (.data bytes)) .outOfMemory oom = {} := by simp [watchRead]
      simp only [Proc.ensures_ite, Proc.ensures_perform_bind, ensures_put_bind, true_and]
      refine fun oom => ⟨fun _ => watch_close_leaves _ _ _, fun _ => ?_⟩
      rw [hw]
      have hput : Holding fd events (st.put fd { entry with
          session := (entry.session.onInput bytes).2 }) :=
        .put (by simpa using hfd) hevents
      cases (entry.session.onInput bytes).1.request with
      | none => exact watch_afterInput rfl (fun st hst => ih rfl rfl hst) hput
      | some request =>
        refine (watch_dispatchRequest (fun st hst => watch_handleWrite fuel hst) hfd request
          hput).bind ?_
        rintro w' st' ok (⟨rfl, rfl, hst'⟩ | ⟨rfl, hs⟩)
        · rw [if_pos rfl]
          exact watch_afterInput rfl (fun st hst => ih rfl rfl hst) hst'
        · rw [if_neg (by simp)]
          exact .ret hs.leaves

end EventLoop

open EventLoop

/-- **Exactly when a call of `handleRead` has driven the socket.**  For every execution of the
call that leaves the session on `fd` open and interested in reading: the last `recv` returned
`EAGAIN` or a `MOD` followed the last `recv` that returned data, if and only if the worker pool
accepted every request after the last data, or the events that were registered before the call are
not those for reading, with `EPOLLOUT` iff the last `send` returned `EAGAIN`.  For a session that
was registered for reading only this means that the overload response was blocked. -/
theorem handleRead_driven_iff (config : EventLoopConfig) (fuel : ℕ) (fd : ℤ)
    (drainPeerClose : Bool) {st st' : LoopState} {e e' : SessionEntry}
    {es : List (Prog.Event LoopSig)} (he : st.sessions[fd]? = some e)
    (hfd : e.session.token.fd = fd)
    (hrun : Prog.Runs ((handleRead config fuel fd drainPeerClose).run st) es (some (), st'))
    (he' : st'.sessions[fd]? = some e') (hopen : e'.session.isOpen)
    (hread : e'.session.interest.read = true) :
    Driven fd es ↔ ((ReadWatch.of fd es).refused = false ∨
      e.registeredEvents ≠ epollEventsFor ⟨true, (ReadWatch.of fd es).blocked, true⟩) := by
  have hholding : Holding fd e.registeredEvents st := by
    intro x hx
    rw [he] at hx
    cases hx
    exact ⟨hfd, rfl⟩
  have hmeets : Watch fd _ {} st (handleRead config fuel fd drainPeerClose) :=
    watch_handleRead fuel rfl rfl hholding
  obtain ⟨b, hb, hleaves⟩ := Prog.Meets.of_runs hmeets hrun
  exact hleaves e' he' hopen hread

/-- A loop with a response for refused requests. -/
def overloadConfig : EventLoopConfig := { overloadResponseFrame := [0, 0, 0, 1, 9] }

/-- A connection that waits for a request. -/
def readingEntry : SessionEntry where
  session := { token := ⟨0, 4, 1⟩, config := {} }
  registeredEvents := { edgeTriggered := true, input := true, readHangup := true }

/-- A loop with this connection on descriptor 4. -/
def readingState : LoopState where
  sessions := (∅ : Std.TreeMap ℤ SessionEntry).insert 4 readingEntry
  eventToFd := (∅ : Std.TreeMap ℕ ℤ).insert 1 4
  nextGeneration := 2

/-- A request arrives first, and then nothing; `status` is what the pool says, `sent` what `send`
returns for the overload response. -/
def oneRequest (status : WorkerSubmitStatus) (sent : SendResult) (n : ℕ) :
    (op : LoopOp) → Option op.Reply
  | .recv .. => some (if n = 0 then .data (encodeFrame [7]) else .again)
  | .send .. => some sent
  | .trySubmit _ => some (some status)
  | .epollMod .. => some true
  | .drainRequested | .outOfMemory => some false
  | _ => none

/-- Whether the execution with the given answers leaves the session reading and satisfies `p`. -/
def leavesReading (answer : ℕ → (op : LoopOp) → Option op.Reply) (fuel : ℕ)
    (p : List (Prog.Event LoopSig) → Bool) : Bool :=
  (Prog.replay answer 0 ((handleRead overloadConfig fuel 4 false).run readingState)).any
    fun (es, (_, st')) => st'.sessions[(4 : ℤ)]?.any fun e' =>
      decide e'.session.isOpen && e'.session.interest.read && p es

theorem exists_of_leavesReading (answer : ℕ → (op : LoopOp) → Option op.Reply) (fuel : ℕ)
    (p : List (Prog.Event LoopSig) → Bool) (h : leavesReading answer fuel p = true) :
    ∃ es st' e', Prog.Runs ((handleRead overloadConfig fuel 4 false).run readingState) es
      (some (), st') ∧ st'.sessions[(4 : ℤ)]? = some e' ∧ e'.session.isOpen ∧
      e'.session.interest.read = true ∧ p es = true := by
  simp only [leavesReading, Option.any_eq_true, Bool.and_eq_true, decide_eq_true_eq] at h
  obtain ⟨⟨es, o, st'⟩, hreplay, e', he', ⟨hopen, hread⟩, hp⟩ := h
  have hruns := Prog.runs_of_replay hreplay
  have hholding : Holding 4 readingEntry.registeredEvents readingState := by
    intro x hx
    cases hx
    exact ⟨rfl, rfl⟩
  obtain ⟨b, rfl, -⟩ := Prog.Meets.of_runs (watch_handleRead (w := {}) fuel rfl rfl hholding) hruns
  exact ⟨es, st', e', hruns, he', hopen, hread, hp⟩

/-- A call that drives the socket and leaves the session reading, in which the pool gives the answer
`status` to the last request. -/
def DrivenRun (status : WorkerSubmitStatus) : Prop := ∃ es st' e',
  Prog.Runs ((handleRead overloadConfig 3 4 false).run readingState) es (some (), st') ∧
  st'.sessions[(4 : ℤ)]? = some e' ∧ e'.session.isOpen ∧ e'.session.interest.read = true ∧
  (ReadWatch.of 4 es).refused = decide (status ≠ .accepted) ∧ Driven 4 es

/-- A request that is accepted, after which the socket is read until it is empty; and one that is
refused while the socket does not take the response. -/
theorem handleRead_driven_iff_blocked : DrivenRun .accepted ∧ DrivenRun .rejected := by
  have hdriven (status : WorkerSubmitStatus)
      (h : leavesReading (oneRequest status .again) 3 (fun es => decide
        ((ReadWatch.of 4 es).refused = decide (status ≠ .accepted) ∧
          ((ReadWatch.of 4 es).refused = false ∨ (ReadWatch.of 4 es).blocked = true))) = true) :
      DrivenRun status := by
    obtain ⟨es, st', e', hrun, he', hopen, hread, hp⟩ := exists_of_leavesReading _ 3 _ h
    obtain ⟨hrefused, hcase⟩ := of_decide_eq_true hp
    refine ⟨es, st', e', hrun, he', hopen, hread, hrefused, ?_⟩
    have he : readingState.sessions[(4 : ℤ)]? = some readingEntry := by decide
    refine (handleRead_driven_iff overloadConfig 3 4 false he rfl hrun he' hopen hread).mpr
      (hcase.imp_right fun hblocked => ?_)
    rw [hblocked]
    decide
  exact ⟨hdriven .accepted (by decide +kernel), hdriven .rejected (by decide +kernel)⟩

/-- **A refused request ends the call early.**  The overload response is written, the session is
back in `reading` with the events it had, and `handleRead` returns although the last `recv`
returned data and epoll was not made to look again. -/
theorem handleRead_stalls : ∃ es st' e',
    Prog.Runs ((handleRead overloadConfig 3 4 false).run readingState) es (some (), st') ∧
    st'.sessions[(4 : ℤ)]? = some e' ∧ e'.session.isOpen ∧ e'.session.interest.read = true ∧
    ¬ Driven 4 es := by
  obtain ⟨es, st', e', hrun, he', hopen, hread, hstall⟩ :=
    exists_of_leavesReading (oneRequest .rejected (.sent 5)) 3 (fun es => !decide (Driven 4 es))
      (by decide)
  exact ⟨es, st', e', hrun, he', hopen, hread, by simpa using hstall⟩

end AegisFlow
