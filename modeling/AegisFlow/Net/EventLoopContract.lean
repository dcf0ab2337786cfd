import AegisFlow.Net.LoopActions
import AegisFlow.Net.LoopWalk

/-!
# The contract of the event loop

Every procedure of the event loop keeps `LoopInv` and does what `LoopView.allow` allows, whatever
the replies to its operations are.  `Preserves` is this statement, a case of `Stays`, whose rules
follow the text of a procedure; what each action does is in `LoopActions`.

* `preserves_handleRead`, `preserves_handleWrite`, … : **the procedures of the loop**;
* `preserves_pollOnce`, `preserves_forceShutdown` : the entry points.
-/

namespace AegisFlow

/-! ### Operations that do not show -/

/-- Operations that do not show in a loop's view. -/
def Quiet : LoopOp → Prop
  | .recv .. | .send .. | .epollAdd .. | .trySubmit _ | .popCompletion => False
  | _ => True

variable {op : LoopOp}

theorem LoopView.upd_quiet {s : Option LoopView} (hop : Quiet op) (r : op.Reply) :
    LoopView.upd s op r = s := by
  cases s <;> cases op <;> first | rfl | exact hop.elim

theorem LoopView.allow_quiet {config : EventLoopConfig} {s : Option LoopView} (hop : Quiet op) :
    LoopView.allow config s op := by
  cases s <;> cases op <;> trivial

namespace EventLoop

/-! ### Rules -/

/-- The procedure keeps to what the loop may do, and ends with `R`. -/
abbrev Ends {α : Type} (config : EventLoopConfig) (R : Option LoopView → LoopState → α → Prop)
    (s : Option LoopView) (st : LoopState) (m : Loop α) : Prop :=
  Proc.Ensures (E := LoopSig) LoopView.upd (LoopView.allow config) R s st m

/-- The procedure keeps the invariant. -/
abbrev Preserves {α : Type} (config : EventLoopConfig) (m : Loop α) : Prop :=
  Stays LoopView.upd (LoopView.allow config) (LoopInv config) m

variable {config : EventLoopConfig} {α β : Type} {s : Option LoopView} {st st₀ : LoopState} {fd : ℤ}
  {e : SessionEntry}

theorem silent_quiet : Silent LoopView.upd (LoopView.allow config) Quiet :=
  ⟨fun _ _ hop => LoopView.allow_quiet hop, fun _ _ r hop => LoopView.upd_quiet hop r⟩

theorem silent_close : Silent LoopView.upd (LoopView.allow config) CloseOp :=
  silent_quiet.mono fun op hop => by cases op <;> trivial

theorem silent_timer : Silent LoopView.upd (LoopView.allow config) TimerOp :=
  silent_quiet.mono fun op hop => by cases op <;> trivial

theorem silent_cancel :
    Silent LoopView.upd (LoopView.allow config) (fun op => ∃ id, op = .cancelTimer id) :=
  silent_quiet.mono fun op hop => by obtain ⟨id, rfl⟩ := hop; trivial

/-- An operation that does not show, and what follows it. -/
theorem ends_quiet_bind (hop : Quiet op) {f : op.Reply → Loop α}
    {R : Option LoopView → LoopState → α → Prop} (h : ∀ r, Ends config R s st (f r)) :
    Ends config R s st (Proc.perform (E := LoopSig) op >>= f) := by
  refine .call (LoopView.allow_quiet hop) fun r => ?_
  rw [LoopView.upd_quiet hop]
  exact h r

/-- An operation that does not show keeps the invariant. -/
theorem kept_quiet (hop : Quiet op) (s : Option LoopView) (st : LoopState)
    (h : LoopInv config s st) :
    LoopView.allow config s op ∧ ∀ r, LoopInv config (LoopView.upd s op r) st :=
  ⟨LoopView.allow_quiet hop, fun r => (LoopView.upd_quiet hop r).symm ▸ h⟩

theorem preserves_quiet_bind (hop : Quiet op) {f : op.Reply → Loop α}
    (hf : ∀ r, Preserves config (f r)) : Preserves config (Proc.perform (E := LoopSig) op >>= f) :=
  stays_bind (kept_quiet hop) hf

theorem preserves_quiet (hop : Quiet op) :
    Preserves config (Proc.perform (E := LoopSig) op) := stays_perform (kept_quiet hop)

theorem preserves_diverge : Preserves config (diverge : Loop α) :=
  stays_diverge (kept_quiet trivial)

/-! ### Timers and closing -/

theorem preserves_syncDeadline : Preserves config (syncDeadline config fd) := fun _ _ h =>
  (syncDeadline_ensures silent_timer).mono fun _ _ _ ⟨hs, ht⟩ => hs ▸ h.timersOnly ht

/-- Closing a connection, also where the invariant does not hold for it. -/
theorem ends_closeSession (h : LoopInv config s st₀) (hst : Elsewhere fd st₀ st)
    (reason : SessionCloseReason) (notify : Bool) :
    Ends config (fun s st _ => LoopInv config s st) s st (closeSession fd reason notify) :=
  (closeSession_ensures silent_close reason notify).mono fun _ _ _ ⟨hs, hw⟩ =>
    hs ▸ h.without (.of_elsewhere hst hw)

theorem preserves_closeSession (reason : SessionCloseReason) (notify : Bool) :
    Preserves config (closeSession fd reason notify) := fun _ st h =>
  ends_closeSession h (.refl st) reason notify

theorem preserves_settleInterest : Preserves config (settleInterest fd) := by
  intro s st h
  refine (settleInterest_ensures id silent_close (fun _ _ _ => LoopView.allow_quiet (by trivial))
    fun _ _ _ r => LoopView.upd_quiet (by trivial) r).mono fun s' st' _ hsettled => ?_
  rcases hsettled with ⟨hw, hs⟩ | ⟨e, hreg, hs⟩
  · rw [id, or_self] at hs
    rw [hs]
    exact h.without hw
  · rw [id, ite_self] at hs
    rw [hs]
    exact h.registered hreg

/-! ### Requests, reading and writing -/

theorem ends_clearBusinessExpired (h : LoopInv config s st)
    (hproc : ∀ v ∈ s, ∀ e, st.sessions[fd]? = some e → e.session.state = .processing) :
    Ends config (fun s st _ => LoopInv config s st) s st (clearBusinessExpired fd) := by
  unfold clearBusinessExpired
  exact .find (fun _ => .ret h) fun e he => .set (h.clearExpired he fun v hv => hproc v hv e he)

/-- Dispatching a request that a session delivered. -/
theorem ends_dispatchRequest {write : ℤ → Loop Unit} (hwrite : ∀ fd, Preserves config (write fd))
    {token : ConnectionToken} {request : Bytes} (h : LoopInv config s st)
    (hd : Dispatchable config s st token request) :
    Ends config (fun s st _ => LoopInv config s st) s st
      (dispatchRequest config write token request) := by
  unfold dispatchRequest
  extract_lets refuse
  have hrefuse (reason : SessionCloseReason) : Preserves config (refuse reason) :=
    (preserves_closeSession reason true).bind fun _ => stays_pure false
  refine ends_quiet_bind (by trivial) fun drained => .ite
    (fun _ => hrefuse _ s st h) fun _ => .call hd.allow fun r => ?_
  refine .ite (fun haccepted => ?_) fun hrefused => ?_
  · -- the request is with the pool now
    exact (ends_clearBusinessExpired (h.submitted hd r) hd.processing).bind fun s st _ h =>
      preserves_syncDeadline.bind (fun _ => (stays_pure true).ite (hrefuse _)) s st h
  · have hresp := hd.responds h hrefused
    have h := h.submitted hd r
    generalize LoopView.upd s (.trySubmit ⟨token, request⟩) r = s at *
    refine ends_quiet_bind (by trivial) fun drained => .ite
      (fun _ => hrefuse _ s st h) fun _ => .find (fun _ => hrefuse _ s st h) fun e he => ?_
    refine .ite (fun _ => hrefuse _ s st h) fun _ => ?_
    refine ends_quiet_bind (by trivial) fun full => .ite
      (fun _ => hrefuse _ s st h) fun _ => .put ?_
    have hqueued := h.queueResponse he token hresp
    exact ((preserves_syncDeadline.bind fun _ => ((hwrite _).bind fun _ => stays_pure false).ite
      (hrefuse _)).ite ((hrefuse _).ite (hrefuse _))) s _ hqueued

/-- Closing the connection after bytes were sent. -/
theorem ends_closeSession_send (h : LoopInv config s st) (he : st.sessions[fd]? = some e)
    (bytes : Bytes) (n : ℕ) (reason : SessionCloseReason) :
    Ends config (fun s st _ => LoopInv config s st) (LoopView.upd s (.send fd bytes) (.sent n)) st
      (closeSession fd reason true) :=
  (closeSession_ensures silent_close reason true).mono fun _ _ _ ⟨hs, hw⟩ =>
    hs ▸ h.send_without he bytes n hw

theorem preserves_handleWrite (fuel : ℕ) : Preserves config (handleWrite config fuel fd) := by
  induction fuel generalizing fd with
  | zero => exact preserves_diverge
  | succ fuel ih =>
    intro s st h
    unfold handleWrite
    refine .find (fun _ => stays_pure () s st h) fun e he => ?_
    refine .ite (fun _ => preserves_closeSession _ _ s st h) fun _ => ?_
    refine .ite (fun _ => preserves_settleInterest s st h) fun hstate => ?_
    rw [not_not] at hstate
    refine .ite (fun _ => preserves_closeSession _ _ s st h) fun _ => ?_
    refine .call (h.allow_send he hstate) fun r => ?_
    cases r with
    | sent n =>
      refine .ite (fun _ => ends_closeSession_send h he _ n _) fun _ => ?_
      refine ends_quiet_bind (by trivial) fun full => .ite
        (fun _ => ends_closeSession_send h he _ n _) fun _ => .put ?_
      have hsent := h.send he hstate n
      split
      · rename_i request hreq
        refine (ends_dispatchRequest (fun fd => ih) hsent
          (h.dispatchable_send he hstate n hreq)).bind fun s' st' _ h' => ?_
        exact (ih.ite (stays_pure ())) s' st' h'
      · exact preserves_syncDeadline.bind
          (fun _ => ih.ite (preserves_closeSession _ _)) _ _ hsent
    | interrupted =>
      have hs : LoopView.upd s (.send fd e.session.pendingOutput) .interrupted = s := by
        cases s <;> rfl
      rw [hs]
      exact ih s st h
    | again =>
      have hs : LoopView.upd s (.send fd e.session.pendingOutput) .again = s := by
        cases s <;> rfl
      rw [hs]
      exact preserves_settleInterest s st h
    | failed =>
      have hs : LoopView.upd s (.send fd e.session.pendingOutput) .failed = s := by
        cases s <;> rfl
      rw [hs]
      exact preserves_closeSession _ _ s st h

theorem preserves_afterInput {drainPeerClose : Bool} {readOn : Loop Unit}
    (hread : Preserves config readOn) :
    Preserves config (afterInput config fd drainPeerClose readOn) := by
  unfold afterInput
  refine stays_lookup_bind fun o => ?_
  cases o with
  | none => exact stays_pure ()
  | some e =>
    have hgo (synced : Bool) : Preserves config (if (!synced) = true then
          closeSession fd .resourceExhausted true
        else if (!drainPeerClose && !e.session.interest.read) = true then settleInterest fd
        else readOn) := (preserves_closeSession _ _).ite (preserves_settleInterest.ite hread)
    refine (preserves_closeSession _ _).ite (.ite ?_ ?_)
    · exact preserves_syncDeadline.bind hgo
    · exact (stays_pure true).bind hgo

theorem preserves_peerClosed : Preserves config (peerClosed fd) := by
  intro s st h
  unfold peerClosed
  refine .find (fun _ => stays_pure () s st h) fun e he => ?_
  refine .put ?_
  exact ((preserves_closeSession _ _).ite preserves_settleInterest) s _ (h.onPeerReadClosed he)

/-- Closing the connection after bytes were received. -/
theorem ends_closeSession_recv (h : LoopInv config s st) (he : st.sessions[fd]? = some e)
    (capacity : ℕ) (bytes : Bytes) (reason : SessionCloseReason) :
    Ends config (fun s st _ => LoopInv config s st)
      (LoopView.upd s (.recv fd capacity) (.data bytes)) st (closeSession fd reason true) :=
  (closeSession_ensures silent_close reason true).mono fun _ _ _ ⟨hs, hw⟩ =>
    hs ▸ h.recv_without he capacity bytes hw

theorem preserves_handleRead (fuel : ℕ) (drainPeerClose : Bool) :
    Preserves config (handleRead config fuel fd drainPeerClose) := by
  induction fuel with
  | zero => exact preserves_diverge
  | succ fuel ih =>
    intro s st h
    unfold handleRead
    refine .find (fun _ => stays_pure () s st h) fun e he => ?_
    have hallow : LoopView.allow config s (.recv fd config.readScratchBytes) := by
      cases s <;> trivial
    refine .call hallow fun r => ?_
    cases r with
    | data bytes =>
      refine ends_quiet_bind (by trivial) fun full => .ite
        (fun _ => ends_closeSession_recv h he _ bytes _) fun _ => .put ?_
      have hrecv := h.recv he config.readScratchBytes bytes
      split
      · exact preserves_afterInput ih _ _ hrecv
      · rename_i request hreq
        refine (ends_dispatchRequest (fun fd => preserves_handleWrite fuel) hrecv
          (h.dispatchable_recv he _ bytes hreq)).bind fun s' st' _ h' => ?_
        exact ((preserves_afterInput ih).ite (stays_pure ())) s' st' h'
    | closed =>
      have hs : LoopView.upd s (.recv fd config.readScratchBytes) .closed = s := by
        cases s <;> rfl
      rw [hs]
      exact preserves_peerClosed s st h
    | interrupted =>
      have hs : LoopView.upd s (.recv fd config.readScratchBytes) .interrupted = s := by
        cases s <;> rfl
      rw [hs]
      exact ih s st h
    | again =>
      have hs : LoopView.upd s (.recv fd config.readScratchBytes) .again = s := by
        cases s <;> rfl
      rw [hs]
      exact preserves_settleInterest s st h
    | failed =>
      have hs : LoopView.upd s (.recv fd config.readScratchBytes) .failed = s := by
        cases s <;> rfl
      rw [hs]
      exact preserves_closeSession _ _ s st h

/-! ### Timeouts and completions -/

/-- The outstanding request of the session on `fd` takes too long. -/
theorem ends_expireBusiness (h : LoopInv config s st) (he : st.sessions[fd]? = some e) (fuel : ℕ) :
    Ends config (fun s st _ => LoopInv config s st) s st (expireBusiness config fuel fd e) := by
  have hst₁ : Elsewhere fd st (st.put fd { e with businessExpired := true }) :=
    (Elsewhere.refl st).put _
  unfold expireBusiness
  refine .put (.ite
    (fun _ => ends_closeSession h hst₁ _ _) fun _ => ends_quiet_bind (by trivial) fun full => ?_)
  refine .ite (fun _ => ends_closeSession h hst₁ _ _) fun _ => ?_
  refine .put (.ite
    (fun hqueued => .put ?_) fun _ => ends_closeSession h (hst₁.put _) _ _)
  refine .ite (fun _ => ends_closeSession h ((hst₁.put _).put _) _ _) fun hclosing => ?_
  rw [not_not] at hclosing
  refine preserves_syncDeadline.bind
    (fun _ => (preserves_handleWrite fuel).ite (preserves_closeSession _ _)) s _ ?_
  refine h.queueTimeout he h.responds_timeout hqueued hclosing ((hst₁.put _).put _) ?_
  rw [TreeMap.lookup_insert, if_pos rfl]

theorem preserves_handleTimeoutEvent (fuel : ℕ) (event : TimerEvent) :
    Preserves config (handleTimeoutEvent config fuel event) := by
  intro s st h
  unfold handleTimeoutEvent
  refine .find (fun _ => stays_pure () s st h) fun e he => ?_
  refine .ite (fun _ => stays_pure () s st h) fun _ => ?_
  refine .ite (fun _ => stays_pure () s st h) fun _ => ?_
  refine ends_quiet_bind (by trivial) fun now => .ite
    (fun _ => stays_pure () s st h) fun _ => .put ?_
  -- the timer has gone off: it is taken from the session
  have htimers : EntryTimers e { e with
      session := (e.session.replaceTimer (sessionTimerKind event.kind) {}).2
      deadlineActive := false } := ⟨rfl, rfl, _, rfl⟩
  have hinv := h.timersOnly (.put he htimers)
  split
  · exact preserves_closeSession _ _ s _ hinv
  · exact preserves_closeSession _ _ s _ hinv
  · exact preserves_closeSession _ _ s _ hinv
  · exact ends_expireBusiness hinv (by rw [TreeMap.lookup_insert, if_pos rfl]) fuel
  · exact stays_pure () s _ hinv
  · exact stays_pure () s _ hinv

/-- The response of a completion is sent. -/
theorem ends_respond (h : LoopInv config s st) {completion : BusinessCompletion}
    (hresp : Responds config s st completion.token.fd false completion.responseFrame)
    (fuel : ℕ) :
    Ends config (fun s st _ => LoopInv config s st) s st (respond config fuel completion) := by
  unfold respond
  refine .find (fun _ => stays_pure () s st h) fun e he => ?_
  have hqueued := h.queueResponse he completion.token hresp
  refine .put (.ite
    (fun _ => preserves_closeSession _ _ s _ hqueued) fun _ => ends_quiet_bind (by trivial) ?_)
  intro drained
  have hmark : Ends config (fun s st _ => LoopInv config s st) s _
      (Proc.when drained (put completion.token.fd { e with session :=
        ((e.session.queueResponse completion.token completion.responseFrame).2.closeAfterWrite
          .localShutdown).2 })) :=
    .when (fun _ => .set
      (hqueued.closeAfterWrite (by rw [TreeMap.lookup_insert, if_pos rfl]) .localShutdown))
      fun _ => hqueued
  exact hmark.bind fun s st _ h => preserves_syncDeadline.bind
    (fun _ => (preserves_handleWrite fuel).ite (preserves_closeSession _ _)) s st h

theorem ends_businessDeadlinePassed (e : SessionEntry) :
    Ends config (fun s' st' _ => s' = s ∧ st' = st) s st (businessDeadlinePassed config e) := by
  unfold businessDeadlinePassed
  refine .ite (fun _ => ends_quiet_bind (by trivial) fun now => ?_) fun _ => ?_
  · exact .ret ⟨rfl, rfl⟩
  · exact .ret ⟨rfl, rfl⟩

/-- A completion was taken out of the mailbox. -/
theorem ends_applyCompletion (h : LoopInv config s st) {completion : BusinessCompletion}
    (hcompleted : Completed config s st completion) (fuel : ℕ) :
    Ends config (fun s st _ => LoopInv config s st) s st
      (applyCompletion config fuel completion) := by
  unfold applyCompletion
  refine .find (fun _ => stays_pure () s st h) fun e he => ?_
  refine .ite (fun _ => stays_pure () s st h) fun hmatch => ?_
  refine .ite (fun _ => stays_pure () s st h) fun _ => ?_
  refine (ends_businessDeadlinePassed e).bind ?_
  rintro s' st' passed ⟨rfl, rfl⟩
  refine .ite (fun _ => preserves_handleTimeoutEvent fuel _ s' st' h) fun _ => ?_
  refine (cancelDeadline_ensures silent_cancel).bind ?_
  rintro s'' st'' - ⟨rfl, ht⟩
  have h' := h.timersOnly ht
  refine .ite (fun _ => preserves_closeSession _ _ _ _ h') fun hstatus => ?_
  refine ends_quiet_bind (by trivial) fun full => .ite
    (fun _ => preserves_closeSession _ _ _ _ h') fun _ => ends_respond h' ?_ fuel
  have htoken : e.session.token = completion.token := by
    simpa [Session.matchesToken] using hmatch
  exact (hcompleted e he htoken (not_not.mp hstatus)).timersOnly ht

/-! ### Mailboxes and the top level -/

theorem preserves_drainCompletions (fuel : ℕ) :
    Preserves config (drainCompletions config fuel) := by
  induction fuel with
  | zero => exact preserves_diverge
  | succ fuel ih =>
    intro s st h
    unfold drainCompletions
    have hallow : LoopView.allow config s .popCompletion := by cases s <;> trivial
    refine .call hallow fun r => ?_
    cases r with
    | none =>
      have hs : LoopView.upd s .popCompletion none = s := by cases s <;> rfl
      rw [hs]
      exact stays_pure () s st h
    | some completion =>
      exact (ends_applyCompletion (h.popCompletion completion) (h.completed completion) fuel).bind
        fun s' st' _ h' => ih s' st' h'

theorem preserves_drainTimeouts (fuel : ℕ) : Preserves config (drainTimeouts config fuel) := by
  induction fuel with
  | zero => exact preserves_diverge
  | succ fuel ih =>
    unfold drainTimeouts
    refine preserves_quiet_bind (by trivial) fun r => ?_
    cases r with
    | none => exact stays_pure ()
    | some event => exact (preserves_handleTimeoutEvent fuel event).bind fun _ => ih

theorem preserves_rescanDeadlines (fuel : ℕ) : Preserves config (rescanDeadlines config fuel) := by
  unfold rescanDeadlines
  refine preserves_quiet_bind (by trivial) fun full => (stays_pure false).ite ?_
  refine preserves_quiet_bind (by trivial) fun now => stays_get_bind fun st => ?_
  exact (Stays.forEach (preserves_handleTimeoutEvent fuel) _).bind fun _ => stays_pure true

theorem preserves_drainTimeoutMailbox (fuel : ℕ) :
    Preserves config (drainTimeoutMailbox config fuel) := by
  unfold drainTimeoutMailbox
  refine (stays_pure true).ite (preserves_quiet_bind (by trivial) fun awake =>
    Stays.ite ?_ (stays_pure false))
  refine (preserves_drainTimeouts fuel).bind fun _ =>
    preserves_quiet_bind (by trivial) fun rescan => ?_
  exact (preserves_rescanDeadlines fuel).ite (stays_pure true)

theorem preserves_adopt : Preserves config (adopt config fd) := by
  intro s st h
  unfold adopt
  extract_lets refuse
  have hrefuse (status : EventLoopStatus) : Preserves config (refuse status) :=
    (preserves_quiet (by trivial)).when.bind fun _ => stays_pure status
  refine .get ?_
  refine .ite (fun _ => hrefuse _ s st h) fun _ => ?_
  refine .ite (fun _ => stays_pure _ s st h) fun _ => ?_
  refine .ite (fun _ => hrefuse _ s st h) fun _ => ?_
  refine .ite (fun _ => hrefuse _ s st h) fun _ => ?_
  refine allocateGeneration_ensures.bind ?_
  rintro s' st' generation ⟨rfl, ⟨rfl, rfl⟩ | ⟨hgen, rfl, rfl⟩⟩
  · exact hrefuse _ s' st' h
  have hallocated : LoopInv config s'
      { st with nextGeneration := generationAfter st.nextGeneration } := h.allocate hgen rfl rfl
  refine ends_quiet_bind (by trivial) fun full =>
    .ite (fun _ => hrefuse _ s' _ hallocated) fun _ => ?_
  cases hcreate : Session.create ⟨config.loopId, fd, st.nextGeneration⟩ config.session fd with
  | none => exact hrefuse _ s' _ hallocated
  | some session =>
    refine .ite (fun _ => hrefuse _ s' _ hallocated) fun _ => ?_
    refine .put (.modify ?_)
    have hallow : LoopView.allow config s'
        (.epollAdd fd (epollEventsFor session.interest) st.nextGeneration) := by
      cases s' <;> trivial
    refine .call hallow fun ok => .ite (fun _ => ?_) fun _ => .modify ?_
    · refine preserves_syncDeadline.bind (fun _ => (stays_pure _).ite
        ((preserves_closeSession _ _).bind fun _ => stays_pure _)) _ _ ?_
      refine h.epollAdd hgen hcreate rfl (fun fd' hne => ?_) (fun e he => ?_) _ ok
      · dsimp only
        rw [TreeMap.lookup_insert, if_neg (Ne.symm hne)]
      · dsimp only at he
        rw [TreeMap.lookup_insert, if_pos rfl] at he
        cases he
        exact ⟨rfl, rfl⟩
    · refine hrefuse _ _ _ (h.epollAdd hgen hcreate rfl (fun fd' hne => ?_) (fun e he => ?_) _ ok)
      · dsimp only
        rw [TreeMap.lookup_erase, if_neg (Ne.symm hne), TreeMap.lookup_insert, if_neg (Ne.symm hne)]
      · dsimp only at he
        rw [TreeMap.lookup_erase, if_pos rfl] at he
        cases he

theorem preserves_drainConnections (fuel : ℕ) :
    Preserves config (drainConnections config fuel) := by
  induction fuel with
  | zero => exact preserves_diverge
  | succ fuel ih =>
    unfold drainConnections
    refine preserves_quiet_bind (by trivial) fun r => ?_
    cases r with
    | none => exact stays_pure ()
    | some fd =>
      exact preserves_adopt.bind fun _ => (preserves_quiet (by trivial)).when.bind fun _ => ih

theorem preserves_applyGracefulDrain (fuel : ℕ) :
    Preserves config (applyGracefulDrain config fuel) := by
  unfold applyGracefulDrain
  refine preserves_quiet_bind (by trivial) fun drained => Stays.ite ?_ (stays_pure ())
  refine stays_get_bind fun _ => Stays.forEach (fun fd => ?_) _
  intro s st h
  refine .find (fun _ => stays_pure () s st h) fun e he => ?_
  refine .ite (fun _ => preserves_closeSession _ _ s st h) fun _ => ?_
  refine .ite (fun _ => ?_) fun _ => stays_pure () s st h
  exact .put (preserves_handleWrite fuel s _ (h.closeAfterWrite he _))

theorem preserves_drainMailboxes (fuel : ℕ) : Preserves config (drainMailboxes config fuel) := by
  unfold drainMailboxes
  refine preserves_quiet_bind (by trivial) fun _ => Stays.ite ?_ (stays_pure false)
  refine (preserves_drainCompletions fuel).bind fun _ =>
    (preserves_drainTimeoutMailbox fuel).bind fun _ =>
    Stays.ite ((stays_pure true).ite ?_) (stays_pure false)
  refine preserves_quiet_bind (by trivial) fun _ => Stays.ite ?_ (stays_pure false)
  exact (preserves_drainConnections fuel).bind fun _ =>
    (preserves_applyGracefulDrain fuel).bind fun _ => stays_pure true

theorem preserves_handleSocketEvent (fuel generation : ℕ) (events : EpollEvents) :
    Preserves config (handleSocketEvent config fuel generation events) := by
  unfold handleSocketEvent
  refine stays_get_bind fun st => ?_
  cases st.eventToFd[generation]? with
  | none => exact stays_pure ()
  | some fd =>
    refine Stays.ite (preserves_quiet_bind (by trivial) fun _ => preserves_closeSession _ _) ?_
    refine stays_lookup_bind fun _ => (preserves_handleRead fuel _).when.bind fun _ => ?_
    exact stays_lookup_bind fun _ => (preserves_handleWrite fuel).when

theorem preserves_serveEvents (fuel : ℕ) (ready : List (ℕ × EpollEvents)) :
    Preserves config (serveEvents config fuel ready) := by
  induction ready with
  | nil => exact stays_pure _
  | cons event rest ih =>
    unfold serveEvents
    refine Stays.ite ?_ ((preserves_handleSocketEvent fuel _ _).bind fun _ => ih)
    exact (preserves_drainMailboxes fuel).bind fun _ => ih.ite (stays_pure _)

theorem preserves_pollOnce (fuel : ℕ) (timeoutMs : ℤ) :
    Preserves config (pollOnce config fuel timeoutMs) := by
  unfold pollOnce
  refine stays_get_bind fun _ => (stays_pure _).ite ((stays_pure _).ite ?_)
  refine preserves_quiet_bind (by trivial) fun ready => ?_
  cases ready with
  | none => exact stays_pure _
  | some ready => exact preserves_serveEvents fuel ready

theorem preserves_modify {f : LoopState → LoopState}
    (hsessions : ∀ st, (f st).sessions = st.sessions)
    (hgen : ∀ st, (f st).nextGeneration = st.nextGeneration) : Preserves config (Proc.modify f) :=
  fun _ st h => .set (h.congr (hsessions st) (hgen st))

theorem preserves_forceShutdown : Preserves config forceShutdown := by
  unfold forceShutdown
  refine stays_get_bind fun _ => (stays_pure ()).ite ?_
  refine (preserves_modify ?_ ?_).bind fun _ => ?_
  · exact fun _ => rfl
  · exact fun _ => rfl
  refine preserves_quiet_bind (by trivial) fun _ => ?_
  refine (Stays.forEach (fun _ => preserves_quiet (by trivial)) _).bind fun _ => ?_
  refine stays_get_bind fun _ =>
    (Stays.forEach (fun _ => preserves_closeSession _ _) _).bind fun _ => ?_
  refine stays_get_bind fun _ => (preserves_quiet (by trivial)).when.bind fun _ => ?_
  exact preserves_modify (fun _ => rfl) fun _ => rfl

end EventLoop

end AegisFlow
