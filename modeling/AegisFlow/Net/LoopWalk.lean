import AegisFlow.Net.EventLoopSpec

/-!
# Invariants about which connections there are

Reading, writing, timeouts and completions change the entries of sessions in place, perform
operations that bring no connection in and let none go, and otherwise close sessions with
`closeSession`.  An invariant that is kept by these three is kept by all handlers of the event
loop, whatever the replies to their operations are.

* `Plain` : the operations that neither bring a connection in nor let one go;
* `SameSocket` : what changing an entry in place leaves alone;
* `InPlace`, `Unmoved` : the three conditions, for a view `S` with its update and allowed
  operations;
* `Unmoved.stays_handleRead`, `Unmoved.stays_handleWrite`, …, `Unmoved.stays_handleSocketEvent` :
  **the handlers keep the invariant.**  Taking new connections (`adopt`) and shutting down are not
  among them.
-/

namespace AegisFlow

/-- Operations that neither bring a connection in nor let one go. -/
def Plain : LoopOp → Prop
  | .popConnection | .epollAdd .. | .closeSocket _ | .closeMailboxes | .releaseConnection => False
  | _ => True

/-- The entries are for the same connection. -/
structure SameSocket (e e' : SessionEntry) : Prop where
  token : e'.session.token = e.session.token
  connectionClosed : e'.session.connectionClosed = e.session.connectionClosed

theorem Session.Frame.sameSocket {e e' : SessionEntry} (h : e.session.Frame e'.session) :
    SameSocket e e' := ⟨h.token, h.connectionClosed⟩

namespace EventLoop

variable {S : Type} {upd : S → (op : LoopOp) → op.Reply → S} {P : S → LoopOp → Prop}
  {I : S → LoopState → Prop} {s : S} {st : LoopState} {config : EventLoopConfig} {fd : ℤ}
  {e e' : SessionEntry} {α β : Type}

variable (upd P I) in
/-- The procedure keeps the invariant. -/
def Stays (m : Loop α) : Prop :=
  ∀ s st, I s st → Proc.Ensures (E := LoopSig) upd P (fun s st _ => I s st) s st m

variable (upd P I) in
/-- The invariant is kept by operations that let no connection in or go, and by changes of
entries in place. -/
structure InPlace : Prop where
  plain : ∀ {s : S} {st : LoopState} (op : LoopOp), Plain op → I s st →
    P s op ∧ ∀ r, I (upd s op r) st
  put : ∀ {s : S} {st : LoopState} {fd : ℤ} {e e' : SessionEntry}, I s st →
    st.sessions[fd]? = some e → SameSocket e e' → I s (st.put fd e')

variable (upd P I) in
/-- What an invariant about the connections needs to be kept by the handlers. -/
structure Unmoved : Prop extends InPlace upd P I where
  close : ∀ (fd : ℤ) (reason : SessionCloseReason), Stays upd P I (closeSession fd reason true)

/-! ### Rules -/

theorem stays_pure (a : α) : Stays upd P I (pure a) := fun _ _ h => .ret h

theorem Stays.bind {m : Loop α} {f : α → Loop β} (hm : Stays upd P I m)
    (hf : ∀ a, Stays upd P I (f a)) : Stays upd P I (m >>= f) := fun s st h =>
  (hm s st h).bind fun s' st' a h' => hf a s' st' h'

theorem Stays.ite {p : Prop} [Decidable p] {m m' : Loop α} (hm : Stays upd P I m)
    (hm' : Stays upd P I m') : Stays upd P I (if p then m else m') := by
  split_ifs
  · exact hm
  · exact hm'

theorem Stays.when {b : Bool} {m : Loop Unit} (hm : Stays upd P I m) :
    Stays upd P I (Proc.when b m) := hm.ite (stays_pure ())

theorem Stays.forEach {f : β → Loop Unit} (hf : ∀ b, Stays upd P I (f b)) (bs : List β) :
    Stays upd P I (Proc.forEach f bs) := fun _ _ h =>
  Proc.Ensures.forEach (I := I) (fun b s st h => hf b s st h) bs h

theorem stays_get_bind {f : LoopState → Loop α} (hf : ∀ st, Stays upd P I (f st)) :
    Stays upd P I (Proc.get >>= f) := fun s st h => hf st s st h

theorem stays_lookup_bind {f : Option SessionEntry → Loop α} (hf : ∀ o, Stays upd P I (f o)) :
    Stays upd P I (find fd >>= f) := fun s st h => hf _ s st h

/-- An operation that keeps the invariant, and what follows it. -/
theorem stays_bind {op : LoopOp} (hop : ∀ s st, I s st → P s op ∧ ∀ r, I (upd s op r) st)
    {f : op.Reply → Loop α} (hf : ∀ r, Stays upd P I (f r)) :
    Stays upd P I (Proc.perform (E := LoopSig) op >>= f) := fun s st hI =>
  .call ((hop s st hI).1) fun r => hf r _ _ ((hop s st hI).2 r)

theorem stays_perform {op : LoopOp} (hop : ∀ s st, I s st → P s op ∧ ∀ r, I (upd s op r) st) :
    Stays upd P I (Proc.perform (E := LoopSig) op) := fun s st hI =>
  Proc.Ensures.perform (E := LoopSig) (P := P) (hop s st hI).1 (hop s st hI).2

theorem stays_diverge (hop : ∀ s st, I s st → P s .spin ∧ ∀ r, I (upd s .spin r) st) :
    Stays upd P I (diverge : Loop α) := by
  unfold diverge
  exact stays_bind hop fun never => never.elim

/-- Look an entry up and go on: nothing is there, or it may be changed in place. -/
theorem stays_find_bind {f : Option SessionEntry → Loop α} (hnone : Stays upd P I (f none))
    (hsome : ∀ s st e, I s st → st.sessions[fd]? = some e →
      Proc.Ensures (E := LoopSig) upd P (fun s st _ => I s st) s st (f (some e))) :
    Stays upd P I (find fd >>= f) := by
  intro s st hI
  exact .find (fun _ => hnone s st hI) fun e he => hsome s st e hI he

namespace InPlace

variable (h : InPlace upd P I)

include h

theorem stays_bind {op : LoopOp} (hop : Plain op) {f : op.Reply → Loop α}
    (hf : ∀ r, Stays upd P I (f r)) :
    Stays upd P I (Proc.perform (E := LoopSig) op >>= f) :=
  EventLoop.stays_bind (fun _ _ => h.plain op hop) hf

theorem stays_perform (op : LoopOp) (hop : Plain op) :
    Stays upd P I (Proc.perform (E := LoopSig) op) :=
  EventLoop.stays_perform fun _ _ => h.plain op hop

theorem stays_diverge : Stays upd P I (diverge : Loop α) :=
  EventLoop.stays_diverge fun _ _ => h.plain .spin trivial

/-- Change an entry in place and go on. -/
theorem ensures_put_bind {f : Unit → Loop α} (hI : I s st) (he : st.sessions[fd]? = some e)
    (hsame : SameSocket e e')
    (hf : ∀ st, I s st → st.sessions[fd]? = some e' →
      Proc.Ensures (E := LoopSig) upd P (fun s st _ => I s st) s st (f ())) :
    Proc.Ensures (E := LoopSig) upd P (fun s st _ => I s st) s st (EventLoop.put fd e' >>= f) :=
  .put (hf _ (h.put hI he hsame) (by rw [TreeMap.lookup_insert, if_pos rfl]))

/-! ### Timers and interest -/

theorem stays_cancelTimerId (id : TimerId) : Stays upd P I (cancelTimerId id) :=
  Stays.when (h.stays_perform (.cancelTimer id) trivial)

theorem stays_cancelDeadline : Stays upd P I (cancelDeadline fd) := by
  unfold cancelDeadline
  refine stays_find_bind (stays_pure ()) fun s st e hI he => .ite
    (fun _ => ?_) fun _ => stays_pure () s st hI
  exact h.ensures_put_bind hI he ⟨rfl, rfl⟩ fun st hI _ => h.stays_cancelTimerId _ s st hI

theorem stays_armDeadline (kind : TimerEventKind) : Stays upd P I (armDeadline config fd kind) := by
  unfold armDeadline
  refine (stays_pure true).ite (h.stays_cancelDeadline.bind fun _ => ?_)
  refine stays_find_bind (stays_pure false) fun s st e hI he => .ite
    (fun _ => stays_pure false s st hI) fun _ => ?_
  refine h.ensures_put_bind hI he ⟨rfl, rfl⟩ fun st hI he => ?_
  obtain ⟨hallow, hI⟩ := h.plain .now trivial hI
  refine .call hallow fun now => ?_
  obtain ⟨hallow, hI⟩ := h.plain (.scheduleAt (now + 1000000 * timeoutFor config kind)
    (sessionTimerEvent kind e.session.token (e.deadlineSequence + 1))) trivial (hI now)
  refine .call hallow fun id => ?_
  cases id with
  | none => exact stays_pure false _ st (hI none)
  | some id =>
    exact h.ensures_put_bind (hI (some id)) he ⟨rfl, rfl⟩ fun st hI _ => stays_pure true _ st hI

theorem stays_syncDeadline : Stays upd P I (syncDeadline config fd) := by
  unfold syncDeadline
  refine stays_find_bind (stays_pure false) fun s st e hI _ => ?_
  refine ((stays_pure true).ite (Stays.ite ?_ ?_)) s st hI
  · exact h.stays_cancelDeadline.bind fun _ => stays_pure true
  · exact (stays_pure true).ite (h.stays_armDeadline _)

theorem stays_modifyInterest : Stays upd P I (modifyInterest fd) := by
  unfold modifyInterest
  refine stays_find_bind (stays_pure false) fun s st e hI he => ?_
  refine .ite (fun _ => stays_pure false s st hI) fun _ => ?_
  refine .ite (fun _ => stays_pure true s st hI) fun _ => ?_
  obtain ⟨hallow, hI⟩ := h.plain (.epollMod fd (epollEventsFor e.session.interest)
    e.session.token.generation) trivial hI
  refine .call hallow fun ok => .ite (fun _ => ?_) fun _ => stays_pure false _ st (hI ok)
  exact h.ensures_put_bind (hI ok) he ⟨rfl, rfl⟩ fun st hI _ => stays_pure true _ st hI

theorem stays_clearBusinessExpired : Stays upd P I (clearBusinessExpired fd) := by
  unfold clearBusinessExpired
  refine stays_find_bind (stays_pure ()) fun s st e hI he => ?_
  exact .set (h.put hI he ⟨rfl, rfl⟩)

end InPlace

namespace Unmoved

variable (h : Unmoved upd P I)

include h

theorem stays_settleInterest : Stays upd P I (settleInterest fd) :=
  h.stays_modifyInterest.bind fun _ => (stays_pure ()).ite (h.close _ _)

/-! ### Requests, reading and writing -/

theorem stays_dispatchRequest {write : ℤ → Loop Unit} (hwrite : ∀ fd, Stays upd P I (write fd))
    (token : ConnectionToken) (request : Bytes) :
    Stays upd P I (dispatchRequest config write token request) := by
  unfold dispatchRequest
  extract_lets refuse
  have hrefuse (reason : SessionCloseReason) : Stays upd P I (refuse reason) :=
    (h.close _ reason).bind fun _ => stays_pure false
  refine h.stays_bind (by trivial) fun _ => (hrefuse _).ite ?_
  refine h.stays_bind (by trivial) fun _ => Stays.ite ?_ ?_
  · exact h.stays_clearBusinessExpired.bind fun _ =>
      h.stays_syncDeadline.bind fun _ => (stays_pure true).ite (hrefuse _)
  · refine h.stays_bind (by trivial) fun _ => (hrefuse _).ite ?_
    refine stays_find_bind (hrefuse _) fun s st e hI he => .ite
      (fun _ => hrefuse _ s st hI) fun _ => ?_
    obtain ⟨hallow, hI⟩ := h.plain .outOfMemory trivial hI
    refine .call hallow fun full => .ite (fun _ => hrefuse _ _ st (hI full)) fun _ => ?_
    refine h.ensures_put_bind (hI full) he (Session.frame_queueResponse _ _ _).sameSocket
      fun st hI _ => ?_
    refine (Stays.ite ?_ ((hrefuse _).ite (hrefuse _))) _ st hI
    exact h.stays_syncDeadline.bind fun _ =>
      ((hwrite _).bind fun _ => stays_pure false).ite (hrefuse _)

theorem stays_handleWrite (fuel : ℕ) : Stays upd P I (handleWrite config fuel fd) := by
  induction fuel generalizing fd with
  | zero => exact h.stays_diverge
  | succ fuel ih =>
    unfold handleWrite
    refine stays_find_bind (stays_pure ()) fun s st e hI he => ?_
    refine .ite (fun _ => h.close _ _ s st hI) fun _ => ?_
    refine .ite (fun _ => h.stays_settleInterest s st hI) fun _ => ?_
    refine .ite (fun _ => h.close _ _ s st hI) fun _ => ?_
    obtain ⟨hallow, hI⟩ := h.plain (.send fd e.session.pendingOutput) trivial hI
    refine .call hallow fun r => ?_
    have hI := hI r
    generalize upd s (.send fd e.session.pendingOutput) r = s at hI ⊢
    cases r with
    | sent count =>
      refine .ite (fun _ => h.close _ _ s st hI) fun _ => ?_
      obtain ⟨hallow, hI⟩ := h.plain .outOfMemory trivial hI
      refine .call hallow fun full => .ite (fun _ => h.close _ _ _ st (hI full)) fun _ => ?_
      refine h.ensures_put_bind (hI full) he (Session.frame_onBytesWritten _ _).sameSocket
        fun st hI _ => ?_
      split
      · exact (h.stays_dispatchRequest (fun _ => ih) _ _).bind
          (fun _ => ih.ite (stays_pure ())) _ st hI
      · exact h.stays_syncDeadline.bind (fun _ => ih.ite (h.close _ _)) _ st hI
    | interrupted => exact ih s st hI
    | again => exact h.stays_settleInterest s st hI
    | failed => exact h.close _ _ s st hI

theorem stays_afterInput {drainPeerClose : Bool} {readOn : Loop Unit}
    (hread : Stays upd P I readOn) :
    Stays upd P I (afterInput config fd drainPeerClose readOn) := by
  unfold afterInput
  refine stays_find_bind (stays_pure ()) fun s st e hI _ => ?_
  have hgo (synced : Bool) : Stays upd P I (if (!synced) = true then
        closeSession fd .resourceExhausted true
      else if (!drainPeerClose && !e.session.interest.read) = true then settleInterest fd
      else readOn) := (h.close _ _).ite (h.stays_settleInterest.ite hread)
  refine ((h.close _ _).ite (Stays.ite ?_ ?_)) s st hI
  · exact h.stays_syncDeadline.bind hgo
  · exact (stays_pure true).bind hgo

theorem stays_peerClosed : Stays upd P I (peerClosed fd) := by
  unfold peerClosed
  refine stays_find_bind (stays_pure ()) fun s st e hI he => ?_
  refine h.ensures_put_bind hI he (Session.frame_onPeerReadClosed _).sameSocket fun st hI _ => ?_
  exact ((h.close _ _).ite h.stays_settleInterest) s st hI

theorem stays_handleRead (fuel : ℕ) (drainPeerClose : Bool) :
    Stays upd P I (handleRead config fuel fd drainPeerClose) := by
  induction fuel with
  | zero => exact h.stays_diverge
  | succ fuel ih =>
    unfold handleRead
    refine stays_find_bind (stays_pure ()) fun s st e hI he => ?_
    obtain ⟨hallow, hI⟩ := h.plain (.recv fd config.readScratchBytes) trivial hI
    refine .call hallow fun r => ?_
    have hI := hI r
    generalize upd s (.recv fd config.readScratchBytes) r = s at hI ⊢
    cases r with
    | data bytes =>
      obtain ⟨hallow, hI⟩ := h.plain .outOfMemory trivial hI
      refine .call hallow fun full => .ite (fun _ => h.close _ _ _ st (hI full)) fun _ => ?_
      refine h.ensures_put_bind (hI full) he (Session.frame_onInput _ _).sameSocket
        fun st hI _ => ?_
      split
      · exact h.stays_afterInput ih _ st hI
      · exact (h.stays_dispatchRequest (fun _ => h.stays_handleWrite fuel) _ _).bind
          (fun _ => (h.stays_afterInput ih).ite (stays_pure ())) _ st hI
    | closed => exact h.stays_peerClosed s st hI
    | interrupted => exact ih s st hI
    | again => exact h.stays_settleInterest s st hI
    | failed => exact h.close _ _ s st hI

/-! ### Timeouts, completions and events -/

theorem ensures_expireBusiness (fuel : ℕ) (hI : I s st) (he : st.sessions[fd]? = some e) :
    Proc.Ensures (E := LoopSig) upd P (fun s st _ => I s st) s st
      (expireBusiness config fuel fd e) := by
  unfold expireBusiness
  refine h.ensures_put_bind hI he ⟨rfl, rfl⟩ fun st hI he => ?_
  refine .ite (fun _ => h.close _ _ s st hI) fun _ => ?_
  obtain ⟨hallow, hI⟩ := h.plain .outOfMemory trivial hI
  refine .call hallow fun full => .ite (fun _ => h.close _ _ _ st (hI full)) fun _ => ?_
  refine h.ensures_put_bind (hI full) he (Session.frame_queueResponse e.session _ _).sameSocket
    fun st hI he => ?_
  refine .ite (fun _ => ?_) fun _ => h.close _ _ _ st hI
  refine h.ensures_put_bind hI he (Session.frame_closeAfterWrite _ _).sameSocket fun st hI _ => ?_
  refine ((h.close _ _).ite (h.stays_syncDeadline.bind fun _ => ?_)) _ st hI
  exact (h.stays_handleWrite fuel).ite (h.close _ _)

theorem stays_handleTimeoutEvent (fuel : ℕ) (event : TimerEvent) :
    Stays upd P I (handleTimeoutEvent config fuel event) := by
  unfold handleTimeoutEvent
  refine stays_find_bind (stays_pure ()) fun s st e hI he => ?_
  refine .ite (fun _ => stays_pure () s st hI) fun _ => ?_
  refine .ite (fun _ => stays_pure () s st hI) fun _ => ?_
  obtain ⟨hallow, hI⟩ := h.plain .now trivial hI
  refine .call hallow fun now => .ite (fun _ => stays_pure () _ st (hI now)) fun _ => ?_
  refine h.ensures_put_bind (hI now) he ⟨rfl, rfl⟩ fun st hI he => ?_
  split
  · exact h.close _ _ _ st hI
  · exact h.close _ _ _ st hI
  · exact h.close _ _ _ st hI
  · exact h.ensures_expireBusiness fuel hI he
  · exact stays_pure () _ st hI
  · exact stays_pure () _ st hI

theorem stays_respond (fuel : ℕ) (completion : BusinessCompletion) :
    Stays upd P I (respond config fuel completion) := by
  unfold respond
  extract_lets fd
  refine stays_find_bind (stays_pure ()) fun s st e hI he => ?_
  refine h.ensures_put_bind hI he (Session.frame_queueResponse _ _ _).sameSocket fun st hI he => ?_
  refine .ite (fun _ => h.close _ _ s st hI) fun _ => ?_
  have hsend : Stays upd P I (do
      if ← syncDeadline config fd then handleWrite config fuel fd
      else closeSession fd .resourceExhausted true) :=
    h.stays_syncDeadline.bind fun _ => (h.stays_handleWrite fuel).ite (h.close _ _)
  obtain ⟨hallow, hI⟩ := h.plain .drainRequested trivial hI
  refine .call hallow fun drain => ?_
  cases drain with
  | true =>
    refine h.ensures_put_bind (hI true) he (Session.frame_closeAfterWrite _ _).sameSocket
      fun st hI _ => ?_
    exact hsend _ st hI
  | false => exact hsend _ st (hI false)

theorem stays_businessDeadlinePassed (e : SessionEntry) :
    Stays upd P I (businessDeadlinePassed config e) := by
  unfold businessDeadlinePassed
  exact (h.stays_bind (by trivial) fun _ => stays_pure _).ite (stays_pure false)

theorem stays_applyCompletion (fuel : ℕ) (completion : BusinessCompletion) :
    Stays upd P I (applyCompletion config fuel completion) := by
  unfold applyCompletion
  refine stays_find_bind (stays_pure ()) fun s st e hI _ => ?_
  refine ((stays_pure ()).ite ((stays_pure ()).ite ?_)) s st hI
  refine (h.stays_businessDeadlinePassed e).bind fun _ => (h.stays_handleTimeoutEvent fuel _).ite ?_
  refine h.stays_cancelDeadline.bind fun _ => (h.close _ _).ite ?_
  exact h.stays_bind (by trivial) fun _ => (h.close _ _).ite (h.stays_respond fuel completion)

theorem stays_applyGracefulDrain (fuel : ℕ) : Stays upd P I (applyGracefulDrain config fuel) := by
  unfold applyGracefulDrain
  refine h.stays_bind (by trivial) fun _ => Stays.ite (stays_get_bind fun _ => ?_) (stays_pure ())
  refine Stays.forEach (fun fd => stays_find_bind (stays_pure ()) fun s st e hI he => ?_) _
  refine .ite (fun _ => h.close _ _ s st hI) fun _ => .ite
    (fun _ => ?_) fun _ => stays_pure () s st hI
  exact h.ensures_put_bind hI he (Session.frame_closeAfterWrite _ _).sameSocket
    fun st hI _ => h.stays_handleWrite fuel s st hI

theorem stays_drainCompletions (fuel : ℕ) : Stays upd P I (drainCompletions config fuel) := by
  induction fuel with
  | zero => exact h.stays_diverge
  | succ fuel ih =>
    unfold drainCompletions
    refine h.stays_bind (by trivial) fun r => ?_
    cases r with
    | none => exact stays_pure ()
    | some completion => exact (h.stays_applyCompletion fuel completion).bind fun _ => ih

theorem stays_drainTimeouts (fuel : ℕ) : Stays upd P I (drainTimeouts config fuel) := by
  induction fuel with
  | zero => exact h.stays_diverge
  | succ fuel ih =>
    unfold drainTimeouts
    refine h.stays_bind (by trivial) fun r => ?_
    cases r with
    | none => exact stays_pure ()
    | some event => exact (h.stays_handleTimeoutEvent fuel event).bind fun _ => ih

theorem stays_drainTimeoutMailbox (fuel : ℕ) :
    Stays upd P I (drainTimeoutMailbox config fuel) := by
  have hrescan : Stays upd P I (rescanDeadlines config fuel) := by
    unfold rescanDeadlines
    refine h.stays_bind (by trivial) fun _ => (stays_pure false).ite ?_
    refine h.stays_bind (by trivial) fun _ => stays_get_bind fun _ => ?_
    exact (Stays.forEach (h.stays_handleTimeoutEvent fuel) _).bind fun _ => stays_pure true
  unfold drainTimeoutMailbox
  refine (stays_pure true).ite (h.stays_bind (by trivial) fun _ => Stays.ite ?_ (stays_pure false))
  refine (h.stays_drainTimeouts fuel).bind fun _ => h.stays_bind (by trivial) fun _ => ?_
  exact hrescan.ite (stays_pure true)

theorem stays_handleSocketEvent (fuel generation : ℕ) (events : EpollEvents) :
    Stays upd P I (handleSocketEvent config fuel generation events) := by
  unfold handleSocketEvent
  refine stays_get_bind fun st => ?_
  cases st.eventToFd[generation]? with
  | none => exact stays_pure ()
  | some fd =>
    have hserve (b b' : Bool) : Stays upd P I (Proc.when b (handleRead config fuel fd
        events.readHangup) >>= fun _ => find fd >>= fun o => Proc.when (o.isSome && b')
          (handleWrite config fuel fd)) :=
      (h.stays_handleRead fuel _).when.bind fun _ => stays_find_bind
        (h.stays_handleWrite fuel).when fun s st _ hI _ => (h.stays_handleWrite fuel).when s st hI
    refine Stays.ite (h.stays_bind (by trivial) fun _ => h.close _ _) ?_
    exact stays_find_bind (hserve _ _) fun s st e hI _ => hserve _ _ s st hI

end Unmoved

end EventLoop

end AegisFlow
