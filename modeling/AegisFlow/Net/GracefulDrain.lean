import AegisFlow.Lts.Basic
import AegisFlow.Net.EventLoopSpec
import AegisFlow.Net.SessionStream

/-!
# Graceful drain

When the server shuts down gracefully, a flag that all event loops share is set.  At the end of
`drainMailboxes` a loop that sees the flag runs `applyGracefulDrain`: it closes the sessions that
wait for a request and marks those that write a response to be closed after it.  This file shows
that a loop never goes back behind that.

* `DrainView`, `DrainView.next` : what the loop's operations show of a drain.  The flag is never
  taken back, so that a loop which has seen it set cannot read it as clear;
* `Session.Fine`, `Session.Passing` : what a session may be between two events and while one is
  served;
* `Around` : the contract of everything that serves one connection: the session on `fd` ends up
  fine, and nothing is said or changed about the others;
* `drainSystem` : the loop between two epoll events;
* `drain_only_progresses` : **once `applyGracefulDrain` ran with the flag set, every session
  processes a request or writes its last response, and nothing is dispatched any more.**
-/

namespace AegisFlow

/-! ### What the loop has seen -/

/-- What the operations of a loop show of a graceful drain. -/
structure DrainView where
  /-- The loop has read the flag as set. -/
  requested : Bool := false
  /-- The registration mailbox was found empty and the flag was not read since: this is where
  `drainMailboxes` enters `applyGracefulDrain`. -/
  emptied : Bool := false
  /-- `applyGracefulDrain` was run with the flag set. -/
  drained : Bool := false
  /-- The requests that were submitted to the worker pool after that. -/
  late : List BusinessRequest := []
  deriving DecidableEq, Repr

variable {op : LoopOp}

namespace DrainView

/-- The view after an operation; nothing if the reply is not possible. -/
def next (v : DrainView) : (op : LoopOp) → op.Reply → Option DrainView
  | .popConnection, fd => some { v with emptied := fd.isNone }
  | .drainRequested, true =>
    some { v with requested := true, emptied := false, drained := v.drained || v.emptied }
  -- the flag is never taken back
  | .drainRequested, false => if v.requested then none else some { v with emptied := false }
  | .trySubmit request, _ =>
    some (if v.drained then { v with late := v.late ++ [request] } else v)
  | _, _ => some v

/-- The view after an operation, once the replies were possible. -/
def upd (v : Option DrainView) (op : LoopOp) (r : op.Reply) : Option DrainView :=
  v.bind fun v => v.next op r

/-- The view outside `applyGracefulDrain`, of a loop that drains (`d`) or does not. -/
structure Calm (d : Bool) (v : DrainView) : Prop where
  drained : v.drained = d
  emptied : v.emptied = false
  requested : d = true → v.requested = true
  late : v.late = []

/-- Operations that show in the view. -/
def Shows : LoopOp → Prop
  | .popConnection | .drainRequested | .trySubmit _ => True
  | _ => False

theorem upd_of_not_shows (hop : ¬ Shows op) (v : Option DrainView) (r : op.Reply) :
    upd v op r = v := by
  cases v <;> cases op <;> first | rfl | exact absurd trivial hop

variable {d : Bool} {v v' : DrainView}

/-- The flag was read as set. -/
theorem Calm.asked_set (h : v.Calm d) (hv' : v' ∈ upd (some v) .drainRequested true) :
    v'.Calm d := by
  obtain rfl : { v with requested := true, emptied := false, drained := v.drained || v.emptied } =
    v' := Option.some.inj hv'
  refine ⟨?_, rfl, fun _ => rfl, h.late⟩
  rw [h.emptied, Bool.or_false]
  exact h.drained

/-- The flag was read as clear: the loop does not drain. -/
theorem Calm.asked_clear (h : v.Calm d) (hv' : v' ∈ upd (some v) .drainRequested false) :
    v'.Calm d ∧ d = false := by
  have hrequested : v.requested = false := by
    cases hv : v.requested with
    | false => rfl
    | true => simp [upd, next, hv] at hv'
  have hd : d = false := by
    cases d with
    | false => rfl
    | true => exact absurd (h.requested rfl) (by simp [hrequested])
  obtain rfl : { v with emptied := false } = v' := by simpa [upd, next, hrequested] using hv'
  exact ⟨⟨h.drained, rfl, h.requested, h.late⟩, hd⟩

/-- A request was submitted by a loop that does not drain. -/
theorem Calm.submitted (h : v.Calm d) (hd : d = false) {request : BusinessRequest}
    {r : Option WorkerSubmitStatus} (hv' : v' ∈ upd (some v) (.trySubmit request) r) :
    v'.Calm d := by
  have hdrained : v.drained = false := h.drained.trans hd
  obtain rfl : v = v' := by simpa [upd, next, hdrained] using hv'
  exact h

end DrainView

/-! ### Sessions -/

namespace Session

variable {s : Session} {d : Bool} {fd : ℤ}

/-- What the session on `fd` may be between two events: of a loop that drains (`d`), it processes
a request, or writes a response and is closed after it. -/
def Fine (d : Bool) (fd : ℤ) (s : Session) : Prop :=
  s.token.fd = fd ∧ (s.state = .reading ∧ d = false ∨ s.state = .processing ∨
    s.state = .writing ∧ (d = true → s.closeAfterWriteFlag = true))

/-- What the session on `fd` may be while an event is served: a closed one is removed soon. -/
def Passing (d : Bool) (fd : ℤ) (s : Session) : Prop :=
  s.token.fd = fd ∧ (s.Fine d fd ∨ ¬ s.isOpen)

theorem Fine.passing (h : s.Fine d fd) : s.Passing d fd := ⟨h.1, .inl h⟩

theorem Passing.fine (h : s.Passing d fd) (hopen : s.isOpen) : s.Fine d fd :=
  h.2.resolve_right fun hclosed => hclosed hopen

/-- Draining asks for more. -/
theorem Fine.of_drained (h : s.Fine true fd) : s.Fine d fd := by
  obtain ⟨htoken, hread | hproc | hwrite⟩ := h
  · cases hread.2
  · exact ⟨htoken, .inr (.inl hproc)⟩
  · exact ⟨htoken, .inr (.inr ⟨hwrite.1, fun _ => hwrite.2 rfl⟩)⟩

/-- A session that drains has no request to read. -/
theorem Fine.state_ne_reading (h : s.Fine d fd) (hread : s.state = .reading) : d = false := by
  obtain ⟨-, hreading | hproc | hwrite⟩ := h
  · exact hreading.2
  · simp [hread] at hproc
  · simp [hread] at hwrite

/-- Decoding leaves a session reading or with a request, or closes it. -/
theorem consumeReadingBytes_state (hs : s.state = .reading) (input : Bytes)
    (storeRemainder : Bool) :
    (s.consumeReadingBytes input storeRemainder).2.state = .reading ∨
      (s.consumeReadingBytes input storeRemainder).2.state = .processing ∨
      ¬ (s.consumeReadingBytes input storeRemainder).2.isOpen := by
  have hloop := readLoop_progress storeRemainder input input.length
    ⟨s, 0, { status := .buffered }, false⟩ (.inl hs)
  unfold consumeReadingBytes finishReading
  generalize readLoop storeRemainder input input.length ⟨s, 0, { status := .buffered }, false⟩ = r
    at *
  have hstate : r.session.state = .reading ∨ r.session.state = .processing ∨
      ¬ r.session.isOpen := by
    rcases hloop with hread | hclosing | ⟨hproc, -⟩
    · exact .inl hread
    · exact .inr (.inr fun hopen => hopen.1 hclosing)
    · exact .inr (.inl hproc)
  split_ifs
  · exact .inr (.inr (beginClose_not_open (by simp)))
  · dsimp only
    rw [appendPendingInput_frame]
    exact hstate
  · exact hstate

/-- Reading goes on in a loop that does not drain. -/
theorem passing_of_state (htoken : s.token.fd = fd)
    (hs : s.state = .reading ∨ s.state = .processing ∨ ¬ s.isOpen) : s.Passing false fd := by
  refine ⟨htoken, ?_⟩
  rcases hs with hread | hproc | hclosed
  · exact .inl ⟨htoken, .inl ⟨hread, rfl⟩⟩
  · exact .inl ⟨htoken, .inr (.inl hproc)⟩
  · exact .inr hclosed

theorem Passing.onInput (h : s.Passing d fd) (input : Bytes) :
    (s.onInput input).2.Passing d fd := by
  refine ⟨(congrArg _ (onInput_token s input)).trans h.1, ?_⟩
  unfold Session.onInput
  split_ifs with hclosing hclosed hnil hread hfull
  · exact h.2
  · exact h.2
  · exact h.2
  · exact .inr (beginClose_not_open (by simp))
  · -- the bytes wait for the end of the request
    dsimp only
    rw [appendPendingInput_frame]
    exact h.2
  · rw [not_not] at hread
    obtain rfl := (h.fine ⟨hclosing, hclosed⟩).state_ne_reading hread
    have htoken :=
      (congrArg ConnectionToken.fd (frame_consumeReadingBytes s input true).token).trans h.1
    exact (passing_of_state htoken (consumeReadingBytes_state hread input true)).2

/-- A session that reads on after a response belongs to a loop that does not drain. -/
theorem passing_onResponseWritten (h : s.Fine d fd) (hs : s.state = .writing) :
    s.onResponseWritten.2.Fine d fd ∨ ¬ s.onResponseWritten.2.isOpen := by
  obtain ⟨htoken, hreading | hproc | ⟨-, hflag⟩⟩ := h
  · simp [hs] at hreading
  · simp [hs] at hproc
  rcases onResponseWritten_cases s with hclosed | hsame | ⟨hclear, -, -, hnext⟩
  · exact .inr hclosed
  · rw [hsame]
    exact .inl ⟨htoken, .inr (.inr ⟨hs, hflag⟩)⟩
  · obtain rfl : d = false := by
      cases d with
      | false => rfl
      | true => exact absurd (hflag rfl) (by simp [hclear])
    rw [hnext]
    unfold consumePendingInput
    split_ifs
    · exact .inl ⟨htoken, .inl ⟨rfl, rfl⟩⟩
    · dsimp only
      rw [advancePendingInput_frame]
      refine (passing_of_state ?_ (consumeReadingBytes_state rfl _ false)).2
      exact (congrArg _ (frame_consumeReadingBytes _ _ _).token).trans htoken

theorem Passing.onBytesWritten (h : s.Passing d fd) (count : ℕ) :
    (s.onBytesWritten count).2.Passing d fd := by
  refine ⟨(congrArg _ (onBytesWritten_token s count)).trans h.1, ?_⟩
  rcases onBytesWritten_cases s count with hclosed | ⟨-, heq⟩ | ⟨hs, -, heq | ⟨-, heq⟩⟩
  · exact .inr hclosed
  · rw [heq]
    exact h.2
  · rw [heq]
    exact h.2
  · rw [heq]
    exact passing_onResponseWritten (h.fine (by simp [isOpen, hs])) hs

theorem Passing.onPeerReadClosed (h : s.Passing d fd) : s.onPeerReadClosed.2.Passing d fd := by
  refine ⟨(congrArg _ (onPeerReadClosed_token s)).trans h.1, ?_⟩
  simp only [Session.onPeerReadClosed]
  split_ifs
  · exact h.2
  · exact h.2
  · exact h.2
  · exact .inr (beginClose_not_open (by simp))
  · exact .inr (beginClose_not_open (by simp))

/-- A response that is accepted is written by a loop that does not drain. -/
theorem Passing.queueResponse (h : s.Passing d fd) (hd : d = false) (token : ConnectionToken)
    (response : Bytes) : (s.queueResponse token response).2.Passing d fd := by
  rcases queueResponse_cases s token response with ⟨-, hsame | hclosed⟩ | ⟨-, -, -, heq⟩
  · rw [hsame]
    exact h
  · exact ⟨(congrArg _ (queueResponse_token s token response)).trans h.1, .inr hclosed⟩
  · rw [heq]
    refine Fine.passing ⟨h.1, .inr (.inr ⟨rfl, fun hdrain => ?_⟩)⟩
    rw [hd] at hdrain
    cases hdrain

theorem passing_closeAfterWrite (h : s.token.fd = fd) (hs : s.state = .writing)
    {reason : SessionCloseReason} (hreason : reason ≠ .none) :
    (s.closeAfterWrite reason).2.Passing d fd := by
  have hmarked : (s.closeAfterWrite reason).2 =
      { s with closeReason := reason, closeAfterWriteFlag := true } := by
    simp [Session.closeAfterWrite, hs, hreason]
  rw [hmarked]
  exact Fine.passing ⟨h, .inr (.inr ⟨hs, fun _ => rfl⟩)⟩

end Session

/-! ### One connection -/

/-- The session on `fd` is `K`, those on the other descriptors are `J`, and the loop drains (`d`)
or does not; as long as the replies were possible. -/
def Around (d : Bool) (J : ℤ → Session → Prop) (fd : ℤ) (K : Session → Prop)
    (v : Option DrainView) (st : LoopState) : Prop :=
  ∀ x ∈ v, x.Calm d ∧
    (∀ (fd' : ℤ) e, fd' ≠ fd → st.sessions[fd']? = some e → J fd' e.session) ∧
    ∀ e, st.sessions[fd]? = some e → K e.session

namespace Around

variable {d : Bool} {J : ℤ → Session → Prop} {K K' : Session → Prop} {fd : ℤ}
  {v : Option DrainView} {st st' : LoopState} {e e' : SessionEntry}

/-- What happens to the entry on `fd` matters only. -/
theorem step (h : Around d J fd K v st) (hst : Elsewhere fd st st')
    (hentry : ∀ x ∈ v, ∀ e', st'.sessions[fd]? = some e' →
      ∃ e, st.sessions[fd]? = some e ∧ (K e.session → K' e'.session)) : Around d J fd K' v st' := by
  intro x hx
  obtain ⟨hcalm, hothers, hown⟩ := h x hx
  refine ⟨hcalm, fun fd' e hne he => ?_, fun e' he' => ?_⟩
  · rw [hst.others fd' hne] at he
    exact hothers fd' e hne he
  · obtain ⟨e, he, hK⟩ := hentry x hx e' he'
    exact hK (hown e he)

theorem mono (h : Around d J fd K v st) (hK : ∀ s, K s → K' s) : Around d J fd K' v st :=
  h.step (.refl st) fun _ _ e he => ⟨e, he, hK _⟩

theorem put (h : Around d J fd K v st) (he : st.sessions[fd]? = some e)
    (hK : ∀ x ∈ v, K e.session → K' e'.session) : Around d J fd K' v (st.put fd e') := by
  refine h.step ((Elsewhere.refl st).put e') fun x hx e₁ he₁ => ?_
  rw [TreeMap.lookup_insert, if_pos rfl] at he₁
  cases he₁
  exact ⟨e, he, hK x hx⟩

/-- What is known about the entry says more. -/
theorem found (h : Around d J fd K v st) (he : st.sessions[fd]? = some e)
    (hK : K e.session → K' e.session) : Around d J fd K' v st := by
  refine h.step (.refl st) fun x hx e₁ he₁ => ?_
  obtain rfl := Option.some.inj (he.symm.trans he₁)
  exact ⟨e, he, hK⟩

/-- The entry is set once more. -/
theorem put_put (h : Around d J fd K v (st.put fd e))
    (hK : ∀ x ∈ v, K e.session → K' e'.session) :
    Around d J fd K' v ((st.put fd e).put fd e') :=
  h.put (by rw [TreeMap.lookup_insert, if_pos rfl]) hK

section

variable (h : Around d J fd K v st)
include h

theorem timersOnly (ht : TimersOnly fd st st')
    (hK : ∀ (s : Session) timers, K s → K { s with timers := timers }) : Around d J fd K v st' := by
  refine h.step ht.elsewhere fun x hx e₁ he₁ => ?_
  obtain ⟨e₀, he₀, hentry⟩ := ht.entry e₁ he₁
  obtain ⟨timers, hsession⟩ := hentry.session
  rw [hsession]
  exact ⟨e₀, he₀, hK _ timers⟩

theorem without (hw : Without fd st st') : Around d J fd K' v st' := by
  refine h.step hw.toElsewhere fun x hx e₁ he₁ => ?_
  rw [hw.gone] at he₁
  cases he₁

theorem registered (hreg : Registered fd e st st')
    (hK : e.session.isOpen → K e.session → K' e.session) : Around d J fd K' v st' := by
  refine h.step hreg.elsewhere fun x hx e₁ he₁ => ?_
  rw [hreg.after] at he₁
  cases he₁
  exact ⟨e, hreg.before, hK hreg.isOpen⟩

/-- The flag was read. -/
theorem asked (r : Bool) : Around d J fd K (DrainView.upd v .drainRequested r) st := by
  cases v with
  | none => exact fun x hx => by cases hx
  | some v =>
    intro x hx
    obtain ⟨hcalm, hothers, hown⟩ := h v rfl
    cases r with
    | true => exact ⟨hcalm.asked_set hx, hothers, hown⟩
    | false => exact ⟨(hcalm.asked_clear hx).1, hothers, hown⟩

/-- The flag was read as clear: the loop does not drain. -/
theorem not_draining : ∀ x ∈ DrainView.upd v .drainRequested false, d = false := by
  cases v with
  | none => exact fun x hx => by cases hx
  | some v => exact fun x hx => ((h v rfl).1.asked_clear hx).2

/-- A request was submitted. -/
theorem submitted (hd : ∀ x ∈ v, d = false) (request : BusinessRequest)
    (r : Option WorkerSubmitStatus) :
    Around d J fd K (DrainView.upd v (.trySubmit request) r) st ∧
      ∀ x ∈ DrainView.upd v (.trySubmit request) r, d = false := by
  cases v with
  | none => exact ⟨(fun x hx => by cases hx), fun x hx => by cases hx⟩
  | some v =>
    obtain ⟨hcalm, hothers, hown⟩ := h v rfl
    exact ⟨fun x hx => ⟨hcalm.submitted (hd v rfl) hx, hothers, hown⟩, fun _ _ => hd v rfl⟩

end

end Around

/-! ### The procedures that serve a connection -/

namespace EventLoop

/-- Contracts in terms of `DrainView`. -/
abbrev Drains {α : Type} (R : Option DrainView → LoopState → α → Prop) (v : Option DrainView)
    (st : LoopState) (m : Loop α) : Prop :=
  Proc.Ensures (E := LoopSig) DrainView.upd (fun _ _ => True) R v st m

theorem silent_unseen :
    Silent DrainView.upd (fun _ _ => True) (fun op => ¬ DrainView.Shows op) where
  allowed _ _ _ := trivial
  unseen v _ r h := DrainView.upd_of_not_shows h v r

theorem silent_drainClose : Silent DrainView.upd (fun _ _ => True) CloseOp :=
  silent_unseen.mono fun op hop => by cases op <;> first | exact hop.elim | exact id

theorem silent_drainTimer : Silent DrainView.upd (fun _ _ => True) TimerOp :=
  silent_unseen.mono fun op hop => by cases op <;> first | exact hop.elim | exact id

variable {config : EventLoopConfig} {α : Type} {d : Bool} {J : ℤ → Session → Prop}
  {K K' : Session → Prop} {fd : ℤ} {v : Option DrainView} {st st₀ : LoopState} {e : SessionEntry}
  {token : ConnectionToken}

/-- The session on `fd` is being served. -/
abbrev Serving (d : Bool) (J : ℤ → Session → Prop) (fd : ℤ) : Option DrainView → LoopState → Prop :=
  Around d J fd (Session.Passing d fd)

/-- The session on `fd` was served. -/
abbrev Served (d : Bool) (J : ℤ → Session → Prop) (fd : ℤ) : Option DrainView → LoopState → Prop :=
  Around d J fd (Session.Fine d fd)

/-- The procedure serves the session on `fd`. -/
abbrev Serves (d : Bool) (J : ℤ → Session → Prop) (fd : ℤ) (v : Option DrainView) (st : LoopState)
    (m : Loop Unit) : Prop :=
  Drains (fun v st _ => Served d J fd v st) v st m

/-- An operation that does not show, and what follows it. -/
theorem drains_unseen_bind (hop : ¬ DrainView.Shows op) {f : op.Reply → Loop α}
    {R : Option DrainView → LoopState → α → Prop} (h : ∀ r, Drains R v st (f r)) :
    Drains R v st (Proc.perform (E := LoopSig) op >>= f) := by
  refine .call trivial fun r => ?_
  rw [DrainView.upd_of_not_shows hop]
  exact h r

/-- Closing a session, whatever became of it since `st₀`. -/
theorem drains_closeSession_since (h : Around d J fd K v st₀) (hst : Elsewhere fd st₀ st)
    (reason : SessionCloseReason) (notify : Bool) :
    Drains (fun v st _ => Around d J fd K' v st) v st (closeSession fd reason notify) :=
  (closeSession_ensures silent_drainClose reason notify).mono fun _ _ _ ⟨hv, hw⟩ =>
    hv ▸ h.without (.of_elsewhere hst hw)

theorem drains_closeSession (h : Around d J fd K v st) (reason : SessionCloseReason)
    (notify : Bool) :
    Drains (fun v st _ => Around d J fd K' v st) v st (closeSession fd reason notify) :=
  drains_closeSession_since h (.refl st) reason notify

section

variable (h : Serving d J fd v st)
include h

theorem drains_settleInterest : Serves d J fd v st (settleInterest fd) := by
  refine (settleInterest_ensures id silent_drainClose (fun _ _ _ => trivial)
    fun v _ _ r => DrainView.upd_of_not_shows id v r).mono fun v' st' _ hsettled => ?_
  rcases hsettled with ⟨hw, hv⟩ | ⟨e, hreg, hv⟩
  · rw [id, or_self] at hv
    rw [hv]
    exact h.without hw
  · rw [id, ite_self] at hv
    rw [hv]
    exact h.registered hreg fun hopen hpass => hpass.fine hopen

theorem drains_syncDeadline :
    Drains (fun v st _ => Serving d J fd v st) v st (syncDeadline config fd) :=
  (syncDeadline_ensures silent_drainTimer).mono fun _ _ _ ⟨hv, ht⟩ =>
    hv ▸ h.timersOnly ht fun _ _ hs => hs

theorem drains_cancelDeadline :
    Drains (fun v st _ => Serving d J fd v st) v st (cancelDeadline fd) :=
  (cancelDeadline_ensures (silent_drainTimer.cancel fun _ => trivial)).mono fun _ _ _ ⟨hv, ht⟩ =>
    hv ▸ h.timersOnly ht fun _ _ hs => hs

/-- Set the deadline, then go on, or close the session if there is no timer. -/
theorem drains_sync_ite {m : Loop Unit} (hm : ∀ v st, Serving d J fd v st → Serves d J fd v st m)
    (reason : SessionCloseReason) :
    Serves d J fd v st (do
      if ← syncDeadline config fd then m else closeSession fd reason true) := by
  refine (drains_syncDeadline h).bind fun v' st' ok h' => ?_
  cases ok with
  | true => exact hm v' st' h'
  | false => exact drains_closeSession h' _ _

theorem drains_clearBusinessExpired :
    Drains (fun v st _ => Serving d J fd v st) v st (clearBusinessExpired fd) := by
  unfold clearBusinessExpired
  exact .find (fun _ => .ret h) fun e he => .set (h.put he fun _ _ hs => hs)

end

/-- A request is dispatched only if the loop does not drain. -/
theorem drains_dispatchRequest {write : ℤ → Loop Unit}
    (hwrite : ∀ v st, Serving d J token.fd v st → Serves d J token.fd v st (write token.fd))
    (h : Serving d J token.fd v st) (request : Bytes) :
    Drains (fun v st accepted => Around d J token.fd
      (if accepted then Session.Passing d token.fd else Session.Fine d token.fd) v st) v st
      (dispatchRequest config write token request) := by
  unfold dispatchRequest
  extract_lets refuse
  have hrefuse {v : Option DrainView} {st : LoopState}
      (h : Serving d J token.fd v st) (reason : SessionCloseReason) :
      Drains (fun v st accepted => Around d J token.fd
        (if accepted then Session.Passing d token.fd else Session.Fine d token.fd) v st) v st
        (refuse reason) := by
    have hclose : Serves d J token.fd v st
        (closeSession token.fd reason true) := drains_closeSession h reason true
    exact hclose.bind fun v st _ h => .ret h
  refine .call trivial fun drain => .ite (fun _ => hrefuse (h.asked drain) _) fun hclear => ?_
  obtain rfl : drain = false := by simpa using hclear
  have hd := h.not_draining
  have h := h.asked false
  generalize DrainView.upd v .drainRequested false = v at *
  refine .call trivial fun r => ?_
  obtain ⟨h, hd⟩ := h.submitted hd ⟨token, request⟩ r
  generalize DrainView.upd v (.trySubmit ⟨token, request⟩) r = v at *
  refine .ite (fun _ => ?_) fun _ => ?_
  · refine (drains_clearBusinessExpired h).bind fun v st _ h => ?_
    refine (drains_syncDeadline h).bind fun v st ok h => ?_
    cases ok with
    | true => exact .ret h
    | false => exact hrefuse h _
  · refine .call trivial fun drain => .ite
      (fun _ => hrefuse (h.asked drain) _) fun hclear => ensures_find_bind.mpr ?_
    obtain rfl : drain = false := by simpa using hclear
    have hd := h.not_draining
    have h := h.asked false
    generalize DrainView.upd v .drainRequested false = v at *
    cases he : st.sessions[token.fd]? with
    | none => exact hrefuse h _
    | some e =>
      refine .ite (fun _ => hrefuse h _) fun _ => ?_
      refine drains_unseen_bind id fun full => .ite
        (fun _ => hrefuse h _) fun _ => .put ?_
      have hqueued : Serving d J token.fd v (st.put token.fd { e with
          session := (e.session.queueResponse token config.overloadResponseFrame).2 }) :=
        h.put he fun x hx hs => hs.queueResponse (hd x hx) _ _
      refine .ite (fun _ => ?_) fun _ => .ite
        (fun _ => hrefuse hqueued _) fun _ => hrefuse hqueued _
      refine (drains_syncDeadline hqueued).bind fun v st ok h => ?_
      cases ok with
      | true => exact (hwrite v st h).bind fun v st _ h => .ret h
      | false => exact hrefuse h _

/-- After an impossible reply nothing has to be shown. -/
theorem drains_none {R R' : Option DrainView → LoopState → α → Prop} {m : Loop α}
    (h : Drains R none st m) (hR : ∀ st a, R' none st a) : Drains R' none st m := by
  refine (h.invariant (I := (· = none)) (fun v op r _ hv => ?_) rfl).mono ?_
  · rw [hv]
    rfl
  · rintro v st a ⟨-, rfl⟩
    exact hR st a

/-- The request comes from the session on `fd`. -/
theorem drains_dispatch {write : ℤ → Loop Unit}
    (hwrite : ∀ fd v st, Serving d J fd v st → Serves d J fd v st (write fd))
    (h : Serving d J fd v st) (htoken : ∀ x ∈ v, token.fd = fd) (request : Bytes) :
    Drains (fun v st accepted => Around d J fd
      (if accepted then Session.Passing d fd else Session.Fine d fd) v st) v st
      (dispatchRequest config write token request) := by
  cases v with
  | none =>
    refine drains_none (drains_dispatchRequest (hwrite _) (d := d) (J := J) ?_ request) ?_
    · exact fun x hx => by cases hx
    · exact fun _ _ x hx => by cases hx
  | some x =>
    obtain rfl := htoken x rfl
    exact drains_dispatchRequest (hwrite _) h request

theorem drains_handleWrite (fuel : ℕ) (h : Serving d J fd v st) :
    Serves d J fd v st (handleWrite config fuel fd) := by
  induction fuel generalizing fd v st with
  | zero => exact ensures_diverge fun _ => trivial
  | succ fuel ih =>
    unfold handleWrite
    refine .find (fun he => .ret (h.without ⟨.refl st, he⟩)) fun e he => ?_
    refine .ite (fun _ => drains_closeSession h _ _) fun _ => ?_
    refine .ite (fun _ => drains_settleInterest h) fun _ => ?_
    refine .ite (fun _ => drains_closeSession h _ _) fun _ => ?_
    refine drains_unseen_bind id fun r => ?_
    cases r with
    | sent count =>
      refine .ite (fun _ => drains_closeSession h _ _) fun _ => ?_
      refine drains_unseen_bind id fun full => .ite
        (fun _ => drains_closeSession h _ _) fun _ => .put ?_
      have hsent : Serving d J fd v
          (st.put fd { e with session := (e.session.onBytesWritten count).2 }) :=
        h.put he fun _ _ hs => hs.onBytesWritten count
      split
      · -- a request that had waited
        refine (drains_dispatch (fun _ _ _ => ih) hsent
          (fun x hx => ((h x hx).2.2 e he).1) _).bind fun v' st' accepted h' => ?_
        cases accepted with
        | true => exact ih h'
        | false => exact .ret h'
      · exact drains_sync_ite hsent (fun _ _ h' => ih h') _
    | interrupted => exact ih h
    | again => exact drains_settleInterest h
    | failed => exact drains_closeSession h _ _

/-- A response was queued: write it, or close the session if there is no timer. -/
theorem drains_syncWrite (fuel : ℕ) (h : Serving d J fd v st) :
    Serves d J fd v st (do
      if ← syncDeadline config fd then handleWrite config fuel fd
      else closeSession fd .resourceExhausted true) :=
  drains_sync_ite h (fun _ _ h' => drains_handleWrite fuel h') _

theorem drains_afterInput {drainPeerClose : Bool} {readOn : Loop Unit}
    (hread : ∀ v st, Serving d J fd v st → Serves d J fd v st readOn)
    (h : Serving d J fd v st) :
    Serves d J fd v st (afterInput config fd drainPeerClose readOn) := by
  unfold afterInput
  refine .find (fun he => .ret (h.without ⟨.refl st, he⟩)) fun e _ => ?_
  have hgo (synced : Bool) {v : Option DrainView} {st : LoopState}
      (h : Serving d J fd v st) :
      Serves d J fd v st (if (!synced) = true then closeSession fd .resourceExhausted true
        else if (!drainPeerClose && !e.session.interest.read) = true then settleInterest fd
        else readOn) :=
    .ite (fun _ => drains_closeSession h _ _) fun _ => .ite
      (fun _ => drains_settleInterest h) fun _ => hread _ _ h
  refine .ite (fun _ => drains_closeSession h _ _) fun _ => ?_
  refine .ite (fun _ => ?_) fun _ => hgo true h
  exact (drains_syncDeadline h).bind fun v' st' synced h' => hgo synced h'

theorem drains_peerClosed (h : Serving d J fd v st) :
    Serves d J fd v st (peerClosed fd) := by
  unfold peerClosed
  refine .find (fun he => .ret (h.without ⟨.refl st, he⟩)) fun e he => ?_
  refine .put ?_
  have hclosed : Serving d J fd v (st.put fd { e with session := e.session.onPeerReadClosed.2 }) :=
    h.put he fun _ _ hs => hs.onPeerReadClosed
  exact .ite (fun _ => drains_closeSession hclosed _ _) fun _ => drains_settleInterest hclosed

theorem drains_handleRead (fuel : ℕ) (drainPeerClose : Bool)
    (h : Serving d J fd v st) :
    Serves d J fd v st (handleRead config fuel fd drainPeerClose) := by
  induction fuel generalizing v st with
  | zero => exact ensures_diverge fun _ => trivial
  | succ fuel ih =>
    unfold handleRead
    refine .find (fun he => .ret (h.without ⟨.refl st, he⟩)) fun e he => ?_
    refine drains_unseen_bind id fun r => ?_
    cases r with
    | data bytes =>
      refine drains_unseen_bind id fun full => .ite
        (fun _ => drains_closeSession h _ _) fun _ => .put ?_
      have hinput : Serving d J fd v
          (st.put fd { e with session := (e.session.onInput bytes).2 }) :=
        h.put he fun _ _ hs => hs.onInput bytes
      split
      · exact drains_afterInput (fun _ _ h' => ih h') hinput
      · refine (drains_dispatch (fun _ _ _ => drains_handleWrite fuel) hinput
          (fun x hx => ((h x hx).2.2 e he).1) _).bind fun v' st' accepted h' => ?_
        cases accepted with
        | true => exact drains_afterInput (fun _ _ h' => ih h') h'
        | false => exact .ret h'
    | closed => exact drains_peerClosed h
    | interrupted => exact ih h
    | again => exact drains_settleInterest h
    | failed => exact drains_closeSession h _ _

/-! ### Timeouts and completions -/

/-- The answer to a request that took too long is the last one. -/
theorem drains_expireBusiness (fuel : ℕ) (h : Serving d J fd v st)
    (he : st.sessions[fd]? = some e) :
    Serves d J fd v st (expireBusiness config fuel fd e) := by
  unfold expireBusiness
  refine .put ?_
  have hexpired : Around d J fd (fun s => s.token.fd = fd) v
      (st.put fd { e with businessExpired := true }) := h.put he fun _ _ hs => hs.1
  refine .ite (fun _ => drains_closeSession hexpired _ _) fun _ => ?_
  refine drains_unseen_bind id fun full => .ite
    (fun _ => drains_closeSession hexpired _ _) fun _ => .put ?_
  rcases Session.queueResponse_cases e.session e.session.token config.businessTimeoutResponseFrame
    with ⟨hrefused, -⟩ | ⟨-, -, -, hqueued⟩
  · rw [if_neg hrefused]
    exact drains_closeSession_since hexpired ((Elsewhere.refl _).put _) _ _
  · rw [hqueued, if_pos rfl]
    refine .put ?_
    have hqueue : Around d J fd (fun s => s.token.fd = fd ∧ s.state = .writing) v
        ((st.put fd { e with businessExpired := true }).put fd { e with
          session := { e.session with
            output := config.businessTimeoutResponseFrame, outputOffset := 0, state := .writing }
          businessExpired := true }) := hexpired.put_put fun _ _ hs => ⟨hs, rfl⟩
    refine .ite (fun _ => ?_) fun _ => ?_
    · exact drains_closeSession_since hqueue ((Elsewhere.refl _).put _) _ _
    · refine drains_syncWrite fuel (hqueue.put_put fun _ _ hs => ?_)
      exact Session.passing_closeAfterWrite hs.1 hs.2 (by decide)

theorem drains_handleTimeoutEvent (fuel : ℕ) (event : TimerEvent)
    (h : Served d J event.targetFd v st) :
    Serves d J event.targetFd v st (handleTimeoutEvent config fuel event) := by
  unfold handleTimeoutEvent
  refine .find (fun _ => .ret h) fun e he => ?_
  refine .ite (fun _ => .ret h) fun _ => ?_
  refine .ite (fun _ => .ret h) fun _ => ?_
  refine drains_unseen_bind id fun now => .ite (fun _ => .ret h) fun _ => .put ?_
  have hfired : Served d J event.targetFd v
      (st.put event.targetFd { e with
        session := (e.session.replaceTimer (sessionTimerKind event.kind) {}).2
        deadlineActive := false }) := h.put he fun _ _ hs => hs
  split
  · exact drains_closeSession hfired _ _
  · exact drains_closeSession hfired _ _
  · exact drains_closeSession hfired _ _
  · -- the outstanding request took too long
    refine drains_expireBusiness fuel (hfired.mono fun _ hs => hs.passing) ?_
    rw [TreeMap.lookup_insert, if_pos rfl]
  · exact .ret hfired
  · exact .ret hfired

/-- A response that a loop which drains accepts is the last one. -/
theorem drains_respond (fuel : ℕ) (completion : BusinessCompletion)
    (h : Serving d J completion.token.fd v st) :
    Serves d J completion.token.fd v st (respond config fuel completion) := by
  unfold respond
  extract_lets fd
  refine .find (fun he => .ret (h.without ⟨.refl st, he⟩)) fun e he => ?_
  refine .put ?_
  rcases Session.queueResponse_cases e.session completion.token completion.responseFrame
    with ⟨hrefused, -⟩ | ⟨-, -, -, hqueued⟩
  · rw [if_pos hrefused]
    exact drains_closeSession_since h ((Elsewhere.refl st).put _) _ _
  · rw [hqueued, if_neg (by simp)]
    have hput : Around d J fd (fun s => s.token.fd = fd ∧ s.state = .writing) v
        (st.put fd { e with session := { e.session with
          output := completion.responseFrame, outputOffset := 0, state := .writing } }) :=
      h.put he fun _ _ hs => ⟨hs.1, rfl⟩
    refine .call trivial fun drain => ?_
    cases drain with
    | true =>
      refine .put (drains_syncWrite fuel ?_)
      refine (hput.asked true).put_put fun _ _ hs => ?_
      exact Session.passing_closeAfterWrite hs.1 hs.2 (by decide)
    | false =>
      refine drains_syncWrite fuel fun x hx => ?_
      obtain ⟨hcalm, hothers, hown⟩ := hput.asked false x hx
      refine ⟨hcalm, hothers, fun e₁ he₁ => ?_⟩
      obtain ⟨htoken, hwriting⟩ := hown e₁ he₁
      refine Session.Fine.passing ⟨htoken, .inr (.inr ⟨hwriting, fun hdrain => ?_⟩)⟩
      rw [hput.not_draining x hx] at hdrain
      cases hdrain

theorem drains_businessDeadlinePassed (h : Around d J fd K v st) (e : SessionEntry) :
    Drains (fun v st _ => Around d J fd K v st) v st (businessDeadlinePassed config e) := by
  unfold businessDeadlinePassed
  refine .ite (fun _ => ?_) fun _ => .ret h
  exact drains_unseen_bind id fun now => .ret h

theorem drains_applyCompletion (fuel : ℕ) (completion : BusinessCompletion)
    (h : Served d J completion.token.fd v st) :
    Serves d J completion.token.fd v st (applyCompletion config fuel completion) := by
  unfold applyCompletion
  refine .find (fun _ => .ret h) fun e _ => ?_
  refine .ite (fun _ => .ret h) fun _ => ?_
  refine .ite (fun _ => .ret h) fun _ => ?_
  refine (drains_businessDeadlinePassed h e).bind fun v st passed h => ?_
  refine .ite (fun _ => drains_handleTimeoutEvent fuel
    (sessionTimerEvent .businessTimeout completion.token e.deadlineSequence) h) fun _ => ?_
  refine (drains_cancelDeadline (h.mono fun _ hs => hs.passing)).bind fun v st _ h => ?_
  refine .ite (fun _ => drains_closeSession h _ _) fun _ => ?_
  exact drains_unseen_bind id fun full => .ite
    (fun _ => drains_closeSession h _ _) fun _ => drains_respond fuel completion h

/-! ### All connections -/

/-- Every session is what it may be between two events. -/
def AllFine (d : Bool) (v : Option DrainView) (st : LoopState) : Prop :=
  ∀ x ∈ v, x.Calm d ∧ ∀ (fd : ℤ) e, st.sessions[fd]? = some e → e.session.Fine d fd

theorem AllFine.around (h : AllFine d v st) (fd : ℤ) :
    Served d (Session.Fine d) fd v st := fun x hx =>
  ⟨(h x hx).1, fun fd' e _ he => (h x hx).2 fd' e he, fun e he => (h x hx).2 fd e he⟩

theorem allFine_of_around (h : Served d (Session.Fine d) fd v st) :
    AllFine d v st := by
  intro x hx
  obtain ⟨hcalm, hothers, hown⟩ := h x hx
  refine ⟨hcalm, fun fd' e he => ?_⟩
  by_cases hfd : fd' = fd
  · subst hfd
    exact hown e he
  · exact hothers fd' e hfd he

/-- Serving one connection leaves the others fine. -/
theorem AllFine.serve {m : Loop Unit} (h : AllFine d v st)
    (hm : Served d (Session.Fine d) fd v st → Serves d (Session.Fine d) fd v st m) :
    Drains (fun v st _ => AllFine d v st) v st m :=
  (hm (h.around fd)).mono fun _ _ _ h' => allFine_of_around h'

theorem drains_handleSocketEvent (fuel generation : ℕ) (events : EpollEvents)
    (h : AllFine d v st) :
    Drains (fun v st _ => AllFine d v st) v st
      (handleSocketEvent config fuel generation events) := by
  unfold handleSocketEvent
  refine .get ?_
  cases st.eventToFd[generation]? with
  | none => exact .ret h
  | some fd =>
    refine .ite (fun _ => ?_) fun _ => ensures_find_bind.mpr ?_
    · exact drains_unseen_bind id fun error => h.serve fun h' => drains_closeSession h' _ _
    · refine Proc.Ensures.bind (.when (fun _ => h.serve fun h' =>
        drains_handleRead fuel events.readHangup (h'.mono fun _ hs => hs.passing)) fun _ => h) ?_
      intro v st _ h
      refine ensures_find_bind.mpr (.when (fun _ => ?_) fun _ => h)
      exact h.serve fun h' => drains_handleWrite fuel (h'.mono fun _ hs => hs.passing)

section

variable (fuel : ℕ) (h : AllFine d v st)
include h

theorem drains_drainCompletions :
    Drains (fun v st _ => AllFine d v st) v st (drainCompletions config fuel) := by
  induction fuel generalizing v st with
  | zero => exact ensures_diverge fun _ => trivial
  | succ fuel ih =>
    unfold drainCompletions
    refine drains_unseen_bind id fun r => ?_
    cases r with
    | none => exact .ret h
    | some completion =>
      exact (h.serve (drains_applyCompletion fuel completion)).bind fun v st _ h => ih h

theorem drains_drainTimeouts :
    Drains (fun v st _ => AllFine d v st) v st (drainTimeouts config fuel) := by
  induction fuel generalizing v st with
  | zero => exact ensures_diverge fun _ => trivial
  | succ fuel ih =>
    unfold drainTimeouts
    refine drains_unseen_bind id fun r => ?_
    cases r with
    | none => exact .ret h
    | some event =>
      exact (h.serve (drains_handleTimeoutEvent fuel event)).bind fun v st _ h => ih h

theorem drains_rescanDeadlines :
    Drains (fun v st _ => AllFine d v st) v st (rescanDeadlines config fuel) := by
  unfold rescanDeadlines
  refine drains_unseen_bind id fun full => .ite
    (fun _ => .ret h) fun _ => drains_unseen_bind id fun now => ?_
  refine .get ?_
  exact (Proc.Ensures.forEach (I := AllFine d) (fun event v st h =>
    h.serve (drains_handleTimeoutEvent fuel event)) _ h).bind fun v st _ h =>
      .ret h

theorem drains_drainTimeoutMailbox :
    Drains (fun v st _ => AllFine d v st) v st (drainTimeoutMailbox config fuel) := by
  unfold drainTimeoutMailbox
  refine .ite (fun _ => .ret h) fun _ => ?_
  refine drains_unseen_bind id fun awake => .ite
    (fun _ => (drains_drainTimeouts fuel h).bind fun v st _ h => ?_)
      fun _ => .ret h
  exact drains_unseen_bind id fun rescan => .ite
    (fun _ => drains_rescanDeadlines fuel h) fun _ => .ret h

end

/-! ### Registrations -/

/-- At most a session on `fd` came in, and it is open. -/
structure Joined (fd : ℤ) (st st' : LoopState) : Prop where
  others : ∀ fd' : ℤ, fd' ≠ fd → st'.sessions[fd']? = st.sessions[fd']?
  own : ∀ e, st'.sessions[fd]? = some e →
    st.sessions[fd]? = some e ∨ e.session.Fine false fd

theorem Joined.refl (fd : ℤ) (st : LoopState) : Joined fd st st :=
  ⟨fun _ _ => rfl, fun _ he => .inl he⟩

/-- Nobody came in, or the session was taken out again. -/
theorem Joined.of_without {st' : LoopState} (hothers : ∀ fd' : ℤ, fd' ≠ fd →
    st'.sessions[fd']? = st.sessions[fd']?) (hgone : st'.sessions[fd]? = none) :
    Joined fd st st' := ⟨hothers, fun e he => by rw [hgone] at he; cases he⟩

theorem create_fine {sessionConfig : SessionConfig} {session : Session}
    (h : Session.create token sessionConfig fd = some session) : session.Fine false fd := by
  unfold Session.create at h
  split_ifs at h with hbad
  cases h
  simp only [Bool.or_eq_true, bne_iff_ne, ne_eq, not_or, not_not] at hbad
  exact ⟨hbad.2.symm, .inl ⟨rfl, rfl⟩⟩

/-- A registration shows in the table of the sessions only. -/
theorem drains_adopt :
    Drains (fun v' st' _ => v' = v ∧ Joined fd st st') v st (adopt config fd) := by
  unfold adopt
  extract_lets refuse
  have hrefuse (status : EventLoopStatus) {st' : LoopState} (h : Joined fd st st') :
      Drains (fun v' st' _ => v' = v ∧ Joined fd st st') v st' (refuse status) := by
    have hclose : Drains (fun v' st'' _ => v' = v ∧ st'' = st') v st'
        (Proc.when (decide (0 ≤ fd)) (Proc.perform (E := LoopSig) (.closeSocket fd))) :=
      .when (fun _ => ensures_silent silent_drainClose trivial) fun _ => ⟨rfl, rfl⟩
    refine hclose.bind ?_
    rintro v' st'' - ⟨rfl, rfl⟩
    exact .ret ⟨rfl, h⟩
  refine .get ?_
  refine .ite (fun _ => hrefuse _ (.refl fd st)) fun _ => ?_
  refine .ite (fun _ => .ret ⟨rfl, .refl fd st⟩) fun _ => ?_
  refine .ite (fun _ => hrefuse _ (.refl fd st)) fun _ => ?_
  refine .ite (fun _ => hrefuse _ (.refl fd st)) fun _ => ?_
  refine allocateGeneration_ensures.bind ?_
  rintro v' st' generation ⟨rfl, ⟨rfl, rfl⟩ | ⟨-, rfl, rfl⟩⟩
  · exact hrefuse _ (.refl fd st')
  have hallocated : Joined fd st { st with
      nextGeneration := generationAfter st.nextGeneration } := ⟨fun _ _ => rfl, fun _ he => .inl he⟩
  refine drains_unseen_bind id fun full => .ite (fun _ => hrefuse _ hallocated) fun _ => ?_
  cases hcreate : Session.create ⟨config.loopId, fd, st.nextGeneration⟩ config.session fd with
  | none => exact hrefuse _ hallocated
  | some session =>
    refine .ite (fun _ => hrefuse _ hallocated) fun _ => ?_
    refine .put (.modify ?_)
    refine drains_unseen_bind id fun ok => .ite
      (fun _ => ?_) fun _ => .modify (hrefuse _ (.of_without ?_ ?_))
    · refine (syncDeadline_ensures silent_drainTimer).bind ?_
      rintro v' st' synced ⟨rfl, htimers⟩
      have hothers (fd' : ℤ) (hne : fd' ≠ fd) : st'.sessions[fd']? = st.sessions[fd']? := by
        rw [htimers.others fd' hne]
        dsimp only
        rw [TreeMap.lookup_insert, if_neg (Ne.symm hne)]
      refine .ite (fun _ => .ret ⟨rfl, hothers, ?_⟩) fun _ => ?_
      · intro e he
        obtain ⟨e₀, he₀, hentry⟩ := htimers.entry e he
        obtain ⟨timers, hsession⟩ := hentry.session
        dsimp only at he₀
        rw [TreeMap.lookup_insert, if_pos rfl] at he₀
        obtain rfl := Option.some.inj he₀
        have hfine := create_fine hcreate
        rw [hsession]
        exact .inr hfine
      · refine (closeSession_ensures silent_drainClose _ _).bind ?_
        rintro v'' st'' - ⟨rfl, hw⟩
        refine .ret ⟨rfl, .of_without (fun fd' hne => ?_) hw.gone⟩
        exact (hw.others fd' hne).trans (hothers fd' hne)
    · intro fd' hne
      dsimp only
      rw [TreeMap.lookup_erase, if_neg (Ne.symm hne), TreeMap.lookup_insert, if_neg (Ne.symm hne)]
    · dsimp only
      rw [TreeMap.lookup_erase, if_pos rfl]

/-- Before `applyGracefulDrain`: the sessions are open, and new ones wait for their first
request. -/
def Gathered (d : Bool) (v : Option DrainView) (st : LoopState) : Prop :=
  ∀ x ∈ v, (x.drained = d ∧ (d = true → x.requested = true) ∧ x.late = []) ∧
    ∀ (fd : ℤ) e, st.sessions[fd]? = some e → e.session.Fine false fd

theorem AllFine.gathered (h : AllFine d v st) : Gathered d v st := by
  intro x hx
  obtain ⟨hcalm, hfine⟩ := h x hx
  refine ⟨⟨hcalm.drained, hcalm.requested, hcalm.late⟩, fun fd e he => ?_⟩
  cases d with
  | false => exact hfine fd e he
  | true => exact (hfine fd e he).of_drained

theorem Gathered.joined {st' : LoopState} (h : Gathered d v st) (hj : Joined fd st st') :
    Gathered d v st' := by
  intro x hx
  obtain ⟨hview, hfine⟩ := h x hx
  refine ⟨hview, fun fd' e he => ?_⟩
  by_cases hfd : fd' = fd
  · subst hfd
    rcases hj.own e he with hold | hnew
    · exact hfine fd' e hold
    · exact hnew
  · rw [hj.others fd' hfd] at he
    exact hfine fd' e he

/-- The registration mailbox was asked. -/
theorem Gathered.popped (h : Gathered d v st) (r : Option ℤ) :
    Gathered d (DrainView.upd v .popConnection r) st ∧
      ∀ x ∈ DrainView.upd v .popConnection r, x.emptied = r.isNone := by
  cases v with
  | none => exact ⟨(fun x hx => by cases hx), fun x hx => by cases hx⟩
  | some v =>
    obtain ⟨hview, hfine⟩ := h v rfl
    constructor
    · intro x hx
      cases hx
      exact ⟨hview, hfine⟩
    · intro x hx
      cases hx
      rfl

theorem drains_drainConnections (fuel : ℕ) (h : Gathered d v st) :
    Drains (fun v st _ => Gathered d v st ∧ ∀ x ∈ v, x.emptied = true) v st
      (drainConnections config fuel) := by
  induction fuel generalizing v st with
  | zero => exact ensures_diverge fun _ => trivial
  | succ fuel ih =>
    unfold drainConnections
    refine .call trivial fun r => ?_
    obtain ⟨hpopped, hemptied⟩ := h.popped r
    generalize DrainView.upd v .popConnection r = v at *
    cases r with
    | none => exact .ret ⟨hpopped, hemptied⟩
    | some fd =>
      refine drains_adopt.bind ?_
      rintro v' st' status ⟨rfl, hj⟩
      refine Proc.Ensures.bind (.when (fun _ => ?_) fun _ => hpopped.joined hj)
        fun v st _ h => ih h
      refine (show Drains _ _ _ (Proc.perform (E := LoopSig) .releaseConnection) from
        ensures_silent silent_unseen id).mono ?_
      rintro v'' st'' - ⟨rfl, rfl⟩
      exact hpopped.joined hj

/-! ### The drain itself -/

/-- What `applyGracefulDrain` does to the sessions is still to be done for those on `fds`. -/
def Draining (fds : List ℤ) (v : Option DrainView) (st : LoopState) : Prop :=
  ∀ x ∈ v, x.Calm true ∧ ∀ (fd : ℤ) e, st.sessions[fd]? = some e →
    e.session.Fine true fd ∨ fd ∈ fds ∧ e.session.Fine false fd

/-- The flag was read as set. -/
theorem Gathered.draining (h : Gathered d v st) (hemptied : ∀ x ∈ v, x.emptied = true) :
    Draining ((st.sessions.toList.filter fun (_, entry) =>
      entry.session.state == .reading || entry.session.state == .writing).map Prod.fst)
      (DrainView.upd v .drainRequested true) st := by
  cases v with
  | none => exact fun x hx => by cases hx
  | some v =>
    intro x hx
    obtain ⟨⟨-, -, hlate⟩, hfine⟩ := h v rfl
    cases hx
    refine ⟨⟨?_, rfl, fun _ => rfl, hlate⟩, fun fd e he => ?_⟩
    · dsimp only
      rw [hemptied v rfl, Bool.or_true]
    · have hmem := Std.TreeMap.mem_toList_iff_getElem?_eq_some.mpr he
      have hlisted (hs : (e.session.state == .reading || e.session.state == .writing) = true) :
          fd ∈ (st.sessions.toList.filter fun (_, entry) =>
            entry.session.state == .reading || entry.session.state == .writing).map Prod.fst :=
        List.mem_map.mpr ⟨(fd, e), List.mem_filter.mpr ⟨hmem, hs⟩, rfl⟩
      obtain ⟨htoken, hread | hproc | hwrite⟩ := hfine fd e he
      · exact .inr ⟨hlisted (by simp [hread.1]), hfine fd e he⟩
      · exact .inl ⟨htoken, .inr (.inl hproc)⟩
      · exact .inr ⟨hlisted (by simp [hwrite.1]), hfine fd e he⟩

/-- The flag was read as clear. -/
theorem Gathered.not_drained (h : Gathered d v st) :
    AllFine d (DrainView.upd v .drainRequested false) st := by
  cases v with
  | none => exact fun x hx => by cases hx
  | some v =>
    intro x hx
    obtain ⟨⟨hdrained, hrequested, hlate⟩, hfine⟩ := h v rfl
    have hclear : v.requested = false := by
      cases hv : v.requested with
      | false => rfl
      | true => simp [DrainView.upd, DrainView.next, hv] at hx
    obtain rfl : d = false := by
      cases d with
      | false => rfl
      | true => exact absurd (hrequested rfl) (by simp [hclear])
    obtain rfl : { v with emptied := false } = x := by
      simpa [DrainView.upd, DrainView.next, hclear] using hx
    exact ⟨⟨hdrained, rfl, (fun h => by cases h), hlate⟩, hfine⟩

/-- The sessions on `fds` are next, the one on `fd` is this one. -/
theorem Draining.around {fds : List ℤ} (h : Draining (fd :: fds) v st) :
    Around true (fun fd' s => s.Fine true fd' ∨ fd' ∈ fds ∧ s.Fine false fd') fd
      (Session.Fine false fd) v st := by
  intro x hx
  obtain ⟨hcalm, hfine⟩ := h x hx
  refine ⟨hcalm, fun fd' e hne he => ?_, fun e he => ?_⟩
  · rcases hfine fd' e he with hdone | ⟨hmem, hopen⟩
    · exact .inl hdone
    · exact .inr ⟨(List.mem_cons.mp hmem).resolve_left hne, hopen⟩
  · rcases hfine fd e he with hdone | ⟨-, hopen⟩
    · exact hdone.of_drained
    · exact hopen

theorem draining_of_around {fds : List ℤ} (h : Around true
    (fun fd' s => s.Fine true fd' ∨ fd' ∈ fds ∧ s.Fine false fd') fd (Session.Fine true fd) v st) :
    Draining fds v st := by
  intro x hx
  obtain ⟨hcalm, hothers, hown⟩ := h x hx
  refine ⟨hcalm, fun fd' e he => ?_⟩
  by_cases hfd : fd' = fd
  · subst hfd
    exact .inl (hown e he)
  · exact hothers fd' e hfd he

/-- **`applyGracefulDrain` leaves no session that could take another request**, if the flag is
set. -/
theorem drains_applyGracefulDrain (fuel : ℕ) (h : Gathered d v st)
    (hemptied : ∀ x ∈ v, x.emptied = true) :
    Drains (fun v st _ => ∃ d, AllFine d v st) v st (applyGracefulDrain config fuel) := by
  unfold applyGracefulDrain
  refine .call trivial fun drain => ?_
  cases drain with
  | false => exact .ret ⟨d, h.not_drained⟩
  | true =>
    rw [if_pos rfl]
    refine .get ?_
    refine (Proc.Ensures.forEach_rest (I := Draining) (fun fd fds v st h => ?_) _
      (h.draining hemptied)).mono fun v st _ h =>
        ⟨true, fun x hx => ⟨(h x hx).1, fun fd e he => ?_⟩⟩
    · have haround := h.around
      refine Proc.Ensures.mono ?_ fun v st _ h => @draining_of_around fd v st fds h
      refine .find (fun he => .ret (haround.without ⟨.refl st, he⟩)) fun e he => ?_
      refine .ite (fun _ => drains_closeSession haround _ _) fun hread => ?_
      refine .ite (fun hwrite => .put ?_) fun hwrite => ?_
      · refine drains_handleWrite fuel (haround.put he fun _ _ hs => ?_)
        exact Session.passing_closeAfterWrite hs.1 hwrite (by decide)
      · refine .ret (haround.found he fun hs => ⟨hs.1, .inr (.inl ?_)⟩)
        obtain ⟨-, hreading | hproc | hwriting⟩ := hs
        · exact absurd hreading.1 hread
        · exact hproc
        · exact absurd hwriting.1 hwrite
    · rcases (h x hx).2 fd e he with hdone | ⟨hmem, -⟩
      · exact hdone
      · cases hmem

theorem drains_drainMailboxes (fuel : ℕ) (h : AllFine d v st) :
    Drains (fun v st _ => ∃ d, AllFine d v st) v st (drainMailboxes config fuel) := by
  unfold drainMailboxes
  refine drains_unseen_bind id fun awake => .ite (fun _ => ?_) fun _ => .ret ⟨d, h⟩
  refine (drains_drainCompletions fuel h).bind fun v st _ h => ?_
  refine (drains_drainTimeoutMailbox fuel h).bind fun v st ok h => .ite
    (fun _ => ?_) fun _ => .ret ⟨d, h⟩
  refine .ite (fun _ => .ret ⟨d, h⟩) fun _ => ?_
  refine drains_unseen_bind id fun awake => .ite (fun _ => ?_) fun _ => .ret ⟨d, h⟩
  refine (drains_drainConnections fuel h.gathered).bind fun v st _ ⟨h, hemptied⟩ => ?_
  exact (drains_applyGracefulDrain fuel h hemptied).bind fun v st _ h => .ret h

end EventLoop

/-! ### Whole runs -/

/-- What epoll reports: something is in the mailboxes, or a socket is ready. -/
inductive EpollEvent
  | mailboxes
  | socket (generation : ℕ) (events : EpollEvents)
  deriving DecidableEq, Repr

/-- The code that serves an event; `fuel` bounds its loops. -/
def EpollEvent.code (config : EventLoopConfig) (fuel : ℕ) : EpollEvent → Loop Unit
  | .mailboxes => EventLoop.drainMailboxes config fuel >>= fun _ => pure ()
  | .socket generation events => EventLoop.handleSocketEvent config fuel generation events

/-- A loop between two events, and what it has seen. -/
structure DrainState where
  loop : LoopState := {}
  view : DrainView := {}

/-- The states of a loop between two events.  A step is a complete execution of the code that
serves an event, with any replies to its operations, except that the drain flag is never taken
back. -/
def drainSystem (config : EventLoopConfig) : System DrainState EpollEvent where
  init s := s = {}
  step s event s' := ∃ fuel es, ((event.code config fuel).run s.loop).Runs es (some (), s'.loop) ∧
    es.foldl (fun v e => DrainView.upd v e.1 e.2) (some s.view) = some s'.view

theorem EpollEvent.code_drains {config : EventLoopConfig} {d : Bool} {v : Option DrainView}
    {st : LoopState} (h : EventLoop.AllFine d v st) (fuel : ℕ) (event : EpollEvent) :
    EventLoop.Drains (fun v st _ => ∃ d, EventLoop.AllFine d v st) v st
      (event.code config fuel) := by
  cases event with
  | mailboxes =>
    exact (EventLoop.drains_drainMailboxes fuel h).bind fun v st _ h => .ret h
  | socket generation events =>
    exact (EventLoop.drains_handleSocketEvent fuel _ _ h).mono fun _ _ _ h => ⟨d, h⟩

/-- Every session is fine between two events. -/
theorem allFine_of_reachable {config : EventLoopConfig} {s : DrainState}
    (h : (drainSystem config).Reachable s) :
    EventLoop.AllFine s.view.drained (some s.view) s.loop := by
  refine h.invariant (I := fun s => EventLoop.AllFine s.view.drained (some s.view) s.loop)
    (fun s hinit => ?_) fun s event s' _ hfine hst => ?_
  · obtain rfl : s = {} := hinit
    intro x hx
    cases hx
    exact ⟨⟨rfl, rfl, (fun h => by cases h), rfl⟩, by simp⟩
  · obtain ⟨fuel, es, hrun, hview⟩ := hst
    have hend := Prog.Meets.of_runs (event.code_drains hfine fuel) hrun
    rw [hview] at hend
    obtain ⟨_, -, d, hfine'⟩ := hend
    rwa [(hfine' _ rfl).1.drained]

/-- What was drained stays drained. -/
theorem drained_upd {r : op.Reply} {v v' : DrainView} (h : DrainView.upd (some v) op r = some v')
    (hv : v.drained = true) : v'.drained = true := by
  by_cases hop : DrainView.Shows op
  · cases op with
    | popConnection =>
      cases h
      exact hv
    | drainRequested =>
      cases r with
      | true =>
        cases h
        simp [hv]
      | false =>
        simp only [DrainView.upd, DrainView.next, Option.bind_some] at h
        split_ifs at h
        cases h
        exact hv
    | trySubmit request =>
      cases h
      simp [hv]
    | _ => exact hop.elim
  · rw [DrainView.upd_of_not_shows hop] at h
    cases h
    exact hv

theorem drained_foldl {es : List (Prog.Event LoopSig)} {v v' : DrainView}
    (h : es.foldl (fun v e => DrainView.upd v e.1 e.2) (some v) = some v')
    (hv : v.drained = true) : v'.drained = true := by
  induction es generalizing v with
  | nil =>
    cases h
    exact hv
  | cons e es ih =>
    rw [List.foldl_cons] at h
    cases hnext : DrainView.upd (some v) e.1 e.2 with
    | none =>
      -- an impossible reply cannot be made good
      have hnone : ∀ es : List (Prog.Event LoopSig),
          es.foldl (fun v e => DrainView.upd v e.1 e.2) none = none := by
        intro es
        induction es with
        | nil => rfl
        | cons e es ih => exact ih
      rw [hnext, hnone] at h
      cases h
    | some w =>
      rw [hnext] at h
      exact ih h (drained_upd hnext hv)

/-- **A graceful drain makes only forward progress.**  Once the loop has run
`applyGracefulDrain` with the flag set, in every later state between two events each session
processes a request, or writes a response and is closed after it: none reads again; and no request
was submitted to the worker pool since. -/
theorem drain_only_progresses {config : EventLoopConfig} {s s' : DrainState}
    (h : (drainSystem config).Reachable s) (hdrained : s.view.drained = true)
    (hlater : (drainSystem config).Leads s s') :
    s'.view.drained = true ∧
    (∀ (fd : ℤ) e, s'.loop.sessions[fd]? = some e → e.session.state = .processing ∨
      e.session.state = .writing ∧ e.session.closeAfterWriteFlag = true) ∧
    s'.view.late = [] := by
  have hdrained' : s'.view.drained = true := by
    refine hlater.invariant (I := fun s => s.view.drained = true) h hdrained ?_
    intro s event s' _ hs _ hst
    obtain ⟨fuel, es, -, hview⟩ := hst
    exact drained_foldl hview hs
  obtain ⟨hcalm, hfine⟩ := allFine_of_reachable (h.leads hlater) s'.view rfl
  refine ⟨hdrained', fun fd e he => ?_, hcalm.late⟩
  obtain ⟨-, ⟨-, hclear⟩ | hproc | hwrite⟩ := hfine fd e he
  · rw [hdrained'] at hclear
    cases hclear
  · exact .inl hproc
  · exact .inr ⟨hwrite.1, hwrite.2 hdrained'⟩

/-- A loop with a response for requests that the pool refuses. -/
def refusingConfig : EventLoopConfig := { overloadResponseFrame := [0, 0, 0, 1, 9] }

/-- A loop with a connection on descriptor 3 that waits for a request. -/
def registeredLoop : LoopState where
  sessions := .insert ∅ 3 { session := { token := ⟨0, 3, 1⟩, config := {} },
                            registeredEvents := epollEventsFor ⟨true, false, true⟩ }
  eventToFd := .insert ∅ 1 3
  nextGeneration := 2

theorem registered_step : (drainSystem refusingConfig).step {} .mailboxes ⟨registeredLoop, {}⟩ :=
  ⟨3, [⟨.drainWakeSignal .completion, true⟩, ⟨.popCompletion, none⟩,
    ⟨.drainWakeSignal .connection, true⟩, ⟨.popConnection, some 3⟩, ⟨.outOfMemory, false⟩,
    ⟨.epollAdd 3 (epollEventsFor ⟨true, false, true⟩) 1, true⟩, ⟨.popConnection, none⟩,
    ⟨.drainRequested, false⟩],
    .call (.call (.call (.call (.call (.call (.call (.call .ret))))))), rfl⟩

/-- A request arrives, the pool refuses it, and the socket takes nothing of the response; or the
mailboxes are empty and the loop is to drain (`drain`). -/
def stalled (drain : Bool) : (op : LoopOp) → Option op.Reply
  | .recv .. => some (.data [0, 0, 0, 1, 7])
  | .send .. => some .again
  | .trySubmit _ => some (some .rejected)
  | .epollMod .. | .drainWakeSignal _ => some true
  | .popCompletion | .popConnection => some none
  | .drainRequested => some drain
  | .outOfMemory => some false
  | _ => none

/-- What serving an event leads to, with the given answers. -/
def serveWith (config : EventLoopConfig) (answer : (op : LoopOp) → Option op.Reply)
    (s : DrainState) (event : EpollEvent) : Option DrainState :=
  (Prog.replay (fun _ => answer) 0 ((event.code config 2).run s.loop)).bind fun (es, (o, st)) =>
    if o.isSome then
      (es.foldl (fun v e => DrainView.upd v e.1 e.2) (some s.view)).map (⟨st, ·⟩)
    else none

theorem step_of_serveWith {config : EventLoopConfig} {answer : (op : LoopOp) → Option op.Reply}
    {s s' : DrainState} {event : EpollEvent} (h : serveWith config answer s event = some s') :
    (drainSystem config).step s event s' := by
  obtain ⟨⟨es, o, st⟩, hreplay, hview⟩ := Option.bind_eq_some_iff.mp h
  cases o with
  | none => cases hview
  | some u =>
    obtain ⟨v, hv, rfl⟩ := Option.map_eq_some_iff.mp hview
    exact ⟨2, es, Prog.runs_of_replay hreplay, hv⟩

/-- The theorem for a session that writes a response when the loop drains, and the socket takes
nothing of it. -/
theorem drain_only_progresses_stalled : ∃ (s : DrainState) (e : SessionEntry),
    (drainSystem refusingConfig).Reachable s ∧ s.loop.sessions[(3 : ℤ)]? = some e ∧
      (e.session.state = .processing ∨
        e.session.state = .writing ∧ e.session.closeAfterWriteFlag = true) ∧ s.view.late = [] := by
  have hserved : ((serveWith refusingConfig (stalled false) ⟨registeredLoop, {}⟩
      (.socket 1 { input := true })).bind fun s =>
        serveWith refusingConfig (stalled true) s .mailboxes).any (fun s => s.view.drained &&
          s.loop.sessions[(3 : ℤ)]?.isSome) = true := by decide
  simp only [Option.any_eq_true, Bool.and_eq_true] at hserved
  obtain ⟨s, hs, hdrained, he⟩ := hserved
  obtain ⟨s₁, hsocket, hmailboxes⟩ := Option.bind_eq_some_iff.mp hs
  obtain ⟨e, he⟩ := Option.isSome_iff_exists.mp he
  have hreachable : (drainSystem refusingConfig).Reachable s :=
    .step (.step (.step (.init rfl) registered_step) (step_of_serveWith hsocket))
      (step_of_serveWith hmailboxes)
  obtain ⟨-, hsessions, hlate⟩ := drain_only_progresses hreachable hdrained .refl
  exact ⟨s, e, hreachable, he, hsessions 3 e he, hlate⟩

end AegisFlow
