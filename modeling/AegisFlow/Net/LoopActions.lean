import AegisFlow.Net.LoopView

/-!
# What the actions of an event loop do to its view

Every action of the loop keeps `LoopInv`: receiving and sending, submitting a request, queueing a
response, taking a completion, adopting and closing a connection.

* `LoopInv.recv`, `LoopInv.send`, `LoopInv.allow_send` : bytes are received and sent, and **what
  is sent continues the exchange**;
* `Dispatchable`, `LoopInv.submitted` : a request that a session delivered goes to the pool;
* `Responds`, `LoopInv.queueResponse`, `LoopInv.queueTimeout` : responses;
* `LoopInv.popCompletion`, `LoopInv.completed` : a completion answers the outstanding request;
* `LoopInv.epollAdd` : a new connection has a new generation.
-/

namespace AegisFlow

variable {config : EventLoopConfig} {v v' : LoopView} {st st' : LoopState} {fd : ℤ} {g : ℕ}
  {e e' : SessionEntry} {events : List SessionEvent}

/-! ### Actions of the loop -/

variable {s : Option LoopView}

section

variable (h : LoopInv config s st)
include h

/-- An action that does not show in the view, on a session that stays open only if it was. -/
theorem LoopInv.step (hst : Elsewhere fd st st')
    (hentry : ∀ e', st'.sessions[fd]? = some e' → ∃ e, st.sessions[fd]? = some e ∧
      e'.session.token = e.session.token ∧ (e'.session.isOpen → e.session.isOpen ∧
        ∀ v ∈ s, ∀ g events, EntryInv config v g e events →
          ∃ events', EntryInv config v g e' events')) : LoopInv config s st' := by
  intro v hv
  refine (h v hv).step hst (.refl _ _) (.inl rfl) fun e' he' => ?_
  obtain ⟨e, he, htoken, hkeep⟩ := hentry e' he'
  refine ⟨e, he, htoken, fun hopen' => ?_⟩
  obtain ⟨hopen, hev⟩ := hkeep hopen'
  obtain ⟨events, hev₀⟩ := (h v hv).entry fd e he hopen
  exact hev v hv _ events hev₀

theorem LoopInv.congr (hsessions : st'.sessions = st.sessions)
    (hgen : st'.nextGeneration = st.nextGeneration) : LoopInv config s st' := by
  have hst : Elsewhere 0 st st' := ⟨fun fd' _ => by rw [hsessions], hgen⟩
  refine h.step hst fun e' he' => ?_
  rw [hsessions] at he'
  exact ⟨e', he', rfl, fun hopen => ⟨hopen, fun _ _ _ events hev => ⟨events, hev⟩⟩⟩

theorem LoopInv.timersOnly (ht : TimersOnly fd st st') : LoopInv config s st' := by
  refine h.step ht.elsewhere fun e' he' => ?_
  obtain ⟨e, he, het⟩ := ht.entry e' he'
  obtain ⟨timers, hsession⟩ := het.session
  refine ⟨e, he, by rw [hsession], fun hopen =>
    ⟨?_, fun _ _ _ events hev => ⟨events, hev.timers het⟩⟩⟩
  rw [hsession] at hopen
  exact hopen

theorem LoopInv.without (hw : Without fd st st') : LoopInv config s st' := by
  refine h.step hw.toElsewhere fun e' he' => ?_
  rw [hw.gone] at he'
  cases he'

theorem LoopInv.registered (hr : Registered fd e st st') : LoopInv config s st' := by
  refine h.step hr.elsewhere fun e' he' => ?_
  rw [hr.after] at he'
  cases he'
  exact ⟨e, hr.before, rfl, fun hopen => ⟨hopen, fun _ _ _ events hev =>
    ⟨events, { hev with }⟩⟩⟩

theorem LoopInv.put (he : st.sessions[fd]? = some e) (htoken : e'.session.token = e.session.token)
    (hentry : e'.session.isOpen → e.session.isOpen ∧ ∀ v ∈ s, ∀ g events,
      EntryInv config v g e events → ∃ events', EntryInv config v g e' events') :
    LoopInv config s (st.put fd e') := by
  refine h.step ((Elsewhere.refl st).put e') fun x hx => ?_
  rw [TreeMap.lookup_insert, if_pos rfl] at hx
  cases hx
  exact ⟨e, he, htoken, hentry⟩

theorem LoopInv.closeAfterWrite (he : st.sessions[fd]? = some e) (reason : SessionCloseReason) :
    LoopInv config s
      (st.put fd { e with session := (e.session.closeAfterWrite reason).2 }) := by
  refine h.put he (by simp) fun hopen => ?_
  have hcases : (e.session.closeAfterWrite reason).2 = e.session ∨
      (e.session.closeAfterWrite reason).2 =
        { e.session with closeReason := reason, closeAfterWriteFlag := true } := by
    unfold Session.closeAfterWrite
    split_ifs <;> simp
  rcases hcases with hs | hs
  · rw [hs] at hopen ⊢
    exact ⟨hopen, fun _ _ _ events hev => ⟨events, hev⟩⟩
  · rw [hs] at hopen ⊢
    exact ⟨hopen, fun _ _ _ events hev =>
      ⟨events, hev.marked ⟨⟨_, _, _, _, rfl⟩, fun _ => rfl⟩ rfl⟩⟩

theorem LoopInv.onPeerReadClosed (he : st.sessions[fd]? = some e) :
    LoopInv config s (st.put fd { e with session := e.session.onPeerReadClosed.2 }) := by
  refine h.put he (by simp) fun hopen => ?_
  have hcases : ¬ e.session.onPeerReadClosed.2.isOpen ∨
      e.session.onPeerReadClosed.2 =
        { e.session with peerReadClosed := true, closeReason := .peerClosed } := by
    simp only [Session.onPeerReadClosed]
    split_ifs with hclosing hclosed hbusy hmore
    · exact .inl fun ho => ho.1 hclosing
    · exact .inl fun ho => ho.2 hclosed
    · exact .inr rfl
    · exact .inl (Session.beginClose_not_open (by simp))
    · exact .inl (Session.beginClose_not_open (by simp))
  rcases hcases with hclosed | hs
  · exact absurd hopen hclosed
  · rw [hs] at hopen ⊢
    exact ⟨hopen, fun _ _ _ events hev =>
      ⟨events, hev.marked ⟨⟨_, _, _, _, rfl⟩, id⟩ rfl⟩⟩

end

/-- A request was delivered by the session and is neither with the pool nor answered. -/
def Dispatchable (config : EventLoopConfig) (s : Option LoopView) (st : LoopState)
    (token : ConnectionToken) (request : Bytes) : Prop :=
  ∀ v ∈ s, ∃ e events, st.sessions[token.fd]? = some e ∧ e.session.token = token ∧
    e.session.state = .processing ∧ EntryInv config v token.generation e events ∧
    v.outstanding token.generation = none ∧
    v.attempts token.generation + 1 = (requests events).length ∧
    (requests events)[v.attempts token.generation]? = some request

theorem sameBut_received (v : LoopView) (g : ℕ) (bytes : Bytes) :
    SameBut g v { v with received := Function.update v.received g bytes } :=
  ⟨rfl, rfl, fun _ hne => ⟨Function.update_of_ne hne _ _, rfl, rfl, rfl, rfl⟩⟩

theorem sameBut_sent (v : LoopView) (g : ℕ) (bytes : Bytes) :
    SameBut g v { v with sent := Function.update v.sent g bytes } :=
  ⟨rfl, rfl, fun _ hne => ⟨rfl, Function.update_of_ne hne _ _, rfl, rfl, rfl⟩⟩

theorem sameBut_submit (v : LoopView) (request : BusinessRequest) (accepted : Bool) :
    SameBut request.token.generation v (v.submit request accepted) := by
  refine ⟨rfl, rfl, fun g hne => ⟨rfl, rfl, Function.update_of_ne hne _ _, ?_, rfl⟩⟩
  cases accepted with
  | false => rfl
  | true => exact Function.update_of_ne hne _ _

section

variable (h : LoopInv config s st) (he : st.sessions[fd]? = some e)
include h he

/-- Data was received and taken by the session. -/
theorem LoopInv.recv (capacity : ℕ) (bytes : Bytes) :
    LoopInv config (LoopView.upd s (.recv fd capacity) (.data bytes))
      (st.put fd { e with session := (e.session.onInput bytes).2 }) := by
  intro v' hv'
  obtain ⟨v, hv, ⟨⟩⟩ := Option.bind_eq_some_iff.mp hv'
  refine (h v hv).put he (sameBut_received v _ _) (by simp) fun hopen' => ?_
  have hopen : e.session.isOpen := by
    by_contra hclosed
    exact Session.apply_not_open hclosed (.input bytes) hopen'
  obtain ⟨events, hev⟩ := (h v hv).entry fd e he hopen
  exact ⟨_, hev.onInput hopen bytes hopen'⟩

/-- Data was received but the session is gone. -/
theorem LoopInv.recv_without (capacity : ℕ) (bytes : Bytes) (hw : Without fd st st') :
    LoopInv config (LoopView.upd s (.recv fd capacity) (.data bytes)) st' := by
  intro v' hv'
  obtain ⟨v, hv, ⟨⟩⟩ := Option.bind_eq_some_iff.mp hv'
  exact (h v hv).without he (sameBut_received v _ _) hw

/-- Bytes of the response were sent. -/
theorem LoopInv.send (hstate : e.session.state = .writing) (n : ℕ) :
    LoopInv config (LoopView.upd s (.send fd e.session.pendingOutput) (.sent n))
      (st.put fd { e with session := (e.session.onBytesWritten n).2 }) := by
  intro v' hv'
  obtain ⟨v, hv, ⟨⟩⟩ := Option.bind_eq_some_iff.mp hv'
  refine (h v hv).put he (sameBut_sent v _ _) (by simp) fun hopen' => ?_
  have hopen : e.session.isOpen := by simp [Session.isOpen, hstate]
  obtain ⟨events, hev⟩ := (h v hv).entry fd e he hopen
  exact ⟨_, hev.onBytesWritten hstate n hopen'⟩

theorem LoopInv.send_without (bytes : Bytes) (n : ℕ) (hw : Without fd st st') :
    LoopInv config (LoopView.upd s (.send fd bytes) (.sent n)) st' := by
  intro v' hv'
  obtain ⟨v, hv, ⟨⟩⟩ := Option.bind_eq_some_iff.mp hv'
  exact (h v hv).without he (sameBut_sent v _ _) hw

/-- What is sent continues the exchange. -/
theorem LoopInv.allow_send (hstate : e.session.state = .writing) :
    LoopView.allow config s (.send fd e.session.pendingOutput) := by
  cases s with
  | none => trivial
  | some v =>
    obtain ⟨events, hev⟩ := (h v rfl).entry fd e he (by simp [Session.isOpen, hstate])
    obtain ⟨-, hlen, -⟩ := hev.tracks.writing hstate
    have hsent := hev.sent
    rw [if_pos hstate] at hsent
    refine ⟨requests events, responses events,
      e.session.codec.partialBytes ++ e.session.pendingBytes, ?_, hev.tracks.valid, hlen.symm,
      hev.answers, hsent ▸ List.prefix_refl _⟩
    rw [← hev.received, hev.tracks.bytes, List.append_assoc]

/-! ### Requests go to the pool -/

/-- A request that bytes completed is to be dispatched. -/
theorem LoopInv.dispatchable_recv (capacity : ℕ) (bytes : Bytes) {request : Bytes}
    (hreq : (e.session.onInput bytes).1.request = some request) :
    Dispatchable config (LoopView.upd s (.recv fd capacity) (.data bytes))
      (st.put fd { e with session := (e.session.onInput bytes).2 }) e.session.token request := by
  intro v' hv'
  obtain ⟨v, hv, ⟨⟩⟩ := Option.bind_eq_some_iff.mp hv'
  rw [(h v hv).token fd e he]
  have hopen : e.session.isOpen := by
    by_contra hclosed
    rw [Session.onInput_of_not_open hclosed] at hreq
    cases hreq
  obtain ⟨events, hev⟩ := (h v hv).entry fd e he hopen
  have hopen' := hev.tracks.isOpen_of_onInput (by rw [hreq]; rfl)
  have hfed := hev.tracks.fed_onInput hopen'
  rcases hfed.state with ⟨-, hnone⟩ | ⟨hread, hproc, -⟩
  · rw [hreq] at hnone; cases hnone
  obtain ⟨hnone, hattempts⟩ := hev.reading hread
  refine ⟨_, _, by rw [TreeMap.lookup_insert, if_pos rfl], ?_, hproc,
    hev.onInput hopen bytes hopen', hnone, ?_, ?_⟩
  · simpa using (h v hv).token fd e he
  · simp [hreq, Session.decodedEvents, hattempts]
  · simp [hreq, Session.decodedEvents, hattempts]

/-- A request that waited behind a response is to be dispatched. -/
theorem LoopInv.dispatchable_send (hstate : e.session.state = .writing) (n : ℕ) {request : Bytes}
    (hreq : (e.session.onBytesWritten n).1.request = some request) :
    Dispatchable config (LoopView.upd s (.send fd e.session.pendingOutput) (.sent n))
      (st.put fd { e with session := (e.session.onBytesWritten n).2 }) e.session.token
      request := by
  intro v' hv'
  obtain ⟨v, hv, ⟨⟩⟩ := Option.bind_eq_some_iff.mp hv'
  rw [(h v hv).token fd e he]
  obtain ⟨events, hev⟩ := (h v hv).entry fd e he (by simp [Session.isOpen, hstate])
  have hopen' := hev.tracks.isOpen_of_onBytesWritten (n := n) (by rw [hreq]; rfl)
  have hev' := hev.onBytesWritten hstate n hopen'
  obtain ⟨-, hcase⟩ := hev.tracks.written hstate hopen'
  cases hcase with
  | short heq => rw [heq] at hreq; cases hreq
  | held _ heq => rw [heq] at hreq; cases hreq
  | read _ hflag hfed =>
    rcases hfed.state with ⟨-, hnone⟩ | ⟨-, hproc, -⟩
    · rw [hreq] at hnone; cases hnone
    have hexp : e.businessExpired ≠ true := fun hexp => by
      rw [(hev.expired hexp).2] at hflag
      cases hflag
    obtain ⟨hnone, hattempts⟩ := (hev.writing hstate).resolve_right hexp
    refine ⟨_, _, by rw [TreeMap.lookup_insert, if_pos rfl], ?_, hproc, hev', hnone, ?_, ?_⟩
    · simpa using (h v hv).token fd e he
    · simp [Session.writtenEvents, hstate, hreq, Session.decodedEvents, hattempts]
    · simp [Session.writtenEvents, hstate, hreq, Session.decodedEvents, hattempts]

end

variable {token : ConnectionToken} {request : Bytes}

theorem Dispatchable.allow (hd : Dispatchable config s st token request) :
    LoopView.allow config s (.trySubmit ⟨token, request⟩) := by
  cases s with
  | none => trivial
  | some v =>
    obtain ⟨e, events, -, -, -, -, hnone, -⟩ := hd v rfl
    exact hnone

theorem LoopView.submit_attempts (v : LoopView) (request : BusinessRequest) (accepted : Bool) :
    (v.submit request accepted).attempts request.token.generation =
      v.attempts request.token.generation + 1 := Function.update_self ..

theorem LoopView.submit_outstanding (v : LoopView) (request : BusinessRequest) (accepted : Bool) :
    (v.submit request accepted).outstanding request.token.generation =
      if accepted then some (v.attempts request.token.generation, request.requestPayload)
      else v.outstanding request.token.generation := by
  cases accepted with
  | false => rfl
  | true => exact Function.update_self ..

theorem EntryInv.submit (request : BusinessRequest)
    (h : EntryInv config v request.token.generation e events)
    (hproc : e.session.state = .processing)
    (hnone : v.outstanding request.token.generation = none)
    (hattempts : v.attempts request.token.generation + 1 = (requests events).length)
    (hlast : (requests events)[v.attempts request.token.generation]? =
      some request.requestPayload) (accepted : Bool) :
    EntryInv config (v.submit request accepted) request.token.generation e events := by
  refine ⟨h.tracks, h.received, h.sent, h.answers, h.expired, by simp [hproc],
    fun _ => ⟨.inl ?_, fun i q hq => ?_⟩, by simp [hproc]⟩
  · rw [v.submit_attempts]
    exact hattempts
  · rw [v.submit_outstanding, hnone] at hq
    split_ifs at hq
    cases hq
    exact ⟨hattempts, hlast⟩

/-- The request was submitted, whatever the pool said. -/
theorem LoopInv.submitted (h : LoopInv config s st) (hd : Dispatchable config s st token request)
    (reply : Option WorkerSubmitStatus) :
    LoopInv config (LoopView.upd s (.trySubmit ⟨token, request⟩) reply) st := by
  intro v' hv'
  obtain ⟨v, hv, ⟨⟩⟩ := Option.bind_eq_some_iff.mp hv'
  obtain ⟨e, events, he, htoken, hproc, hev, hnone, hattempts, hlast⟩ := hd v hv
  have hgen : token.generation = v.generationOf token.fd := by
    rw [← htoken, (h v hv).token _ e he]
  refine (h v hv).step (.refl st) (hgen ▸ sameBut_submit v ⟨token, request⟩ _) (.inr ⟨e, he⟩)
    fun e' he' => ?_
  rw [he] at he'
  cases he'
  rw [← hgen]
  refine ⟨e, he, rfl, fun _ => ⟨events, ?_⟩⟩
  exact EntryInv.submit ⟨token, request⟩ hev hproc hnone hattempts hlast _

/-- The session is still processing after the submission. -/
theorem Dispatchable.processing (hd : Dispatchable config s st token request)
    {reply : Option WorkerSubmitStatus} :
    ∀ v ∈ LoopView.upd s (.trySubmit ⟨token, request⟩) reply, ∀ e,
      st.sessions[token.fd]? = some e → e.session.state = .processing := by
  intro v' hv' e he
  obtain ⟨v, hv, -⟩ := Option.bind_eq_some_iff.mp hv'
  obtain ⟨e', -, he', -, hproc, -⟩ := hd v hv
  rw [he'] at he
  cases he
  exact hproc

section

variable (h : LoopInv config s st) (he : st.sessions[fd]? = some e)
include h he

/-- The mark of an expired request is not set while a session is processing. -/
theorem LoopInv.clearExpired (hproc : ∀ v ∈ s, e.session.state = .processing) :
    LoopInv config s (st.put fd { e with businessExpired := false }) :=
  h.put he rfl fun hopen => ⟨hopen, fun v hv _ events hev =>
    ⟨events, { hev with expired := by simp, writing := by simp [hproc v hv] }⟩⟩

/-! ### Responses -/

/-- The frame may be sent to the session on `fd` if it is processing a request. -/
def Responds (config : EventLoopConfig) (s : Option LoopView) (st : LoopState) (fd : ℤ)
    (expired : Bool) (response : Bytes) : Prop :=
  ∀ v ∈ s, ∀ e, st.sessions[fd]? = some e → e.session.state = .processing →
    ∃ events, EntryInv config v (v.generationOf fd) e events ∧
      (v.outstanding (v.generationOf fd) = none ∧
        v.attempts (v.generationOf fd) = (requests events).length ∨ expired = true) ∧
      ∀ i request, i + 1 = (requests events).length → (requests events)[i]? = some request →
        response ≠ [] → Answers config v (v.generationOf fd) i request response

/-- The frame was queued. -/
theorem LoopInv.queueResponse (token : ConnectionToken) {response : Bytes}
    (hresp : Responds config s st fd false response) :
    LoopInv config s
      (st.put fd { e with session := (e.session.queueResponse token response).2 }) := by
  rcases Session.queueResponse_cases e.session token response with
    ⟨-, hsame | hclosed⟩ | ⟨-, hproc, hne, heq⟩
  · rw [hsame]
    exact h.put he rfl fun hopen => ⟨hopen, fun _ _ _ events hev => ⟨events, hev⟩⟩
  · exact h.put he (by simp) fun hopen => absurd hopen hclosed
  · intro v hv
    refine (h v hv).put he (.refl _ _) (by simp) fun hopen => ?_
    obtain ⟨events, hev, hnone, hanswer⟩ := hresp v hv e he hproc
    have htracks := hev.tracks.queueResponse hopen
    rw [heq, if_pos rfl] at htracks
    rw [heq]
    have hexp : e.businessExpired = false := by
      by_contra hne
      rw [(hev.expired (Bool.not_eq_false _ ▸ hne)).1] at hproc
      cases hproc
    rw [← hexp] at hnone
    refine ⟨events ++ [.response response], hev.queueResponse hproc htracks rfl
      (by simp [Session.pendingOutput]) (fun i q hi hq => hanswer i q hi hq hne)
      (fun hset => ?_) hnone⟩
    rw [hexp] at hset
    cases hset

/-- The frame for a request that took too long was queued, and the session will be closed. -/
theorem LoopInv.queueTimeout {response : Bytes} (hresp : Responds config s st fd true response)
    {reason : SessionCloseReason} (hqueued : (e.session.queueResponse token response).1 = .ok)
    (hclosing : ((e.session.queueResponse token response).2.closeAfterWrite reason).1 = .ok)
    (hst : Elsewhere fd st st') (he' : st'.sessions[fd]? = some { e with
      session := ((e.session.queueResponse token response).2.closeAfterWrite reason).2
      businessExpired := true }) : LoopInv config s st' := by
  rcases Session.queueResponse_cases e.session token response with
    ⟨hfailed, -⟩ | ⟨-, hproc, hne, heq⟩
  · exact absurd hqueued hfailed
  have hsession : ((e.session.queueResponse token response).2.closeAfterWrite reason).2 =
      { e.session with
        output := response, outputOffset := 0, state := .writing, closeReason := reason,
        closeAfterWriteFlag := true } := by
    rw [heq] at hclosing ⊢
    unfold Session.closeAfterWrite at hclosing ⊢
    split_ifs at hclosing ⊢ <;> rfl
  rw [hsession] at he'
  intro v hv
  refine (h v hv).step hst (.refl _ _) (.inl rfl) fun x hx => ?_
  rw [he'] at hx
  cases hx
  refine ⟨e, he, rfl, fun _ => ?_⟩
  obtain ⟨events, hev, -, hanswer⟩ := hresp v hv e he hproc
  have htracks := hev.tracks.queueResponse (by rw [heq]; simp [Session.isOpen])
  rw [heq, if_pos rfl] at htracks
  exact ⟨_, hev.queueResponse hproc (htracks.congr rfl rfl rfl rfl rfl rfl) rfl
    (by simp [Session.pendingOutput]) (fun i q hi hq => hanswer i q hi hq hne) (fun _ => rfl)
    (.inr rfl)⟩

end

/-- The overload frame may answer a request that the pool refused. -/
theorem Dispatchable.responds (h : LoopInv config s st)
    (hd : Dispatchable config s st token request) {reply : Option WorkerSubmitStatus}
    (hrefused : reply ≠ some .accepted) :
    Responds config (LoopView.upd s (.trySubmit ⟨token, request⟩) reply) st token.fd false
      config.overloadResponseFrame := by
  intro v' hv' e he hproc
  obtain ⟨v, hv, ⟨⟩⟩ := Option.bind_eq_some_iff.mp hv'
  obtain ⟨e', events, he', htoken, -, hev, hnone, hattempts, hlast⟩ := hd v hv
  rw [he] at he'
  cases he'
  have hgen : token.generation = v.generationOf token.fd := by
    rw [← htoken, (h v hv).token _ e he]
  have hev' := EntryInv.submit ⟨token, request⟩ hev hproc hnone hattempts hlast
    (reply = some .accepted)
  have hout := v.submit_outstanding ⟨token, request⟩ (reply = some .accepted)
  have hatt := v.submit_attempts ⟨token, request⟩ (reply = some .accepted)
  rw [if_neg (by simpa using hrefused), hnone] at hout
  dsimp only at hev' hout hatt
  refine ⟨events, ?_, .inl ⟨?_, ?_⟩, fun _ _ _ _ hne => ⟨hne, .inl rfl⟩⟩
  · exact hgen ▸ hev'
  · exact hgen ▸ hout
  · exact hgen ▸ hatt.trans hattempts

/-- The timeout frame may answer any request. -/
theorem LoopInv.responds_timeout (h : LoopInv config s st) :
    Responds config s st fd true config.businessTimeoutResponseFrame := by
  intro v hv e he hproc
  obtain ⟨events, hev⟩ := (h v hv).entry fd e he (by simp [Session.isOpen, hproc])
  exact ⟨events, hev, .inr rfl, fun _ _ _ _ hne => ⟨hne, .inr (.inl rfl)⟩⟩

/-! ### Completions -/

/-- An action that concerns one generation and keeps to what is known about its session. -/
theorem ViewInv.review (h : ViewInv config v st) (hv : SameBut g v v') (hg : g ∈ v.adopted)
    (hentry : ∀ e events, EntryInv config v g e events → EntryInv config v' g e events) :
    ViewInv config v' st where
  token := by rw [hv.generationOf]; exact h.token
  entry fd e he hopen := by
    obtain ⟨events, hev⟩ := h.entry fd e he hopen
    rw [hv.generationOf]
    by_cases hfd : v.generationOf fd = g
    · rw [hfd] at hev ⊢
      exact ⟨events, hentry e events hev⟩
    · exact ⟨events, hev.agree (hv.others _ hfd)⟩
  distinct := by rw [hv.generationOf]; exact h.distinct
  known := by rw [hv.generationOf, hv.adopted]; exact h.known
  increasing := by rw [hv.adopted]; exact h.increasing
  bounded := by rw [hv.adopted]; exact h.bounded
  blank g' hg' := by
    rw [hv.adopted] at hg'
    have ha := hv.others g' fun heq => hg' (heq ▸ hg)
    rw [ha.received, ha.sent, ha.attempts, ha.outstanding, ha.results]
    exact h.blank g' hg'

theorem EntryInv.complete (h : EntryInv config v g e events) {completion : BusinessCompletion}
    (hg : completion.token.generation = g) (request : ℕ × Bytes) :
    EntryInv config (v.complete completion request) g e events where
  tracks := h.tracks
  received := h.received
  sent := h.sent
  answers i q r hq hr := by
    refine (h.answers i q r hq hr).imp_right (Or.imp_right (Or.imp_right fun hmem => ?_))
    simp only [LoopView.complete, hg, Function.update_self]
    exact List.mem_append_left _ hmem
  expired := h.expired
  reading hs := ⟨by simp [LoopView.complete, hg], (h.reading hs).2⟩
  processing hs := by
    refine ⟨(h.processing hs).1.imp_right fun hp => ⟨by simp [LoopView.complete, hg], hp.2⟩, ?_⟩
    intro i q hq
    simp [LoopView.complete, hg] at hq
  writing hs := (h.writing hs).imp_left fun hw => ⟨by simp [LoopView.complete, hg], hw.2⟩

/-- A completion was taken out of the mailbox. -/
theorem LoopInv.popCompletion (h : LoopInv config s st) (completion : BusinessCompletion) :
    LoopInv config (LoopView.upd s .popCompletion (some completion)) st := by
  intro v' hv'
  obtain ⟨v, hv, hnext⟩ := Option.bind_eq_some_iff.mp hv'
  obtain ⟨request, hout, rfl⟩ := Option.map_eq_some_iff.mp hnext
  have hknown : completion.token.generation ∈ v.adopted := by
    by_contra hg
    rw [((h v hv).blank _ hg).2.2.2.1] at hout
    cases hout
  refine (h v hv).review ⟨rfl, rfl, fun g' hne => ?_⟩ hknown fun e events hev =>
    hev.complete rfl request
  exact ⟨rfl, rfl, rfl, Function.update_of_ne hne _ _, Function.update_of_ne hne _ _⟩

/-- The response of the completion may be sent to the session whose token it carries. -/
def Completed (config : EventLoopConfig) (s : Option LoopView) (st : LoopState)
    (completion : BusinessCompletion) : Prop :=
  ∀ e, st.sessions[completion.token.fd]? = some e → e.session.token = completion.token →
    completion.status = .response →
      Responds config s st completion.token.fd false completion.responseFrame

theorem LoopInv.completed (h : LoopInv config s st) (completion : BusinessCompletion) :
    Completed config (LoopView.upd s .popCompletion (some completion)) st completion := by
  intro e he htoken hstatus v' hv' e' he' hproc
  rw [he] at he'
  cases he'
  obtain ⟨v, hv, hnext⟩ := Option.bind_eq_some_iff.mp hv'
  obtain ⟨request, hout, rfl⟩ := Option.map_eq_some_iff.mp hnext
  have hgen : completion.token.generation = v.generationOf completion.token.fd := by
    rw [← htoken, (h v hv).token _ e he]
  obtain ⟨events, hev⟩ := (h v hv).entry _ e he (by simp [Session.isOpen, hproc])
  rw [hgen] at hout
  obtain ⟨hattempts, hlast⟩ := hev.processing hproc
  obtain ⟨hlen, hrequest⟩ := hlast request.1 request.2 hout
  have hdispatched : v.attempts (v.generationOf completion.token.fd) = (requests events).length :=
    hattempts.resolve_right fun hundispatched => by rw [hundispatched.1] at hout; cases hout
  refine ⟨events, hev.complete hgen request, .inl ⟨by simp [LoopView.complete, hgen],
    hdispatched⟩, fun i q hi hq hne => ⟨hne, .inr (.inr ?_)⟩⟩
  obtain rfl : i = request.1 := by omega
  rw [hrequest] at hq
  cases hq
  simp [LoopView.complete, hgen, hstatus]

/-- Timers do not matter for what may be sent. -/
theorem Responds.timersOnly {expired : Bool} {response : Bytes}
    (h : Responds config s st fd expired response) (ht : TimersOnly fd st st') :
    Responds config s st' fd expired response := by
  intro v hv e' he' hproc
  obtain ⟨e, he, het⟩ := ht.entry e' he'
  obtain ⟨timers, hsession⟩ := het.session
  rw [hsession] at hproc
  obtain ⟨events, hev, hnone, hanswer⟩ := h v hv e he hproc
  exact ⟨events, hev.timers het, hnone, hanswer⟩

/-! ### New connections -/

theorem ViewInv.lt_nextGeneration (h : ViewInv config v st) (hgen : st.nextGeneration ≠ 0)
    (hg : g ∈ v.adopted) : g < st.nextGeneration := (h.bounded g hg).resolve_left hgen

theorem LoopInv.allocate (h : LoopInv config s st) (hgen : st.nextGeneration ≠ 0)
    (hsessions : st'.sessions = st.sessions)
    (hgen' : st'.nextGeneration = generationAfter st.nextGeneration) : LoopInv config s st' := by
  intro v hv
  obtain ⟨htoken, hentry, hdistinct, hknown, hincreasing, -, hblank⟩ := h v hv
  rw [← hsessions] at htoken hentry hdistinct hknown
  refine ⟨htoken, hentry, hdistinct, hknown, hincreasing, fun g hg => ?_, hblank⟩
  rw [hgen']
  exact (generationAfter_cases _).imp_right ((h v hv).lt_nextGeneration hgen hg).trans

/-- A new connection has the events of a new session: none. -/
theorem entryInv_create {session : Session} {sessionConfig : SessionConfig} {connectionFd : ℤ}
    (hcreate : Session.create token sessionConfig connectionFd = some session)
    (hblank : v.received g = [] ∧ v.sent g = [] ∧ v.attempts g = 0 ∧ v.outstanding g = none ∧
      v.results g = [])
    (hsession : e.session = session) (hexpired : e.businessExpired = false) :
    EntryInv config v g e [] := by
  have hstate : session.state = .reading := by
    unfold Session.create at hcreate
    split_ifs at hcreate
    cases hcreate
    rfl
  rw [← hsession] at hstate
  obtain ⟨hreceived, hsent, hattempts, hnone, -⟩ := hblank
  refine ⟨hsession ▸ Session.tracks_create hcreate, hreceived.symm, ?_, by simp,
    by simp [hexpired], fun _ => ⟨hnone, hattempts⟩, by simp [hstate], by simp [hstate]⟩
  rw [if_neg (by simp [hstate]), hsent]
  rfl

/-- A connection was added to epoll, and kept if that succeeded. -/
theorem LoopInv.epollAdd (h : LoopInv config s st) (hgen : st.nextGeneration ≠ 0)
    {session : Session}
    (hcreate : Session.create ⟨config.loopId, fd, st.nextGeneration⟩ config.session fd =
      some session)
    (hgen' : st'.nextGeneration = generationAfter st.nextGeneration)
    (hothers : ∀ fd', fd' ≠ fd → st'.sessions[fd']? = st.sessions[fd']?)
    (hentry : ∀ e, st'.sessions[fd]? = some e → e.session = session ∧ e.businessExpired = false)
    (events : EpollEvents) (ok : Bool) :
    LoopInv config (LoopView.upd s (.epollAdd fd events st.nextGeneration) ok) st' := by
  intro v' hv'
  obtain ⟨v, hv, ⟨⟩⟩ := Option.bind_eq_some_iff.mp hv'
  have hinv := h v hv
  have hnew : st.nextGeneration ∉ v.adopted := fun hmem =>
    Nat.lt_irrefl _ (hinv.lt_nextGeneration hgen hmem)
  -- A descriptor of the new table is the adopted one or was there with an older generation.
  have hcases (fd' : ℤ) (x : SessionEntry) (hx : st'.sessions[fd']? = some x) :
      (fd' = fd ∧ Function.update v.generationOf fd st.nextGeneration fd' = st.nextGeneration ∧
        x.session = session ∧ x.businessExpired = false) ∨
      (st.sessions[fd']? = some x ∧
        Function.update v.generationOf fd st.nextGeneration fd' = v.generationOf fd' ∧
        v.generationOf fd' ∈ v.adopted) := by
    by_cases hfd : fd' = fd
    · subst hfd
      exact .inl ⟨rfl, Function.update_self .., hentry x hx⟩
    · rw [hothers fd' hfd] at hx
      exact .inr ⟨hx, Function.update_of_ne hfd _ _, hinv.known fd' x hx⟩
  have htoken : session.token = ⟨config.loopId, fd, st.nextGeneration⟩ := by
    unfold Session.create at hcreate
    split_ifs at hcreate
    cases hcreate
    rfl
  refine ⟨?_, ?_, ?_, ?_, ?_, ?_, ?_⟩
  · intro fd' x hx
    dsimp only
    rcases hcases fd' x hx with ⟨rfl, hg, hs, -⟩ | ⟨hx, hg, -⟩
    · rw [hs, htoken, hg]
    · rw [hg]; exact hinv.token fd' x hx
  · intro fd' x hx hopen
    dsimp only
    rcases hcases fd' x hx with ⟨rfl, hg, hs, hexp⟩ | ⟨hx, hg, -⟩
    · rw [hg]
      exact ⟨[], entryInv_create hcreate (hinv.blank _ hnew) hs hexp⟩
    · rw [hg]
      obtain ⟨evs, hev⟩ := hinv.entry fd' x hx hopen
      exact ⟨evs, hev.agree ⟨rfl, rfl, rfl, rfl, rfl⟩⟩
  · intro fd₁ fd₂ x₁ x₂ hx₁ hx₂ heq
    dsimp only at heq
    rcases hcases fd₁ x₁ hx₁ with ⟨h₁, hg₁, -⟩ | ⟨hx₁, hg₁, hk₁⟩ <;>
      rcases hcases fd₂ x₂ hx₂ with ⟨h₂, hg₂, -⟩ | ⟨hx₂, hg₂, hk₂⟩ <;> rw [hg₁, hg₂] at heq
    · rw [h₁, h₂]
    · exact absurd (heq ▸ hk₂) hnew
    · exact absurd (heq ▸ hk₁) hnew
    · exact hinv.distinct fd₁ fd₂ x₁ x₂ hx₁ hx₂ heq
  · intro fd' x hx
    dsimp only
    rcases hcases fd' x hx with ⟨rfl, hg, -⟩ | ⟨-, hg, hk⟩
    · rw [hg]; simp
    · rw [hg]; exact List.mem_append_left _ hk
  · refine List.pairwise_append.mpr ⟨hinv.increasing, List.pairwise_singleton _ _, ?_⟩
    intro g hg g' hg'
    rw [List.mem_singleton.mp hg']
    exact hinv.lt_nextGeneration hgen hg
  · intro g hg
    rw [hgen']
    rcases List.mem_append.mp hg with hg | hg
    · exact (generationAfter_cases _).imp_right (hinv.lt_nextGeneration hgen hg).trans
    · rw [List.mem_singleton.mp hg]
      exact generationAfter_cases _
  · intro g hg
    exact hinv.blank g fun hmem => hg (List.mem_append_left _ hmem)

end AegisFlow
