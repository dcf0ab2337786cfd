import AegisFlow.Lts.Basic
import AegisFlow.Net.DeadlineView

/-!
# The event loop keeps its books

Every handler of the event loop leaves the table of sessions, the registrations with epoll and
the deadlines in order, whatever the replies to its operations are.

* `syncDeadline_keeps`, `closeSession_keeps`, `handleRead_keeps`, `handleWrite_keeps`, … : **the
  procedures of the loop keep the books**;
* `handlerSystem` : the states between two handlers;
* `books_between_handlers` : what holds in each of them.
-/

namespace AegisFlow

namespace EventLoop

/-! ### Rules -/

/-- The procedure keeps to what a loop may do with its timers, and ends with `R`. -/
abbrev Keeps {α : Type} (R : DeadlineView → LoopState → α → Prop) (v : DeadlineView)
    (st : LoopState) (m : Loop α) : Prop :=
  Proc.Ensures (E := LoopSig) DeadlineView.upd DeadlineView.allow R v st m

/-- Operations that have nothing to do with timers. -/
def Timerless : LoopOp → Prop
  | .scheduleAt .. | .cancelTimer _ | .popTimeout | .takeRescanRequest | .now
  | .closeMailboxes => False
  | _ => True

variable {op : LoopOp}

theorem upd_timerless {v : DeadlineView} (hop : Timerless op) (r : op.Reply) : v.upd op r = v := by
  cases op <;> first | rfl | exact hop.elim

theorem allow_timerless {v : DeadlineView} (hop : Timerless op) : v.allow op := by
  cases op <;> trivial

variable {config : EventLoopConfig} {owed : List TimerEvent} {X : Set ℤ} {α : Type}
  {v : DeadlineView} {st : LoopState} {fd : ℤ} {e : SessionEntry}
  {R : DeadlineView → LoopState → α → Prop}

theorem keeps_timerless_bind (hop : Timerless op) {f : op.Reply → Loop α}
    (h : ∀ r, Keeps R v st (f r)) : Keeps R v st (Proc.perform (E := LoopSig) op >>= f) := by
  refine .call (allow_timerless hop) fun r => ?_
  rw [upd_timerless hop]
  exact h r

/-- The procedure leaves the books in order. -/
abbrev Balances (config : EventLoopConfig) (owed : List TimerEvent) (v : DeadlineView)
    (st : LoopState) {α : Type} (m : Loop α) : Prop :=
  Keeps (fun v' st' _ => Books config owed ∅ v' st') v st m

theorem keeps_timerless (hop : Timerless op) :
    Keeps (fun v' st' _ => v' = v ∧ st' = st) v st (Proc.perform (E := LoopSig) op) :=
  Proc.Ensures.perform (allow_timerless hop) fun r => ⟨upd_timerless hop r, rfl⟩

/-! ### Deadlines -/

theorem cancelTimerId_keeps (h : Books config owed X v st) {id : TimerId}
    (hid : id.valid = true → v.honest → ∀ (fd : ℤ) e, st.sessions[fd]? = some e →
      e.deadlineActive = true → e.timer.id ≠ id) {st₁ : LoopState} :
    Keeps (fun v' st' _ => Books config owed X v' st ∧ st' = st₁) v st₁ (cancelTimerId id) := by
  refine .when (fun hvalid => ?_) fun _ => ⟨h, rfl⟩
  exact .call trivial fun _ =>
    .ret ⟨h.cancel (hid hvalid), rfl⟩

/-- `cancelDeadline` does not look at the map from generations to descriptors, which is `m` in the
books. -/
theorem cancelDeadline_keeps {m : Std.TreeMap ℕ ℤ}
    (h : Books config owed {fd} v { st with eventToFd := m }) :
    Keeps (fun v' st' _ => Books config owed {fd} v' { st' with eventToFd := m } ∧
      TimersOnly fd st st' ∧ (st.sessions[fd]? ≠ none → st'.sessions[fd]? ≠ none) ∧
      ∀ e', st'.sessions[fd]? = some e' → e'.deadlineActive = false)
      v st (cancelDeadline fd) := by
  unfold cancelDeadline
  refine .find (fun he => .ret ⟨h, .refl st, fun hne => absurd he hne, by simp [he]⟩)
    fun e he => ?_
  refine .ite (fun hactive => .put ?_) fun hinactive =>
    .ret ⟨h, .refl st, fun _ => by simp [he], fun e' he' => ?_⟩
  · have hput := h.put he (.disarm e (sessionTimerKind e.deadlineKind))
    refine (cancelTimerId_keeps hput fun hvalid hv fd' x hx hxactive => ?_).mono ?_
    · rcases put_cases hx with ⟨-, rfl⟩ | ⟨hne, hx⟩
      · exact absurd hxactive (by simp)
      · exact (h.tracks hv).timer_ne he hvalid hx hne
    · rintro v' st' - ⟨hbooks, rfl⟩
      refine ⟨hbooks, .put he ⟨rfl, rfl, _, rfl⟩, fun _ => by simp,
        fun e' he' => ?_⟩
      rw [sessions_put_self] at he'
      rw [← Option.some.inj he']
  · rw [he] at he'
    rw [← Option.some.inj he']
    simpa using hinactive

theorem cancelDeadline_keeps' (h : Books config owed {fd} v st) :
    Keeps (fun v' st' _ => Books config owed {fd} v' st' ∧ TimersOnly fd st st' ∧
      ∀ e', st'.sessions[fd]? = some e' → e'.deadlineActive = false) v st
      (cancelDeadline fd) := by
  refine (cancelDeadline_keeps (m := st.eventToFd) h).mono fun v' st' _ ⟨h', ht, _, hoff⟩ => ?_
  have hmap : st'.eventToFd = st.eventToFd := by rw [ht.rest]
  rw [← hmap] at h'
  exact ⟨h', ht, hoff⟩

theorem armDeadline_keeps (h : Books config owed {fd} v st) {kind : TimerEventKind}
    (hkind : ∀ e, st.sessions[fd]? = some e → kind = deadlineKindFor e.session) :
    Keeps (fun v' st' ok => Books config owed {fd} v' st' ∧ TimersOnly fd st st' ∧
      (ok = true → config.deadlines.enabled = true → ∀ e', st'.sessions[fd]? = some e' →
        e'.deadlineActive = true ∧ e'.deadlineKind = kind)) v st (armDeadline config fd kind) := by
  unfold armDeadline
  refine .ite (fun hoff => .ret ⟨h, .refl st, fun _ hon => ?_⟩) fun hon => ?_
  · simp [hon] at hoff
  refine (cancelDeadline_keeps' h).bind fun v₁ st₁ _ ⟨h₁, ht₁, hinactive⟩ => .find
    (fun _ => .ret ⟨h₁, ht₁, by simp⟩) fun e he => ?_
  refine .ite (fun _ => .ret ⟨h₁, ht₁, by simp⟩) fun _ => ?_
  refine .put (.call trivial fun now => ?_)
  have hkind' : kind = deadlineKindFor e.session := by
    obtain ⟨e₀, he₀, het⟩ := ht₁.entry e he
    obtain ⟨timers, hsession⟩ := het.session
    rw [hkind e₀ he₀, hsession]
    rfl
  have hallow := (h₁.readClock now).allow_schedule he (now + 1000000 * timeoutFor config kind)
    (Nat.lt_succ_self _) hkind'
  -- the number of the deadline counts up before the timer is scheduled
  have hcount : Follows e { e with deadlineSequence := e.deadlineSequence + 1 } :=
    ⟨rfl, Nat.le_succ _, fun _ _ => rfl, fun hactive =>
      absurd (hactive.symm.trans (hinactive e he)) (by simp)⟩
  have h₂ := (h₁.put he hcount).readClock now
  have ht₂ : TimersOnly fd st₁
      (st₁.put fd { e with deadlineSequence := e.deadlineSequence + 1 }) :=
    .put he ⟨rfl, rfl, _, rfl⟩
  have he₂ := sessions_put_self st₁ fd { e with deadlineSequence := e.deadlineSequence + 1 }
  refine .call hallow fun id => ?_
  cases id with
  | none =>
    exact .ret ⟨h₂.scheduleFailed he₂ (hinactive e he)
      (now + 1000000 * timeoutFor config kind) kind, ht₁.trans ht₂, by simp⟩
  | some id =>
    have hentry (e : SessionEntry) (deadline : ℕ) : EntryTimers e (e.arm kind deadline id) :=
      ⟨rfl, rfl, _, rfl⟩
    have h₃ := h₂.arm he₂
      (fun ev hev hg => Nat.lt_succ_of_le (h₁.numbered.past ev hev fd e he hg))
      (by simpa using hon) (now + 1000000 * timeoutFor config kind) kind id
    have ht₃ := ht₂.trans (.put he₂ (hentry _ (now + 1000000 * timeoutFor config kind)))
    refine .put (.ret ⟨h₃, ht₁.trans ht₃, fun _ _ e' he' => ?_⟩)
    rw [sessions_put_self] at he'
    rw [← Option.some.inj he']
    exact ⟨rfl, rfl⟩

/-- The session on `fd` is about to be closed, or has the deadline it should have. -/
def SessionReady (config : EventLoopConfig) (fd : ℤ) (st : LoopState) : Prop :=
  ∀ e, st.sessions[fd]? = some e → ¬ e.session.isOpen ∨ DeadlineOk config e

theorem syncDeadline_keeps (h : Books config owed {fd} v st) :
    Keeps (fun v' st' ok => Books config owed {fd} v' st' ∧ TimersOnly fd st st' ∧
      (ok = true → SessionReady config fd st')) v st (syncDeadline config fd) := by
  unfold syncDeadline
  refine .find (fun _ => .ret ⟨h, .refl st, by simp⟩) fun e he => ?_
  have hself {e' : SessionEntry} (he' : st.sessions[fd]? = some e') : e' = e :=
    Option.some.inj (he'.symm.trans he)
  refine .ite (fun hoff => .ret ⟨h, .refl st, fun _ e' _ =>
    .inr fun hon => absurd hon (by simpa using hoff)⟩) fun _ => ?_
  refine .ite (fun hclosing => ?_) fun hopen => ?_
  · refine (cancelDeadline_keeps' h).bind fun v' st' _ ⟨h', ht, _⟩ =>
      .ret ⟨h', ht, fun _ e' he' => .inl ?_⟩
    obtain ⟨e₀, he₀, het⟩ := ht.entry e' he'
    obtain ⟨timers, hsession⟩ := het.session
    obtain rfl := hself he₀
    rw [hsession]
    exact fun hopen => hclosing.elim hopen.1 hopen.2
  · refine .ite (fun hsame => ?_) fun _ => ?_
    · refine .ret ⟨h, .refl st, fun _ e' he' => .inr fun _ => ?_⟩
      obtain rfl := hself he'
      exact hsame
    · refine (armDeadline_keeps h fun e' he' => by rw [hself he']).mono
        fun v' st' ok ⟨h', ht, hok⟩ => ⟨h', ht, fun htrue e' he' => .inr fun hon => ?_⟩
      obtain ⟨hactive, hkind⟩ := hok htrue hon e' he'
      obtain ⟨e₀, he₀, het⟩ := ht.entry e' he'
      obtain ⟨timers, hsession⟩ := het.session
      obtain rfl := hself he₀
      refine ⟨hactive, hkind.trans ?_⟩
      rw [hsession]
      rfl

/-! ### Closing and interest -/

theorem finalize_keeps {m : Std.TreeMap ℕ ℤ}
    (h : Books config owed {fd} v { st with eventToFd := m })
    (he : st.sessions[fd]? = some e) (hinactive : e.deadlineActive = false) :
    Keeps (fun v' st' _ => Books config owed {fd} v' { st with eventToFd := m } ∧
      st' = { st with sessions := st.sessions.erase fd }) v st (finalize fd e.session) := by
  have hcancel {v : DeadlineView} (h : Books config owed {fd} v { st with eventToFd := m })
      (k : SessionTimerKind) :
      Keeps (fun v' st' _ => Books config owed {fd} v' { st with eventToFd := m } ∧ st' = st) v st
        (cancelTimerId (e.session.timerSlot k)) :=
    cancelTimerId_keeps h fun hvalid => h.timer_ne he hinactive hvalid
  unfold finalize
  refine (hcancel h .idle).bind ?_
  rintro v₁ st₁ - ⟨h, rfl⟩
  refine (hcancel h .read).bind ?_
  rintro v₂ st₂ - ⟨h, rfl⟩
  refine (hcancel h .write).bind ?_
  rintro v₃ st₃ - ⟨h, rfl⟩
  refine (hcancel h .business).bind ?_
  rintro v₄ st₄ - ⟨h, rfl⟩
  have hclose : Keeps (fun v' st' _ => v' = v₄ ∧ st' = st₄) v₄ st₄
      (Proc.when (!e.session.connectionClosed)
        (Proc.perform (E := LoopSig) (.closeSocket fd))) :=
    .when (fun _ => keeps_timerless trivial) fun _ => ⟨rfl, rfl⟩
  refine hclose.bind ?_
  rintro v₅ st₅ - ⟨rfl, rfl⟩
  exact .set ⟨h, rfl⟩

theorem unregister_keeps (generation : ℕ) :
    Keeps (fun v' st' _ => v' = v ∧ st' = { st with eventToFd := st.eventToFd.erase generation })
      v st (unregister fd generation) := by
  unfold unregister
  refine .get ?_
  have hdel : Keeps (fun v' st' _ => v' = v ∧ st' = st) v st
      (Proc.when st.epollOpen (Proc.perform (E := LoopSig) (.epollDel fd))) :=
    .when (fun _ => keeps_timerless trivial) fun _ => ⟨rfl, rfl⟩
  refine hdel.bind ?_
  rintro v' st' - ⟨rfl, rfl⟩
  exact .set ⟨rfl, rfl⟩

theorem closeSession_removes (h : Books config owed {fd} v st) (reason : SessionCloseReason)
    (notify : Bool) :
    Keeps (fun v' st' _ => Books config owed ∅ v' st' ∧ ∀ fd' : ℤ, st'.sessions[fd']? =
      if fd = fd' then none else st.sessions[fd']?) v st (closeSession fd reason notify) := by
  unfold closeSession
  refine ensures_find_bind.mpr ?_
  cases he : st.sessions[fd]? with
  | none =>
    refine .ret ⟨h.close (by simp [he]), fun fd' => ?_⟩
    split
    · rename_i heq
      rw [← heq, he]
    · rfl
  | some e =>
    have hclosing := h.put he (.session (Session.beginClose_token e.session reason)
      (Session.beginClose_timers e.session reason))
    refine .put ((unregister_keeps _).bind ?_)
    rintro v₁ st₁ - ⟨rfl, rfl⟩
    -- until the session is gone, the books are kept with the map as it was
    refine (cancelDeadline_keeps (m := st.eventToFd) hclosing).bind
      fun v₂ st₂ _ ⟨h₂, ht, hstays, hoff⟩ => ensures_find_bind.mpr ?_
    have hmap : st₂.eventToFd = st.eventToFd.erase e.session.token.generation := by rw [ht.rest]
    cases he₂ : st₂.sessions[fd]? with
    | none => exact absurd he₂ (hstays (by simp))
    | some e₂ =>
      have htoken : e₂.session.token = e.session.token := by
        obtain ⟨e₁, he₁, het⟩ := ht.entry e₂ he₂
        obtain ⟨timers, hsession⟩ := het.session
        rw [hsession]
        rw [sessions_put_self] at he₁
        rw [← Option.some.inj he₁]
        exact Session.beginClose_token e.session reason
      refine (finalize_keeps h₂ he₂ (hoff e₂ he₂)).bind ?_
      rintro v₃ st₃ - ⟨h₃, rfl⟩
      have hdone : Books config owed ∅ v₃ { st₂ with sessions := st₂.sessions.erase fd } ∧
          ∀ fd' : ℤ, (st₂.sessions.erase fd)[fd']? =
            if fd = fd' then none else st.sessions[fd']? := by
        refine ⟨h₃.remove he₂ (fun fd' => TreeMap.lookup_erase _ _ _) (fun g => ?_) rfl ?_,
          fun fd' => ?_⟩
        · dsimp only
          rw [hmap, htoken, TreeMap.lookup_erase]
        · rfl
        · rw [TreeMap.lookup_erase]
          split
          · rfl
          · rename_i hne
            rw [ht.others fd' (Ne.symm hne)]
            exact (sessions_put st fd fd' _).trans (if_neg hne)
      refine .when (fun _ => ?_) fun _ => hdone
      refine (show Keeps _ _ _ (Proc.perform (E := LoopSig) .releaseConnection) from
        keeps_timerless trivial).mono ?_
      rintro v₄ st₄ - ⟨rfl, rfl⟩
      exact hdone

/-- **Closing a session puts the books in order.** -/
theorem closeSession_keeps (h : Books config owed {fd} v st) (reason : SessionCloseReason)
    (notify : Bool) :
    Balances config owed v st (closeSession fd reason notify) :=
  (closeSession_removes h reason notify).mono fun _ _ _ h => h.1

/-- The books are in order but for what is registered for the session on `fd`. -/
structure Ready (config : EventLoopConfig) (owed : List TimerEvent) (fd : ℤ) (v : DeadlineView)
    (st : LoopState) : Prop where
  books : Books config owed {fd} v st
  session : SessionReady config fd st

theorem Ready.of_books (h : Books config owed ∅ v st) (fd : ℤ) : Ready config owed fd v st :=
  ⟨h.mono (Set.empty_subset _), fun e he => .inr (h.entries fd e (Set.notMem_empty fd) he).deadline⟩

theorem settleInterest_keeps (h : Ready config owed fd v st) :
    Balances config owed v st (settleInterest fd) := by
  unfold settleInterest
  refine (modifyInterest_ensures id (fun _ _ _ => trivial) fun _ _ _ _ => rfl).bind ?_
  rintro v' st' ok (⟨rfl, rfl, hv⟩ | ⟨rfl, e, hreg, hv⟩)
  · rw [id, or_self] at hv
    subst hv
    exact closeSession_keeps h.books _ _
  · rw [id, ite_self] at hv
    subst hv
    refine .ret ?_
    have hfollows : Follows e { e with
        registeredEvents := epollEventsFor e.session.interest } :=
      ⟨rfl, le_rfl, fun _ _ => rfl, fun hactive => ⟨hactive, rfl⟩⟩
    have hput := h.books.put hreg.before hfollows
    have hbooks : Books config owed {fd} v' st' := by
      refine hput.congr (fun fd' => ?_) (fun g => by rw [hreg.rest]) (by rw [hreg.rest])
        (by rw [hreg.rest])
      rw [sessions_put]
      split
      · rename_i heq
        rw [← heq, hreg.after]
      · rename_i hne
        exact hreg.others fd' (Ne.symm hne)
    refine hbooks.close fun e' he' => ?_
    obtain rfl := Option.some.inj (hreg.after.symm.trans he')
    refine ⟨hreg.isOpen, rfl, ?_⟩
    exact (h.session e hreg.before).resolve_left (not_not.mpr hreg.isOpen)

/-! ### Requests, reading and writing -/

theorem clearBusinessExpired_keeps (h : Books config owed {fd} v st) :
    Keeps (fun v' st' _ => Books config owed {fd} v' st') v st (clearBusinessExpired fd) := by
  unfold clearBusinessExpired
  refine .find (fun _ => .ret h) fun e he => ?_
  exact .set
    (h.put he ⟨rfl, le_rfl, fun _ _ => rfl, fun hactive => ⟨hactive, rfl⟩⟩)

/-- The books with a session whose deadline was just set, or else closed. -/
theorem syncDeadline_ite_keeps (h : Books config owed {fd} v st) {m m' : Loop α}
    (hok : ∀ v st, Ready config owed fd v st → Keeps R v st m)
    (hfail : ∀ v st, Books config owed {fd} v st → Keeps R v st m') :
    Keeps R v st (syncDeadline config fd >>= fun synced => if synced = true then m else m') :=
  (syncDeadline_keeps h).bind fun v' st' _ ⟨h', _, hready⟩ => .ite
    (fun htrue => hok v' st' ⟨h', hready htrue⟩) fun _ => hfail v' st' h'

/-- A request that was accepted leaves a session with its deadline; one that was refused leaves
the books in order. -/
theorem dispatchRequest_keeps {write : ℤ → Loop Unit} {token : ConnectionToken}
    (hfd : token.fd = fd) (hwrite : ∀ v st, Ready config owed fd v st →
      Balances config owed v st (write fd))
    (h : Books config owed {fd} v st) (request : Bytes) :
    Keeps (fun v' st' accepted => if accepted = true then Ready config owed fd v' st'
      else Books config owed ∅ v' st') v st (dispatchRequest config write token request) := by
  subst hfd
  unfold dispatchRequest
  extract_lets refuse
  have hrefuse (reason : SessionCloseReason) {v : DeadlineView} {st : LoopState}
      (h : Books config owed {token.fd} v st) :
      Keeps (fun v' st' accepted => if accepted = true then Ready config owed token.fd v' st'
        else Books config owed ∅ v' st') v st (refuse reason) :=
    (closeSession_keeps h reason true).bind fun v' st' _ h' => .ret (by simpa)
  refine keeps_timerless_bind (by trivial) fun drained => .ite
    (fun _ => hrefuse _ h) fun _ => keeps_timerless_bind (by trivial) fun r => ?_
  refine .ite (fun _ => ?_) fun _ => ?_
  · refine (clearBusinessExpired_keeps h).bind fun v₁ st₁ _ h₁ => ?_
    exact syncDeadline_ite_keeps h₁ (fun v st hready => .ret (by simpa))
      fun v st h => hrefuse _ h
  · refine keeps_timerless_bind (by trivial) fun drained => .ite
      (fun _ => hrefuse _ h) fun _ => .find (fun _ => hrefuse _ h) fun e he => ?_
    refine .ite (fun _ => hrefuse _ h) fun _ => ?_
    refine keeps_timerless_bind (by trivial) fun full => .ite
      (fun _ => hrefuse _ h) fun _ => .put ?_
    have hqueued := h.put he (.session (Session.queueResponse_token e.session token _)
      (Session.queueResponse_timers e.session token config.overloadResponseFrame))
    refine .ite (fun _ => ?_) fun _ => .ite
      (fun _ => hrefuse _ hqueued) fun _ => hrefuse _ hqueued
    refine syncDeadline_ite_keeps hqueued (fun v st hready => ?_) fun v st h => hrefuse _ h
    exact (hwrite v st hready).bind fun v' st' _ h' => .ret (by simpa)

theorem handleWrite_keeps (fuel : ℕ) (h : Ready config owed fd v st) :
    Balances config owed v st (handleWrite config fuel fd) := by
  induction fuel generalizing fd v st with
  | zero => exact ensures_diverge fun _ => trivial
  | succ fuel ih =>
    unfold handleWrite
    refine .find (fun he => .ret (h.books.close (by simp [he]))) fun e he => ?_
    refine .ite (fun _ => closeSession_keeps h.books _ _) fun _ => ?_
    refine .ite (fun _ => settleInterest_keeps h) fun _ => ?_
    refine .ite (fun _ => closeSession_keeps h.books _ _) fun _ => ?_
    refine keeps_timerless_bind (by trivial) fun r => ?_
    cases r with
    | sent n =>
      refine .ite (fun _ => closeSession_keeps h.books _ _) fun _ => ?_
      refine keeps_timerless_bind (by trivial) fun full => .ite
        (fun _ => closeSession_keeps h.books _ _) fun _ => .put ?_
      have hput := h.books.put he (.session (Session.onBytesWritten_token e.session n)
        (Session.onBytesWritten_timers e.session n))
      split
      · rename_i request hreq
        refine (dispatchRequest_keeps (h.books.table.token fd e he).2.1 (fun v st h => ih h) hput
          request).bind fun v' st' accepted h' => .ite (fun hyes => ?_) fun hno =>
            .ret (by rwa [if_neg hno] at h')
        rw [if_pos hyes] at h'
        exact ih h'
      · exact syncDeadline_ite_keeps hput (fun v st hready => ih hready)
          fun v st h => closeSession_keeps h _ _
    | interrupted => exact ih h
    | again => exact settleInterest_keeps h
    | failed => exact closeSession_keeps h.books _ _

/-- After input: the session is to be closed, reads on, or has the deadline it should have. -/
theorem afterInput_keeps {drainPeerClose : Bool} {readOn : Loop Unit}
    (hread : ∀ v st, Ready config owed fd v st →
      Balances config owed v st readOn)
    (h : Books config owed {fd} v st) (hsession : ∀ e, st.sessions[fd]? = some e →
      e.session.state = .reading ∨ ¬ e.session.isOpen ∨ DeadlineOk config e) :
    Balances config owed v st (afterInput config fd drainPeerClose readOn) := by
  unfold afterInput
  refine .find (fun he => .ret (h.close (by simp [he]))) fun e he => ?_
  have hgo {v : DeadlineView} {st : LoopState} (h : Ready config owed fd v st) :
      Balances config owed v st
        (if (!drainPeerClose && !e.session.interest.read) = true then settleInterest fd
          else readOn) :=
    .ite (fun _ => settleInterest_keeps h) fun _ => hread _ _ h
  refine .ite (fun _ => closeSession_keeps h _ _) fun _ =>
    .ite (fun _ => ?_) fun hstate => ?_
  · refine (syncDeadline_keeps h).bind fun v' st' synced ⟨h', _, hready⟩ => .ite
      (fun _ => closeSession_keeps h' _ _) fun hsynced => hgo ⟨h', hready (by simpa using hsynced)⟩
  · refine hgo ⟨h, fun e' he' => ?_⟩
    obtain rfl := Option.some.inj (he.symm.trans he')
    exact (hsession e he).resolve_left hstate

/-- The kind of deadline depends on the state alone unless the session reads. -/
theorem deadlineKindFor_congr {s s' : Session} (hstate : s'.state = s.state)
    (hreading : s.state ≠ .reading) : deadlineKindFor s' = deadlineKindFor s := by
  unfold deadlineKindFor
  rw [hstate]
  cases hs : s.state <;> first | rfl | exact absurd hs hreading

/-- Sessions have no deadlines of the other kinds. -/
theorem deadlineKindFor_ne (s : Session) :
    deadlineKindFor s ≠ .cleanupTick ∧ deadlineKindFor s ≠ .blacklistMaintenanceTick := by
  unfold deadlineKindFor
  split
  · split_ifs <;> decide
  · decide
  · decide
  · decide
  · decide

/-- The session went on in its state, or is to be closed. -/
theorem SessionReady.step (h : SessionReady config fd st) (he : st.sessions[fd]? = some e)
    {session : Session} (hstate : session.state = e.session.state ∨ session.state = .closing) :
    session.state = .reading ∨ ¬ session.isOpen ∨ DeadlineOk config { e with session } := by
  rcases hstate with hstate | hstate
  · by_cases hreading : e.session.state = .reading
    · exact .inl (hstate.trans hreading)
    · rcases h e he with hclosed | hok
      · refine .inr (.inl fun hopen => hclosed ?_)
        unfold Session.isOpen at hopen ⊢
        rwa [hstate] at hopen
      · refine .inr (.inr fun hon => ⟨(hok hon).1, (hok hon).2.trans ?_⟩)
        exact (deadlineKindFor_congr hstate hreading).symm
  · exact .inr (.inl fun hopen => hopen.1 hstate)

theorem peerClosed_keeps (h : Ready config owed fd v st) :
    Balances config owed v st (peerClosed fd) := by
  unfold peerClosed
  refine .find (fun he => .ret (h.books.close (by simp [he]))) fun e he => ?_
  have hput := h.books.put he (.session (Session.onPeerReadClosed_token e.session)
    (Session.onPeerReadClosed_timers e.session))
  refine .put (.ite (fun _ => closeSession_keeps hput _ _)
    fun hopen => settleInterest_keeps ⟨hput, fun e' he' => ?_⟩)
  rw [sessions_put_self] at he'
  cases he'
  obtain ⟨hstate, hreading⟩ := (Session.onPeerReadClosed_state e.session).resolve_left hopen
  refine (h.session.step he (.inl hstate)).resolve_left fun hread => hreading ?_
  exact hstate.symm.trans hread

theorem handleRead_keeps (fuel : ℕ) (drainPeerClose : Bool) (h : Ready config owed fd v st) :
    Balances config owed v st (handleRead config fuel fd drainPeerClose) := by
  induction fuel generalizing v st with
  | zero => exact ensures_diverge fun _ => trivial
  | succ fuel ih =>
    unfold handleRead
    refine .find (fun he => .ret (h.books.close (by simp [he]))) fun e he => ?_
    refine keeps_timerless_bind (by trivial) fun r => ?_
    cases r with
    | data bytes =>
      refine keeps_timerless_bind (by trivial) fun full => .ite
        (fun _ => closeSession_keeps h.books _ _) fun _ => .put ?_
      have hput := h.books.put he (.session (Session.onInput_token e.session bytes)
        (Session.onInput_timers e.session bytes))
      split
      · rename_i hreq
        refine afterInput_keeps (fun v st h => ih h) hput fun e' he' => ?_
        rw [sessions_put_self] at he'
        cases he'
        exact h.session.step he (Session.onInput_state e.session bytes hreq)
      · rename_i request hreq
        refine (dispatchRequest_keeps (h.books.table.token fd e he).2.1
          (fun v st h => handleWrite_keeps fuel h) hput request).bind fun v' st' accepted h' =>
            .ite (fun hyes => ?_) fun hno =>
              .ret (by rwa [if_neg hno] at h')
        rw [if_pos hyes] at h'
        exact afterInput_keeps (fun v st h => ih h) h'.books fun e' he' =>
          .inr (h'.session e' he')
    | closed => exact peerClosed_keeps h
    | interrupted => exact ih h
    | again => exact settleInterest_keeps h
    | failed => exact closeSession_keeps h.books _ _

/-! ### Timeouts and completions -/

theorem expireBusiness_keeps (fuel : ℕ) (h : Books config owed {fd} v st)
    (he : st.sessions[fd]? = some e) :
    Balances config owed v st (expireBusiness config fuel fd e) := by
  unfold expireBusiness
  have h₁ := h.put he (.mark true rfl rfl)
  refine .put (.ite (fun _ => closeSession_keeps h₁ _ _)
    fun _ => keeps_timerless_bind (by trivial) fun full => ?_)
  refine .ite (fun _ => closeSession_keeps h₁ _ _) fun _ => ?_
  have h₂ := h₁.put (sessions_put_self _ _ _) (.mark true
    (Session.queueResponse_token e.session e.session.token config.businessTimeoutResponseFrame)
    (Session.queueResponse_timers e.session _ _))
  refine .put (.ite (fun _ => .put ?_)
    fun _ => closeSession_keeps h₂ _ _)
  have h₃ := h₂.put (sessions_put_self _ _ _) (.mark true
    (Session.closeAfterWrite_token _ .businessTimeout) (Session.closeAfterWrite_timers _ _))
  refine .ite (fun _ => closeSession_keeps h₃ _ _) fun _ => ?_
  exact syncDeadline_ite_keeps h₃ (fun v st hready => handleWrite_keeps fuel hready)
    fun v st h => closeSession_keeps h _ _

/-- **A timer event is seen to**: after `handleTimeoutEvent` no session waits for it. -/
theorem handleTimeoutEvent_keeps (fuel : ℕ) (event : TimerEvent)
    (h : Books config (event :: owed) ∅ v st) :
    Balances config owed v st (handleTimeoutEvent config fuel event) := by
  unfold handleTimeoutEvent
  refine ensures_find_bind.mpr ?_
  -- an entry that still waits for the event is the one on its descriptor
  have hwaits {fd : ℤ} {x : SessionEntry} (hx : st.sessions[fd]? = some x)
      (hevent : x.timer.event = event) : st.sessions[event.targetFd]? = some x := by
    rw [h.targetFd_eq hx hevent]
    exact hx
  cases he : st.sessions[event.targetFd]? with
  | none =>
    refine .ret (h.settle fun _ fd x hx _ _ hevent => ?_)
    rw [hwaits hx hevent] at he
    cases he
  | some e =>
    have hself {fd : ℤ} {x : SessionEntry} (hx : st.sessions[fd]? = some x)
        (hevent : x.timer.event = event) : x = e :=
      Option.some.inj ((hwaits hx hevent).symm.trans he)
    refine .ite (fun hother => .ret (h.settle fun _ fd x hx hactive _ hevent => ?_)) fun _ => ?_
    · obtain rfl := hself hx hevent
      rw [← hevent] at hother
      simp [SessionEntry.timer, SessionEntry.timerEvent, sessionTimerEvent, hactive] at hother
    refine .ite (fun hkind => .ret (h.settle fun _ fd x hx hactive _ hevent => ?_)) fun hkind => ?_
    · obtain rfl := hself hx hevent
      have hon := h.table.active fd x hx hactive
      rw [← hevent] at hkind
      exact hkind ((h.entries fd x (Set.notMem_empty fd) hx).deadline hon).2
    refine .call trivial fun now => .ite (fun hearly => .ret ((h.readClock now).settle
        fun hv fd x hx _ hdue hevent => ?_)) fun _ => .put ?_
    · -- the clock does not go back, so the deadline of a due timer has passed
      obtain rfl := hself hx hevent
      have hlate : x.timer.deadline ≤ now := hdue.elim (hv.2 x.timer) fun hdoubt => hdoubt.2
      exact absurd hearly (Nat.not_lt.mpr hlate)
    have hput := ((h.readClock now).mono (Set.empty_subset {event.targetFd})).put he
      (.disarm e (sessionTimerKind event.kind))
    have hbooks : Books config owed {event.targetFd} (v.readClock now)
        (st.put event.targetFd { e with
          session := (e.session.replaceTimer (sessionTimerKind event.kind) {}).2
          deadlineActive := false }) := by
      refine hput.settle fun _ fd x hx hactive _ hevent => ?_
      rcases put_cases hx with ⟨-, rfl⟩ | ⟨hne, hx⟩
      · exact absurd hactive (by simp)
      · exact hne (h.targetFd_eq hx hevent).symm
    have hkind' := not_not.mp hkind
    split
    · exact closeSession_keeps hbooks _ _
    · exact closeSession_keeps hbooks _ _
    · exact closeSession_keeps hbooks _ _
    · exact expireBusiness_keeps fuel hbooks (sessions_put_self _ _ _)
    · rename_i hcleanup
      exact absurd (hcleanup.symm.trans hkind').symm (deadlineKindFor_ne e.session).1
    · rename_i htick
      exact absurd (htick.symm.trans hkind').symm (deadlineKindFor_ne e.session).2

theorem handleTimeoutEvent_keeps' (fuel : ℕ) (event : TimerEvent)
    (h : Books config owed ∅ v st) :
    Balances config owed v st (handleTimeoutEvent config fuel event) :=
  handleTimeoutEvent_keeps fuel event (h.owe fun _ => List.mem_cons_of_mem _)

theorem respond_keeps (fuel : ℕ) (completion : BusinessCompletion)
    (h : Books config owed {completion.token.fd} v st) :
    Balances config owed v st (respond config fuel completion) := by
  unfold respond
  refine .find (fun he => .ret (h.close (by simp [he]))) fun e he => ?_
  have hqueued := h.put he (.session
    (Session.queueResponse_token e.session completion.token completion.responseFrame)
    (Session.queueResponse_timers e.session _ _))
  refine .put (.ite
    (fun _ => closeSession_keeps hqueued _ _) fun _ => keeps_timerless_bind (by trivial) ?_)
  intro drained
  have hmark : Keeps (fun v' st' _ => Books config owed {completion.token.fd} v' st') v _
      (Proc.when drained (put completion.token.fd { e with session :=
        ((e.session.queueResponse completion.token completion.responseFrame).2.closeAfterWrite
          .localShutdown).2 })) :=
    .when (fun _ => .set (hqueued.put (sessions_put_self _ _ _)
      (.session (Session.closeAfterWrite_token _ _) (Session.closeAfterWrite_timers _ _))))
      fun _ => hqueued
  exact hmark.bind fun v st _ h => syncDeadline_ite_keeps h
    (fun v st hready => handleWrite_keeps fuel hready) fun v st h => closeSession_keeps h _ _

theorem businessDeadlinePassed_keeps (h : Books config owed X v st) (e : SessionEntry) :
    Keeps (fun v' st' _ => Books config owed X v' st' ∧ st' = st) v st
      (businessDeadlinePassed config e) := by
  unfold businessDeadlinePassed
  refine .ite (fun _ => .call trivial fun now =>
    .ret ⟨h.readClock now, rfl⟩) fun _ => .ret ⟨h, rfl⟩

theorem applyCompletion_keeps (fuel : ℕ) (completion : BusinessCompletion)
    (h : Books config owed ∅ v st) :
    Balances config owed v st (applyCompletion config fuel completion) := by
  unfold applyCompletion
  refine .find (fun _ => .ret h) fun e _ => ?_
  refine .ite (fun _ => .ret h) fun _ => .ite
    (fun _ => .ret h) fun _ => (businessDeadlinePassed_keeps h e).bind ?_
  rintro v₁ st₁ passed ⟨h₁, rfl⟩
  refine .ite (fun _ => handleTimeoutEvent_keeps' fuel _ h₁) fun _ => ?_
  refine (cancelDeadline_keeps' (h₁.mono (Set.empty_subset _))).bind
    fun v₂ st₂ _ ⟨h₂, _⟩ => .ite (fun _ => closeSession_keeps h₂ _ _) fun _ => ?_
  exact keeps_timerless_bind (by trivial) fun full => .ite
    (fun _ => closeSession_keeps h₂ _ _) fun _ => respond_keeps fuel completion h₂

/-! ### The top level -/

theorem applyGracefulDrain_keeps (fuel : ℕ) (h : Books config owed ∅ v st) :
    Balances config owed v st (applyGracefulDrain config fuel) := by
  unfold applyGracefulDrain
  refine keeps_timerless_bind (by trivial) fun drained => .ite (fun _ => .get ?_) fun _ => .ret h
  refine Proc.Ensures.forEach (I := Books config owed ∅) (fun fd v st h => ?_) _ h
  refine ensures_find_bind.mpr ?_
  have hready := Ready.of_books h fd
  cases he : st.sessions[fd]? with
  | none => exact .ret h
  | some e =>
    refine .ite (fun _ => closeSession_keeps hready.books _ _) fun _ =>
      .ite (fun hwriting => .put ?_) fun _ =>
        .ret h
    have hput := hready.books.put he (.session (Session.closeAfterWrite_token e.session
      .localShutdown) (Session.closeAfterWrite_timers e.session _))
    refine handleWrite_keeps fuel ⟨hput, fun e' he' => ?_⟩
    rw [sessions_put_self] at he'
    cases he'
    have hstate : (e.session.closeAfterWrite .localShutdown).2.state = e.session.state := by
      unfold Session.closeAfterWrite
      split_ifs <;> rfl
    refine (hready.session.step he (.inl hstate)).resolve_left fun hreading => ?_
    rw [hstate, hwriting] at hreading
    cases hreading

theorem handleSocketEvent_keeps (fuel generation : ℕ) (events : EpollEvents)
    (h : Books config owed ∅ v st) :
    Balances config owed v st (handleSocketEvent config fuel generation events) := by
  unfold handleSocketEvent
  refine .get ?_
  cases st.eventToFd[generation]? with
  | none => exact .ret h
  | some fd =>
    refine .ite (fun _ => keeps_timerless_bind (by trivial) fun _ =>
      closeSession_keeps (Ready.of_books h fd).books _ _) fun _ => ensures_find_bind.mpr ?_
    have hread (b drain : Bool) :
        Balances config owed v st (Proc.when b (handleRead config fuel fd drain)) :=
      .when (fun _ => handleRead_keeps fuel drain (Ready.of_books h fd)) fun _ => h
    refine (hread _ _).bind fun v₁ st₁ _ h₁ => ensures_find_bind.mpr ?_
    exact .when (fun _ => handleWrite_keeps fuel (Ready.of_books h₁ fd)) fun _ => h₁

/-- A session that was just registered has its deadline set. -/
theorem syncNew_keeps (h : Books config owed {fd} v st) (he : st.sessions[fd]? = some e)
    (hopen : e.session.isOpen)
    (hregistered : e.registeredEvents = epollEventsFor e.session.interest) {m m' : Loop α}
    (hok : ∀ v st, Books config owed ∅ v st → Keeps R v st m)
    (hfail : ∀ v st, Books config owed {fd} v st → Keeps R v st m') :
    Keeps R v st (syncDeadline config fd >>= fun synced => if synced = true then m else m') := by
  refine (syncDeadline_keeps h).bind fun v' st' ok ⟨h', ht, hready⟩ => .ite
    (fun htrue => hok v' st' (h'.close fun e' he' => ?_)) fun _ => hfail v' st' h'
  obtain ⟨e₀, he₀, het⟩ := ht.entry e' he'
  obtain rfl := Option.some.inj (he.symm.trans he₀)
  have hopen' : e'.session.isOpen := by
    obtain ⟨timers, hsession⟩ := het.session
    rw [hsession]
    exact hopen
  refine ⟨hopen', ?_, (hready htrue e' he').resolve_left (not_not.mpr hopen')⟩
  rw [het.registered, het.interest]
  exact hregistered

/-- The books with a new session that has no deadline yet. -/
theorem insert_books (h : Books config owed ∅ v st) (hgen : st.nextGeneration ≠ 0)
    (hfd : st.sessions[fd]? = none) (hpos : 0 ≤ fd) {session : Session}
    (htoken : session.token = ⟨config.loopId, fd, st.nextGeneration⟩)
    (htimers : session.timers = {}) (registeredEvents : EpollEvents) :
    Books config owed {fd} v { st with
      sessions := st.sessions.insert fd { session, registeredEvents }
      eventToFd := st.eventToFd.insert st.nextGeneration fd
      nextGeneration := generationAfter st.nextGeneration } :=
  h.insert hgen hfd hpos htoken htimers rfl (fun _ => TreeMap.lookup_insert _ _ _ _)
    (fun _ => TreeMap.lookup_insert _ _ _ _) (generationAfter_cases st.nextGeneration).symm rfl

theorem adopt_keeps (h : Books config owed ∅ v st) :
    Balances config owed v st (adopt config fd) := by
  unfold adopt
  extract_lets refuse
  have hrefuse {v : DeadlineView} {st : LoopState} (status : EventLoopStatus)
      (h : Books config owed ∅ v st) :
      Balances config owed v st (refuse status) := by
    have hclose : Keeps (fun v' st' _ => v' = v ∧ st' = st) v st
        (Proc.when (decide (0 ≤ fd)) (Proc.perform (E := LoopSig) (.closeSocket fd))) :=
      .when (fun _ => keeps_timerless (by trivial)) fun _ => ⟨rfl, rfl⟩
    refine hclose.bind ?_
    rintro v' st' - ⟨rfl, rfl⟩
    exact .ret h
  refine .get (.ite (fun _ => hrefuse _ h) fun _ => ?_)
  refine .ite (fun _ => .ret h) fun hpos => ?_
  refine .ite (fun _ => hrefuse _ h) fun hfree => ?_
  refine .ite (fun _ => hrefuse _ h) fun _ => ?_
  have hnone : st.sessions[fd]? = none := by simpa using hfree
  refine allocateGeneration_ensures.bind ?_
  rintro v' st' generation ⟨rfl, ⟨rfl, rfl⟩ | ⟨hgen, rfl, rfl⟩⟩
  · exact hrefuse _ h
  have hnext := (generationAfter_cases st.nextGeneration).symm
  have hallocated := h.allocate hnext hgen
  refine keeps_timerless_bind (by trivial) fun full =>
    .ite (fun _ => hrefuse _ hallocated) fun _ => ?_
  cases hcreate : Session.create ⟨config.loopId, fd, st.nextGeneration⟩ config.session fd with
  | none => exact hrefuse _ hallocated
  | some session =>
    obtain ⟨htoken, htimers, hopen⟩ : session.token = ⟨config.loopId, fd, st.nextGeneration⟩ ∧
        session.timers = {} ∧ session.isOpen := by
      unfold Session.create at hcreate
      split at hcreate
      · cases hcreate
      · rw [← Option.some.inj hcreate]
        exact ⟨rfl, rfl, by simp, by simp⟩
    refine .ite (fun _ => hrefuse _ hallocated) fun hunmapped => ?_
    refine .put (.modify ?_)
    refine keeps_timerless_bind (by trivial) fun added => .ite
      (fun _ => ?_) fun _ => .modify (hrefuse _ ?_)
    · have hinsert := insert_books h hgen hnone (Int.not_lt.mp hpos) htoken htimers
        (epollEventsFor session.interest)
      refine syncNew_keeps (R := fun v' st' _ => Books config owed ∅ v' st') hinsert
        (sessions_put_self _ _ _) hopen rfl (fun v st h => .ret h) fun v st h => ?_
      exact (closeSession_keeps h _ _).bind fun v st _ h => .ret h
    -- `epoll_ctl` failed: both maps are rolled back to what they were.
    · refine hallocated.congr (fun fd' => ?_) (fun g => ?_) rfl rfl
      · dsimp only
        rw [TreeMap.lookup_erase, TreeMap.lookup_insert]
        split
        · rename_i heq
          rw [← heq, hnone]
        · rfl
      · dsimp only
        rw [TreeMap.lookup_erase, TreeMap.lookup_insert]
        split
        · rename_i heq
          rw [← heq]
          symm
          simpa using hunmapped
        · rfl

/-! ### The timeout mailbox -/

theorem drainTimeouts_keeps (fuel : ℕ) (h : Books config owed ∅ v st) :
    Balances config owed v st (drainTimeouts config fuel) := by
  induction fuel generalizing v st with
  | zero => exact ensures_diverge fun _ => trivial
  | succ fuel ih =>
    unfold drainTimeouts
    refine .call trivial fun r => ?_
    cases r with
    | none => exact .ret h
    | some event =>
      exact (handleTimeoutEvent_keeps fuel event (h.pop event)).bind fun v' st' _ h' => ih h'

/-- Every deadline that has passed is seen to, or the scan fails for lack of memory. -/
theorem rescanDeadlines_keeps (fuel : ℕ) (h : Books config [] ∅ v st) :
    Keeps (fun v' st' ok => if ok = true then Books config [] ∅ v' st'
      else Books config [] ∅ v'.close st') v.rescan st (rescanDeadlines config fuel) := by
  unfold rescanDeadlines
  refine keeps_timerless_bind (by trivial) fun full => .ite (fun _ => .ret ?_) fun _ => ?_
  · rw [if_neg (by simp)]
    exact ⟨h.table, ⟨h.numbered.old, h.numbered.past, h.numbered.own⟩, fun hv => hv.elim, h.entries⟩
  refine .call trivial fun now => .get ?_
  refine (Proc.Ensures.forEach_rest (I := fun events v st => Books config events ∅ v st)
    (fun event events v st h => handleTimeoutEvent_keeps fuel event h) _
    (h.rescan now fun fd e he hactive hpast => ?_)).bind
    fun v' st' _ h' => .ret (by simpa using h')
  -- every deadline that has passed is on the list
  refine List.mem_map.mpr ⟨(fd, e), List.mem_filter.mpr ⟨?_, by simp [hactive, hpast]⟩, rfl⟩
  exact Std.TreeMap.mem_toList_iff_getElem?_eq_some.mpr he

/-- **Serving the timeout mailbox sees to every event**, unless it fails. -/
theorem drainTimeoutMailbox_keeps (fuel : ℕ) (h : Books config [] ∅ v st) :
    Keeps (fun v' st' ok => if ok = true then Books config [] ∅ v' st'
      else Books config [] ∅ v'.close st') v st (drainTimeoutMailbox config fuel) := by
  have hclose {v : DeadlineView} {st : LoopState} (h : Books config [] ∅ v st) :
      Books config [] ∅ v.close st :=
    ⟨h.table, ⟨h.numbered.old, h.numbered.past, h.numbered.own⟩, fun hv => hv.elim, h.entries⟩
  unfold drainTimeoutMailbox
  refine .ite (fun _ => .ret (by simpa using h)) fun _ => ?_
  refine keeps_timerless_bind (by trivial) fun awake => .ite (fun _ => ?_) fun _ =>
    .ret (by simpa using hclose h)
  refine (drainTimeouts_keeps fuel h).bind fun v₁ st₁ _ h₁ => ?_
  refine .call trivial fun rescan => ?_
  cases rescan with
  | true => exact rescanDeadlines_keeps fuel h₁
  | false =>
    refine .ret ?_
    rw [if_pos rfl]
    exact h₁

end EventLoop

/-! ### Between two handlers -/

/-- The handlers of a loop. -/
inductive LoopHandler
  | adopt (fd : ℤ)
  | socketEvent (generation : ℕ) (events : EpollEvents)
  | applyCompletion (completion : BusinessCompletion)
  | timeout (event : TimerEvent)
  | gracefulDrain

/-- The code of a handler; `fuel` bounds its loops. -/
def LoopHandler.code (config : EventLoopConfig) (fuel : ℕ) : LoopHandler → Loop Unit
  | .adopt fd => EventLoop.adopt config fd >>= fun _ => pure ()
  | .socketEvent generation events => EventLoop.handleSocketEvent config fuel generation events
  | .applyCompletion completion => EventLoop.applyCompletion config fuel completion
  | .timeout event => EventLoop.handleTimeoutEvent config fuel event
  | .gracefulDrain => EventLoop.applyGracefulDrain config fuel

/-- The states of a loop between two handlers: a step is a complete execution of a handler, with
any replies to its operations. -/
def handlerSystem (config : EventLoopConfig) : System LoopState LoopHandler where
  init st := st = {}
  step st handler st' := ∃ fuel es, ((handler.code config fuel).run st).Runs es (some (), st')

theorem books_init (config : EventLoopConfig) : Books config [] ∅ {} {} where
  table := ⟨by simp, by simp, by simp, by simp, rfl⟩
  numbered := ⟨by simp, by simp, by simp⟩
  tracks _ := ⟨rfl, by simp, by simp, by simp, by simp⟩
  entries := by simp

theorem LoopHandler.code_keeps {config : EventLoopConfig} {owed : List TimerEvent}
    {v : DeadlineView} {st : LoopState} (h : Books config owed ∅ v st) (fuel : ℕ)
    (handler : LoopHandler) :
    EventLoop.Balances config owed v st (handler.code config fuel) := by
  cases handler with
  | adopt fd => exact (EventLoop.adopt_keeps h).bind fun v st _ h => .ret h
  | socketEvent generation events => exact EventLoop.handleSocketEvent_keeps fuel _ _ h
  | applyCompletion completion => exact EventLoop.applyCompletion_keeps fuel completion h
  | timeout event => exact EventLoop.handleTimeoutEvent_keeps' fuel event h
  | gracefulDrain => exact EventLoop.applyGracefulDrain_keeps fuel h

theorem books_of_reachable {config : EventLoopConfig} {st : LoopState}
    (h : (handlerSystem config).Reachable st) : ∃ v, Books config [] ∅ v st := by
  refine h.invariant (I := fun st => ∃ v, Books config [] ∅ v st) (fun st hinit => ?_)
    fun st handler st' _ hbooks hst => ?_
  · obtain rfl : st = {} := hinit
    exact ⟨{}, books_init config⟩
  · obtain ⟨v, hv⟩ := hbooks
    obtain ⟨fuel, es, hrun⟩ := hst
    obtain ⟨_, -, hbooks⟩ := Prog.Meets.of_runs (handler.code_keeps hv fuel) hrun
    exact ⟨_, hbooks⟩

/-- **The books are in order between two handlers.**  Every session reads, processes or writes, is
registered for what it is interested in, and has the deadline of its state if deadlines are
enabled; generations name the sessions one to one, and are below the next one until they are used
up. -/
theorem books_between_handlers {config : EventLoopConfig} {st : LoopState}
    (h : (handlerSystem config).Reachable st) :
    (∀ (fd : ℤ) e, st.sessions[fd]? = some e →
      (e.session.state = .reading ∨ e.session.state = .processing ∨ e.session.state = .writing) ∧
      e.registeredEvents = epollEventsFor e.session.interest ∧
      (config.deadlines.enabled = true → e.deadlineActive = true ∧
        e.deadlineKind = EventLoop.deadlineKindFor e.session) ∧
      (e.session.token.generation < st.nextGeneration ∨ st.nextGeneration = 0)) ∧
    (∀ (g : ℕ) (fd : ℤ), st.eventToFd[g]? = some fd ↔
      ∃ e, st.sessions[fd]? = some e ∧ e.session.token.generation = g) ∧
    ∀ (fd fd' : ℤ) e e', st.sessions[fd]? = some e → st.sessions[fd']? = some e' →
      e.session.token.generation = e'.session.token.generation → fd = fd' := by
  obtain ⟨v, hbooks⟩ := books_of_reachable h
  refine ⟨fun fd e he => ?_, hbooks.table.mapped, fun fd fd' e e' he he' hg =>
    hbooks.table.fd_eq he' he hg⟩
  have hentry := hbooks.entries fd e (Set.notMem_empty fd) he
  refine ⟨?_, hentry.registered, hentry.deadline, hbooks.table.below fd e he⟩
  obtain ⟨hclosing, hclosed⟩ := hentry.isOpen
  cases hstate : e.session.state <;> simp_all

theorem adopt_outOfMemory (n : ℕ) :
    ((LoopHandler.code {} 0 (.adopt 3)).run { nextGeneration := n + 1 }).Runs
      [⟨.outOfMemory, true⟩, ⟨.closeSocket 3, ()⟩]
      (some (), { nextGeneration := generationAfter (n + 1) }) :=
  .call (.call .ret)

theorem adopt_added (n : ℕ) : ∃ st : LoopState,
    ((LoopHandler.code {} 0 (.adopt 3)).run { nextGeneration := n + 1 }).Runs
      [⟨.outOfMemory, false⟩, ⟨.epollAdd 3 (epollEventsFor ⟨true, false, true⟩) (n + 1), true⟩]
      (some (), st) ∧ st.nextGeneration = generationAfter (n + 1) ∧
      ∃ e, st.sessions[(3 : ℤ)]? = some e ∧ e.session.token.generation = n + 1 :=
  ⟨_, .call (.call .ret), rfl, _, rfl, rfl⟩

/-- Deadlines are enabled, and an idle connection is closed after five milliseconds. -/
def idleConfig : EventLoopConfig := { deadlines := { enabled := true, idleTimeout := 5 } }

/-- The first connection of a loop with deadlines gets a timer. -/
theorem adopt_armed : ∃ st : LoopState,
    ((LoopHandler.code idleConfig 0 (.adopt 3)).run {}).Runs
      [⟨.outOfMemory, false⟩, ⟨.epollAdd 3 (epollEventsFor ⟨true, false, true⟩) 1, true⟩,
        ⟨.now, (7 : ℕ)⟩, ⟨.scheduleAt 5000007 (EventLoop.sessionTimerEvent .idleTimeout
          ⟨0, 3, 1⟩ 1), some ⟨1, 1⟩⟩] (some (), st) ∧ st.nextGeneration = 2 ∧
      ∃ e, st.sessions[(3 : ℤ)]? = some e :=
  ⟨_, .call (.call (.call (.call .ret))), rfl, _, rfl⟩

/-- The theorem at a state with a session that has its deadline. -/
theorem books_between_handlers_adopted :
    ∃ st, (handlerSystem idleConfig).Reachable st ∧ ∃ e, st.sessions[(3 : ℤ)]? = some e ∧
      e.registeredEvents = epollEventsFor e.session.interest ∧ e.deadlineActive = true ∧
      e.deadlineKind = EventLoop.deadlineKindFor e.session ∧
      e.session.token.generation < st.nextGeneration := by
  obtain ⟨st, hrun, hnext, e, he⟩ := adopt_armed
  have hst : (handlerSystem idleConfig).Reachable st := .step (.init rfl) ⟨0, _, hrun⟩
  obtain ⟨-, hregistered, hdeadline, hbelow⟩ := (books_between_handlers hst).1 3 e he
  obtain ⟨hactive, hkind⟩ := hdeadline rfl
  exact ⟨st, hst, e, he, hregistered, hactive, hkind, hbelow.resolve_right (by simp [hnext])⟩

/-- Every generation is reached if enough connections come. -/
theorem generation_reachable (n : ℕ) (hn : n < 2 ^ 64 - 1) :
    (handlerSystem {}).Reachable { nextGeneration := n + 1 } := by
  induction n with
  | zero => exact .init rfl
  | succ n ih =>
    have hrun := adopt_outOfMemory n
    rw [generationAfter, if_neg (by omega)] at hrun
    exact .step (ih (by omega)) ⟨0, _, hrun⟩

/-- The last generation is not below the next one: there is no next one. -/
theorem last_generation_not_below :
    ∃ st, (handlerSystem {}).Reachable st ∧ ∃ e, st.sessions[(3 : ℤ)]? = some e ∧
      ¬ e.session.token.generation < st.nextGeneration := by
  obtain ⟨st, hrun, hnext, e, he, hg⟩ := adopt_added (2 ^ 64 - 2)
  refine ⟨st, .step (generation_reachable _ (by decide)) ⟨0, _, hrun⟩, e, he, ?_⟩
  rw [hnext, hg]
  decide

end AegisFlow
