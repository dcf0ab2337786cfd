import AegisFlow.Net.LoopWalk

/-!
# The connections an event loop answers for

A loop takes connections out of its registration mailbox and releases the quota of each of them
once.  Where a connection is can be read off the loop's operations: it is taken out of the mailbox,
becomes a session when epoll has it, is dropped when its descriptor is closed, and is then
released; what is still in the mailbox when the loop closes it is dropped at once.

* `QuotaView` : how many connections the loop has popped and not yet adopted, holds in sessions,
  and has dropped and not yet released;
* `QuotaView.allow` : a connection is adopted or dropped only if there is one, and **the quota of
  a connection is released only if the connection was dropped**;
* `Balance` : the sessions of the loop are the connections it holds;
* `stays_pollOnce`, `stays_forceShutdown` : the loop's calls keep to that, whatever the replies to
  their operations are.
-/

namespace AegisFlow

/-- Where the connections are that a loop took out of its mailbox and has not released. -/
structure QuotaView where
  /-- Taken out of the mailbox and not yet adopted. -/
  popped : ℕ := 0
  /-- Held by a session. -/
  live : ℕ := 0
  /-- Closed and about to be released. -/
  dropped : ℕ := 0
  deriving DecidableEq, Repr

variable {generation : ℕ} {m : Std.TreeMap ℤ SessionEntry}

namespace QuotaView

/-- The view after an operation.  A connection without a valid descriptor is as good as closed. -/
def upd (v : QuotaView) : (op : LoopOp) → op.Reply → QuotaView
  | .popConnection, some fd =>
    if fd < 0 then { v with dropped := v.dropped + 1 } else { v with popped := v.popped + 1 }
  | .epollAdd .., true => { v with popped := v.popped - 1, live := v.live + 1 }
  | .closeSocket _, _ =>
    if v.popped = 0 then { v with live := v.live - 1, dropped := v.dropped + 1 }
    else { v with popped := v.popped - 1, dropped := v.dropped + 1 }
  | .closeMailboxes, (discarded : ℕ) => { v with dropped := v.dropped + discarded }
  | .releaseConnection, _ => { v with dropped := v.dropped - 1 }
  | _, _ => v

/-- All connections the loop answers for. -/
def total (v : QuotaView) : ℕ := v.popped + v.live + v.dropped

/-- What a loop may do, given its view. -/
def allow (v : QuotaView) : LoopOp → Prop
  | .popConnection => v.popped = 0 ∧ v.dropped = 0
  | .epollAdd .. => 0 < v.popped
  | .closeSocket _ => 0 < v.popped + v.live
  | .releaseConnection => 0 < v.dropped
  | _ => True

theorem upd_plain {op : LoopOp} (hop : Plain op) (v : QuotaView) (r : op.Reply) :
    v.upd op r = v := by
  cases op <;> first | rfl | exact hop.elim

theorem allow_plain {op : LoopOp} (hop : Plain op) (v : QuotaView) : v.allow op := by
  cases op <;> trivial

/-! A connection is only ever moved on, except when it is taken in or released. -/

variable {v : QuotaView}

theorem total_pop (v : QuotaView) (r : Option ℤ) :
    (v.upd .popConnection r).total = v.total + r.toList.length := by
  cases r with
  | none => rfl
  | some fd =>
    simp only [upd, total, Option.toList_some, List.length_singleton]
    split_ifs <;> dsimp only <;> omega

theorem total_epollAdd {fd : ℤ} {events : EpollEvents}
    (h : v.allow (.epollAdd fd events generation)) (added : Bool) :
    (v.upd (.epollAdd fd events generation) added).total = v.total := by
  have hpopped : 0 < v.popped := h
  cases added with
  | false => rfl
  | true =>
    simp only [upd, total]
    omega

theorem total_closeSocket {fd : ℤ} (h : v.allow (.closeSocket fd)) :
    (v.upd (.closeSocket fd) ()).total = v.total := by
  have hopen : 0 < v.popped + v.live := h
  simp only [upd, total]
  split_ifs <;> dsimp only <;> omega

theorem total_closeMailboxes (v : QuotaView) (discarded : ℕ) :
    (v.upd .closeMailboxes discarded).total = v.total + discarded := by
  simp only [upd, total]
  omega

theorem total_release (h : v.allow .releaseConnection) (r : LoopOp.releaseConnection.Reply) :
    (v.upd .releaseConnection r).total + 1 = v.total := by
  have hdropped : 0 < v.dropped := h
  simp only [upd, total]
  omega

end QuotaView

/-- Between two events, but for `popped` and `dropped` connections: the sessions are the
connections the loop holds, and their descriptors are open. -/
structure Balance (popped dropped : ℕ) (v : QuotaView) (st : LoopState) : Prop where
  view : v = ⟨popped, st.sessions.size, dropped⟩
  isOpen : ∀ (fd : ℤ) e, st.sessions[fd]? = some e → e.session.connectionClosed = false

/-! ### The connection table -/

theorem contains_of_getElem {fd : ℤ} {e : SessionEntry} (h : m[fd]? = some e) :
    m.contains fd = true := by
  rw [Std.TreeMap.contains_eq_isSome_getElem?, h]
  rfl

theorem size_insert_of_mem {fd : ℤ} {e e' : SessionEntry} (h : m[fd]? = some e) :
    (m.insert fd e').size = m.size := by
  rw [Std.TreeMap.size_insert, if_pos (contains_of_getElem h)]

theorem size_erase_of_mem {fd : ℤ} {e : SessionEntry} (h : m[fd]? = some e) :
    (m.erase fd).size = m.size - 1 := by
  rw [Std.TreeMap.size_erase, if_pos (contains_of_getElem h)]

theorem size_pos_of_mem {fd : ℤ} {e : SessionEntry} (h : m[fd]? = some e) : 0 < m.size := by
  have hmem : fd ∈ m := contains_of_getElem h
  refine Nat.pos_of_ne_zero fun hzero => ?_
  have hempty : m.isEmpty = true := by simp [Std.TreeMap.isEmpty_eq_size_eq_zero, hzero]
  exact Std.TreeMap.not_mem_of_isEmpty hempty hmem

namespace Balance

variable {p d : ℕ} {v : QuotaView} {st st' : LoopState} {fd : ℤ} {e e' : SessionEntry}

theorem put (h : Balance p d v st) (he : st.sessions[fd]? = some e) (hsame : SameSocket e e') :
    Balance p d v (st.put fd e') where
  view := by rw [size_insert_of_mem he]; exact h.view
  isOpen fd' x hx := by
    rw [TreeMap.lookup_insert] at hx
    split_ifs at hx with hfd
    · cases hx
      exact hsame.connectionClosed.trans (h.isOpen fd e he)
    · exact h.isOpen fd' x hx

/-- Only the sessions count. -/
theorem congr (h : Balance p d v st) (hst : st'.sessions = st.sessions) : Balance p d v st' where
  view := by rw [hst]; exact h.view
  isOpen := by rw [hst]; exact h.isOpen

/-- The descriptor of a session was closed and the session forgotten. -/
theorem closed (h : Balance 0 d v st) (he : st.sessions[fd]? = some e) :
    Balance 0 (d + 1) (v.upd (.closeSocket fd) ())
      { st with sessions := st.sessions.erase fd } where
  view := by
    rw [h.view, size_erase_of_mem he]
    rfl
  isOpen fd' x hx := by
    dsimp only at hx
    rw [TreeMap.lookup_erase] at hx
    split_ifs at hx with hfd
    exact h.isOpen fd' x hx

/-- The connection that was taken out of the mailbox is closed. -/
theorem refused (h : Balance 1 0 v st) (fd : ℤ) :
    v.allow (.closeSocket fd) ∧ Balance 0 1 (v.upd (.closeSocket fd) ()) st := by
  rw [h.view]
  exact ⟨Nat.add_pos_left Nat.one_pos _, rfl, h.isOpen⟩

/-- The connection that was taken out of the mailbox has become a session. -/
theorem adopted (h : Balance 1 0 v st) (hfd : ¬ st.sessions.contains fd = true)
    (he : e.session.connectionClosed = false) {events : EpollEvents} :
    Balance 0 0 (v.upd (.epollAdd fd events generation) true) (st.put fd e) where
  view := by
    rw [h.view, Std.TreeMap.size_insert, if_neg hfd]
    rfl
  isOpen fd' x hx := by
    rw [TreeMap.lookup_insert] at hx
    split_ifs at hx
    · cases hx
      exact he
    · exact h.isOpen fd' x hx

/-- An entry that was made for a new connection is taken back. -/
theorem put_erase (h : Balance p d v st) (hfd : ¬ st.sessions.contains fd = true) :
    Balance p d v { st with sessions := (st.sessions.insert fd e).erase fd } where
  view := by
    rw [Std.TreeMap.size_erase, if_pos (by simp), Std.TreeMap.size_insert,
      if_neg hfd]
    exact h.view
  isOpen fd' x hx := by
    dsimp only at hx
    rw [TreeMap.lookup_erase, TreeMap.lookup_insert] at hx
    split_ifs at hx
    exact h.isOpen fd' x hx

/-- The quota of a connection was released. -/
theorem released (h : Balance p (d + 1) v st) :
    v.allow .releaseConnection ∧ Balance p d (v.upd .releaseConnection ()) st := by
  rw [h.view]
  exact ⟨Nat.succ_pos d, rfl, h.isOpen⟩

end Balance

namespace EventLoop

variable {p d : ℕ} {v : QuotaView} {st : LoopState} {fd : ℤ} {e : SessionEntry}
  {config : EventLoopConfig}

/-- Contracts in terms of `QuotaView`. -/
abbrev Quota {α : Type} (R : QuotaView → LoopState → α → Prop) (v : QuotaView) (st : LoopState)
    (m : Loop α) : Prop :=
  Proc.Ensures (E := LoopSig) QuotaView.upd QuotaView.allow R v st m

theorem inPlace_balance : InPlace QuotaView.upd QuotaView.allow (Balance p d) where
  plain op hop h := ⟨QuotaView.allow_plain hop _, fun r => by rwa [QuotaView.upd_plain hop]⟩
  put h he hsame := h.put he hsame

/-- Changes in place do not remove a session. -/
theorem inPlace_present : InPlace QuotaView.upd QuotaView.allow
    (fun v st => Balance p d v st ∧ ∃ e, st.sessions[fd]? = some e) where
  plain op hop h := ⟨QuotaView.allow_plain hop _, fun r => by rwa [QuotaView.upd_plain hop]⟩
  put := by
    rintro v st fd' e e' ⟨h, x, hx⟩ he hsame
    refine ⟨h.put he hsame, ?_⟩
    rw [TreeMap.lookup_insert]
    split_ifs
    · exact ⟨e', rfl⟩
    · exact ⟨x, hx⟩

/-- **Closing a session closes its descriptor and, if asked to, releases its quota.** -/
theorem quota_closeSession (h : Balance 0 d v st) (he : st.sessions[fd]? = some e)
    (reason : SessionCloseReason) (notify : Bool) :
    Quota (fun v st _ => Balance 0 (if notify then d else d + 1) v st) v st
      (closeSession fd reason notify) := by
  have hin : InPlace QuotaView.upd QuotaView.allow
    (fun v st => Balance 0 d v st ∧ ∃ e, st.sessions[fd]? = some e) := inPlace_present
  unfold closeSession
  refine ensures_find_bind.mpr ?_
  rw [he]
  refine .put ?_
  have hput : Balance 0 d v (st.put fd { e with session := (e.session.beginClose reason).2 }) ∧
      ∃ x, (st.put fd { e with session := (e.session.beginClose reason).2 }).sessions[fd]? =
        some x := hin.put ⟨h, e, he⟩ he (Session.frame_beginClose _ _).sameSocket
  have hunregister : Stays QuotaView.upd QuotaView.allow
      (fun v st => Balance 0 d v st ∧ ∃ e, st.sessions[fd]? = some e)
      (unregister fd e.session.token.generation) := by
    unfold unregister
    refine stays_get_bind fun _ => (hin.stays_perform _ (by trivial)).when.bind fun _ => ?_
    exact fun v st h => .set ⟨h.1.congr rfl, h.2⟩
  refine (hunregister _ _ hput).bind fun v st _ h => ?_
  refine (hin.stays_cancelDeadline v st h).bind fun v st _ ⟨h, e, he⟩ => ?_
  refine ensures_find_bind.mpr ?_
  rw [he]
  have hfinalize : Quota (fun v st _ => Balance 0 (d + 1) v st) v st (finalize fd e.session) := by
    have hopen := h.isOpen fd e he
    unfold finalize
    refine (hin.stays_cancelTimerId _ v st ⟨h, e, he⟩).bind fun v st _ h => ?_
    refine (hin.stays_cancelTimerId _ v st h).bind fun v st _ h => ?_
    refine (hin.stays_cancelTimerId _ v st h).bind fun v st _ h => ?_
    refine (hin.stays_cancelTimerId _ v st h).bind fun v st _ ⟨h, e, he⟩ => ?_
    rw [hopen]
    refine .call ?_ fun _ => .set (h.closed he)
    rw [h.view]
    exact Nat.lt_of_lt_of_le (size_pos_of_mem he) (Nat.le_add_left _ _)
  refine hfinalize.bind fun v st _ h => ?_
  cases notify with
  | false => exact .ret h
  | true =>
    obtain ⟨hallow, h⟩ := h.released
    exact Proc.Ensures.perform (E := LoopSig) hallow fun _ => h

theorem unmoved_balance : Unmoved QuotaView.upd QuotaView.allow (Balance 0 d) where
  toInPlace := inPlace_balance
  close fd reason v st h := by
    cases he : st.sessions[fd]? with
    | none =>
      unfold closeSession
      refine ensures_find_bind.mpr ?_
      rw [he]
      exact .ret h
    | some e => exact quota_closeSession h he reason true

/-! ### New connections -/

/-- What the loop answers for when it took `fd` out of the mailbox. -/
def Taken (fd : ℤ) (v : QuotaView) (st : LoopState) : Prop :=
  if fd < 0 then Balance 0 1 v st else Balance 1 0 v st

/-- A connection that was not adopted is still to be released. -/
def Settled (v : QuotaView) (st : LoopState) (status : EventLoopStatus) : Prop :=
  Balance 0 (if status = .ok then 0 else 1) v st

/-- A new connection that is not adopted is closed, if it is one. -/
theorem quota_refuse (h : Taken fd v st) {status : EventLoopStatus} (hstatus : status ≠ .ok) :
    Quota Settled v st (do
      Proc.when (decide (0 ≤ fd)) (Proc.perform (E := LoopSig) (.closeSocket fd))
      return status) := by
  have hclose : Quota (fun v st _ => Balance 0 1 v st) v st
      (Proc.when (decide (0 ≤ fd)) (Proc.perform (E := LoopSig) (.closeSocket fd))) := by
    refine .when (fun hvalid => ?_) fun hinvalid => ?_
    · rw [Taken, if_neg (not_lt.mpr (of_decide_eq_true hvalid))] at h
      exact Proc.Ensures.perform (E := LoopSig) (h.refused fd).1 fun _ => (h.refused fd).2
    · rwa [Taken, if_pos (not_le.mp (of_decide_eq_false hinvalid))] at h
  refine hclose.bind fun v st _ h => .ret ?_
  rwa [Settled, if_neg hstatus]

/-- The entry of a new connection has been made and epoll was asked to watch it. -/
theorem quota_register (h : Balance 1 0 v st) (hneg : ¬ fd < 0)
    (hfree : ¬ st.sessions.contains fd = true) (he : e.session.connectionClosed = false)
    {added : Bool} :
    Quota Settled (v.upd (.epollAdd fd e.registeredEvents generation) added)
      { st.put fd e with eventToFd := st.eventToFd.insert generation fd }
      (if added then (do
        if ← syncDeadline config fd then return .ok
        else
          closeSession fd .resourceExhausted false
          return .timerScheduleFailed : Loop EventLoopStatus)
      else do
        Proc.modify fun st => { st with
          eventToFd := st.eventToFd.erase generation, sessions := st.sessions.erase fd }
        Proc.when (decide (0 ≤ fd)) (Proc.perform (E := LoopSig) (.closeSocket fd))
        return .systemCallFailed) := by
  cases added with
  | false =>
    refine .modify (quota_refuse ?_ (by decide))
    rw [Taken, if_neg hneg]
    exact (h.put_erase hfree).congr rfl
  | true =>
    have hadopted : Balance 0 0 (v.upd (.epollAdd fd e.registeredEvents generation) true)
        { st.put fd e with eventToFd := st.eventToFd.insert generation fd } :=
      (h.adopted hfree he).congr rfl
    have hfound : (st.sessions.insert fd e)[fd]? = some e := by
      rw [TreeMap.lookup_insert, if_pos rfl]
    refine (inPlace_present.stays_syncDeadline _ _ ⟨hadopted, e, hfound⟩).bind
      fun v st _ ⟨h, e, he⟩ => .ite (fun _ => .ret h) fun _ => ?_
    exact (quota_closeSession h he .resourceExhausted false).bind
      fun v st _ h => .ret h

/-- **A connection is adopted, or closed and left to the caller to release.** -/
theorem quota_adopt (h : Taken fd v st) :
    Quota Settled v st (adopt config fd) := by
  unfold adopt
  extract_lets refuse
  refine .get (.ite (fun _ => quota_refuse h (by decide)) fun _ => ?_)
  refine .ite (fun hneg => ?_) fun hneg => ?_
  · rw [Taken, if_pos hneg] at h
    exact .ret h
  have htaken {st' : LoopState} (hst' : st'.sessions = st.sessions) : Taken fd v st' := by
    rw [Taken, if_neg hneg] at h ⊢
    exact h.congr hst'
  refine .ite (fun _ => quota_refuse h (by decide)) fun hfree => ?_
  refine .ite (fun _ => quota_refuse h (by decide)) fun _ => ?_
  have hgeneration : Quota (fun v' st' _ => v' = v ∧ st'.sessions = st.sessions) v st
      allocateGeneration := by
    unfold allocateGeneration
    refine .get (.ite (fun _ => ?_) fun _ => ?_)
    · exact .ret ⟨rfl, rfl⟩
    · exact .modify (.ret ⟨rfl, rfl⟩)
  refine hgeneration.bind ?_
  rintro v st₁ generation ⟨rfl, hst₁⟩
  have h := htaken hst₁
  cases generation with
  | none => exact quota_refuse h (by decide)
  | some generation =>
  refine .call trivial fun full => .ite (fun _ => quota_refuse h (by decide)) fun _ => ?_
  cases hcreate : Session.create ⟨config.loopId, fd, generation⟩ config.session fd with
  | none => exact quota_refuse h (by decide)
  | some session =>
  have hnew : session.connectionClosed = false := by
    unfold Session.create at hcreate
    split_ifs at hcreate
    cases hcreate
    rfl
  refine .ite (fun _ => quota_refuse h (by decide)) fun _ => ?_
  refine .put (.modify (.call ?_ fun added => ?_))
  all_goals rw [Taken, if_neg hneg] at h
  · change QuotaView.allow v _
    rw [h.view]
    exact Nat.one_pos
  · rw [← hst₁] at hfree
    exact quota_register (e := { session, registeredEvents := epollEventsFor session.interest })
      h hneg hfree hnew

theorem stays_drainConnections (fuel : ℕ) :
    Stays QuotaView.upd QuotaView.allow (Balance 0 0) (drainConnections config fuel) := by
  induction fuel with
  | zero => exact inPlace_balance.stays_diverge
  | succ fuel ih =>
    intro v st h
    have hallow : v.allow .popConnection := by
      rw [h.view]
      exact ⟨rfl, rfl⟩
    unfold drainConnections
    refine .call hallow fun popped => ?_
    cases popped with
    | none => exact .ret h
    | some fd =>
      have htaken : Taken fd (v.upd .popConnection (some fd)) st := by
        rw [h.view]
        unfold Taken
        split_ifs with hneg
        · exact ⟨if_pos hneg, h.isOpen⟩
        · exact ⟨if_neg hneg, h.isOpen⟩
      refine (quota_adopt htaken).bind fun v st status h => ?_
      have hrelease : Quota (fun v st _ => Balance 0 0 v st) v st (Proc.when (status != .ok)
          (Proc.perform (E := LoopSig) .releaseConnection)) := by
        unfold Settled at h
        refine .when (fun hstatus => ?_) fun hstatus => ?_
        · rw [if_neg (by simpa using hstatus)] at h
          exact Proc.Ensures.perform (E := LoopSig) h.released.1 fun _ => h.released.2
        · rwa [if_pos (by simpa using hstatus)] at h
      exact hrelease.bind fun v st _ h => ih v st h

/-! ### Calls -/

theorem stays_drainMailboxes (fuel : ℕ) :
    Stays QuotaView.upd QuotaView.allow (Balance 0 0) (drainMailboxes config fuel) := by
  have hin : InPlace QuotaView.upd QuotaView.allow (Balance 0 0) := inPlace_balance
  have hun : Unmoved QuotaView.upd QuotaView.allow (Balance 0 0) := unmoved_balance
  unfold drainMailboxes
  refine hin.stays_bind (by trivial) fun _ => Stays.ite ?_ (stays_pure _)
  refine (hun.stays_drainCompletions fuel).bind fun _ => ?_
  refine (hun.stays_drainTimeoutMailbox fuel).bind fun _ => Stays.ite ?_ (stays_pure _)
  refine Stays.ite (stays_pure _) (hin.stays_bind (by trivial) fun _ => Stays.ite ?_ (stays_pure _))
  refine (stays_drainConnections fuel).bind fun _ => ?_
  exact (hun.stays_applyGracefulDrain fuel).bind fun _ => stays_pure _

theorem stays_serveEvents (fuel : ℕ) (ready : List (ℕ × EpollEvents)) :
    Stays QuotaView.upd QuotaView.allow (Balance 0 0) (serveEvents config fuel ready) := by
  induction ready with
  | nil => exact stays_pure _
  | cons event ready ih =>
    refine Stays.ite ?_ ?_
    · exact (stays_drainMailboxes fuel).bind fun _ => Stays.ite ih (stays_pure _)
    · exact (unmoved_balance.stays_handleSocketEvent fuel event.1 event.2).bind fun _ => ih

/-- **Serving events releases every connection that is let go once.** -/
theorem stays_pollOnce (fuel : ℕ) (timeoutMs : ℤ) :
    Stays QuotaView.upd QuotaView.allow (Balance 0 0) (pollOnce config fuel timeoutMs) := by
  unfold pollOnce
  refine stays_get_bind fun _ => Stays.ite (stays_pure _) (Stays.ite (stays_pure _) ?_)
  refine inPlace_balance.stays_bind (by trivial) fun ready => ?_
  cases ready with
  | none => exact stays_pure _
  | some ready => exact stays_serveEvents fuel ready

/-- **Shutting down releases what was waiting and what the sessions hold.** -/
theorem stays_forceShutdown :
    Stays QuotaView.upd QuotaView.allow (Balance 0 0) forceShutdown := by
  have hin : InPlace QuotaView.upd QuotaView.allow (Balance 0 0) := inPlace_balance
  unfold forceShutdown
  refine stays_get_bind fun _ => Stays.ite (stays_pure _) fun v st h => ?_
  refine .modify ?_
  refine .call trivial fun discarded => ?_
  have hdiscarded : Balance 0 (List.replicate discarded ()).length
      (v.upd .closeMailboxes discarded) { st with routerBound := false } := by
    rw [h.view, List.length_replicate]
    exact ⟨by simp [QuotaView.upd], h.isOpen⟩
  -- what is left of the list is what is left to be released
  refine (Proc.Ensures.forEach_rest (I := fun rest => Balance 0 rest.length)
    (fun _ rest v st h => ?_) _ hdiscarded).bind fun v st _ h => ?_
  · exact Proc.Ensures.perform (E := LoopSig) h.released.1 fun _ => h.released.2
  refine .get ?_
  refine (Stays.forEach (fun fd => unmoved_balance.close fd .localShutdown) _ v st h).bind
    fun v st _ h => .get ?_
  refine ((hin.stays_perform .closeEpoll trivial).when v st h).bind fun v st _ h => ?_
  exact .set (h.congr rfl)

end EventLoop

end AegisFlow
