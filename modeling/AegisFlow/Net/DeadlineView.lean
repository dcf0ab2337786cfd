import AegisFlow.Net.EventLoopSpec
import AegisFlow.Net.TimeoutMailbox
import Mathlib.Data.Set.Insert

/-!
# The books of an event loop

What an event loop keeps in order between two events: the table of its sessions, what is
registered with epoll, and the deadline of every session.  A loop can tell by the replies to its
operations which of its timers the timer thread still has to take care of; this is its
`DeadlineView`.

* `TableOk`, `EntryOk` : the table of sessions and its entries;
* `Tracks v st owed` : every active deadline has a timer that the timer thread takes care of,
  but for those whose events the loop itself has to see to (`owed`);
* `Books` : all of this, with entries in order outside of a set of descriptors.
-/

namespace AegisFlow

/-! ### Timers of a loop -/

/-- A timer of a loop: its name, when it is due and what it posts. -/
structure ArmedTimer where
  id : TimerId
  deadline : ℕ
  event : TimerEvent

/-- What a loop can tell of its timers. -/
structure DeadlineView where
  /-- The timer thread takes care of these. -/
  armed : Set ArmedTimer := ∅
  /-- The loop has to see to these: their deadlines have passed. -/
  due : Set ArmedTimer := ∅
  /-- A timer of these may have been dropped if its deadline has passed. -/
  doubt : Set ArmedTimer := ∅
  /-- The names of timers that were handed out. -/
  used : Set TimerId := ∅
  /-- The events that timers were scheduled for. -/
  events : Set TimerEvent := ∅
  isOpen : Bool := true
  /-- The mailbox is open, the timer handed out new names only, and the clock did not go back. -/
  honest : Prop := True

namespace DeadlineView

variable (v : DeadlineView)

/-- A timer was scheduled, or scheduling it failed. -/
def schedule (deadline : ℕ) (event : TimerEvent) : Option TimerId → DeadlineView
  | none => { v with events := insert event v.events }
  | some id => { v with
      armed := insert ⟨id, deadline, event⟩ v.armed
      used := insert id v.used
      events := insert event v.events
      honest := v.honest ∧ id.valid = true ∧ id ∉ v.used }

/-- A timer was cancelled. -/
def cancel (id : TimerId) : DeadlineView :=
  { v with
    armed := {t | t ∈ v.armed ∧ t.id ≠ id}
    doubt := {t | t ∈ v.doubt ∧ t.id ≠ id} }

/-- An event was taken out of the mailbox. -/
def pop (event : TimerEvent) : DeadlineView :=
  { v with
    armed := {t | t ∈ v.armed ∧ t.event ≠ event}
    due := {t | t ∈ v.due ∨ (t ∈ v.armed ∨ t ∈ v.doubt) ∧ t.event = event}
    doubt := {t | t ∈ v.doubt ∧ t.event ≠ event} }

/-- A scan is asked for: any timer may have been dropped. -/
def rescan : DeadlineView :=
  { v with armed := ∅, doubt := {t | t ∈ v.armed ∨ t ∈ v.doubt} }

/-- The clock was read: a timer whose deadline has not passed was not dropped. -/
def readClock (now : ℕ) : DeadlineView :=
  { v with
    armed := {t | t ∈ v.armed ∨ t ∈ v.doubt ∧ now < t.deadline}
    due := {t | t ∈ v.due ∨ t ∈ v.doubt ∧ t.deadline ≤ now}
    doubt := ∅
    honest := v.honest ∧ ∀ t ∈ v.due, t.deadline ≤ now }

/-- The mailbox was closed. -/
def close : DeadlineView := { v with isOpen := false, honest := False }

/-- The view after an operation. -/
def upd : (op : LoopOp) → op.Reply → DeadlineView
  | .scheduleAt deadline event, id => v.schedule deadline event id
  | .cancelTimer id, _ => v.cancel id
  | .popTimeout, some event => v.pop event
  | .takeRescanRequest, true => v.rescan
  | .now, now => v.readClock now
  | .closeMailboxes, _ => v.close
  | _, _ => v

/-- A handler schedules a timer at most once for an event, only for events of connections, and
leaves the mailbox open. -/
def allow : LoopOp → Prop
  | .scheduleAt _ event => connectionTimeoutEvent event = true ∧ event ∉ v.events
  | .closeMailboxes => False
  | _ => True

theorem isOpen_upd {v : DeadlineView} {op : LoopOp} (h : v.allow op) (r : op.Reply) :
    (v.upd op r).isOpen = v.isOpen := by
  cases op with
  | scheduleAt deadline event => cases r <;> rfl
  | closeMailboxes => exact h.elim
  | popTimeout => cases r <;> rfl
  | takeRescanRequest => cases r <;> rfl
  | _ => rfl

end DeadlineView

/-! ### Entries -/

/-- The event that the deadline of a session posts. -/
def SessionEntry.timerEvent (e : SessionEntry) : TimerEvent :=
  EventLoop.sessionTimerEvent e.deadlineKind e.session.token e.deadlineSequence

/-- The timer of the deadline of a session. -/
def SessionEntry.timer (e : SessionEntry) : ArmedTimer where
  id := e.session.timerSlot (EventLoop.sessionTimerKind e.deadlineKind)
  deadline := e.deadlineAt
  event := e.timerEvent

/-- The deadline is the one the state of the session asks for. -/
def DeadlineOk (config : EventLoopConfig) (e : SessionEntry) : Prop :=
  config.deadlines.enabled = true →
    e.deadlineActive = true ∧ e.deadlineKind = EventLoop.deadlineKindFor e.session

/-- An entry as it is between two events. -/
structure EntryOk (config : EventLoopConfig) (e : SessionEntry) : Prop where
  isOpen : e.session.isOpen
  registered : e.registeredEvents = epollEventsFor e.session.interest
  deadline : DeadlineOk config e

/-- `e'` comes after `e` without a new timer. -/
structure Follows (e e' : SessionEntry) : Prop where
  token : e'.session.token = e.session.token
  sequence : e.deadlineSequence ≤ e'.deadlineSequence
  slots : ∀ k, (e'.session.timerSlot k).valid = true →
    e'.session.timerSlot k = e.session.timerSlot k
  timer : e'.deadlineActive = true → e.deadlineActive = true ∧ e'.timer = e.timer

/-- The session changed, with its timers and its deadline left alone. -/
theorem Follows.mark {e : SessionEntry} {session : Session} (expired : Bool)
    (htoken : session.token = e.session.token) (htimers : session.timers = e.session.timers) :
    Follows e { e with session, businessExpired := expired } := by
  have hslot (k : SessionTimerKind) : session.timerSlot k = e.session.timerSlot k := by
    cases k <;> simp [Session.timerSlot, htimers]
  refine ⟨htoken, le_rfl, fun k _ => hslot k, fun h => ⟨h, ?_⟩⟩
  simp [SessionEntry.timer, SessionEntry.timerEvent, hslot, htoken]

theorem Follows.session {e : SessionEntry} {session : Session}
    (htoken : session.token = e.session.token) (htimers : session.timers = e.session.timers) :
    Follows e { e with session } := .mark e.businessExpired htoken htimers

/-! ### The table -/

/-- The table of sessions and the map from generations to descriptors, while the loop runs. -/
structure TableOk (config : EventLoopConfig) (st : LoopState) : Prop where
  token : ∀ (fd : ℤ) e, st.sessions[fd]? = some e → e.session.token.loopId = config.loopId ∧
    e.session.token.fd = fd ∧ 0 ≤ fd ∧ e.session.token.generation ≠ 0
  mapped : ∀ (g : ℕ) (fd : ℤ), st.eventToFd[g]? = some fd ↔
    ∃ e, st.sessions[fd]? = some e ∧ e.session.token.generation = g
  /-- Generations are numbered in order until they are used up. -/
  below : ∀ (fd : ℤ) e, st.sessions[fd]? = some e →
    e.session.token.generation < st.nextGeneration ∨ st.nextGeneration = 0
  active : ∀ (fd : ℤ) e, st.sessions[fd]? = some e → e.deadlineActive = true →
    config.deadlines.enabled = true
  running : st.stopped = false

/-- No timer was scheduled for a deadline that is still to come. -/
structure Numbered (v : DeadlineView) (st : LoopState) : Prop where
  old : ∀ ev ∈ v.events, ev.targetGeneration < st.nextGeneration ∨ st.nextGeneration = 0
  past : ∀ ev ∈ v.events, ∀ (fd : ℤ) e, st.sessions[fd]? = some e →
    ev.targetGeneration = e.session.token.generation → ev.targetSequence ≤ e.deadlineSequence
  /-- The number of an active deadline is that of its own event only. -/
  own : ∀ ev ∈ v.events, ∀ (fd : ℤ) e, st.sessions[fd]? = some e → e.deadlineActive = true →
    ev.targetGeneration = e.session.token.generation → ev.targetSequence = e.deadlineSequence →
      ev = e.timerEvent

/-- Every active deadline has a timer that is armed, but for those with an event in `owed`, which
the loop has to see to. -/
structure Tracks (v : DeadlineView) (st : LoopState) (owed : List TimerEvent) : Prop where
  certain : v.doubt = ∅
  known : ∀ t, t ∈ v.armed ∨ t ∈ v.due → t.id ∈ v.used
  slots : ∀ (fd : ℤ) e, st.sessions[fd]? = some e → ∀ k,
    (e.session.timerSlot k).valid = true → e.session.timerSlot k ∈ v.used
  /-- Sessions share no timer. -/
  apart : ∀ (fd fd' : ℤ) e e', st.sessions[fd]? = some e → st.sessions[fd']? = some e' →
    fd ≠ fd' → ∀ k k', (e.session.timerSlot k).valid = true →
      e.session.timerSlot k ≠ e'.session.timerSlot k'
  armed : ∀ (fd : ℤ) e, st.sessions[fd]? = some e → e.deadlineActive = true →
    e.timer ∈ v.armed ∨ e.timer ∈ v.due ∧ e.timer.event ∈ owed

/-- The books of a loop, in order but for the entries on the descriptors of `except`. -/
structure Books (config : EventLoopConfig) (owed : List TimerEvent) (except : Set ℤ)
    (v : DeadlineView) (st : LoopState) : Prop where
  table : TableOk config st
  numbered : Numbered v st
  tracks : v.honest → Tracks v st owed
  entries : ∀ (fd : ℤ) e, fd ∉ except → st.sessions[fd]? = some e → EntryOk config e

/-! ### Changes of an entry -/

variable {x : SessionEntry} {st' : LoopState} {fd' : ℤ}

section Put

variable {config : EventLoopConfig} {owed : List TimerEvent} {v : DeadlineView} {st : LoopState}
  {fd : ℤ} {e e' : SessionEntry}

theorem sessions_put (st : LoopState) (fd fd' : ℤ) (e : SessionEntry) :
    (st.put fd e).sessions[fd']? = if fd = fd' then some e else st.sessions[fd']? :=
  TreeMap.lookup_insert st.sessions fd fd' e

theorem sessions_put_self (st : LoopState) (fd : ℤ) (e : SessionEntry) :
    (st.put fd e).sessions[fd]? = some e := by rw [sessions_put, if_pos rfl]

/-- An entry of the table after `put` is the new one or an old one. -/
theorem put_cases (h : (st.put fd e).sessions[fd']? = some x) :
    fd' = fd ∧ x = e ∨ fd' ≠ fd ∧ st.sessions[fd']? = some x := by
  rw [sessions_put] at h
  split at h
  · rename_i heq
    exact .inl ⟨heq.symm, (Option.some.inj h).symm⟩
  · rename_i hne
    exact .inr ⟨Ne.symm hne, h⟩

theorem TableOk.put (h : TableOk config st) (he : st.sessions[fd]? = some e)
    (htoken : e'.session.token = e.session.token)
    (hactive : e'.deadlineActive = true → config.deadlines.enabled = true) :
    TableOk config (st.put fd e') where
  active fd' x hx hx' := by
    rcases put_cases hx with ⟨rfl, rfl⟩ | ⟨-, hx⟩
    · exact hactive hx'
    · exact h.active fd' x hx hx'
  token fd' x hx := by
    rcases put_cases hx with ⟨rfl, rfl⟩ | ⟨-, hx⟩
    · rw [htoken]
      exact h.token _ e he
    · exact h.token fd' x hx
  mapped g fd' := by
    refine (h.mapped g fd').trans ?_
    rw [sessions_put]
    split
    · rename_i heq
      subst heq
      simp [he, htoken]
    · rfl
  below fd' x hx := by
    rcases put_cases hx with ⟨rfl, rfl⟩ | ⟨-, hx⟩
    · rw [htoken]
      exact h.below _ e he
    · exact h.below fd' x hx
  running := h.running

theorem Numbered.put (h : Numbered v st) (he : st.sessions[fd]? = some e)
    (hf : Follows e e') : Numbered v (st.put fd e') where
  old := h.old
  past ev hev fd' x hx hg := by
    rcases put_cases hx with ⟨rfl, rfl⟩ | ⟨-, hx⟩
    · exact (h.past ev hev _ e he (hg.trans (by rw [hf.token]))).trans hf.sequence
    · exact h.past ev hev fd' x hx hg
  own ev hev fd' x hx hactive hg hs := by
    rcases put_cases hx with ⟨rfl, rfl⟩ | ⟨-, hx⟩
    · obtain ⟨hwas, htimer⟩ := hf.timer hactive
      have hevent : x.timerEvent = e.timerEvent := congrArg ArmedTimer.event htimer
      have hsequence : x.deadlineSequence = e.deadlineSequence :=
        congrArg TimerEvent.targetSequence hevent
      rw [hevent]
      exact h.own ev hev _ e he hwas (hg.trans (by rw [hf.token])) (hs.trans hsequence)
    · exact h.own ev hev fd' x hx hactive hg hs

theorem Tracks.put (h : Tracks v st owed) (he : st.sessions[fd]? = some e)
    (hf : Follows e e') : Tracks v (st.put fd e') owed where
  certain := h.certain
  known := h.known
  slots fd' x hx k hk := by
    rcases put_cases hx with ⟨rfl, rfl⟩ | ⟨-, hx⟩
    · have hslot := hf.slots k hk
      rw [hslot] at hk ⊢
      exact h.slots _ e he k hk
    · exact h.slots fd' x hx k hk
  apart fd₁ fd₂ x y hx hy hne k k' hk := by
    rcases put_cases hx with ⟨rfl, rfl⟩ | ⟨-, hx'⟩
    · rcases put_cases hy with ⟨rfl, -⟩ | ⟨-, hy'⟩
      · exact absurd rfl hne
      · have hslot := hf.slots k hk
        rw [hslot] at hk ⊢
        exact h.apart _ _ e y he hy' hne k k' hk
    · rcases put_cases hy with ⟨rfl, rfl⟩ | ⟨-, hy'⟩
      · intro heq
        -- the shared timer would be a valid one, hence one the old entry had
        rw [hf.slots k' (heq ▸ hk)] at heq
        exact h.apart _ _ x e hx' he hne k k' hk heq
      · exact h.apart _ _ x y hx' hy' hne k k' hk
  armed fd' x hx hactive := by
    rcases put_cases hx with ⟨rfl, rfl⟩ | ⟨-, hx⟩
    · obtain ⟨hold, htimer⟩ := hf.timer hactive
      rw [htimer]
      exact h.armed _ e he hold
    · exact h.armed fd' x hx hactive

/-- Changing the entry on `fd`. -/
theorem Books.put (h : Books config owed {fd} v st) (he : st.sessions[fd]? = some e)
    (hf : Follows e e') : Books config owed {fd} v (st.put fd e') where
  table := h.table.put he hf.token fun hactive => h.table.active fd e he (hf.timer hactive).1
  numbered := h.numbered.put he hf
  tracks hv := (h.tracks hv).put he hf
  entries fd' x hne hx := by
    rcases put_cases hx with ⟨rfl, -⟩ | ⟨-, hx⟩
    · exact absurd rfl hne
    · exact h.entries fd' x hne hx

/-- Only the entries of the table matter. -/
theorem Books.congr {X : Set ℤ} (h : Books config owed X v st)
    (hsessions : ∀ fd : ℤ, st'.sessions[fd]? = st.sessions[fd]?)
    (hmap : ∀ g : ℕ, st'.eventToFd[g]? = st.eventToFd[g]?)
    (hgen : st'.nextGeneration = st.nextGeneration) (hstopped : st'.stopped = st.stopped) :
    Books config owed X v st' := by
  obtain ⟨⟨htoken, hmapped, hbelow, hon, hrunning⟩, ⟨hold, hpast, hown⟩, htracks, hentries⟩ := h
  simp only [← hsessions, ← hmap, ← hgen] at htoken hmapped hbelow hon hold hpast hown hentries
  refine ⟨⟨htoken, hmapped, hbelow, hon, hstopped.trans hrunning⟩, ⟨hold, hpast, hown⟩,
    fun hv => ?_, hentries⟩
  obtain ⟨hcertain, hknown, hslots, hapart, harmed⟩ := htracks hv
  simp only [← hsessions] at hslots hapart harmed
  exact ⟨hcertain, hknown, hslots, hapart, harmed⟩

theorem Books.mono {X Y : Set ℤ} (h : Books config owed X v st) (hXY : X ⊆ Y) :
    Books config owed Y v st :=
  ⟨h.table, h.numbered, h.tracks, fun fd e hfd => h.entries fd e fun hX => hfd (hXY hX)⟩

/-- The entry on `fd` is in order as well. -/
theorem Books.close (h : Books config owed {fd} v st)
    (hfd : ∀ e, st.sessions[fd]? = some e → EntryOk config e) : Books config owed ∅ v st := by
  refine { h with entries := fun fd' e _ he => ?_ }
  by_cases hne : fd' = fd
  · subst hne
    exact hfd e he
  · exact h.entries fd' e hne he

end Put

/-! ### Timers -/

section Timers

variable {config : EventLoopConfig} {owed : List TimerEvent} {X : Set ℤ} {v : DeadlineView}
  {st : LoopState} {fd : ℤ} {e : SessionEntry} {id : TimerId}

/-- No other session has a timer of the session on `fd`. -/
theorem Tracks.timer_ne (h : Tracks v st owed) (he : st.sessions[fd]? = some e)
    {k : SessionTimerKind} (hvalid : (e.session.timerSlot k).valid = true)
    (hx : st.sessions[fd']? = some x) (hne : fd' ≠ fd) : x.timer.id ≠ e.session.timerSlot k :=
  fun heq => h.apart fd fd' e x he hx (Ne.symm hne) k _ hvalid heq.symm

/-- A timer of a session whose deadline is not active is not the timer of a deadline. -/
theorem Books.timer_ne (h : Books config owed X v st) (he : st.sessions[fd]? = some e)
    (hinactive : e.deadlineActive = false) {k : SessionTimerKind}
    (hvalid : (e.session.timerSlot k).valid = true) (hv : v.honest) (fd' : ℤ) (x : SessionEntry)
    (hx : st.sessions[fd']? = some x) (hactive : x.deadlineActive = true) :
    x.timer.id ≠ e.session.timerSlot k := by
  refine (h.tracks hv).timer_ne he hvalid hx ?_
  rintro rfl
  obtain rfl : e = x := Option.some.inj (he.symm.trans hx)
  exact absurd (hactive.symm.trans hinactive) (by simp)

/-- A timer that belongs to no active deadline is cancelled. -/
theorem Tracks.cancel (h : Tracks v st owed)
    (hid : ∀ (fd : ℤ) e, st.sessions[fd]? = some e → e.deadlineActive = true → e.timer.id ≠ id) :
    Tracks (v.cancel id) st owed where
  certain := by simp [DeadlineView.cancel, h.certain]
  known t ht := h.known t (ht.imp_left fun ht => ht.1)
  slots := h.slots
  apart := h.apart
  armed fd e he hactive :=
    (h.armed fd e he hactive).imp_left fun ht => ⟨ht, hid fd e he hactive⟩

theorem Books.cancel (h : Books config owed X v st)
    (hid : v.honest → ∀ (fd : ℤ) e, st.sessions[fd]? = some e → e.deadlineActive = true →
      e.timer.id ≠ id) : Books config owed X (v.cancel id) st where
  table := h.table
  numbered := ⟨h.numbered.old, h.numbered.past, h.numbered.own⟩
  tracks hv := (h.tracks hv).cancel (hid hv)
  entries := h.entries

theorem Tracks.readClock (h : Tracks v st owed) (now : ℕ) :
    Tracks (v.readClock now) st owed where
  certain := rfl
  known t ht := by
    simp only [DeadlineView.readClock, h.certain, Set.mem_empty_iff_false, false_and, or_false,
      Set.ofPred_mem_eq] at ht
    exact h.known t ht
  slots := h.slots
  apart := h.apart
  armed fd e he hactive := (h.armed fd e he hactive).imp .inl fun ht => ⟨.inl ht.1, ht.2⟩

theorem Books.readClock (h : Books config owed X v st) (now : ℕ) :
    Books config owed X (v.readClock now) st where
  table := h.table
  numbered := ⟨h.numbered.old, h.numbered.past, h.numbered.own⟩
  tracks hv := (h.tracks hv.1).readClock now
  entries := h.entries

/-- The session that has a generation is determined. -/
theorem TableOk.fd_eq (h : TableOk config st) (he : st.sessions[fd]? = some e)
    (hx : st.sessions[fd']? = some x)
    (hg : x.session.token.generation = e.session.token.generation) : fd' = fd := by
  have hfd := (h.mapped _ fd).mpr ⟨e, he, rfl⟩
  have hfd' := (h.mapped _ fd').mpr ⟨x, hx, hg⟩
  rw [hfd] at hfd'
  exact (Option.some.inj hfd').symm

/-- No timer was scheduled for the next deadline of a session. -/
theorem Books.allow_schedule (h : Books config owed X v st) (he : st.sessions[fd]? = some e)
    (deadline : ℕ) {sequence : ℕ} (hseq : e.deadlineSequence < sequence) {kind : TimerEventKind}
    (hkind : kind = EventLoop.deadlineKindFor e.session) :
    v.allow (.scheduleAt deadline
      (EventLoop.sessionTimerEvent kind e.session.token sequence)) := by
  obtain ⟨-, hfd, hpos, hgen⟩ := h.table.token fd e he
  refine ⟨?_, fun hold => ?_⟩
  · have hfour : kind = .idleTimeout ∨ kind = .readTimeout ∨ kind = .writeTimeout ∨
        kind = .businessTimeout := by
      rw [hkind]
      unfold EventLoop.deadlineKindFor
      split <;> first | split_ifs <;> simp | simp
    have hsequence : sequence ≠ 0 := by omega
    simp only [connectionTimeoutEvent, EventLoop.sessionTimerEvent, hfd]
    rcases hfour with rfl | rfl | rfl | rfl <;> simp [hpos, hgen, hsequence]
  · exact absurd (h.numbered.past _ hold fd e he rfl) (Nat.not_le.mpr hseq)

/-- A timer is scheduled for a session without a deadline. -/
theorem Numbered.schedule (h : Numbered v st) (htable : TableOk config st)
    (he : st.sessions[fd]? = some e) (hinactive : e.deadlineActive = false) (deadline : ℕ)
    (kind : TimerEventKind) (id : Option TimerId) :
    Numbered (v.schedule deadline
      (EventLoop.sessionTimerEvent kind e.session.token e.deadlineSequence) id) st := by
  have hevents : (v.schedule deadline
      (EventLoop.sessionTimerEvent kind e.session.token e.deadlineSequence) id).events =
      insert (EventLoop.sessionTimerEvent kind e.session.token e.deadlineSequence) v.events := by
    cases id <;> rfl
  have hsame {fd' : ℤ} {x : SessionEntry} (hx : st.sessions[fd']? = some x)
      (hg : e.session.token.generation = x.session.token.generation) : e = x := by
    obtain rfl := htable.fd_eq he hx hg.symm
    exact Option.some.inj (he.symm.trans hx)
  refine ⟨fun ev hev => ?_, fun ev hev fd' x hx hg => ?_, fun ev hev fd' x hx hactive hg hs => ?_⟩
  · rw [hevents] at hev
    rcases Set.mem_insert_iff.mp hev with rfl | hev
    · exact htable.below fd e he
    · exact h.old ev hev
  · rw [hevents] at hev
    rcases Set.mem_insert_iff.mp hev with rfl | hev
    · obtain rfl := hsame hx hg
      exact le_rfl
    · exact h.past ev hev fd' x hx hg
  · rw [hevents] at hev
    rcases Set.mem_insert_iff.mp hev with rfl | hev
    · obtain rfl := hsame hx hg
      exact absurd (hactive.symm.trans hinactive) (by simp)
    · exact h.own ev hev fd' x hx hactive hg hs

/-- Scheduling failed. -/
theorem Books.scheduleFailed (h : Books config owed X v st) (he : st.sessions[fd]? = some e)
    (hinactive : e.deadlineActive = false) (deadline : ℕ) (kind : TimerEventKind) :
    Books config owed X (v.schedule deadline
      (EventLoop.sessionTimerEvent kind e.session.token e.deadlineSequence) none) st :=
  { h with
    numbered := h.numbered.schedule h.table he hinactive deadline kind none
    tracks := fun hv => { h.tracks hv with } }

theorem timerSlot_replaceTimer (s : Session) (k k' : SessionTimerKind) (id : TimerId) :
    (s.replaceTimer k id).2.timerSlot k' = if k' = k then id else s.timerSlot k' := by
  cases k <;> cases k' <;> rfl

/-- The deadline is given up. -/
theorem Follows.disarm (e : SessionEntry) (k : SessionTimerKind) :
    Follows e { e with session := (e.session.replaceTimer k {}).2, deadlineActive := false } := by
  refine ⟨rfl, le_rfl, fun k' hk' => ?_, fun h => absurd h (by simp)⟩
  dsimp only at hk' ⊢
  rw [timerSlot_replaceTimer] at hk' ⊢
  split at hk'
  · exact absurd hk' (by decide)
  · rw [if_neg ‹_›]

/-- The entry with a new deadline. -/
def SessionEntry.arm (e : SessionEntry) (kind : TimerEventKind) (deadline : ℕ) (id : TimerId) :
    SessionEntry :=
  { e with
    session := (e.session.replaceTimer (EventLoop.sessionTimerKind kind) id).2
    deadlineKind := kind
    deadlineAt := deadline
    deadlineActive := true }

theorem Tracks.arm (h : Tracks v st owed) (he : st.sessions[fd]? = some e) (deadline : ℕ)
    (kind : TimerEventKind) (hvalid : id.valid = true) (hnew : id ∉ v.used) :
    Tracks (v.schedule deadline
      (EventLoop.sessionTimerEvent kind e.session.token e.deadlineSequence) (some id))
      (st.put fd (e.arm kind deadline id)) owed where
  certain := h.certain
  known t ht := by
    rcases ht with ht | ht
    · rcases Set.mem_insert_iff.mp ht with rfl | ht
      · exact Set.mem_insert _ _
      · exact Set.mem_insert_of_mem _ (h.known t (.inl ht))
    · exact Set.mem_insert_of_mem _ (h.known t (.inr ht))
  slots fd' x hx k hk := by
    rcases put_cases hx with ⟨rfl, rfl⟩ | ⟨-, hx⟩
    · simp only [SessionEntry.arm, timerSlot_replaceTimer] at hk ⊢
      split at hk
      · rw [if_pos ‹_›]
        exact Set.mem_insert _ _
      · rw [if_neg ‹_›]
        exact Set.mem_insert_of_mem _ (h.slots _ e he k hk)
    · exact Set.mem_insert_of_mem _ (h.slots fd' x hx k hk)
  apart fd₁ fd₂ x y hx hy hne k k' hk := by
    -- the new name is that of no timer another session has
    have hother {fd' : ℤ} {z : SessionEntry} (hz : st.sessions[fd']? = some z)
        (k : SessionTimerKind) : z.session.timerSlot k ≠ id := fun heq =>
      hnew (heq ▸ h.slots fd' z hz k (heq ▸ hvalid))
    rcases put_cases hx with ⟨rfl, rfl⟩ | ⟨-, hx'⟩
    · rcases put_cases hy with ⟨rfl, -⟩ | ⟨-, hy'⟩
      · exact absurd rfl hne
      · simp only [SessionEntry.arm, timerSlot_replaceTimer] at hk ⊢
        split
        · exact Ne.symm (hother hy' k')
        · rw [if_neg ‹_›] at hk
          exact h.apart _ _ e y he hy' hne k k' hk
    · rcases put_cases hy with ⟨rfl, rfl⟩ | ⟨-, hy'⟩
      · simp only [SessionEntry.arm, timerSlot_replaceTimer]
        split
        · exact hother hx' k
        · exact h.apart _ _ x e hx' he hne k k' hk
      · exact h.apart _ _ x y hx' hy' hne k k' hk
  armed fd' x hx hactive := by
    rcases put_cases hx with ⟨rfl, rfl⟩ | ⟨-, hx⟩
    · have hslot : (e.arm kind deadline id).session.timerSlot (EventLoop.sessionTimerKind kind) =
          id := by rw [SessionEntry.arm, timerSlot_replaceTimer, if_pos rfl]
      refine .inl (Set.mem_insert_iff.mpr (.inl ?_))
      exact congrArg (fun id => ArmedTimer.mk id _ _) hslot
    · exact (h.armed fd' x hx hactive).imp_left (Set.mem_insert_of_mem _)

theorem Numbered.arm (h : Numbered v st) (htable : TableOk config st)
    (he : st.sessions[fd]? = some e)
    (hnew : ∀ ev ∈ v.events, ev.targetGeneration = e.session.token.generation →
      ev.targetSequence < e.deadlineSequence) (deadline : ℕ) (kind : TimerEventKind)
    (id : TimerId) :
    Numbered (v.schedule deadline
      (EventLoop.sessionTimerEvent kind e.session.token e.deadlineSequence) (some id))
      (st.put fd (e.arm kind deadline id)) where
  old ev hev := by
    rcases Set.mem_insert_iff.mp hev with rfl | hev
    · exact htable.below fd e he
    · exact h.old ev hev
  past ev hev fd' x hx hg := by
    rcases put_cases hx with ⟨rfl, rfl⟩ | ⟨hne, hx⟩
    · rcases Set.mem_insert_iff.mp hev with rfl | hev
      · exact le_rfl
      · exact (hnew ev hev hg).le
    · rcases Set.mem_insert_iff.mp hev with rfl | hev
      · exact absurd (htable.fd_eq he hx hg.symm) hne
      · exact h.past ev hev fd' x hx hg
  own ev hev fd' x hx hactive hg hs := by
    rcases put_cases hx with ⟨rfl, rfl⟩ | ⟨hne, hx⟩
    · rcases Set.mem_insert_iff.mp hev with rfl | hev
      · rfl
      · exact absurd hs (hnew ev hev hg).ne
    · rcases Set.mem_insert_iff.mp hev with rfl | hev
      · exact absurd (htable.fd_eq he hx hg.symm) hne
      · exact h.own ev hev fd' x hx hactive hg hs

/-- A deadline was scheduled. -/
theorem Books.arm (h : Books config owed {fd} v st) (he : st.sessions[fd]? = some e)
    (hnew : ∀ ev ∈ v.events, ev.targetGeneration = e.session.token.generation →
      ev.targetSequence < e.deadlineSequence)
    (hon : config.deadlines.enabled = true) (deadline : ℕ) (kind : TimerEventKind) (id : TimerId) :
    Books config owed {fd} (v.schedule deadline
      (EventLoop.sessionTimerEvent kind e.session.token e.deadlineSequence) (some id))
      (st.put fd (e.arm kind deadline id)) where
  table := h.table.put he rfl fun _ => hon
  numbered := h.numbered.arm h.table he hnew deadline kind id
  tracks hv := (h.tracks hv.1).arm he deadline kind hv.2.1 hv.2.2
  entries fd' x hne hx := by
    rcases put_cases hx with ⟨rfl, -⟩ | ⟨-, hx⟩
    · exact absurd rfl hne
    · exact h.entries fd' x hne hx

/-! ### Sessions come and go -/

/-- The session on `fd` is removed from the table and from the map. -/
theorem Books.remove (h : Books config owed {fd} v st) (he : st.sessions[fd]? = some e)
    (hsessions : ∀ fd' : ℤ, st'.sessions[fd']? =
      if fd = fd' then none else st.sessions[fd']?) (hmap : ∀ g : ℕ, st'.eventToFd[g]? =
      if e.session.token.generation = g then none else st.eventToFd[g]?)
    (hgen : st'.nextGeneration = st.nextGeneration) (hstopped : st'.stopped = st.stopped) :
    Books config owed ∅ v st' := by
  have hold {fd' : ℤ} {x : SessionEntry} (hx : st'.sessions[fd']? = some x) :
      fd' ≠ fd ∧ st.sessions[fd']? = some x := by
    rw [hsessions] at hx
    split at hx
    · cases hx
    · rename_i hne
      exact ⟨Ne.symm hne, hx⟩
  refine ⟨⟨fun fd' x hx => h.table.token fd' x (hold hx).2, fun g fd' => ?_, fun fd' x hx => ?_,
      fun fd' x hx => h.table.active fd' x (hold hx).2, hstopped.trans h.table.running⟩,
    ⟨fun ev hev => ?_, fun ev hev fd' x hx => h.numbered.past ev hev fd' x (hold hx).2,
      fun ev hev fd' x hx => h.numbered.own ev hev fd' x (hold hx).2⟩,
    fun hv => ?_, fun fd' x _ hx => h.entries fd' x (hold hx).1 (hold hx).2⟩
  · rw [hmap, hsessions]
    split
    · rename_i hg
      refine ⟨fun hnone => absurd hnone (by simp), fun ⟨x, hx, hxg⟩ => ?_⟩
      split at hx
      · cases hx
      · rename_i hne
        exact absurd (h.table.fd_eq he hx (hxg.trans hg.symm)).symm hne
    · rename_i hg
      rw [h.table.mapped g fd']
      split
      · rename_i heq
        subst heq
        refine ⟨fun ⟨x, hx, hxg⟩ => ?_, fun ⟨x, hx, _⟩ => absurd hx (by simp)⟩
        obtain rfl : e = x := Option.some.inj (he.symm.trans hx)
        exact absurd hxg hg
      · rfl
  · rw [hgen]
    exact h.table.below fd' x (hold hx).2
  · rw [hgen]
    exact h.numbered.old ev hev
  · have ht := h.tracks hv
    exact ⟨ht.certain, ht.known, fun fd' x hx => ht.slots fd' x (hold hx).2,
      fun fd₁ fd₂ x y hx hy => ht.apart fd₁ fd₂ x y (hold hx).2 (hold hy).2,
      fun fd' x hx => ht.armed fd' x (hold hx).2⟩

/-- A generation is handed out. -/
theorem Books.allocate (h : Books config owed X v st) {next : ℕ}
    (hnext : st.nextGeneration < next ∨ next = 0) (hgen : st.nextGeneration ≠ 0) :
    Books config owed X v { st with nextGeneration := next } := by
  have hlater {g : ℕ} (hg : g < st.nextGeneration ∨ st.nextGeneration = 0) :
      g < next ∨ next = 0 := by omega
  exact { h with
    table := { h.table with below := fun fd e he => hlater (h.table.below fd e he) }
    numbered := { h.numbered with old := fun ev hev => hlater (h.numbered.old ev hev) }
    tracks := fun hv => { h.tracks hv with } }

/-- A session with a new generation is put into the table and into the map. -/
theorem Books.insert (h : Books config owed ∅ v st) (hgen : st.nextGeneration ≠ 0)
    (hfd : st.sessions[fd]? = none) (hpos : 0 ≤ fd)
    (htoken : e.session.token = ⟨config.loopId, fd, st.nextGeneration⟩)
    (htimers : e.session.timers = {}) (hactive : e.deadlineActive = false)
    (hsessions : ∀ fd' : ℤ, st'.sessions[fd']? = if fd = fd' then some e else st.sessions[fd']?)
    (hmap : ∀ g : ℕ, st'.eventToFd[g]? =
      if st.nextGeneration = g then some fd else st.eventToFd[g]?)
    (hnext : st.nextGeneration < st'.nextGeneration ∨ st'.nextGeneration = 0)
    (hstopped : st'.stopped = st.stopped) : Books config owed {fd} v st' := by
  have hlater {g : ℕ} (hg : g < st.nextGeneration ∨ st.nextGeneration = 0) :
      g < st'.nextGeneration ∨ st'.nextGeneration = 0 := by omega
  have hcases {fd' : ℤ} {x : SessionEntry} (hx : st'.sessions[fd']? = some x) :
      fd' = fd ∧ x = e ∨ fd' ≠ fd ∧ st.sessions[fd']? = some x := by
    rw [hsessions] at hx
    split at hx
    · rename_i heq
      exact .inl ⟨heq.symm, (Option.some.inj hx).symm⟩
    · rename_i hne
      exact .inr ⟨Ne.symm hne, hx⟩
  have hslot (k : SessionTimerKind) : (e.session.timerSlot k).valid = false := by
    cases k <;> simp [Session.timerSlot, htimers, TimerId.valid]
  -- no session has the new generation yet
  have hnew {fd' : ℤ} {x : SessionEntry} (hx : st.sessions[fd']? = some x) :
      x.session.token.generation ≠ st.nextGeneration := by
    have := h.table.below fd' x hx
    omega
  refine ⟨⟨fun fd' x hx => ?_, fun g fd' => ?_, fun fd' x hx => ?_, fun fd' x hx ha => ?_,
      hstopped.trans h.table.running⟩,
    ⟨fun ev hev => hlater (h.numbered.old ev hev), fun ev hev fd' x hx hg => ?_,
      fun ev hev fd' x hx ha hg hs => ?_⟩, fun hv => ?_,
    fun fd' x hne hx => ?_⟩
  · rcases hcases hx with ⟨rfl, rfl⟩ | ⟨-, hx⟩
    · rw [htoken]
      exact ⟨rfl, rfl, hpos, hgen⟩
    · exact h.table.token fd' x hx
  · rw [hmap, hsessions]
    by_cases hg : st.nextGeneration = g
    · subst hg
      rw [if_pos rfl]
      by_cases heq : fd = fd'
      · subst heq
        simp [htoken]
      · rw [if_neg heq]
        refine ⟨fun hsome => absurd (Option.some.inj hsome) heq, fun ⟨x, hx, hxg⟩ => ?_⟩
        exact absurd hxg (hnew hx)
    · rw [if_neg hg, h.table.mapped g fd']
      by_cases heq : fd = fd'
      · subst heq
        simp [hfd, htoken, hg]
      · rw [if_neg heq]
  · rcases hcases hx with ⟨rfl, rfl⟩ | ⟨-, hx⟩
    · rw [htoken]
      exact hnext
    · exact hlater (h.table.below fd' x hx)
  · rcases hcases hx with ⟨rfl, rfl⟩ | ⟨-, hx⟩
    · exact absurd (ha.symm.trans hactive) (by simp)
    · exact h.table.active fd' x hx ha
  · rcases hcases hx with ⟨rfl, rfl⟩ | ⟨-, hx⟩
    · have hold := h.numbered.old ev hev
      rw [htoken] at hg
      dsimp only at hg
      omega
    · exact h.numbered.past ev hev fd' x hx hg
  · rcases hcases hx with ⟨rfl, rfl⟩ | ⟨-, hx⟩
    · exact absurd (ha.symm.trans hactive) (by simp)
    · exact h.numbered.own ev hev fd' x hx ha hg hs
  · have ht := h.tracks hv
    refine ⟨ht.certain, ht.known, fun fd' x hx k hk => ?_, fun fd₁ fd₂ x y hx hy hne k k' hk => ?_,
      fun fd' x hx ha => ?_⟩
    · rcases hcases hx with ⟨rfl, rfl⟩ | ⟨-, hx⟩
      · exact absurd (hk.symm.trans (hslot k)) (by simp)
      · exact ht.slots fd' x hx k hk
    · rcases hcases hx with ⟨rfl, rfl⟩ | ⟨-, hx⟩
      · exact absurd (hk.symm.trans (hslot k)) (by simp)
      · rcases hcases hy with ⟨rfl, rfl⟩ | ⟨-, hy⟩
        · intro heq
          rw [heq] at hk
          exact absurd (hk.symm.trans (hslot k')) (by simp)
        · exact ht.apart fd₁ fd₂ x y hx hy hne k k' hk
    · rcases hcases hx with ⟨rfl, rfl⟩ | ⟨-, hx⟩
      · exact absurd (ha.symm.trans hactive) (by simp)
      · exact ht.armed fd' x hx ha
  · rcases hcases hx with ⟨rfl, -⟩ | ⟨-, hx⟩
    · exact absurd rfl hne
    · exact h.entries fd' x (Set.notMem_empty fd') hx

/-! ### Due timers -/

/-- The event of a deadline says where the session is. -/
theorem Books.targetFd_eq (h : Books config owed X v st) (he : st.sessions[fd]? = some e)
    {event : TimerEvent} (hevent : e.timerEvent = event) : event.targetFd = fd := by
  rw [← hevent]
  exact (h.table.token fd e he).2.1

theorem Books.pop (h : Books config owed X v st) (event : TimerEvent) :
    Books config (event :: owed) X (v.pop event) st := by
  refine ⟨h.table, ⟨h.numbered.old, h.numbered.past, h.numbered.own⟩, fun hv => ?_, h.entries⟩
  have ht := h.tracks hv
  refine ⟨by simp [DeadlineView.pop, ht.certain], fun t => ?_, ht.slots, ht.apart,
    fun fd e he hactive => ?_⟩
  · simp only [DeadlineView.pop, ht.certain, Set.mem_empty_iff_false, or_false, Set.mem_ofPred_eq]
    rintro (⟨hmem, -⟩ | hmem | ⟨hmem, -⟩)
    · exact ht.known t (.inl hmem)
    · exact ht.known t (.inr hmem)
    · exact ht.known t (.inl hmem)
  · rcases ht.armed fd e he hactive with hmem | ⟨hmem, howed⟩
    · by_cases hev : e.timer.event = event
      · exact .inr ⟨.inr ⟨.inl hmem, hev⟩, hev ▸ List.mem_cons_self⟩
      · exact .inl ⟨hmem, hev⟩
    · exact .inr ⟨.inl hmem, List.mem_cons_of_mem _ howed⟩

/-- The deadlines that have passed are looked at. -/
theorem Books.rescan (h : Books config [] X v st) (now : ℕ)
    (howed : ∀ (fd : ℤ) e, st.sessions[fd]? = some e → e.deadlineActive = true →
      e.deadlineAt ≤ now → e.timerEvent ∈ owed) :
    Books config owed X (v.rescan.readClock now) st := by
  refine ⟨h.table, ⟨h.numbered.old, h.numbered.past, h.numbered.own⟩, fun hv => ?_, h.entries⟩
  have ht := h.tracks hv.1
  refine ⟨rfl, fun t => ?_, ht.slots, ht.apart, fun fd e he hactive => ?_⟩
  · simp only [DeadlineView.readClock, DeadlineView.rescan, ht.certain, Set.mem_empty_iff_false,
      or_false, false_or, Set.mem_ofPred_eq]
    rintro (⟨hmem, -⟩ | hmem | ⟨hmem, -⟩)
    · exact ht.known t (.inl hmem)
    · exact ht.known t (.inr hmem)
    · exact ht.known t (.inl hmem)
  · have hmem : e.timer ∈ v.armed := (ht.armed fd e he hactive).resolve_right fun h => by
      simpa using h.2
    by_cases hpast : e.deadlineAt ≤ now
    · exact .inr ⟨.inr ⟨.inl hmem, hpast⟩, howed fd e he hactive hpast⟩
    · exact .inl (.inr ⟨.inl hmem, Nat.lt_of_not_le hpast⟩)

/-- The session that an event was for has been seen to. -/
theorem Books.settle {event : TimerEvent} (h : Books config (event :: owed) X v st)
    (hseen : v.honest → ∀ (fd : ℤ) e, st.sessions[fd]? = some e → e.deadlineActive = true →
      e.timer ∈ v.due → e.timer.event ≠ event) : Books config owed X v st := by
  refine ⟨h.table, h.numbered, fun hv => ?_, h.entries⟩
  have ht := h.tracks hv
  refine ⟨ht.certain, ht.known, ht.slots, ht.apart, fun fd e he hactive => ?_⟩
  refine (ht.armed fd e he hactive).imp_right fun ⟨hmem, howed⟩ => ⟨hmem, ?_⟩
  exact (List.mem_cons.mp howed).resolve_left (hseen hv fd e he hactive hmem)

/-- A timer that is armed is not one the loop has to see to; a list may grow. -/
theorem Books.owe {owed' : List TimerEvent} (h : Books config owed X v st)
    (howed : ∀ ev ∈ owed, ev ∈ owed') : Books config owed' X v st := by
  refine ⟨h.table, h.numbered, fun hv => ?_, h.entries⟩
  have ht := h.tracks hv
  exact ⟨ht.certain, ht.known, ht.slots, ht.apart, fun fd e he hactive =>
    (ht.armed fd e he hactive).imp_right fun ⟨hmem, hin⟩ => ⟨hmem, howed _ hin⟩⟩

end Timers

end AegisFlow
