import AegisFlow.Collections.Basic
import AegisFlow.Net.EventLoop

/-!
# What the parts of the event loop do

Contracts for the procedures that every handler is made of.  They hold for any way of observing
the loop: a view `S` with an update `upd` and a set `P` of allowed operations, as long as the
operations of the procedure are allowed and do not show in the view (`Silent`).

* `TimersOnly` : `cancelDeadline`, `armDeadline` and `syncDeadline` change timers and deadlines
  only;
* `Without fd` : `closeSession` removes the session on `fd` and touches no other;
* `Registered` : `modifyInterest` registers what the session is interested in.
-/

namespace AegisFlow

/-! ### The connection table -/

/-- The entries agree up to timers and deadlines. -/
structure EntryTimers (e e' : SessionEntry) : Prop where
  registered : e'.registeredEvents = e.registeredEvents
  expired : e'.businessExpired = e.businessExpired
  session : ∃ timers, e'.session = { e.session with timers := timers }

theorem EntryTimers.refl (e : SessionEntry) : EntryTimers e e := ⟨rfl, rfl, _, rfl⟩

theorem EntryTimers.trans {e₁ e₂ e₃ : SessionEntry} (h : EntryTimers e₁ e₂)
    (h' : EntryTimers e₂ e₃) : EntryTimers e₁ e₃ := by
  obtain ⟨t, ht⟩ := h.session
  obtain ⟨t', ht'⟩ := h'.session
  exact ⟨h'.registered.trans h.registered, h'.expired.trans h.expired, t', by rw [ht', ht]⟩

variable {e : SessionEntry}

theorem EntryTimers.interest {e' : SessionEntry} (h : EntryTimers e e') :
    e'.session.interest = e.session.interest := by
  obtain ⟨timers, hsession⟩ := h.session
  rw [hsession]
  rfl

/-- Only timers and deadlines of the session on `fd` changed. -/
structure TimersOnly (fd : ℤ) (st st' : LoopState) : Prop where
  entry : ∀ e', st'.sessions[fd]? = some e' → ∃ e, st.sessions[fd]? = some e ∧ EntryTimers e e'
  others : ∀ fd' : ℤ, fd' ≠ fd → st'.sessions[fd']? = st.sessions[fd']?
  rest : st' = { st with sessions := st'.sessions }

variable {fd : ℤ} {st' : LoopState} {ops : LoopOp → Prop} {α : Type}

theorem TimersOnly.refl (st : LoopState) : TimersOnly fd st st :=
  ⟨fun e h => ⟨e, h, .refl e⟩, fun _ _ => rfl, rfl⟩

theorem TimersOnly.trans {st₁ st₂ st₃ : LoopState} (h : TimersOnly fd st₁ st₂)
    (h' : TimersOnly fd st₂ st₃) : TimersOnly fd st₁ st₃ where
  entry e₃ he₃ := by
    obtain ⟨e₂, he₂, h₂₃⟩ := h'.entry e₃ he₃
    obtain ⟨e₁, he₁, h₁₂⟩ := h.entry e₂ he₂
    exact ⟨e₁, he₁, h₁₂.trans h₂₃⟩
  others fd' hne := (h'.others fd' hne).trans (h.others fd' hne)
  rest := by rw [h'.rest, h.rest]

theorem TimersOnly.put {st : LoopState} {e' : SessionEntry} (h : st.sessions[fd]? = some e)
    (he : EntryTimers e e') :
    TimersOnly fd st (st.put fd e') where
  entry x hx := by
    rw [TreeMap.lookup_insert, if_pos rfl] at hx
    cases hx
    exact ⟨e, h, he⟩
  others fd' hne := by rw [TreeMap.lookup_insert, if_neg (Ne.symm hne)]
  rest := rfl

/-- The sessions on descriptors other than `fd` are as they were. -/
structure Elsewhere (fd : ℤ) (st st' : LoopState) : Prop where
  others : ∀ fd' : ℤ, fd' ≠ fd → st'.sessions[fd']? = st.sessions[fd']?
  generation : st'.nextGeneration = st.nextGeneration

theorem Elsewhere.refl (st : LoopState) : Elsewhere fd st st := ⟨fun _ _ => rfl, rfl⟩

theorem Elsewhere.put {st : LoopState} (h : Elsewhere fd st st') (e : SessionEntry) :
    Elsewhere fd st (st'.put fd e) where
  others fd' hne := by rw [TreeMap.lookup_insert, if_neg (Ne.symm hne), h.others fd' hne]
  generation := h.generation

theorem TimersOnly.elsewhere {st : LoopState} (h : TimersOnly fd st st') :
    Elsewhere fd st st' := ⟨h.others, by rw [h.rest]⟩

/-- The session on `fd` is gone and the others are as they were. -/
structure Without (fd : ℤ) (st st' : LoopState) : Prop extends Elsewhere fd st st' where
  gone : st'.sessions[fd]? = none

theorem Without.of_elsewhere {st st₁ st₂ : LoopState} (h : Elsewhere fd st st₁)
    (hw : Without fd st₁ st₂) : Without fd st st₂ where
  others fd' hne := (hw.others fd' hne).trans (h.others fd' hne)
  generation := hw.generation.trans h.generation
  gone := hw.gone

/-- The open session of `e` is registered for what it is interested in. -/
structure Registered (fd : ℤ) (e : SessionEntry) (st st' : LoopState) : Prop where
  before : st.sessions[fd]? = some e
  isOpen : e.session.isOpen
  after : st'.sessions[fd]? =
    some { e with registeredEvents := epollEventsFor e.session.interest }
  others : ∀ fd' : ℤ, fd' ≠ fd → st'.sessions[fd']? = st.sessions[fd']?
  rest : st' = { st with sessions := st'.sessions }

theorem Registered.elsewhere {st : LoopState} (h : Registered fd e st st') :
    Elsewhere fd st st' := ⟨h.others, by rw [h.rest]⟩

/-! ### Generations -/

/-- The generation after one was allocated. -/
def generationAfter (generation : ℕ) : ℕ :=
  if generation = 2 ^ 64 - 1 then 0 else generation + 1

theorem generationAfter_cases (generation : ℕ) :
    generationAfter generation = 0 ∨ generation < generationAfter generation := by
  unfold generationAfter
  split_ifs
  · exact .inl rfl
  · exact .inr (Nat.lt_succ_self _)

/-! ### Operations that do not show -/

/-- Operations on timers. -/
def TimerOp : LoopOp → Prop
  | .cancelTimer _ | .now | .scheduleAt .. => True
  | _ => False

/-- Operations of `closeSession`. -/
def CloseOp : LoopOp → Prop
  | .epollDel _ | .closeSocket _ | .releaseConnection | .cancelTimer _ => True
  | _ => False

variable {S : Type} {upd : S → (op : LoopOp) → op.Reply → S} {P : S → LoopOp → Prop}
  {R : S → LoopState → α → Prop} {s : S} {st : LoopState}

/-- The operations are allowed and do not show in the view. -/
structure Silent (upd : S → (op : LoopOp) → op.Reply → S) (P : S → LoopOp → Prop)
    (ops : LoopOp → Prop) : Prop where
  allowed : ∀ s op, ops op → P s op
  unseen : ∀ s op r, ops op → upd s op r = s

theorem Silent.mono {ops' : LoopOp → Prop} (h : Silent upd P ops) (hops : ∀ op, ops' op → ops op) :
    Silent upd P ops' :=
  ⟨fun s op hop => h.allowed s op (hops op hop), fun s op r hop => h.unseen s op r (hops op hop)⟩

/-- Operations on timers and on connections include cancelling a timer. -/
theorem Silent.cancel (h : Silent upd P ops) (hops : ∀ id, ops (.cancelTimer id)) :
    Silent upd P (fun op => ∃ id, op = .cancelTimer id) := by
  refine h.mono fun op hop => ?_
  obtain ⟨id, rfl⟩ := hop
  exact hops id

namespace EventLoop

/-- A call that runs on for ever never returns anything wrong. -/
theorem ensures_diverge (h : ∀ s, P s .spin) :
    Proc.Ensures (E := LoopSig) upd P R s st diverge := by
  simp only [diverge, Proc.ensures_perform_bind]
  exact ⟨h s, fun never => never.elim⟩

theorem ensures_find_bind {f : Option SessionEntry → Loop α} :
    Proc.Ensures (E := LoopSig) upd P R s st (find fd >>= f) ↔
      Proc.Ensures (E := LoopSig) upd P R s st (f st.sessions[fd]?) := Iff.rfl

theorem ensures_put_bind {f : Unit → Loop α} :
    Proc.Ensures (E := LoopSig) upd P R s st (put fd e >>= f) ↔
      Proc.Ensures (E := LoopSig) upd P R s (st.put fd e) (f ()) := Iff.rfl

end EventLoop

/-- The session on a descriptor is looked up: there is none, or there is one. -/
theorem Proc.Ensures.find {f : Option SessionEntry → Loop α}
    (hnone : st.sessions[fd]? = none → Ensures (E := LoopSig) upd P R s st (f none))
    (hsome : ∀ e, st.sessions[fd]? = some e → Ensures (E := LoopSig) upd P R s st (f (some e))) :
    Ensures (E := LoopSig) upd P R s st (EventLoop.find fd >>= f) := by
  refine EventLoop.ensures_find_bind.mpr ?_
  cases he : st.sessions[fd]? with
  | none => exact hnone he
  | some e => exact hsome e he

theorem Proc.Ensures.put {f : Unit → Loop α}
    (h : Ensures (E := LoopSig) upd P R s (st.put fd e) (f ())) :
    Ensures (E := LoopSig) upd P R s st (EventLoop.put fd e >>= f) :=
  EventLoop.ensures_put_bind.mpr h

namespace EventLoop

variable {config : EventLoopConfig}

/-! ### Timers -/

/-- Performing silent operations, or none, changes nothing that shows. -/
theorem ensures_silent {op : LoopOp} (hsilent : Silent upd P ops) (hop : ops op) :
    Proc.Ensures (E := LoopSig) upd P (fun s' st' _ => s' = s ∧ st' = st) s st
      (Proc.perform (E := LoopSig) op) :=
  Proc.Ensures.perform (E := LoopSig) (P := P) (hsilent.allowed s op hop) fun r =>
    ⟨hsilent.unseen s op r hop, rfl⟩

theorem cancelTimerId_ensures (hsilent : Silent upd P (fun op => ∃ id, op = .cancelTimer id))
    (id : TimerId) :
    Proc.Ensures (E := LoopSig) upd P (fun s' st' _ => s' = s ∧ st' = st) s st
      (cancelTimerId id) :=
  .when (fun _ => ensures_silent hsilent ⟨id, rfl⟩) fun _ => ⟨rfl, rfl⟩

theorem cancelDeadline_ensures (hsilent : Silent upd P (fun op => ∃ id, op = .cancelTimer id)) :
    Proc.Ensures (E := LoopSig) upd P (fun s' st' _ => s' = s ∧ TimersOnly fd st st') s st
      (cancelDeadline fd) := by
  unfold cancelDeadline
  refine .find (fun _ => .ret ⟨rfl, .refl st⟩) fun entry he => ?_
  simp only [Proc.ensures_ite, Proc.ensures_pure, TimersOnly.refl, and_self, implies_true,
    and_true, ensures_put_bind]
  intro _
  refine (cancelTimerId_ensures hsilent _).mono ?_
  rintro s' st' - ⟨rfl, rfl⟩
  exact ⟨rfl, .put he ⟨rfl, rfl, _, rfl⟩⟩

theorem armDeadline_ensures (hsilent : Silent upd P TimerOp) (kind : TimerEventKind) :
    Proc.Ensures (E := LoopSig) upd P (fun s' st' _ => s' = s ∧ TimersOnly fd st st') s st
      (armDeadline config fd kind) := by
  have hcancel := hsilent.cancel fun _ => trivial
  unfold armDeadline
  simp only [Proc.ensures_ite, Proc.ensures_pure, true_and]
  refine ⟨fun _ => .refl st, fun _ => ?_⟩
  refine (cancelDeadline_ensures hcancel).bind ?_
  rintro s' st₁ - ⟨rfl, h₁⟩
  refine .find (fun _ => .ret ⟨rfl, h₁⟩) fun entry he => ?_
  simp only [Proc.ensures_ite, Proc.ensures_pure, ensures_put_bind, Proc.ensures_perform_bind,
    true_and]
  refine ⟨fun _ => h₁, fun _ => ⟨hsilent.allowed _ _ trivial, fun now => ?_⟩⟩
  rw [hsilent.unseen s' .now now trivial]
  refine ⟨hsilent.allowed _ _ trivial, fun id => ?_⟩
  rw [hsilent.unseen s' _ id trivial]
  have hnumber : EntryTimers entry { entry with
      deadlineSequence := entry.deadlineSequence + 1 } := ⟨rfl, rfl, _, rfl⟩
  have h₂ := h₁.trans (.put he hnumber)
  cases id with
  | none => simpa using h₂
  | some id =>
    simp only [ensures_put_bind, Proc.ensures_pure, true_and]
    have hput := TreeMap.lookup_insert st₁.sessions fd fd { entry with
      deadlineSequence := entry.deadlineSequence + 1 }
    rw [if_pos rfl] at hput
    exact h₂.trans (.put hput ⟨rfl, rfl, _, rfl⟩)

theorem syncDeadline_ensures (hsilent : Silent upd P TimerOp) :
    Proc.Ensures (E := LoopSig) upd P (fun s' st' _ => s' = s ∧ TimersOnly fd st st') s st
      (syncDeadline config fd) := by
  have hcancel := hsilent.cancel fun _ => trivial
  unfold syncDeadline
  refine .find (fun _ => .ret ⟨rfl, .refl st⟩) fun entry he => ?_
  simp only [Proc.ensures_ite, Proc.ensures_pure, true_and]
  refine ⟨fun _ => .refl st, fun _ => ⟨fun _ => ?_, fun _ =>
    ⟨fun _ => .refl st, fun _ => armDeadline_ensures hsilent _⟩⟩⟩
  refine (cancelDeadline_ensures hcancel).bind ?_
  rintro s' st' - h
  simpa using h

/-! ### Closing -/

theorem unregister_ensures (hsilent : Silent upd P CloseOp) (generation : ℕ) :
    Proc.Ensures (E := LoopSig) upd P
      (fun s' st' _ => s' = s ∧ st' = { st with eventToFd := st.eventToFd.erase generation }) s st
      (unregister fd generation) := by
  unfold unregister
  rw [Proc.ensures_get_bind]
  have hdel : Proc.Ensures (E := LoopSig) upd P (fun s' st' _ => s' = s ∧ st' = st) s st
      (Proc.when st.epollOpen (Proc.perform (E := LoopSig) (.epollDel fd))) :=
    .when (fun _ => ensures_silent hsilent trivial) fun _ => ⟨rfl, rfl⟩
  refine hdel.bind ?_
  rintro s' st' - ⟨rfl, rfl⟩
  simp

theorem finalize_ensures (hsilent : Silent upd P CloseOp) (session : Session) :
    Proc.Ensures (E := LoopSig) upd P
      (fun s' st' _ => s' = s ∧ st' = { st with sessions := st.sessions.erase fd }) s st
      (finalize fd session) := by
  have hcancel := hsilent.cancel fun _ => trivial
  unfold finalize
  refine (cancelTimerId_ensures hcancel _).bind ?_
  rintro s₁ st₁ - ⟨rfl, rfl⟩
  refine (cancelTimerId_ensures hcancel _).bind ?_
  rintro s₂ st₂ - ⟨rfl, rfl⟩
  refine (cancelTimerId_ensures hcancel _).bind ?_
  rintro s₃ st₃ - ⟨rfl, rfl⟩
  refine (cancelTimerId_ensures hcancel _).bind ?_
  rintro s₄ st₄ - ⟨rfl, rfl⟩
  have hclose : Proc.Ensures (E := LoopSig) upd P (fun s' st' _ => s' = s₄ ∧ st' = st₄) s₄ st₄
      (Proc.when (!session.connectionClosed) (Proc.perform (E := LoopSig) (.closeSocket fd))) :=
    .when (fun _ => ensures_silent hsilent trivial) fun _ => ⟨rfl, rfl⟩
  refine hclose.bind ?_
  rintro s₅ st₅ - ⟨rfl, rfl⟩
  simp

/-- **`closeSession` removes the session and touches no other.** -/
theorem closeSession_ensures (hsilent : Silent upd P CloseOp) (reason : SessionCloseReason)
    (notify : Bool) :
    Proc.Ensures (E := LoopSig) upd P (fun s' st' _ => s' = s ∧ Without fd st st') s st
      (closeSession fd reason notify) := by
  have hcancel := hsilent.cancel fun _ => trivial
  unfold closeSession
  refine .find (fun he => .ret ⟨rfl, .refl st, he⟩) fun entry he => ?_
  dsimp only
  rw [ensures_put_bind]
  refine (unregister_ensures hsilent _).bind ?_
  rintro s' st₁ - ⟨rfl, rfl⟩
  refine (cancelDeadline_ensures hcancel).bind ?_
  rintro s'' st₂ - ⟨rfl, h₂⟩
  have hothers (fd' : ℤ) (hne : fd' ≠ fd) : st₂.sessions[fd']? = st.sessions[fd']? := by
    rw [h₂.others fd' hne]
    dsimp only
    rw [TreeMap.lookup_insert, if_neg (Ne.symm hne)]
  have hgen : st₂.nextGeneration = st.nextGeneration := by rw [h₂.rest]
  refine .find (fun he₂ => .ret ⟨rfl, ⟨hothers, hgen⟩, he₂⟩) fun entry he₂ => ?_
  refine (finalize_ensures hsilent _).bind ?_
  rintro s₃ st₃ - ⟨rfl, rfl⟩
  have hwithout : Without fd st { st₂ with sessions := st₂.sessions.erase fd } := by
    refine ⟨⟨fun fd' hne => ?_, hgen⟩, ?_⟩
    · rw [TreeMap.lookup_erase, if_neg (Ne.symm hne), hothers fd' hne]
    · rw [TreeMap.lookup_erase, if_pos rfl]
  refine .when (fun _ => ?_) fun _ => ⟨rfl, hwithout⟩
  refine (show Proc.Ensures upd P _ _ _ (Proc.perform (E := LoopSig) .releaseConnection) from
    ensures_silent hsilent trivial).mono ?_
  rintro s₄ st₄ - ⟨rfl, rfl⟩
  exact ⟨rfl, hwithout⟩

/-! ### Interest -/

/-- `modifyInterest` fails, or registers what the session is interested in; epoll is called only
if that is new, which shows as `mod` in the view. -/
theorem modifyInterest_ensures (mod : S → S)
    (hallow : ∀ s events generation, P s (.epollMod fd events generation))
    (hmod : ∀ s events generation r, upd s (.epollMod fd events generation) r = mod s) :
    Proc.Ensures (E := LoopSig) upd P (fun s' st' ok =>
      (ok = false ∧ st' = st ∧ (s' = s ∨ s' = mod s)) ∨
      (ok = true ∧ ∃ e, Registered fd e st st' ∧
        s' = if e.registeredEvents = epollEventsFor e.session.interest then s else mod s))
      s st (modifyInterest fd) := by
  unfold modifyInterest
  refine .find (fun _ => .ret (.inl ⟨rfl, rfl, .inl rfl⟩)) fun entry he => ?_
  simp only [Proc.ensures_ite, Proc.ensures_pure, Proc.ensures_perform_bind]
  refine ⟨fun _ => by simp, fun hopen => ?_⟩
  rw [not_or] at hopen
  refine ⟨fun hsame => ?_, fun hdiff => ⟨hallow .., fun ok => ?_⟩⟩
  · refine .inr ⟨trivial, entry, ⟨he, hopen, ?_, fun _ _ => rfl, rfl⟩, (if_pos hsame.symm).symm⟩
    rw [he, hsame]
  · rw [hmod]
    refine ⟨fun _ => ?_, fun _ => .inl ⟨trivial, trivial, .inr rfl⟩⟩
    rw [ensures_put_bind, Proc.ensures_pure]
    refine .inr ⟨rfl, entry, ⟨he, hopen, ?_, fun fd' hne => ?_, rfl⟩,
      (if_neg (Ne.symm hdiff)).symm⟩
    · rw [TreeMap.lookup_insert, if_pos rfl]
    · rw [TreeMap.lookup_insert, if_neg (Ne.symm hne)]

/-- `settleInterest` closes the session or registers what it is interested in. -/
theorem settleInterest_ensures (mod : S → S) (hsilent : Silent upd P CloseOp)
    (hallow : ∀ s events generation, P s (.epollMod fd events generation))
    (hmod : ∀ s events generation r, upd s (.epollMod fd events generation) r = mod s) :
    Proc.Ensures (E := LoopSig) upd P (fun s' st' _ =>
      (Without fd st st' ∧ (s' = s ∨ s' = mod s)) ∨ ∃ e, Registered fd e st st' ∧
        s' = if e.registeredEvents = epollEventsFor e.session.interest then s else mod s)
      s st (settleInterest fd) := by
  unfold settleInterest
  refine (modifyInterest_ensures mod hallow hmod).bind ?_
  rintro s' st' ok (⟨rfl, rfl, hs'⟩ | ⟨rfl, hreg⟩)
  · rw [if_neg (by simp)]
    exact (closeSession_ensures hsilent _ _).mono fun _ _ _ h => .inl ⟨h.2, h.1 ▸ hs'⟩
  · rw [if_pos rfl]
    exact .ret (.inr hreg)

/-! ### Generations -/

theorem allocateGeneration_ensures :
    Proc.Ensures (E := LoopSig) upd P (fun s' st' generation => s' = s ∧
      ((generation = none ∧ st' = st) ∨ (st.nextGeneration ≠ 0 ∧
        generation = some st.nextGeneration ∧
        st' = { st with nextGeneration := generationAfter st.nextGeneration }))) s st
      allocateGeneration := by
  unfold allocateGeneration
  refine .get (.ite (fun _ => ?_) fun hgen => ?_)
  · exact .ret ⟨rfl, .inl ⟨rfl, rfl⟩⟩
  · exact ⟨_, rfl, rfl, .inr ⟨hgen, rfl, rfl⟩⟩

end EventLoop

/-! ### A kernel -/

/-- A kernel that reports the events `ready`, answers `recv` with `received` and takes all bytes. -/
def kernel (ready : List (ℕ × EpollEvents)) (received : RecvResult) :
    (op : LoopOp) → Option op.Reply
  | .epollWait => some (some ready)
  | .recv .. => some received
  | .send _ bytes => some (.sent bytes.length)
  | .epollAdd .. => some true
  | .epollMod .. => some true
  | .outOfMemory => some false
  | .drainRequested => some false
  | .drainWakeSignal mailbox => some (mailbox = .completion)
  | _ => none

end AegisFlow
