import AegisFlow.Net.Bookkeeping
import AegisFlow.Timer.Delivery

/-!
# Where the timers of a loop are

The deadline of a session passes through three components on two threads: the timer core, the
timeout mailbox, and the event loop.  Here timer and mailbox answer to the loop, while the timer
thread carries out commands, takes due timers and posts them, and other clients use the same timer.

* `DeadlineWorld.Serve`, `DeadlineWorld.Env` : the answers to the loop's operations, and what
  happens outside of the loop;
* `Linked` : every timer that is armed in the loop's view is reserved, held by the timer thread, in
  the mailbox, or was dropped with a scan asked for;
* `Linked.env`, `Linked.serve` : **nothing that happens loses a timer**.
-/

namespace AegisFlow

/-! ### The components -/

/-- Where timers of the loop and of others are posted. -/
inductive DeadlineSink
  | mailbox
  | other (name : ℕ)
  deriving DecidableEq, Repr

/-- Timer, clock and mailbox, and what happened to the events of the loop. -/
structure DeadlineWorld where
  timer : TimerState DeadlineSink
  clock : ℕ
  mailbox : TimeoutMailbox
  /-- The events the loop took out of the mailbox. -/
  popped : List TimerEvent := []
  /-- The events that found the mailbox full since the loop last took a request for a scan. -/
  dropped : List TimerEvent := []
  /-- The events that found it full before that. -/
  scanned : List TimerEvent := []

/-- What happens outside of the loop. -/
inductive DeadlineEvent
  | tick (now : ℕ)
  | timer (l : TimerLabel DeadlineSink)

namespace DeadlineWorld

/-- The world after the timer thread posted `event` into the mailbox; the loop can be woken. -/
def post (w : DeadlineWorld) (timer : TimerState DeadlineSink) (event : TimerEvent) :
    DeadlineWorld :=
  { w with
    timer
    mailbox := (w.mailbox.tryPost event true).2
    dropped := if w.mailbox.queue.length = w.mailbox.capacity then w.dropped ++ [event]
      else w.dropped }

/-- The answers to the loop's operations. -/
inductive Serve (w : DeadlineWorld) : (op : LoopOp) → op.Reply → DeadlineWorld → Prop
  | now : Serve w .now w.clock w
  | scheduleAt (deadline : ℕ) (event : TimerEvent) (outOfMemory : Bool) :
      Serve w (.scheduleAt deadline event)
        (if (w.timer.core.scheduleAt deadline .mailbox false event outOfMemory).1 = .ok then
            some (w.timer.core.scheduleAt deadline .mailbox false event outOfMemory).2.1
          else none)
        { w with timer := w.timer.scheduled deadline .mailbox false event outOfMemory }
  | cancelTimer (id : TimerId) :
      Serve w (.cancelTimer id) () { w with timer := w.timer.cancelledBy id }
  | popTimeout :
      Serve w .popTimeout w.mailbox.tryPop.1 { w with
        mailbox := w.mailbox.tryPop.2, popped := w.popped ++ w.mailbox.tryPop.1.toList }
  | takeRescanRequest :
      Serve w .takeRescanRequest w.mailbox.takeRescanRequest.1
        { w with
          mailbox := w.mailbox.takeRescanRequest.2
          dropped := if w.mailbox.takeRescanRequest.1 then [] else w.dropped
          scanned := if w.mailbox.takeRescanRequest.1 then w.scanned ++ w.dropped else w.scanned }
  | closeMailboxes (discarded : ℕ) :
      Serve w .closeMailboxes discarded { w with mailbox := w.mailbox.close }
  | drainWakeSignal : Serve w (.drainWakeSignal .timeout) true w
  | other {op : LoopOp} (hop : EventLoop.Timerless op) (hwake : op ≠ .drainWakeSignal .timeout)
      (r : op.Reply) : Serve w op r w

/-- What the clock, the timer thread and other clients do.  The timer runs: nobody stops it.  Other
clients post elsewhere and cancel only timers of their own. -/
inductive Env (w : DeadlineWorld) : DeadlineEvent → DeadlineWorld → Prop
  | tick {now : ℕ} (hnow : w.clock ≤ now) : Env w (.tick now) { w with clock := now }
  | schedule (deadline name : ℕ) (expired : Bool) (event : TimerEvent) (outOfMemory : Bool) :
      Env w (.timer (.schedule deadline (.other name) expired event outOfMemory))
        { w with timer := w.timer.scheduled deadline (.other name) expired event outOfMemory }
  | cancel {id : TimerId} (hid : ∀ node ∈ w.timer.issued, node.sink = .mailbox → node.id ≠ id) :
      Env w (.timer (.cancel id)) { w with timer := w.timer.cancelledBy id }
  | processCommands (hidle : w.timer.phase = .idle) (memory : ℕ) :
      Env w (.timer (.processCommands memory))
        { w with timer := { w.timer with core := (w.timer.core.processCommands memory).2 } }
  | runReady (hidle : w.timer.phase = .idle) (memory : ℕ) :
      Env w (.timer (.runReady memory)) { w with timer := w.timer.started memory }
  | sampleNow (hphase : w.timer.phase = .sampling) :
      Env w (.timer (.sampleNow w.clock))
        { w with timer := { w.timer with phase := .dispatching w.clock } }
  | takeDue {now : ℕ} (hphase : w.timer.phase = .dispatching now) :
      Env w (.timer .takeDue) { w with timer := w.timer.taken now }
  | post {now : ℕ} {node : HeapNode DeadlineSink} (hphase : w.timer.phase = .posting now node)
      (hsink : node.sink = .mailbox) :
      Env w (.timer (.post false)) (w.post (w.timer.delivered now node false) node.event)
  | postElsewhere {now : ℕ} {node : HeapNode DeadlineSink}
      (hphase : w.timer.phase = .posting now node) (hsink : node.sink ≠ .mailbox)
      (expired : Bool) :
      Env w (.timer (.post expired)) { w with timer := w.timer.delivered now node expired }
  | finish (hphase : w.timer.phase = .finishing) :
      Env w (.timer .finish) { w with
        timer := { w.timer with core := w.timer.core.cleanupStaleLocked, phase := .idle } }

end DeadlineWorld

/-! ### Where timers are -/

/-- The node in the timer core is the timer the loop knows of. -/
structure Names (node : HeapNode DeadlineSink) (t : ArmedTimer) : Prop where
  id : node.id = t.id
  deadline : node.deadline = t.deadline
  event : node.event = t.event
  sink : node.sink = .mailbox

/-- The timer is reserved, held by the timer thread, posted, or dropped with a scan asked for. -/
def Located (w : DeadlineWorld) (t : ArmedTimer) : Prop :=
  (∃ node, w.timer.core.Waiting node ∧ w.timer.core.active node.id = true ∧ Names node t) ∨
  (∃ node, w.timer.held = some node ∧ Names node t) ∨
  t.event ∈ w.mailbox.queue ∨
  (w.mailbox.rescanRequired = true ∧ t.event ∈ w.dropped)

/-- The event was posted into the mailbox of the loop. -/
def PostedHere (w : DeadlineWorld) (event : TimerEvent) : Prop :=
  ∃ p ∈ w.timer.posted, p.node.sink = .mailbox ∧ p.node.event = event

/-- How the view of the loop relates to the world while the mailbox is open. -/
structure Linked (v : DeadlineView) (w : DeadlineWorld) : Prop where
  honest : v.honest
  accepting : w.mailbox.accepting = true
  issued : ∀ t, t ∈ v.armed ∨ t ∈ v.due ∨ t ∈ v.doubt → ∃ node ∈ w.timer.issued, Names node t
  used : ∀ id ∈ v.used, ∃ node ∈ w.timer.issued, node.id = id
  events : ∀ node ∈ w.timer.issued, node.sink = .mailbox →
    node.event ∈ v.events ∧ connectionTimeoutEvent node.event = true
  /-- There is one timer for an event. -/
  single : ∀ a ∈ w.timer.issued, ∀ b ∈ w.timer.issued, a.sink = .mailbox → b.sink = .mailbox →
    a.event = b.event → a = b
  posted : ∀ event, event ∈ w.mailbox.queue ∨ event ∈ w.dropped ∨ event ∈ w.popped ∨
    event ∈ w.scanned → PostedHere w event
  asked : w.dropped ≠ [] → w.mailbox.rescanRequired = true
  armed : ∀ t ∈ v.armed, Located w t ∧ t.event ∉ w.popped ∧ t.event ∉ w.scanned
  due : ∀ t ∈ v.due, t.deadline ≤ w.clock
  doubt : ∀ t ∈ v.doubt, t.event ∉ w.popped ∧
    (t.deadline ≤ w.clock ∨ Located w t ∧ t.event ∉ w.scanned)

/-- Facts about the timer that hold throughout. -/
structure TimerRuns (w : DeadlineWorld) : Prop where
  reachable : (timerSystem DeadlineSink).Reachable w.timer
  running : .stop ∉ w.timer.core.commands
  /-- The timer thread does not read a time that is still to come. -/
  sampled : ∀ now, w.timer.reading = some now → now ≤ w.clock
  past : ∀ p ∈ w.timer.posted, p.now ≤ w.clock

variable {w' : DeadlineWorld} {l : TimerLabel DeadlineSink} {t : ArmedTimer} {now : ℕ}
  {node : HeapNode DeadlineSink}

theorem TimerRuns.step {w : DeadlineWorld} (h : TimerRuns w)
    (hst : TimerState.Step w.timer l w'.timer) (hclock : w'.clock = w.clock)
    (hstop : ∀ outOfMemory, l ≠ .requestStop outOfMemory)
    (hsample : ∀ now, l = .sampleNow now → now = w.clock) : TimerRuns w' where
  reachable := h.reachable.step hst
  running hmem := by
    rcases TimerState.stop_of_step hst hmem with hmem | ⟨outOfMemory, hl⟩
    · exact h.running hmem
    · exact hstop outOfMemory hl
  sampled now hnow := by
    rw [hclock]
    rcases TimerState.reading_of_step hst hnow with hnow | hl
    · exact h.sampled now hnow
    · exact (hsample now hl).le
  past p hp := by
    rw [hclock]
    exact (TimerState.posted_of_step hst hp).elim (h.past p) (h.sampled p.now)

theorem TimerRuns.env {w : DeadlineWorld} {l : DeadlineEvent} (h : TimerRuns w)
    (henv : w.Env l w') : TimerRuns w' := by
  cases henv with
  | tick hnow =>
    exact ⟨h.reachable, h.running, fun now hr => (h.sampled now hr).trans hnow,
      fun p hp => (h.past p hp).trans hnow⟩
  | schedule deadline name expired event outOfMemory =>
    exact h.step (.schedule _ _ _ _ _ _) rfl (by simp) (by simp)
  | cancel hid => exact h.step (.cancel _ _) rfl (by simp) (by simp)
  | processCommands hidle memory =>
    exact h.step (.processCommands hidle memory) rfl (by simp) (by simp)
  | runReady hidle memory => exact h.step (.runReady hidle memory) rfl (by simp) (by simp)
  | sampleNow hphase => exact h.step (.sampleNow hphase _) rfl (by simp) (by simp)
  | takeDue hphase => exact h.step (.takeDue hphase) rfl (by simp) (by simp)
  | post hphase hsink => exact h.step (.post hphase false) rfl (by simp) (by simp)
  | postElsewhere hphase hsink expired =>
    exact h.step (.post hphase expired) rfl (by simp) (by simp)
  | finish hphase => exact h.step (.finish hphase) rfl (by simp) (by simp)

theorem TimerRuns.serve {w : DeadlineWorld} {op : LoopOp} {r : op.Reply} (h : TimerRuns w)
    (hserve : w.Serve op r w') : TimerRuns w' := by
  cases hserve with
  | scheduleAt deadline event outOfMemory =>
    exact h.step (.schedule _ _ _ _ _ _) rfl (by simp) (by simp)
  | cancelTimer id => exact h.step (.cancel _ _) rfl (by simp) (by simp)
  | _ => exact ⟨h.reachable, h.running, h.sampled, h.past⟩

/-- A step of the timer that neither posts nor cancels a timer leaves it in its place, or with the
timer thread. -/
theorem Located.step {w : DeadlineWorld} (h : Located w t) (hr : TimerRuns w)
    (hst : TimerState.Step w.timer l w'.timer) (hpost : ∀ expired, l ≠ .post expired)
    (hcancel : l ≠ .cancel t.id) (hmailbox : w'.mailbox = w.mailbox)
    (hdropped : w'.dropped = w.dropped) : Located w' t := by
  rcases h with ⟨node, hwaiting, hactive, hnames⟩ | ⟨node, hheld, hnames⟩ | hqueue | hdrop
  · cases hstill : w'.timer.core.active node.id with
    | true => exact .inl ⟨node, TimerState.waiting_of_step hst hwaiting hstill, hstill, hnames⟩
    | false =>
      have hsound := TimerState.sound hr.reachable
      rcases TimerState.ends_of_inactive hsound hst hactive hstill with
        rfl | ⟨taken, hheld, hid, -⟩ | hstop
      · rw [hnames.id] at hcancel
        exact absurd rfl hcancel
      · -- the timer thread took the timer: there is only one with this name
        have hr' := hr.reachable.step hst
        have hsame : taken = node := (TimerState.counted hr').eq_of_id
          ((TimerState.sound hr').known taken (.inr hheld))
          (TimerState.issued_of_step hst (hsound.known node (.inl hwaiting))) hid
        exact .inr (.inl ⟨taken, hheld, hsame ▸ hnames⟩)
      · exact absurd hstop hr.running
  · exact .inr (.inl ⟨node, TimerState.held_of_step hst hheld hpost, hnames⟩)
  · exact .inr (.inr (.inl (hmailbox ▸ hqueue)))
  · exact .inr (.inr (.inr (by rwa [hmailbox, hdropped])))

/-- What other clients and the timer thread do, short of posting. -/
theorem Linked.step {v : DeadlineView} {w : DeadlineWorld} (h : Linked v w) (hr : TimerRuns w)
    (hst : TimerState.Step w.timer l w'.timer) (hpost : ∀ expired, l ≠ .post expired)
    (hcancel : ∀ t, t ∈ v.armed ∨ t ∈ v.doubt → l ≠ .cancel t.id)
    (hissued : ∀ node ∈ w'.timer.issued, node ∈ w.timer.issued ∨ node.sink ≠ .mailbox)
    (hposted : w'.timer.posted = w.timer.posted) (hmailbox : w'.mailbox = w.mailbox)
    (hpopped : w'.popped = w.popped) (hdropped : w'.dropped = w.dropped)
    (hscanned : w'.scanned = w.scanned) (hclock : w'.clock = w.clock) : Linked v w' := by
  have hold {node : HeapNode DeadlineSink} (hn : node ∈ w'.timer.issued)
      (hsink : node.sink = .mailbox) : node ∈ w.timer.issued :=
    (hissued node hn).resolve_right (not_not.mpr hsink)
  have hlocated {t : ArmedTimer} (ht : t ∈ v.armed ∨ t ∈ v.doubt) (hloc : Located w t) :
      Located w' t := hloc.step hr hst hpost (hcancel t ht) hmailbox hdropped
  refine ⟨h.honest, by rw [hmailbox, h.accepting], fun t ht => ?_, fun id hid => ?_,
    fun node hn hsink => h.events node (hold hn hsink) hsink,
    fun a ha b hb hsa hsb => h.single a (hold ha hsa) b (hold hb hsb) hsa hsb, fun event hev => ?_,
    by rw [hdropped, hmailbox]; exact h.asked, fun t ht => ?_,
    fun t ht => by rw [hclock]; exact h.due t ht, fun t ht => ?_⟩
  · obtain ⟨node, hn, hnames⟩ := h.issued t ht
    exact ⟨node, TimerState.issued_of_step hst hn, hnames⟩
  · obtain ⟨node, hn, heq⟩ := h.used id hid
    exact ⟨node, TimerState.issued_of_step hst hn, heq⟩
  · rw [hmailbox, hdropped, hpopped, hscanned] at hev
    obtain ⟨p, hp, hevent⟩ := h.posted event hev
    exact ⟨p, hposted ▸ hp, hevent⟩
  · obtain ⟨hloc, hserved⟩ := h.armed t ht
    rw [hpopped, hscanned]
    exact ⟨hlocated (.inl ht) hloc, hserved⟩
  · obtain ⟨hpop, hloc⟩ := h.doubt t ht
    rw [hpopped, hscanned, hclock]
    exact ⟨hpop, hloc.imp_right fun hloc => ⟨hlocated (.inr ht) hloc.1, hloc.2⟩⟩

theorem Linked.tick {v : DeadlineView} {w : DeadlineWorld} (h : Linked v w) (hnow : w.clock ≤ now) :
    Linked v { w with clock := now } :=
  { h with
    due := fun t ht => (h.due t ht).trans hnow
    doubt := fun t ht => ⟨(h.doubt t ht).1, (h.doubt t ht).2.imp_left fun hle => hle.trans hnow⟩ }

/-- A timer that is posted into the mailbox is in the queue, or was dropped with a scan asked for;
the others stay where they are. -/
theorem Located.post {w : DeadlineWorld} (h : Located w t)
    (hphase : w.timer.phase = .posting now node) (hevent : connectionTimeoutEvent node.event = true)
    (haccepting : w.mailbox.accepting = true) :
    Located (w.post (w.timer.delivered now node false) node.event) t := by
  unfold Located DeadlineWorld.post
  rw [TimeoutMailbox.tryPost_accepted hevent haccepting]
  rcases h with ⟨n, hwaiting, hactive, hnames⟩ | ⟨n, hheld, hnames⟩ | hqueue | ⟨hrescan, hdrop⟩
  · exact .inl ⟨n, hwaiting, hactive, hnames⟩
  · obtain rfl : node = n := by simpa [TimerState.held, hphase] using hheld
    rw [← hnames.event]
    split
    · exact .inr (.inr (.inr ⟨rfl, List.mem_append_right _ List.mem_cons_self⟩))
    · exact .inr (.inr (.inl (List.mem_append_right _ List.mem_cons_self)))
  · split
    · exact .inr (.inr (.inl hqueue))
    · exact .inr (.inr (.inl (List.mem_append_left _ hqueue)))
  · split
    · exact .inr (.inr (.inr ⟨rfl, List.mem_append_left _ hdrop⟩))
    · exact .inr (.inr (.inr ⟨hrescan, hdrop⟩))

/-- The timer thread posts a timer of the loop. -/
theorem Linked.post {v : DeadlineView} {w : DeadlineWorld} (h : Linked v w) (hr : TimerRuns w)
    (hphase : w.timer.phase = .posting now node) (hsink : node.sink = .mailbox) :
    Linked v (w.post (w.timer.delivered now node false) node.event) := by
  have hissued : node ∈ w.timer.issued :=
    (TimerState.sound hr.reachable).known node (.inr (by simp [TimerState.held, hphase]))
  obtain ⟨-, hevent⟩ := h.events node hissued hsink
  have hlocated {t : ArmedTimer} (ht : Located w t) := ht.post hphase hevent h.accepting
  have hposted {event : TimerEvent} (hp : PostedHere w event) :
      PostedHere (w.post (w.timer.delivered now node false) node.event) event := by
    obtain ⟨p, hp, hpe⟩ := hp
    exact ⟨p, List.mem_append_left _ hp, hpe⟩
  have hself : PostedHere (w.post (w.timer.delivered now node false) node.event) node.event :=
    ⟨⟨w.timer.cycle, now, node⟩, List.mem_append_right _ List.mem_cons_self, hsink, rfl⟩
  have hmailbox := TimeoutMailbox.tryPost_accepted hevent h.accepting
  refine ⟨h.honest, ?_, h.issued, h.used, h.events, h.single, fun event hev => ?_, ?_,
    fun t ht => ⟨hlocated (h.armed t ht).1, (h.armed t ht).2⟩, h.due, fun t ht => ⟨(h.doubt t ht).1,
      (h.doubt t ht).2.imp_right fun hloc => ⟨hlocated hloc.1, hloc.2⟩⟩⟩
  · unfold DeadlineWorld.post
    rw [hmailbox]
    split <;> exact h.accepting
  · unfold DeadlineWorld.post at hev
    rw [hmailbox] at hev
    dsimp only at hev
    rcases hev with hev | hev | hev
    · split at hev
      · exact hposted (h.posted event (.inl hev))
      · rcases List.mem_append.mp hev with hev | hev
        · exact hposted (h.posted event (.inl hev))
        · rw [List.mem_singleton.mp hev]
          exact hself
    · split at hev
      · rcases List.mem_append.mp hev with hev | hev
        · exact hposted (h.posted event (.inr (.inl hev)))
        · rw [List.mem_singleton.mp hev]
          exact hself
      · exact hposted (h.posted event (.inr (.inl hev)))
    · exact hposted (h.posted event (.inr (.inr hev)))
  · -- an event that is dropped now has a scan asked for
    unfold DeadlineWorld.post
    rw [hmailbox]
    dsimp only
    split
    · exact fun _ => rfl
    · exact h.asked

/-- The timer thread posts a timer of another client. -/
theorem Linked.postElsewhere {v : DeadlineView} {w : DeadlineWorld} (h : Linked v w)
    (hphase : w.timer.phase = .posting now node) (hsink : node.sink ≠ .mailbox) (expired : Bool) :
    Linked v { w with timer := w.timer.delivered now node expired } := by
  have hlocated {t : ArmedTimer} (ht : Located w t) :
      Located { w with timer := w.timer.delivered now node expired } t := by
    rcases ht with hwaiting | ⟨n, hheld, hnames⟩ | hrest
    · exact .inl hwaiting
    · obtain rfl : node = n := by simpa [TimerState.held, hphase] using hheld
      exact absurd hnames.sink hsink
    · exact .inr (.inr hrest)
  refine { h with
    posted := fun event hev => ?_, armed := fun t ht => ?_, doubt := fun t ht => ?_ }
  · obtain ⟨p, hp, hpe⟩ := h.posted event hev
    refine ⟨p, ?_, hpe⟩
    unfold TimerState.delivered
    dsimp only
    split
    · exact hp
    · exact List.mem_append_left _ hp
  · exact ⟨hlocated (h.armed t ht).1, (h.armed t ht).2⟩
  · exact ⟨(h.doubt t ht).1, (h.doubt t ht).2.imp_right fun hloc => ⟨hlocated hloc.1, hloc.2⟩⟩

/-- **The timer thread and the other clients lose no timer of the loop.** -/
theorem Linked.env {v : DeadlineView} {w : DeadlineWorld} {l : DeadlineEvent} (h : Linked v w)
    (hr : TimerRuns w) (henv : w.Env l w') : Linked v w' := by
  cases henv with
  | tick hnow => exact h.tick hnow
  | schedule deadline name expired event outOfMemory =>
    refine h.step hr (.schedule _ deadline (DeadlineSink.other name) expired event outOfMemory)
      (by simp) (by simp) (fun node hn => ?_) rfl rfl rfl rfl rfl rfl
    unfold TimerState.scheduled at hn
    dsimp only at hn
    split at hn
    · rcases List.mem_append.mp hn with hn | hn
      · exact .inl hn
      · rw [List.mem_singleton.mp hn]
        exact .inr (by simp [TimerCore.nextNode])
    · exact .inl hn
  | @cancel id hid =>
    refine h.step hr (.cancel _ id) (by simp) (fun t ht heq => ?_) (fun node hn => .inl hn) rfl rfl
      rfl rfl rfl rfl
    obtain ⟨node, hn, hnames⟩ := h.issued t (ht.imp_right .inr)
    rw [TimerLabel.cancel.injEq] at heq
    exact hid node hn hnames.sink (hnames.id.trans heq.symm)
  | processCommands hidle memory =>
    exact h.step hr (.processCommands hidle memory) (by simp) (by simp) (fun node hn => .inl hn) rfl
      rfl rfl rfl rfl rfl
  | runReady hidle memory =>
    exact h.step hr (.runReady hidle memory) (by simp) (by simp) (fun node hn => .inl hn) rfl rfl
      rfl rfl rfl rfl
  | sampleNow hphase =>
    exact h.step hr (.sampleNow hphase _) (by simp) (by simp) (fun node hn => .inl hn) rfl rfl rfl
      rfl rfl rfl
  | takeDue hphase =>
    refine h.step hr (.takeDue hphase) (by simp) (by simp) (fun node hn => .inl ?_) ?_ rfl rfl rfl
      rfl rfl
    · exact w.timer.taken_issued _ ▸ hn
    · unfold TimerState.taken
      dsimp only
      split <;> rfl
  | post hphase hsink => exact h.post hr hphase hsink
  | postElsewhere hphase hsink expired => exact h.postElsewhere hphase hsink expired
  | finish hphase =>
    exact h.step hr (.finish hphase) (by simp) (by simp) (fun node hn => .inl hn)
      rfl rfl rfl rfl rfl rfl

/-! ### The operations of the loop -/

section Serve

variable {v : DeadlineView} {w : DeadlineWorld} {event : TimerEvent}

section

variable (h : Linked v w)
include h

/-- An event that was posted is one a timer was scheduled for. -/
theorem Linked.event_of_posted (hr : TimerRuns w) (hp : PostedHere w event) : event ∈ v.events := by
  obtain ⟨p, hp, hsink, rfl⟩ := hp
  exact (h.events p.node ((TimerState.sound hr.reachable).origin p hp) hsink).1

/-- A timer was scheduled: it is on its way and has a new name. -/
theorem Linked.scheduled (hr : TimerRuns w) {deadline : ℕ}
    (hallow : v.allow (.scheduleAt deadline event)) {outOfMemory : Bool}
    (hok : (w.timer.core.scheduleAt deadline .mailbox false event outOfMemory).1 = .ok) :
    Linked (v.schedule deadline event
        (some (w.timer.core.scheduleAt deadline .mailbox false event outOfMemory).2.1))
      { w with timer := w.timer.scheduled deadline .mailbox false event outOfMemory } := by
  obtain ⟨hconnection, hnew⟩ := hallow
  have hst : TimerState.Step w.timer
      (.schedule deadline DeadlineSink.mailbox false event outOfMemory)
      (w.timer.scheduled deadline .mailbox false event outOfMemory) := .schedule _ _ _ _ _ _
  obtain ⟨-, hresult, -⟩ := (w.timer.core.scheduleAt_cases deadline .mailbox false event
    outOfMemory).resolve_left fun hfail => hfail.1 hok
  have hcounted := TimerState.counted hr.reachable
  rw [hresult]
  generalize hnode : w.timer.core.nextNode deadline DeadlineSink.mailbox event = node at hresult
  have hid : node.id = ⟨w.timer.core.nextIdValue, w.timer.core.nextGeneration⟩ := by
    rw [← hnode]
    rfl
  have hnames : Names node ⟨node.id, deadline, event⟩ := by
    rw [← hnode]
    exact ⟨rfl, rfl, rfl, rfl⟩
  have hevent : node.event = event := hnames.event
  have hcore : (w.timer.scheduled deadline .mailbox false event outOfMemory).core =
      w.timer.core.reserve node := by
    unfold TimerState.scheduled
    rw [hresult]
  have hissued : (w.timer.scheduled deadline .mailbox false event outOfMemory).issued =
      w.timer.issued ++ [node] := by
    unfold TimerState.scheduled
    rw [if_pos hok, hnode]
  have hcases {n : HeapNode DeadlineSink}
      (hn : n ∈ (w.timer.scheduled deadline .mailbox false event outOfMemory).issued) :
      n ∈ w.timer.issued ∨ n = node := by
    rw [hissued] at hn
    exact (List.mem_append.mp hn).imp_right List.mem_singleton.mp
  have hlocated {t : ArmedTimer} (ht : Located w t) :
      Located { w with timer := w.timer.scheduled deadline .mailbox false event outOfMemory } t :=
    ht.step hr hst (by simp) (by simp) rfl rfl
  -- nothing was posted for the new event
  have hunposted : ¬ PostedHere w event := fun hp => hnew (h.event_of_posted hr hp)
  have hfresh : node.id ∉ v.used := fun hused => by
    obtain ⟨n, hn, heq⟩ := h.used _ hused
    have hlt := hcounted.below n hn
    rw [heq, hid] at hlt
    exact lt_irrefl _ hlt
  have hvalid : node.id.valid = true := by
    have := hcounted.idValue
    have := hcounted.generation
    rw [hid]
    simp only [TimerId.valid, Bool.and_eq_true, bne_iff_ne, ne_eq]
    omega
  refine ⟨⟨h.honest, hvalid, hfresh⟩, h.accepting, fun t ht => ?_, fun id hused => ?_,
    fun n hn hsink => ?_, fun a ha b hb hsa hsb heq => ?_, h.posted, h.asked, fun t ht => ?_, h.due,
    fun t ht => ?_⟩
  · have hold {t : ArmedTimer} (ht : t ∈ v.armed ∨ t ∈ v.due ∨ t ∈ v.doubt) :
        ∃ n ∈ (w.timer.scheduled deadline .mailbox false event outOfMemory).issued, Names n t := by
      obtain ⟨n, hn, hnt⟩ := h.issued t ht
      exact ⟨n, TimerState.issued_of_step hst hn, hnt⟩
    rcases ht with ht | ht
    · rcases Set.mem_insert_iff.mp ht with rfl | ht
      · exact ⟨node, by rw [hissued]; exact List.mem_append_right _ List.mem_cons_self, hnames⟩
      · exact hold (.inl ht)
    · exact hold (.inr ht)
  · rcases Set.mem_insert_iff.mp hused with rfl | hused
    · exact ⟨node, by rw [hissued]; exact List.mem_append_right _ List.mem_cons_self, rfl⟩
    · obtain ⟨n, hn, heq⟩ := h.used id hused
      exact ⟨n, TimerState.issued_of_step hst hn, heq⟩
  · rcases hcases hn with hn | rfl
    · exact ⟨Set.mem_insert_of_mem _ (h.events n hn hsink).1, (h.events n hn hsink).2⟩
    · rw [hevent]
      exact ⟨Set.mem_insert _ _, hconnection⟩
  · rcases hcases ha with ha | rfl
    · rcases hcases hb with hb | rfl
      · exact h.single a ha b hb hsa hsb heq
      · exact absurd ((heq.trans hevent) ▸ (h.events a ha hsa).1) hnew
    · rcases hcases hb with hb | rfl
      · exact absurd ((heq.symm.trans hevent) ▸ (h.events b hb hsb).1) hnew
      · rfl
  · rcases Set.mem_insert_iff.mp ht with rfl | ht
    · refine ⟨.inl ⟨node, ?_, ?_, hnames⟩,
        fun hpop => hunposted (h.posted _ (.inr (.inr (.inl hpop)))),
        fun hscan => hunposted (h.posted _ (.inr (.inr (.inr hscan))))⟩
      · rw [hcore]
        exact .inl (List.mem_append_right _ List.mem_cons_self)
      · rw [hcore, TimerCore.active_iff]
        exact (TreeMap.lookup_insert _ _ _ _).trans (if_pos rfl)
    · exact ⟨hlocated (h.armed t ht).1, (h.armed t ht).2⟩
  · exact ⟨(h.doubt t ht).1, (h.doubt t ht).2.imp_right fun hloc => ⟨hlocated hloc.1, hloc.2⟩⟩

/-- Scheduling failed: nothing changed. -/
theorem Linked.scheduleFailed {deadline : ℕ} {outOfMemory : Bool}
    (hfail : (w.timer.core.scheduleAt deadline .mailbox false event outOfMemory).1 ≠ .ok) :
    Linked (v.schedule deadline event none)
      { w with timer := w.timer.scheduled deadline .mailbox false event outOfMemory } := by
  have hsame : w.timer.scheduled deadline .mailbox false event outOfMemory = w.timer := by
    obtain ⟨-, hcore⟩ := (w.timer.core.scheduleAt_cases deadline .mailbox false event
      outOfMemory).resolve_right fun hok => hfail hok.1
    unfold TimerState.scheduled
    rw [hcore, if_neg hfail]
  rw [hsame]
  exact { h with events := fun n hn hsink =>
    ⟨Set.mem_insert_of_mem _ (h.events n hn hsink).1, (h.events n hn hsink).2⟩ }

theorem Linked.cancelled (hr : TimerRuns w) (id : TimerId) :
    Linked (v.cancel id) { w with timer := w.timer.cancelledBy id } := by
  have hsub : Linked (v.cancel id) w :=
    { h with
      issued := fun t ht => h.issued t (ht.imp (fun ht => ht.1) (.imp_right fun ht => ht.1))
      armed := fun t ht => h.armed t ht.1
      doubt := fun t ht => h.doubt t ht.1 }
  refine hsub.step hr (.cancel _ id) (by simp) (fun t ht heq => ?_) (fun node hn => .inl hn) rfl rfl
    rfl rfl rfl rfl
  rw [TimerLabel.cancel.injEq] at heq
  rcases ht with ht | ht
  · exact ht.2 heq.symm
  · exact ht.2 heq.symm

/-- The deadline of a timer that was posted has passed. -/
theorem Linked.deadline_le (hr : TimerRuns w) (ht : t ∈ v.armed ∨ t ∈ v.due ∨ t ∈ v.doubt)
    (hp : PostedHere w t.event) : t.deadline ≤ w.clock := by
  obtain ⟨p, hp, hsink, hevent⟩ := hp
  obtain ⟨node, hn, hnames⟩ := h.issued t ht
  have hsame := h.single p.node ((TimerState.sound hr.reachable).origin p hp) node hn hsink
    hnames.sink (hevent.trans hnames.event.symm)
  rw [← hnames.deadline, ← hsame]
  exact ((TimerState.inOrder hr.reachable).due p hp).trans (hr.past p hp)

theorem Linked.readClock : Linked (v.readClock w.clock) w := by
  refine ⟨⟨h.honest, h.due⟩, h.accepting, fun t ht => ?_, h.used, h.events, h.single, h.posted,
    h.asked, fun t ht => ?_, fun t ht => ?_, fun t ht => ht.elim⟩
  · refine h.issued t ?_
    rcases ht with (ht | ht) | (ht | ht) | ht
    · exact .inl ht
    · exact .inr (.inr ht.1)
    · exact .inr (.inl ht)
    · exact .inr (.inr ht.1)
    · exact ht.elim
  · rcases ht with ht | ⟨ht, hlate⟩
    · exact h.armed t ht
    · obtain ⟨hpop, hloc⟩ := h.doubt t ht
      obtain ⟨hloc, hscan⟩ := hloc.resolve_left (Nat.not_le.mpr hlate)
      exact ⟨hloc, hpop, hscan⟩
  · rcases ht with ht | ⟨-, hle⟩
    · exact h.due t ht
    · exact hle

theorem Linked.rescanned (hr : TimerRuns w) :
    Linked v.rescan { w with
      mailbox := w.mailbox.takeRescanRequest.2, dropped := [],
      scanned := w.scanned ++ w.dropped } := by
  have hlocated {t : ArmedTimer} (ht : t ∈ v.armed ∨ t ∈ v.doubt) (hloc : Located w t)
      (hscan : t.event ∉ w.scanned) : t.deadline ≤ w.clock ∨ Located { w with
        mailbox := w.mailbox.takeRescanRequest.2, dropped := [],
        scanned := w.scanned ++ w.dropped } t ∧
      t.event ∉ w.scanned ++ w.dropped := by
    -- The mailbox dropped the event only after the timer thread posted it: the deadline is over.
    by_cases hmem : t.event ∈ w.dropped
    · exact .inl (h.deadline_le hr (ht.imp_right .inr) (h.posted _ (.inr (.inl hmem))))
    · refine .inr ⟨?_, by simp [hmem, hscan]⟩
      rcases hloc with hloc | hloc | hloc | hloc
      · exact .inl hloc
      · exact .inr (.inl hloc)
      · exact .inr (.inr (.inl hloc))
      · exact absurd hloc.2 hmem
  refine ⟨h.honest, h.accepting, fun t ht => h.issued t ?_, h.used, h.events, h.single,
    fun event hev => h.posted event ?_, fun hne => absurd rfl hne, fun t ht => ht.elim, h.due,
    fun t ht => ?_⟩
  · rcases ht with ht | ht | ht | ht
    · exact ht.elim
    · exact .inr (.inl ht)
    · exact .inl ht
    · exact .inr (.inr ht)
  · rcases hev with hev | hev | hev | hev
    · exact .inl hev
    · cases hev
    · exact .inr (.inr (.inl hev))
    · rcases List.mem_append.mp hev with hev | hev
      · exact .inr (.inr (.inr hev))
      · exact .inr (.inl hev)
  · rcases ht with ht | ht
    · obtain ⟨hloc, hpop, hscan⟩ := h.armed t ht
      exact ⟨hpop, hlocated (.inl ht) hloc hscan⟩
    · obtain ⟨hpop, hloc⟩ := h.doubt t ht
      exact ⟨hpop, hloc.elim .inl fun hloc => hlocated (.inr ht) hloc.1 hloc.2⟩

theorem Linked.popped (hr : TimerRuns w) {rest : List TimerEvent}
    (hqueue : w.mailbox.queue = event :: rest) :
    Linked (v.pop event) { w with
      mailbox := { w.mailbox with queue := rest }, popped := w.popped ++ [event] } := by
  have hmem {e : TimerEvent} : e ∈ w.mailbox.queue ↔ e = event ∨ e ∈ rest := by
    rw [hqueue, List.mem_cons]
  have hlocated {t : ArmedTimer} (hloc : Located w t) (hne : t.event ≠ event) :
      Located { w with
        mailbox := { w.mailbox with queue := rest }, popped := w.popped ++ [event] } t := by
    rcases hloc with hloc | hloc | hloc | hloc
    · exact .inl hloc
    · exact .inr (.inl hloc)
    · exact .inr (.inr (.inl ((hmem.mp hloc).resolve_left hne)))
    · exact .inr (.inr (.inr hloc))
  have hpopped {t : ArmedTimer} (hpop : t.event ∉ w.popped) (hne : t.event ≠ event) :
      t.event ∉ w.popped ++ [event] := by
    simp [hpop, hne]
  refine ⟨h.honest, h.accepting, fun t ht => h.issued t ?_, h.used, h.events, h.single,
    fun e he => h.posted e ?_, h.asked, fun t ⟨ht, hne⟩ => ?_, fun t ht => ?_,
    fun t ⟨ht, hne⟩ => ?_⟩
  · rcases ht with ht | (ht | ht) | ht
    · exact .inl ht.1
    · exact .inr (.inl ht)
    · exact ht.1.imp_right .inr
    · exact .inr (.inr ht.1)
  · rcases he with he | he | he | he
    · exact .inl (hmem.mpr (.inr he))
    · exact .inr (.inl he)
    · rcases List.mem_append.mp he with he | he
      · exact .inr (.inr (.inl he))
      · exact .inl (hmem.mpr (.inl (List.mem_singleton.mp he)))
    · exact .inr (.inr (.inr he))
  · obtain ⟨hloc, hpop, hscan⟩ := h.armed t ht
    exact ⟨hlocated hloc hne, hpopped hpop hne, hscan⟩
  · rcases ht with ht | ⟨ht, heq⟩
    · exact h.due t ht
    · exact h.deadline_le hr (ht.imp_right .inr) (h.posted _ (.inl (hmem.mpr (.inl heq))))
  · obtain ⟨hpop, hloc⟩ := h.doubt t ht
    exact ⟨hpopped hpop hne, hloc.imp_right fun hloc => ⟨hlocated hloc.1 hne, hloc.2⟩⟩

/-- **The operations of the loop lose none of its timers.** -/
theorem Linked.serve (hr : TimerRuns w) {op : LoopOp} {r : op.Reply} (hallow : v.allow op)
    (hserve : w.Serve op r w') : Linked (v.upd op r) w' := by
  cases hserve with
  | now => exact h.readClock
  | scheduleAt deadline event outOfMemory =>
    by_cases hok : (w.timer.core.scheduleAt deadline .mailbox false event outOfMemory).1 = .ok
    · rw [if_pos hok]
      exact h.scheduled hr hallow hok
    · rw [if_neg hok]
      exact h.scheduleFailed hok
  | cancelTimer id => exact h.cancelled hr id
  | popTimeout =>
    unfold TimeoutMailbox.tryPop
    cases hqueue : w.mailbox.queue with
    | nil => simpa [DeadlineView.upd] using h
    | cons event rest => exact h.popped hr hqueue
  | takeRescanRequest =>
    unfold TimeoutMailbox.takeRescanRequest
    cases hrescan : w.mailbox.rescanRequired with
    | true => exact h.rescanned hr
    | false =>
      have hsame : { w.mailbox with rescanRequired := false } = w.mailbox := by rw [← hrescan]
      rw [hsame]
      exact h
  | closeMailboxes discarded => exact hallow.elim
  | drainWakeSignal => exact h
  | other hop hwake r =>
    rw [EventLoop.upd_timerless hop]
    exact h

end

end Serve

end AegisFlow
