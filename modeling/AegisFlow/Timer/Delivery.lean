import AegisFlow.Timer.TimerCore

/-!
# What the timer core promises

Whatever clients and the timer thread do, a timer is posted at most once, never after a
successful `cancel`, never before its deadline, and in the order of deadlines.

* `TimerCore.Settles` : what every operation but `scheduleAt` may do to the core: reservations
  go, timers go or move from the commands to the heap;
* `TimerState.Sound` : the invariant.  A timer that was posted, is held by the timer thread or
  was cancelled has no reservation, and no later timer gets its number;
* `TimerState.delivery_safe` : **timers are delivered safely**.
-/

namespace AegisFlow

variable {Sink : Type} {node : HeapNode Sink} {now : ℕ} {id : TimerId}

namespace TimerCore

/-! ### Reservations -/

variable {core : TimerCore Sink}

theorem active_iff :
    core.active id = true ↔ core.reservations[id.value]? = some ⟨id.generation, false⟩ := by
  unfold active
  split
  · simp_all
  · rename_i r hr
    obtain ⟨generation, cancelled⟩ := r
    simp [hr]

/-- Timers with one number that are both active are the same. -/
theorem eq_of_active {id' : TimerId} (h : core.active id = true) (h' : core.active id' = true)
    (hvalue : id.value = id'.value) : id = id' := by
  rw [active_iff] at h h'
  rw [hvalue, h'] at h
  obtain ⟨value, generation⟩ := id
  obtain ⟨value', generation'⟩ := id'
  simp_all

/-- The timer is on its way: queued or in the heap. -/
def Waiting (core : TimerCore Sink) (node : HeapNode Sink) : Prop :=
  .schedule node ∈ core.commands ∨ node ∈ core.heap

/-- What the operations other than `scheduleAt` do. -/
structure Settles (core core' : TimerCore Sink) : Prop where
  nextIdValue : core'.nextIdValue = core.nextIdValue
  nextGeneration : core'.nextGeneration = core.nextGeneration
  nextSequence : core'.nextSequence = core.nextSequence
  reserved : ∀ (v : ℕ) r', core'.reservations[v]? = some r' →
    ∃ r, core.reservations[v]? = some r ∧ r'.generation = r.generation
  waiting : ∀ node, core'.Waiting node → core.Waiting node
  /-- Only timers that are not wanted are thrown away. -/
  kept : ∀ node, core.Waiting node → core'.active node.id = true → core'.Waiting node
  active : ∀ id, core'.active id = true → core.active id = true

theorem Settles.refl (core : TimerCore Sink) : Settles core core :=
  ⟨rfl, rfl, rfl, fun _ r h => ⟨r, h, rfl⟩, fun _ h => h, fun _ h _ => h, fun _ h => h⟩

theorem Settles.trans {c₁ c₂ c₃ : TimerCore Sink} (h : Settles c₁ c₂) (h' : Settles c₂ c₃) :
    Settles c₁ c₃ where
  nextIdValue := h'.nextIdValue.trans h.nextIdValue
  nextGeneration := h'.nextGeneration.trans h.nextGeneration
  nextSequence := h'.nextSequence.trans h.nextSequence
  reserved v r hr := by
    obtain ⟨r₂, hr₂, hg⟩ := h'.reserved v r hr
    obtain ⟨r₁, hr₁, hg'⟩ := h.reserved v r₂ hr₂
    exact ⟨r₁, hr₁, hg.trans hg'⟩
  waiting node hn := h.waiting node (h'.waiting node hn)
  kept node hn ha := h'.kept node (h.kept node hn (h'.active _ ha)) ha
  active id ha := h.active id (h'.active id ha)

/-- Removing a reservation. -/
theorem Settles.erase (core : TimerCore Sink) (v : ℕ) :
    Settles core { core with reservations := core.reservations.erase v } where
  nextIdValue := rfl
  nextGeneration := rfl
  nextSequence := rfl
  reserved v' r hr := by
    rw [TreeMap.lookup_erase] at hr
    split at hr
    · cases hr
    · exact ⟨r, hr, rfl⟩
  waiting _ h := h
  kept _ h _ := h
  active id ha := by
    rw [active_iff] at ha ⊢
    rw [TreeMap.lookup_erase] at ha
    split at ha
    · cases ha
    · exact ha

theorem active_erase {v : ℕ} (hne : v ≠ id.value) :
    ({ core with reservations := core.reservations.erase v } : TimerCore Sink).active id =
      core.active id := by
  unfold active
  rw [TreeMap.lookup_erase, if_neg hne]

/-! ### Cleaning up -/

section

variable (core : TimerCore Sink)

theorem dropCancelled_active (id id' : TimerId) :
    (core.dropCancelled id).active id' = core.active id' := by
  unfold dropCancelled
  split
  · rfl
  · rename_i r hr
    split
    · rename_i hcancelled
      by_cases hv : id.value = id'.value
      · -- what is dropped was cancelled, so nothing with its number was active
        have hold : core.active id' = false := by
          unfold active
          rw [← hv, hr]
          simp [hcancelled.2]
        rw [hold]
        unfold active
        rw [TreeMap.lookup_erase, if_pos hv]
      · exact active_erase hv
    · rfl

theorem dropCancelled_settles (id : TimerId) : Settles core (core.dropCancelled id) := by
  unfold dropCancelled
  split
  · exact .refl core
  · split
    · exact .erase core _
    · exact .refl core

theorem dropCancelled_commands (id : TimerId) :
    (core.dropCancelled id).commands = core.commands := by
  unfold dropCancelled
  split
  · rfl
  · split <;> rfl

/-- The operation cleaned the heap: it went on with a part of it. -/
structure Cleans (core core' : TimerCore Sink) : Prop extends Settles core core' where
  heap : ∀ node, node ∈ core'.heap → node ∈ core.heap
  commands : core'.commands = core.commands
  same : ∀ id, core'.active id = core.active id

theorem cleanup_cleans (entries : List (HeapNode Sink))
    (h : entries.Pairwise fun a b => a.key ≤ b.key) :
    Cleans { core with heap := ⟨entries, h⟩ } (core.cleanup entries h) := by
  induction entries generalizing core with
  | nil => exact ⟨.refl _, fun _ h => h, rfl, fun _ => rfl⟩
  | cons node rest ih =>
    unfold cleanup
    split
    · exact ⟨.refl _, fun _ h => h, rfl, fun _ => rfl⟩
    · rename_i hstale
      have hdrop := dropCancelled_settles core node.id
      have hrest := ih (core.dropCancelled node.id) h.of_cons
      have hactive (id : TimerId) :
          ((core.dropCancelled node.id).cleanup rest h.of_cons).active id = core.active id :=
        (hrest.same id).trans (dropCancelled_active core node.id id)
      have hcommands : ((core.dropCancelled node.id).cleanup rest h.of_cons).commands =
          core.commands := hrest.commands.trans (dropCancelled_commands core node.id)
      refine ⟨⟨hrest.nextIdValue.trans hdrop.nextIdValue,
        hrest.nextGeneration.trans hdrop.nextGeneration,
        hrest.nextSequence.trans hdrop.nextSequence, fun v r hr => ?_, fun n hn => ?_,
        fun n hn ha => ?_, fun id ha => ?_⟩, fun n hn => ?_, hcommands, hactive⟩
      · obtain ⟨r₂, hr₂, hg⟩ := hrest.reserved v r hr
        obtain ⟨r₁, hr₁, hg'⟩ := hdrop.reserved v r₂ hr₂
        exact ⟨r₁, hr₁, hg.trans hg'⟩
      · rcases hn with hn | hn
        · exact .inl (hcommands ▸ hn)
        · exact .inr (List.mem_cons_of_mem _ (hrest.heap n hn))
      · -- the removed timer is not active, so it is not the one that is kept
        have hne : n ≠ node := by
          rintro rfl
          rw [hactive] at ha
          exact hstale ha
        refine hrest.kept n ?_ ha
        rcases hn with hn | hn
        · refine .inl ?_
          rw [dropCancelled_commands]
          exact hn
        · exact .inr ((List.mem_cons.mp hn).resolve_left hne)
      · rw [hactive] at ha
        exact ha
      · exact List.mem_cons_of_mem _ (hrest.heap n hn)

theorem cleanupStaleLocked_cleans :
    Cleans core core.cleanupStaleLocked := cleanup_cleans core _ core.heap.sorted

/-! ### Commands -/

theorem cancelAll_active (id : TimerId) : core.cancelAll.active id = false := by
  unfold active cancelAll
  rw [Std.TreeMap.getElem?_map]
  cases core.reservations[id.value]? <;> simp

theorem cancelAll_settles : Settles core core.cancelAll where
  nextIdValue := rfl
  nextGeneration := rfl
  nextSequence := rfl
  reserved v r hr := by
    unfold cancelAll at hr
    rw [Std.TreeMap.getElem?_map] at hr
    obtain ⟨r', hr', rfl⟩ := Option.map_eq_some_iff.mp hr
    exact ⟨r', hr', rfl⟩
  waiting _ h := h
  kept _ h _ := h
  active id ha := by simp [cancelAll_active] at ha

theorem settles_push (node : HeapNode Sink) (rest : List (TimerCommand Sink)) :
    Settles { core with commands := .schedule node :: rest }
      { core with heap := core.heap.push node, commands := rest } where
  nextIdValue := rfl
  nextGeneration := rfl
  nextSequence := rfl
  reserved _ r h := ⟨r, h, rfl⟩
  waiting n hn := by
    rcases hn with hn | hn
    · exact .inl (List.mem_cons_of_mem _ hn)
    · rcases MinQueue.mem_push.mp hn with rfl | hn
      · exact .inl List.mem_cons_self
      · exact .inr hn
  kept n hn _ := by
    rcases hn with hn | hn
    · rcases List.mem_cons.mp hn with heq | hn
      · obtain rfl : n = node := by injection heq
        exact .inr (MinQueue.mem_push.mpr (.inl rfl))
      · exact .inl hn
    · exact .inr (MinQueue.mem_push.mpr (.inr hn))
  active _ h := h

/-- Dropping a command for a timer that is not wanted, or to stop. -/
theorem settles_skip (command : TimerCommand Sink) (rest : List (TimerCommand Sink))
    (h : ∀ node, command = .schedule node → core.active node.id = false) :
    Settles { core with commands := command :: rest } { core with commands := rest } where
  nextIdValue := rfl
  nextGeneration := rfl
  nextSequence := rfl
  reserved _ r h := ⟨r, h, rfl⟩
  waiting n hn := hn.imp (List.mem_cons_of_mem _) id
  kept n hn ha := by
    refine hn.imp (fun hn => ?_) id
    rcases List.mem_cons.mp hn with heq | hn
    · have hstale := h n heq.symm
      have hactive : core.active n.id = true := ha
      rw [hstale] at hactive
      cases hactive
    · exact hn
  active _ h := h

theorem consume_settles (memory : ℕ) (commands : List (TimerCommand Sink)) :
    Settles { core with commands } (core.consume memory commands).2 := by
  induction commands generalizing core memory with
  | nil =>
    unfold consume
    exact .refl _
  | cons command rest ih =>
    cases command with
    | stop =>
      unfold consume
      refine (settles_skip core .stop rest fun node h => by cases h).trans ?_
      exact (cancelAll_settles { core with commands := rest }).trans (ih core.cancelAll memory)
    | schedule node =>
      unfold consume
      split
      · rename_i hstale
        refine (settles_skip core _ rest fun n h => ?_).trans (ih core memory)
        obtain rfl : node = n := by injection h
        simpa using hstale
      · cases memory with
        | zero => exact .refl _
        | succ memory =>
          exact (settles_push core node rest).trans
            (ih { core with heap := core.heap.push node } memory)

theorem consume_active (memory : ℕ) {commands : List (TimerCommand Sink)} (h : .stop ∉ commands)
    (id : TimerId) : (core.consume memory commands).2.active id = core.active id := by
  induction commands generalizing core memory with
  | nil =>
    unfold consume
    rfl
  | cons command rest ih =>
    rw [List.mem_cons, not_or] at h
    cases command with
    | stop => exact absurd rfl h.1
    | schedule node =>
      unfold consume
      split
      · exact ih core memory h.2
      · cases memory with
        | zero => rfl
        | succ memory => exact ih _ memory h.2

end

/-- The commands that are left are some of the commands there were. -/
theorem mem_of_mem_consume {memory : ℕ} {commands : List (TimerCommand Sink)}
    {command : TimerCommand Sink} (h : command ∈ (core.consume memory commands).2.commands) :
    command ∈ commands := by
  fun_induction consume core memory commands with
  | case1 => simp at h
  | case2 core memory rest ih => exact List.mem_cons_of_mem _ (ih h)
  | case3 core memory node rest hactive ih => exact List.mem_cons_of_mem _ (ih h)
  | case4 => exact h
  | case5 core node rest hactive memory ih => exact List.mem_cons_of_mem _ (ih h)

theorem mem_of_mem_processCommands {memory : ℕ} {command : TimerCommand Sink}
    (h : command ∈ (core.processCommands memory).2.commands) : command ∈ core.commands := by
  unfold processCommands at h
  split at h
  · exact h
  · rw [(cleanupStaleLocked_cleans _).commands] at h
    exact mem_of_mem_consume h

theorem processCommands_settles (core : TimerCore Sink) (memory : ℕ) :
    Settles core (core.processCommands memory).2 := by
  unfold processCommands
  split
  · exact .refl core
  · exact (consume_settles core memory core.commands).trans
      (cleanupStaleLocked_cleans _).toSettles

theorem processCommands_active (memory : ℕ) (h : .stop ∉ core.commands) (id : TimerId) :
    (core.processCommands memory).2.active id = core.active id := by
  unfold processCommands
  split
  · rfl
  · exact ((cleanupStaleLocked_cleans _).same id).trans (consume_active core memory h id)

/-! ### Clients -/

section

variable (core : TimerCore Sink)

theorem init_cleans (config : TimerCoreConfig) (outOfMemory : Bool) :
    Cleans core (core.init config outOfMemory).2 := by
  unfold init
  split
  · exact ⟨.refl _, fun _ h => h, rfl, fun _ => rfl⟩
  · split
    · exact ⟨.refl _, fun _ h => h, rfl, fun _ => rfl⟩
    · split
      · exact ⟨.refl _, fun _ h => h, rfl, fun _ => rfl⟩
      · exact ⟨⟨rfl, rfl, rfl, fun _ r h => ⟨r, h, rfl⟩, fun _ h => h, fun _ h _ => h,
          fun _ h => h⟩, fun _ h => h, rfl, fun _ => rfl⟩

theorem requestStop_settles (outOfMemory : Bool) :
    Settles core (core.requestStop outOfMemory).2 := by
  unfold requestStop
  split
  · exact .refl core
  · split
    · exact .refl core
    · split
      · exact .refl core
      · refine ⟨rfl, rfl, rfl, fun _ r h => ⟨r, h, rfl⟩, fun n hn => ?_, fun n hn _ => ?_,
          fun _ h => h⟩
        · refine hn.imp (fun hn => ?_) fun h => h
          simpa using hn
        · exact hn.imp (fun hn => List.mem_append_left _ hn) fun h => h

theorem requestStop_heap (outOfMemory : Bool) :
    (core.requestStop outOfMemory).2.heap = core.heap := by
  unfold requestStop
  split_ifs <;> rfl

theorem requestStop_active (outOfMemory : Bool) (id : TimerId) :
    (core.requestStop outOfMemory).2.active id = core.active id := by
  unfold requestStop
  split_ifs <;> rfl

/-- `cancel` fails and changes nothing, or removes the reservation of the very timer. -/
theorem cancel_cases (id : TimerId) :
    ((core.cancel id).1 ≠ .ok ∧ (core.cancel id).2 = core) ∨
    ((core.cancel id).1 = .ok ∧
      (core.cancel id).2 = { core with reservations := core.reservations.erase id.value } ∧
      ∃ r, core.reservations[id.value]? = some r ∧ r.generation = id.generation) := by
  unfold cancel
  split
  · simp
  · split
    · simp
    · split
      · simp
      · rename_i r hr
        split
        · simp
        · rename_i hgeneration
          exact .inr ⟨rfl, rfl, r, hr, not_not.mp hgeneration⟩

theorem cancel_settles (id : TimerId) : Settles core (core.cancel id).2 := by
  rcases core.cancel_cases id with ⟨-, hcore⟩ | ⟨-, hcore, -⟩
  · rw [hcore]
    exact .refl core
  · rw [hcore]
    exact .erase core _

theorem cancel_commands (id : TimerId) : (core.cancel id).2.commands = core.commands := by
  rcases core.cancel_cases id with ⟨-, hcore⟩ | ⟨-, hcore, -⟩ <;> rw [hcore]

/-- `scheduleAt` fails and changes nothing, or reserves a timer with the next number. -/
theorem scheduleAt_cases (deadline : ℕ) (sink : Sink) (expired : Bool) (event : TimerEvent)
    (outOfMemory : Bool) :
    ((core.scheduleAt deadline sink expired event outOfMemory).1 ≠ .ok ∧
      (core.scheduleAt deadline sink expired event outOfMemory).2.2 = core) ∨
    ((core.scheduleAt deadline sink expired event outOfMemory).1 = .ok ∧
      (core.scheduleAt deadline sink expired event outOfMemory).2 =
        ((core.nextNode deadline sink event).id,
          core.reserve (core.nextNode deadline sink event)) ∧
      core.reservations[core.nextIdValue]? = none) := by
  unfold scheduleAt
  split
  · simp
  · split_ifs with _ _ _ _ _ _ hfree
    · simp
    · simp
    · simp
    · simp
    · simp
    · simp
    · simp
    · refine .inr ⟨rfl, rfl, ?_⟩
      rw [not_or] at hfree
      simpa using hfree.2

end

/-! ### Due timers -/

/-- What an iteration of `runReady` does: the timer it takes is due, was wanted, comes before
all that are left, and has no reservation any more. -/
theorem takeDue_timer {core' : TimerCore Sink} (h : core.takeDue now = (.timer node, core')) :
    Settles core core' ∧ node ∈ core.heap ∧ node.deadline ≤ now ∧ core.active node.id = true ∧
      core'.reservations[node.id.value]? = none ∧
      (∀ n ∈ core'.heap, n ∈ core.heap ∧ node.key ≤ n.key) ∧
      core'.commands = core.commands ∧
      ∀ id, id ≠ node.id → core.active id = true → core'.active id = true := by
  unfold takeDue at h
  have hclean := cleanupStaleLocked_cleans core
  split at h
  · cases h
  · dsimp only at h
    split at h
    · cases h
    · rename_i top htop
      split at h
      · cases h
      · rename_i hdue
        split at h
        · rename_i hactive
          -- The other branches return no timer; here the top of the cleaned heap is taken.
          obtain ⟨hnode, rfl⟩ := Prod.mk.inj h
          obtain rfl : top = node := by injection hnode
          have hmem := hclean.heap top (MinQueue.mem_of_top? htop)
          have herase := Settles.erase core.cleanupStaleLocked top.id.value
          have hnone : ({ core.cleanupStaleLocked with
              reservations := core.cleanupStaleLocked.reservations.erase top.id.value } :
                TimerCore Sink).active top.id = false := by
            unfold active
            rw [TreeMap.lookup_erase, if_pos rfl]
          refine ⟨⟨hclean.nextIdValue, hclean.nextGeneration, hclean.nextSequence,
            fun v r hr => (hclean.toSettles.trans herase).reserved v r hr, fun n hn => ?_,
            fun n hn ha => ?_, fun id ha => (hclean.toSettles.trans herase).active id ha⟩, hmem,
            not_lt.mp hdue, (hclean.same _).symm.trans hactive, ?_, fun n hn => ?_,
            hclean.commands, fun id hne ha => ?_⟩
          · exact hclean.waiting n (hn.imp (fun h => h) MinQueue.mem_of_mem_pop)
          · have hkept := hclean.kept n hn (herase.active _ ha)
            refine hkept.imp (fun h => h) fun hn => ?_
            rcases MinQueue.eq_or_mem_pop htop hn with rfl | hn
            · exact absurd (ha.symm.trans hnone) (by simp)
            · exact hn
          · rw [TreeMap.lookup_erase, if_pos rfl]
          · have hn' := MinQueue.mem_of_mem_pop hn
            exact ⟨hclean.heap n hn', MinQueue.key_le_of_top? htop hn'⟩
          · have hold := (hclean.same id).trans ha
            refine (active_erase fun hv => hne ?_).trans hold
            exact (eq_of_active hactive hold hv).symm
        · cases h

/-- An iteration that takes no timer changes nothing but the heap and cancelled reservations. -/
theorem takeDue_other {core' : TimerCore Sink} {due : DueTimer Sink}
    (h : core.takeDue now = (due, core')) (hdue : ∀ node, due ≠ .timer node) :
    Cleans core core' := by
  unfold takeDue at h
  have hclean := cleanupStaleLocked_cleans core
  split at h
  · obtain ⟨-, rfl⟩ := Prod.mk.inj h
    exact ⟨.refl _, fun _ h => h, rfl, fun _ => rfl⟩
  · dsimp only at h
    split at h
    · obtain ⟨-, rfl⟩ := Prod.mk.inj h
      exact hclean
    · rename_i top htop
      split at h
      · obtain ⟨-, rfl⟩ := Prod.mk.inj h
        exact hclean
      · split at h
        · exact absurd (Prod.mk.inj h).1.symm (hdue top)
        · rename_i hstale
          obtain ⟨-, rfl⟩ := Prod.mk.inj h
          refine ⟨⟨hclean.nextIdValue, hclean.nextGeneration, hclean.nextSequence,
            hclean.reserved, fun n hn => ?_, fun n hn ha => ?_, hclean.active⟩, fun n hn => ?_,
            hclean.commands, hclean.same⟩
          · exact hclean.waiting n (hn.imp (fun h => h) MinQueue.mem_of_mem_pop)
          · refine (hclean.kept n hn ha).imp (fun h => h) fun hn => ?_
            rcases MinQueue.eq_or_mem_pop htop hn with rfl | hn
            · exact absurd ha hstale
            · exact hn
          · exact hclean.heap n (MinQueue.mem_of_mem_pop hn)

theorem takeDue_settles (core : TimerCore Sink) (now : ℕ) :
    Settles core (core.takeDue now).2 := by
  cases hdue : core.takeDue now with
  | mk due core' =>
    cases due with
    | nothing => exact (takeDue_other hdue (by simp)).toSettles
    | stale => exact (takeDue_other hdue (by simp)).toSettles
    | timer node => exact (takeDue_timer hdue).1

theorem takeDue_commands (core : TimerCore Sink) (now : ℕ) :
    (core.takeDue now).2.commands = core.commands := by
  cases hdue : core.takeDue now with
  | mk due core' =>
    cases due with
    | nothing => exact (takeDue_other hdue (by simp)).commands
    | stale => exact (takeDue_other hdue (by simp)).commands
    | timer node => exact (takeDue_timer hdue).2.2.2.2.2.2.1

end TimerCore

namespace TimerState

/-! ### Delivery -/

/-- The timer that the timer thread has taken and not yet posted. -/
def held (s : TimerState Sink) : Option (HeapNode Sink) :=
  match s.phase with
  | .posting _ node => some node
  | _ => none

/-- A timer is finished when it is held, posted or cancelled. -/
def Finished (s : TimerState Sink) (id : TimerId) : Prop :=
  (∃ node, s.held = some node ∧ node.id = id) ∨ (∃ p ∈ s.posted, p.node.id = id) ∨
    id ∈ s.cancelled

/-- The invariant about the fate of timers. -/
structure Sound (s : TimerState Sink) : Prop where
  /-- Only numbers that were given out are reserved. -/
  reserved : ∀ (v : ℕ) r, s.core.reservations[v]? = some r → v < s.core.nextIdValue
  known : ∀ node, s.core.Waiting node ∨ s.held = some node → node ∈ s.issued
  origin : ∀ p ∈ s.posted, p.node ∈ s.issued
  /-- A finished timer has no reservation, and its number is not given out again. -/
  finished : ∀ id, s.Finished id →
    id.value < s.core.nextIdValue ∧ s.core.reservations[id.value]? = none
  once : (s.posted.map fun p => p.node.id).Nodup
  fresh : ∀ node, s.held = some node → ∀ p ∈ s.posted, p.node.id ≠ node.id
  spared : ∀ id ∈ s.cancelled, (∀ node, s.held = some node → node.id ≠ id) ∧
    ∀ p ∈ s.posted, p.node.id ≠ id

variable {s s' : TimerState Sink} {l : TimerLabel Sink}

/-- The core changed, no timer was scheduled and the thread holds no other timer than before. -/
theorem Sound.settles (h : Sound s) (hcore : s.core.Settles s'.core)
    (hheld : ∀ node, s'.held = some node → s.held = some node) (hissued : s'.issued = s.issued)
    (hcancelled : s'.cancelled = s.cancelled) (hposted : s'.posted = s.posted) : Sound s' where
  reserved v r hr := by
    obtain ⟨r', hr', -⟩ := hcore.reserved v r hr
    rw [hcore.nextIdValue]
    exact h.reserved v r' hr'
  known node hn := hissued ▸ h.known node (hn.imp (hcore.waiting node) (hheld node))
  origin p hp := hissued ▸ h.origin p (hposted ▸ hp)
  finished id hid := by
    have hold : s.Finished id := by
      rw [Finished, hposted, hcancelled] at hid
      exact hid.imp_left fun ⟨node, hn, he⟩ => ⟨node, hheld node hn, he⟩
    obtain ⟨hlt, hnone⟩ := h.finished id hold
    refine ⟨hcore.nextIdValue ▸ hlt, ?_⟩
    cases hr : s'.core.reservations[id.value]? with
    | none => rfl
    | some r =>
      obtain ⟨r', hr', -⟩ := hcore.reserved _ r hr
      exact absurd (hnone.symm.trans hr') (by simp)
  once := hposted ▸ h.once
  fresh node hn p hp := h.fresh node (hheld node hn) p (hposted ▸ hp)
  spared id hid := by
    obtain ⟨hnode, hpost⟩ := h.spared id (hcancelled ▸ hid)
    exact ⟨fun node hn => hnode node (hheld node hn), fun p hp => hpost p (hposted ▸ hp)⟩

theorem Sound.scheduled (h : Sound s) (deadline : ℕ) (sink : Sink) (expired : Bool)
    (event : TimerEvent) (outOfMemory : Bool) :
    Sound (s.scheduled deadline sink expired event outOfMemory) := by
  unfold TimerState.scheduled
  rcases s.core.scheduleAt_cases deadline sink expired event outOfMemory with
    ⟨hfail, hcore⟩ | ⟨hok, hresult, -⟩
  · simpa only [hcore, if_neg hfail] using h
  · simp only [hok, hresult, if_true]
    refine ⟨fun v r hr => ?_, fun node hn => ?_, fun p hp => ?_, fun id hid => ?_, h.once,
      h.fresh, h.spared⟩
    · simp only [TimerCore.reserve, TimerCore.nextNode, TreeMap.lookup_insert] at hr ⊢
      split at hr
      · omega
      · exact Nat.lt_succ_of_lt (h.reserved v r hr)
    · rw [List.mem_append, List.mem_singleton]
      rcases hn with (hn | hn) | hn
      · rcases List.mem_append.mp hn with hn | hn
        · exact .inl (h.known node (.inl (.inl hn)))
        · refine .inr ?_
          simpa using hn
      · exact .inl (h.known node (.inl (.inr hn)))
      · exact .inl (h.known node (.inr hn))
    · exact List.mem_append_left _ (h.origin p hp)
    · obtain ⟨hlt, hnone⟩ := h.finished id hid
      simp only [TimerCore.reserve, TimerCore.nextNode, TreeMap.lookup_insert]
      refine ⟨Nat.lt_succ_of_lt hlt, ?_⟩
      rw [if_neg (Nat.ne_of_gt hlt)]
      exact hnone

theorem Sound.cancelledBy (h : Sound s) (id : TimerId) : Sound (s.cancelledBy id) := by
  unfold TimerState.cancelledBy
  rcases s.core.cancel_cases id with ⟨hfail, hcore⟩ | ⟨hok, hcore, r, hr, -⟩
  · simpa only [hcore, if_neg hfail] using h
  · simp only [hok, hcore, if_true]
    have herase : Sound { s with core := { s.core with
        reservations := s.core.reservations.erase id.value } } :=
      h.settles (.erase s.core id.value) (fun _ h => h) rfl rfl rfl
    -- a finished timer has no reservation, but this one had
    have hunfinished : ¬ s.Finished id := fun hid => by
      have hnone := (h.finished id hid).2
      rw [hr] at hnone
      cases hnone
    refine ⟨herase.reserved, herase.known, herase.origin, fun id' hid => ?_, h.once, h.fresh,
      fun id' hid => ?_⟩
    · rcases hid with hid | hid | hid
      · exact herase.finished id' (.inl hid)
      · exact herase.finished id' (.inr (.inl hid))
      · rcases List.mem_append.mp hid with hid | hid
        · exact herase.finished id' (.inr (.inr hid))
        · obtain rfl := List.mem_singleton.mp hid
          refine ⟨h.reserved _ r hr, ?_⟩
          dsimp only
          rw [TreeMap.lookup_erase, if_pos rfl]
    · rcases List.mem_append.mp hid with hid | hid
      · exact h.spared id' hid
      · obtain rfl := List.mem_singleton.mp hid
        exact ⟨fun node hn heq => hunfinished (.inl ⟨node, hn, heq⟩),
          fun p hp heq => hunfinished (.inr (.inl ⟨p, hp, heq⟩))⟩

theorem Sound.taken (h : Sound s) (hphase : s.phase = .dispatching now) : Sound (s.taken now) := by
  have hheld (node : HeapNode Sink) : s.held ≠ some node := by simp [TimerState.held, hphase]
  unfold TimerState.taken
  split
  · rename_i core hdue
    exact h.settles (TimerCore.takeDue_other hdue (by simp)).toSettles (by simp [TimerState.held])
      rfl rfl rfl
  · rename_i core hdue
    exact h.settles (TimerCore.takeDue_other hdue (by simp)).toSettles (fun _ h => h) rfl rfl rfl
  · rename_i node core hdue
    obtain ⟨hcore, hmem, -, hactive, hnone, -⟩ := TimerCore.takeDue_timer hdue
    have hkeep : Sound { s with core } := h.settles hcore (fun _ h => h) rfl rfl rfl
    have hreserved := TimerCore.active_iff.mp hactive
    have hunfinished : ¬ s.Finished node.id := fun hid => by
      have hnone := (h.finished _ hid).2
      rw [hreserved] at hnone
      cases hnone
    have hself (n : HeapNode Sink) :
        ({ s with core, phase := .posting now node } : TimerState Sink).held = some n ↔
          node = n := by simp [TimerState.held]
    refine ⟨hkeep.reserved, fun n hn => ?_, h.origin, fun id hid => ?_, h.once,
      fun n hn p hp heq => ?_, fun id hid => ⟨fun n hn heq => ?_, (h.spared id hid).2⟩⟩
    · rcases hn with hn | hn
      · exact hkeep.known n (.inl hn)
      · obtain rfl := (hself n).mp hn
        exact h.known node (.inl (.inr hmem))
    · rcases hid with ⟨n, hn, rfl⟩ | hid
      · obtain rfl := (hself n).mp hn
        exact ⟨hcore.nextIdValue ▸ h.reserved _ _ hreserved, hnone⟩
      · exact hkeep.finished id (.inr hid)
    · obtain rfl := (hself n).mp hn
      exact hunfinished (.inr (.inl ⟨p, hp, heq⟩))
    · obtain rfl := (hself n).mp hn
      exact hunfinished (.inr (.inr (heq ▸ hid)))

theorem Sound.delivered (h : Sound s) (hphase : s.phase = .posting now node) (expired : Bool) :
    Sound (s.delivered now node expired) := by
  have hheld : s.held = some node := by simp [TimerState.held, hphase]
  have hnone (n : HeapNode Sink) : (s.delivered now node expired).held ≠ some n := by
    simp [TimerState.held, TimerState.delivered]
  have hposted (p : PostedTimer Sink) (hp : p ∈ (s.delivered now node expired).posted) :
      p ∈ s.posted ∨ p.node = node := by
    cases expired with
    | true => exact .inl hp
    | false =>
      rcases List.mem_append.mp hp with hp | hp
      · exact .inl hp
      · rw [List.mem_singleton.mp hp]
        exact .inr rfl
  refine ⟨h.reserved, fun n hn => h.known n (.inl (hn.resolve_right (hnone n))), fun p hp => ?_,
    fun id hid => ?_, ?_, fun n hn => absurd hn (hnone n), fun id hid =>
      ⟨fun n hn => absurd hn (hnone n), fun p hp => ?_⟩⟩
  · rcases hposted p hp with hp | rfl
    · exact h.origin p hp
    · exact h.known _ (.inr hheld)
  · refine h.finished id ?_
    rcases hid with ⟨n, hn, -⟩ | ⟨p, hp, rfl⟩ | hid
    · exact absurd hn (hnone n)
    · rcases hposted p hp with hp | rfl
      · exact .inr (.inl ⟨p, hp, rfl⟩)
      · exact .inl ⟨_, hheld, rfl⟩
    · exact .inr (.inr hid)
  · cases expired with
    | true => exact h.once
    | false =>
      simp only [TimerState.delivered, Bool.false_eq_true, if_false, List.map_append, List.map_cons,
        List.map_nil]
      refine List.nodup_append.mpr ⟨h.once, List.nodup_singleton _, ?_⟩
      intro a ha b hb hab
      obtain ⟨p, hp, rfl⟩ := List.mem_map.mp ha
      obtain rfl := List.mem_singleton.mp hb
      exact h.fresh node hheld p hp hab
  · rcases hposted p hp with hp | hnode
    · exact (h.spared id hid).2 p hp
    · rw [hnode]
      exact (h.spared id hid).1 node hheld

theorem Sound.step (h : Sound s) (hst : Step s l s') : Sound s' := by
  cases hst with
  | init config outOfMemory =>
    exact h.settles (s.core.init_cleans config outOfMemory).toSettles (fun _ h => h) rfl rfl rfl
  | schedule deadline sink expired event outOfMemory => exact h.scheduled ..
  | cancel id => exact h.cancelledBy id
  | requestStop outOfMemory =>
    exact h.settles (s.core.requestStop_settles outOfMemory) (fun _ h => h) rfl rfl rfl
  | processCommands hidle memory =>
    exact h.settles (s.core.processCommands_settles memory) (fun _ h => h) rfl rfl rfl
  | runReady hidle memory =>
    refine h.settles (s.core.processCommands_settles memory) (fun node hn => ?_) rfl rfl rfl
    simp only [TimerState.held, TimerState.started] at hn
    split_ifs at hn
  | sampleNow hphase now =>
    exact h.settles (.refl _) (by simp [TimerState.held]) rfl rfl rfl
  | takeDue hphase => exact h.taken hphase
  | post hphase expired => exact h.delivered hphase expired
  | finish hphase =>
    exact h.settles s.core.cleanupStaleLocked_cleans.toSettles (by simp [TimerState.held])
      rfl rfl rfl

theorem sound (h : (timerSystem Sink).Reachable s) : Sound s := by
  refine h.invariant (fun s hinit => ?_) fun s l s' _ hs hst => hs.step hst
  obtain rfl : s = {} := hinit
  have hheld (node : HeapNode Sink) : ({} : TimerState Sink).held ≠ some node := by
    simp [TimerState.held]
  refine ⟨by simp, fun node hn => ?_, by simp, fun id hid => ?_, List.nodup_nil, by simp, by simp⟩
  · rcases hn with (hn | hn) | hn
    · simp at hn
    · exact absurd hn (MinQueue.notMem_empty node)
    · exact absurd hn (hheld node)
  · rcases hid with ⟨node, hn, -⟩ | ⟨p, hp, -⟩ | hid
    · exact absurd hn (hheld node)
    · simp at hp
    · simp at hid

/-! ### Order -/

/-- What the present call of `runReady` posted comes before what is left in the heap. -/
def Behind (s : TimerState Sink) : Prop :=
  match s.phase with
  | .idle | .finishing => True
  | .sampling => ∀ p ∈ s.posted, p.cycle ≠ s.cycle
  | .dispatching _ => ∀ p ∈ s.posted, p.cycle = s.cycle → ∀ n ∈ s.core.heap, p.node.key ≤ n.key
  | .posting now node => node.deadline ≤ now ∧ (∀ n ∈ s.core.heap, node.key ≤ n.key) ∧
      ∀ p ∈ s.posted, p.cycle = s.cycle → p.node.key ≤ node.key

/-- The invariant about times. -/
structure InOrder (s : TimerState Sink) : Prop where
  due : ∀ p ∈ s.posted, p.node.deadline ≤ p.now
  cycles : ∀ p ∈ s.posted, p.cycle ≤ s.cycle
  ordered : s.posted.Pairwise fun p q => p.cycle = q.cycle → p.node.key ≤ q.node.key
  behind : s.Behind

/-- Clients leave the order alone: they do not touch the heap. -/
theorem InOrder.congr (h : InOrder s) (hposted : s'.posted = s.posted) (hcycle : s'.cycle = s.cycle)
    (hphase : s'.phase = s.phase) (hheap : ∀ n ∈ s'.core.heap, n ∈ s.core.heap) : InOrder s' := by
  obtain ⟨hdue, hcycles, hordered, hbehind⟩ := h
  refine ⟨hposted ▸ hdue, ?_, hposted ▸ hordered, ?_⟩
  · rw [hposted, hcycle]
    exact hcycles
  · unfold Behind at hbehind ⊢
    rw [hphase, hposted, hcycle]
    split at hbehind
    · trivial
    · trivial
    · exact hbehind
    · exact fun p hp hc n hn => hbehind p hp hc n (hheap n hn)
    · exact ⟨hbehind.1, fun n hn => hbehind.2.1 n (hheap n hn), hbehind.2.2⟩

theorem InOrder.taken (h : InOrder s) (hphase : s.phase = .dispatching now) :
    InOrder (s.taken now) := by
  have hbehind := h.behind
  unfold Behind at hbehind
  rw [hphase] at hbehind
  unfold TimerState.taken
  split
  · exact ⟨h.due, h.cycles, h.ordered, trivial⟩
  · rename_i core hdue
    exact h.congr rfl rfl rfl (TimerCore.takeDue_other hdue (by simp)).heap
  · rename_i node core hdue
    obtain ⟨-, hmem, htime, -, -, hleft, -⟩ := TimerCore.takeDue_timer hdue
    exact ⟨h.due, h.cycles, h.ordered, htime, fun n hn => (hleft n hn).2,
      fun p hp hc => hbehind p hp hc node hmem⟩

theorem InOrder.delivered (h : InOrder s) (hphase : s.phase = .posting now node) (expired : Bool) :
    InOrder (s.delivered now node expired) := by
  have hbehind := h.behind
  unfold Behind at hbehind
  rw [hphase] at hbehind
  obtain ⟨htime, hheap, hposted⟩ := hbehind
  cases expired with
  | true =>
    exact ⟨h.due, h.cycles, h.ordered,
      fun p hp hc n hn => (hposted p hp hc).trans (hheap n hn)⟩
  | false =>
    have hlast (p : PostedTimer Sink) (hp : p ∈ s.posted ++ [⟨s.cycle, now, node⟩]) :
        p ∈ s.posted ∨ p = ⟨s.cycle, now, node⟩ :=
      (List.mem_append.mp hp).imp_right List.mem_singleton.mp
    refine ⟨fun p hp => ?_, fun p hp => ?_, ?_, fun p hp hc n hn => ?_⟩
    · rcases hlast p hp with hp | rfl
      · exact h.due p hp
      · exact htime
    · rcases hlast p hp with hp | rfl
      · exact h.cycles p hp
      · exact le_rfl
    · refine List.pairwise_append.mpr ⟨h.ordered, List.pairwise_singleton _ _, ?_⟩
      intro p hp q hq hc
      obtain rfl := List.mem_singleton.mp hq
      exact hposted p hp hc
    · rcases hlast p hp with hp | rfl
      · exact (hposted p hp hc).trans (hheap n hn)
      · exact hheap n hn

theorem InOrder.step (h : InOrder s) (hst : Step s l s') : InOrder s' := by
  cases hst with
  | init config outOfMemory =>
    exact h.congr rfl rfl rfl (s.core.init_cleans config outOfMemory).heap
  | schedule deadline sink expired event outOfMemory =>
    refine h.congr rfl rfl rfl fun n hn => ?_
    unfold TimerState.scheduled at hn
    dsimp only at hn
    rcases s.core.scheduleAt_cases deadline sink expired event outOfMemory with
      ⟨-, hcore⟩ | ⟨-, hresult, -⟩
    · rwa [hcore] at hn
    · rw [hresult] at hn
      exact hn
  | cancel id =>
    refine h.congr rfl rfl rfl fun n hn => ?_
    unfold TimerState.cancelledBy at hn
    rcases s.core.cancel_cases id with ⟨-, hcore⟩ | ⟨-, hcore, -⟩
    · rwa [hcore] at hn
    · rw [hcore] at hn
      exact hn
  | requestStop outOfMemory =>
    exact h.congr rfl rfl rfl fun n hn => s.core.requestStop_heap outOfMemory ▸ hn
  | processCommands hidle memory =>
    exact ⟨h.due, h.cycles, h.ordered, by simp [Behind, hidle]⟩
  | runReady hidle memory =>
    refine ⟨h.due, fun p hp => Nat.le_succ_of_le (h.cycles p hp), h.ordered, ?_⟩
    -- the call is new: nothing that was posted belongs to it
    have hold (p : PostedTimer Sink) (hp : p ∈ s.posted) : p.cycle ≠ s.cycle + 1 :=
      Nat.ne_of_lt (Nat.lt_succ_of_le (h.cycles p hp))
    unfold Behind TimerState.started
    dsimp only
    split_ifs
    · exact hold
    · trivial
  | sampleNow hphase now =>
    have hbehind := h.behind
    unfold Behind at hbehind
    rw [hphase] at hbehind
    exact ⟨h.due, h.cycles, h.ordered, fun p hp hc => absurd hc (hbehind p hp)⟩
  | takeDue hphase => exact h.taken hphase
  | post hphase expired => exact h.delivered hphase expired
  | finish hphase => exact ⟨h.due, h.cycles, h.ordered, trivial⟩

theorem inOrder (h : (timerSystem Sink).Reachable s) : InOrder s := by
  refine h.invariant (fun s hinit => ?_) fun s l s' _ hs hst => hs.step hst
  obtain rfl : s = {} := hinit
  exact ⟨by simp, by simp, List.Pairwise.nil, trivial⟩

/-! ### Other timers -/

/-- Why a timer that was wanted no longer is: the call names it, the thread took it, or the
command to stop was carried out. -/
def Ends (s : TimerState Sink) (l : TimerLabel Sink) (s' : TimerState Sink) (id : TimerId) :
    Prop :=
  l = .cancel id ∨ (∃ node, s'.held = some node ∧ node.id = id ∧ l = .takeDue) ∨
    .stop ∈ s.core.commands

theorem ends_of_inactive (hsound : Sound s) (hst : Step s l s') (hactive : s.core.active id = true)
    (hinactive : s'.core.active id = false) : s.Ends l s' id := by
  -- a step that changes no reservation ends no timer
  have hsame {core : TimerCore Sink} (h : core.active id = s.core.active id)
      (h' : core.active id = false) : s.Ends l s' id :=
    absurd (hactive.symm.trans (h.symm.trans h')) (by simp)
  cases hst with
  | init config outOfMemory =>
    exact hsame ((s.core.init_cleans config outOfMemory).same id) hinactive
  | schedule deadline sink expired event outOfMemory =>
    refine hsame ?_ hinactive
    unfold TimerState.scheduled
    dsimp only
    rcases s.core.scheduleAt_cases deadline sink expired event outOfMemory with
      ⟨-, hcore⟩ | ⟨-, hresult, -⟩
    · rw [hcore]
    · rw [hresult, hactive, TimerCore.active_iff]
      have hreserved := TimerCore.active_iff.mp hactive
      simp only [TimerCore.reserve, TimerCore.nextNode, TreeMap.lookup_insert]
      rw [if_neg (Nat.ne_of_gt (hsound.reserved _ _ hreserved))]
      exact hreserved
  | cancel id' =>
    unfold TimerState.cancelledBy at hinactive
    rcases s.core.cancel_cases id' with ⟨-, hcore⟩ | ⟨-, hcore, r, hr, hgeneration⟩
    · rw [hcore] at hinactive
      exact hsame rfl hinactive
    · rw [hcore] at hinactive
      by_cases hv : id'.value = id.value
      · -- the reservation is that of `id`, so the generations agree
        have hreserved := TimerCore.active_iff.mp hactive
        rw [← hv, hr] at hreserved
        obtain ⟨value, generation⟩ := id
        obtain ⟨value', generation'⟩ := id'
        have hg : r.generation = generation := by rw [Option.some.inj hreserved]
        refine .inl ?_
        simp_all
      · exact hsame (TimerCore.active_erase hv) hinactive
  | requestStop outOfMemory => exact hsame (s.core.requestStop_active outOfMemory id) hinactive
  | processCommands hidle memory =>
    by_cases hstop : .stop ∈ s.core.commands
    · exact .inr (.inr hstop)
    · exact hsame (TimerCore.processCommands_active memory hstop id) hinactive
  | runReady hidle memory =>
    by_cases hstop : .stop ∈ s.core.commands
    · exact .inr (.inr hstop)
    · exact hsame (TimerCore.processCommands_active memory hstop id) hinactive
  | sampleNow hphase now => exact hsame rfl hinactive
  | @takeDue now hphase =>
    cases hdue : s.core.takeDue now with
    | mk due core =>
      unfold TimerState.taken at hinactive
      rw [hdue] at hinactive
      cases due with
      | nothing => exact hsame ((TimerCore.takeDue_other hdue (by simp)).same id) hinactive
      | stale => exact hsame ((TimerCore.takeDue_other hdue (by simp)).same id) hinactive
      | timer node =>
        obtain ⟨-, -, -, -, -, -, -, hothers⟩ := TimerCore.takeDue_timer hdue
        by_cases hid : id = node.id
        · have hheld : (s.taken now).held = some node := by
            simp [TimerState.taken, TimerState.held, hdue]
          exact .inr (.inl ⟨node, hheld, hid.symm, rfl⟩)
        · exact absurd ((hothers id hid hactive).symm.trans hinactive) (by simp)
  | post hphase expired => exact hsame rfl hinactive
  | finish hphase => exact hsame (s.core.cleanupStaleLocked_cleans.same id) hinactive

/-! ### Names -/

theorem taken_core (s : TimerState Sink) (now : ℕ) :
    (s.taken now).core = (s.core.takeDue now).2 := by
  unfold taken
  split <;> simp_all

theorem taken_issued (s : TimerState Sink) (now : ℕ) : (s.taken now).issued = s.issued := by
  unfold taken
  split <;> rfl

/-- What a step does to the core: it settles it, or it reserves a timer with the next number. -/
theorem Step.effect (hst : Step s l s') :
    s.core.Settles s'.core ∧ s'.issued = s.issued ∨
      ∃ deadline sink event,
        s'.core = s.core.reserve (s.core.nextNode deadline sink event) ∧
        s'.issued = s.issued ++ [s.core.nextNode deadline sink event] := by
  cases hst with
  | init config outOfMemory => exact .inl ⟨(s.core.init_cleans config outOfMemory).toSettles, rfl⟩
  | schedule deadline sink expired event outOfMemory =>
    unfold TimerState.scheduled
    rcases s.core.scheduleAt_cases deadline sink expired event outOfMemory with
      ⟨hfail, hcore⟩ | ⟨hok, hresult, -⟩
    · simp only [hcore, if_neg hfail]
      exact .inl ⟨.refl _, trivial⟩
    · simp only [hok, hresult, if_true]
      exact .inr ⟨deadline, sink, event, rfl, rfl⟩
  | cancel id => exact .inl ⟨s.core.cancel_settles id, rfl⟩
  | requestStop outOfMemory => exact .inl ⟨s.core.requestStop_settles outOfMemory, rfl⟩
  | processCommands hidle memory => exact .inl ⟨s.core.processCommands_settles memory, rfl⟩
  | runReady hidle memory => exact .inl ⟨s.core.processCommands_settles memory, rfl⟩
  | sampleNow hphase now => exact .inl ⟨.refl _, rfl⟩
  | takeDue hphase =>
    exact .inl ⟨(s.taken_core _).symm ▸ s.core.takeDue_settles _, s.taken_issued _⟩
  | post hphase expired => exact .inl ⟨.refl _, rfl⟩
  | finish hphase => exact .inl ⟨s.core.cleanupStaleLocked_cleans.toSettles, rfl⟩

/-- Names are given out in order. -/
structure Counted (s : TimerState Sink) : Prop where
  idValue : 0 < s.core.nextIdValue
  generation : 0 < s.core.nextGeneration
  below : ∀ node ∈ s.issued, node.id.value < s.core.nextIdValue
  distinct : s.issued.Pairwise fun a b => a.id.value < b.id.value

theorem Counted.step (h : Counted s) (hst : Step s l s') : Counted s' := by
  rcases hst.effect with ⟨hcore, hissued⟩ | ⟨deadline, sink, event, hcore, hissued⟩
  · refine ⟨hcore.nextIdValue ▸ h.idValue, hcore.nextGeneration ▸ h.generation, ?_,
      hissued ▸ h.distinct⟩
    rw [hcore.nextIdValue, hissued]
    exact h.below
  · refine ⟨hcore ▸ Nat.succ_pos _, hcore ▸ Nat.succ_pos _, fun node hn => ?_, ?_⟩
    · rw [hcore]
      rw [hissued] at hn
      rcases List.mem_append.mp hn with hn | hn
      · exact Nat.lt_succ_of_lt (h.below node hn)
      · rw [List.mem_singleton.mp hn]
        exact Nat.lt_succ_self _
    · rw [hissued]
      refine List.pairwise_append.mpr ⟨h.distinct, List.pairwise_singleton _ _, ?_⟩
      intro a ha b hb
      rw [List.mem_singleton.mp hb]
      exact h.below a ha

theorem counted (h : (timerSystem Sink).Reachable s) : Counted s := by
  refine h.invariant (fun s hinit => ?_) fun s l s' _ hs hst => hs.step hst
  obtain rfl : s = {} := hinit
  exact ⟨Nat.one_pos, Nat.one_pos, by simp, List.Pairwise.nil⟩

/-- Timers with one name are the same. -/
theorem Counted.eq_of_id (h : Counted s) {a b : HeapNode Sink} (ha : a ∈ s.issued)
    (hb : b ∈ s.issued) (hid : a.id = b.id) : a = b := by
  have hnodup : (s.issued.map fun node => node.id.value).Nodup :=
    List.pairwise_map.mpr (h.distinct.imp Nat.ne_of_lt)
  exact List.inj_on_of_nodup_map hnodup ha hb (by rw [hid])

section

variable (hst : Step s l s')
include hst

/-- A timer on its way stays there for as long as it is wanted. -/
theorem waiting_of_step (hw : s.core.Waiting node) (ha : s'.core.active node.id = true) :
    s'.core.Waiting node := by
  rcases hst.effect with ⟨hcore, -⟩ | ⟨deadline, sink, event, hcore, -⟩
  · exact hcore.kept node hw ha
  · rw [hcore]
    exact hw.imp_left (List.mem_append_left _)

theorem issued_of_step (hn : node ∈ s.issued) : node ∈ s'.issued := by
  rcases hst.effect with ⟨-, hissued⟩ | ⟨deadline, sink, event, -, hissued⟩
  · exact hissued ▸ hn
  · exact hissued ▸ List.mem_append_left _ hn

/-- The timer thread gives up a timer only by posting it. -/
theorem held_of_step (hheld : s.held = some node) (hl : ∀ expired, l ≠ .post expired) :
    s'.held = some node := by
  cases hst with
  | processCommands hidle memory => simp [TimerState.held, hidle] at hheld
  | runReady hidle memory => simp [TimerState.held, hidle] at hheld
  | sampleNow hphase now => simp [TimerState.held, hphase] at hheld
  | takeDue hphase => simp [TimerState.held, hphase] at hheld
  | post hphase expired => exact absurd rfl (hl expired)
  | finish hphase => simp [TimerState.held, hphase] at hheld
  | _ => exact hheld

/-- A command to stop comes from `requestStop`. -/
theorem stop_of_step (hstop : .stop ∈ s'.core.commands) :
    .stop ∈ s.core.commands ∨ ∃ outOfMemory, l = .requestStop outOfMemory := by
  cases hst with
  | init config outOfMemory =>
    rw [(s.core.init_cleans config outOfMemory).commands] at hstop
    exact .inl hstop
  | schedule deadline sink expired event outOfMemory =>
    unfold TimerState.scheduled at hstop
    rcases s.core.scheduleAt_cases deadline sink expired event outOfMemory with
      ⟨-, hcore⟩ | ⟨-, hresult, -⟩
    · rw [hcore] at hstop
      exact .inl hstop
    · rw [hresult] at hstop
      exact .inl (by simpa [TimerCore.reserve] using hstop)
  | cancel id => exact .inl (s.core.cancel_commands id ▸ hstop)
  | requestStop outOfMemory => exact .inr ⟨outOfMemory, rfl⟩
  | processCommands hidle memory => exact .inl (TimerCore.mem_of_mem_processCommands hstop)
  | runReady hidle memory => exact .inl (TimerCore.mem_of_mem_processCommands hstop)
  | sampleNow hphase now => exact .inl hstop
  | takeDue hphase =>
    rw [taken_core, TimerCore.takeDue_commands] at hstop
    exact .inl hstop
  | post hphase expired => exact .inl hstop
  | finish hphase =>
    rw [s.core.cleanupStaleLocked_cleans.commands] at hstop
    exact .inl hstop

/-- The clock reading of the `runReady` that is running. -/
def reading (s : TimerState Sink) : Option ℕ :=
  match s.phase with
  | .dispatching now | .posting now _ => some now
  | _ => none

theorem reading_of_step (h : s'.reading = some now) :
    s.reading = some now ∨ l = .sampleNow now := by
  cases hst with
  | runReady hidle memory =>
    unfold reading TimerState.started at h
    dsimp only at h
    split_ifs at h
  | sampleNow hphase time => exact .inr (by simpa [reading] using h)
  | takeDue hphase =>
    unfold TimerState.taken at h
    split at h <;> simp_all [reading]
  | post hphase expired => exact .inl (by simpa [reading, hphase, TimerState.delivered] using h)
  | finish hphase => simp [reading] at h
  | _ => exact .inl h

/-- A timer is posted with the clock reading of the `runReady` that is running. -/
theorem posted_of_step {p : PostedTimer Sink} (hp : p ∈ s'.posted) :
    p ∈ s.posted ∨ s.reading = some p.now := by
  cases hst with
  | takeDue hphase =>
    unfold TimerState.taken at hp
    split at hp <;> exact .inl hp
  | post hphase expired =>
    unfold TimerState.delivered at hp
    dsimp only at hp
    split at hp
    · exact .inl hp
    · refine (List.mem_append.mp hp).imp_right fun hp => ?_
      simp [List.mem_singleton.mp hp, reading, hphase]
  | _ => exact .inl hp

end

/-- **Timers are delivered safely.**  In every run of clients and timer thread: what is posted was
scheduled, each timer at most once; no timer is posted whose `cancel` succeeded; none is posted by
a `runReady` that read the clock before its deadline; what one `runReady` posts comes in the order
of deadlines and scheduling; a `cancel` of a timer that is not reserved under that generation
changes nothing; and no step ends a timer that it does not name. -/
theorem delivery_safe {s : TimerState Sink} (h : (timerSystem Sink).Reachable s) :
    (∀ p ∈ s.posted, p.node ∈ s.issued) ∧
    (s.posted.map fun p => p.node.id).Nodup ∧
    (∀ id ∈ s.cancelled, ∀ p ∈ s.posted, p.node.id ≠ id) ∧
    (∀ p ∈ s.posted, p.node.deadline ≤ p.now) ∧
    (s.posted.Pairwise fun p q => p.cycle = q.cycle →
      p.node.deadline < q.node.deadline ∨
        p.node.deadline = q.node.deadline ∧ p.node.sequence ≤ q.node.sequence) ∧
    (∀ id, (∀ r, s.core.reservations[id.value]? = some r → r.generation ≠ id.generation) →
      (s.core.cancel id).1 ≠ .ok ∧ (s.core.cancel id).2 = s.core) ∧
    ∀ l s', Step s l s' → ∀ id, s.core.active id = true → s'.core.active id = false →
      s.Ends l s' id := by
  have hsound := sound h
  have horder := inOrder h
  refine ⟨hsound.origin, hsound.once, fun id hid => (hsound.spared id hid).2, horder.due,
    horder.ordered.imp fun hpq hc => ?_, fun id hstale => ?_,
    fun l s' hst id => ends_of_inactive hsound hst⟩
  · simpa [HeapNode.key, Prod.Lex.toLex_le_toLex] using hpq hc
  · rcases s.core.cancel_cases id with hfail | ⟨-, -, r, hr, hgeneration⟩
    · exact hfail
    · exact absurd hgeneration (hstale r hr)

/-! ### Runs -/

/-- The steps that clients and timer thread can take. -/
def next (s : TimerState Sink) (l : TimerLabel Sink) : Option (TimerState Sink) :=
  match l, s.phase with
  | .init config outOfMemory, _ => some { s with core := (s.core.init config outOfMemory).2 }
  | .schedule deadline sink expired event outOfMemory, _ =>
    some (s.scheduled deadline sink expired event outOfMemory)
  | .cancel id, _ => some (s.cancelledBy id)
  | .processCommands memory, .idle => some { s with core := (s.core.processCommands memory).2 }
  | .runReady memory, .idle => some (s.started memory)
  | .sampleNow now, .sampling => some { s with phase := .dispatching now }
  | .takeDue, .dispatching now => some (s.taken now)
  | .post expired, .posting now node => some (s.delivered now node expired)
  | .finish, .finishing => some { s with core := s.core.cleanupStaleLocked, phase := .idle }
  | _, _ => none

theorem step_of_next (s : TimerState Sink) (l : TimerLabel Sink) (s' : TimerState Sink)
    (h : s.next l = some s') : Step s l s' := by
  unfold next at h
  split at h
  · exact Option.some.inj h ▸ .init _ _ _
  · exact Option.some.inj h ▸ .schedule _ _ _ _ _ _
  · exact Option.some.inj h ▸ .cancel _ _
  · exact Option.some.inj h ▸ .processCommands ‹_› _
  · exact Option.some.inj h ▸ .runReady ‹_› _
  · exact Option.some.inj h ▸ .sampleNow ‹_› _
  · exact Option.some.inj h ▸ .takeDue ‹_›
  · exact Option.some.inj h ▸ .post ‹_› _
  · exact Option.some.inj h ▸ .finish ‹_›
  · cases h

/-- The state of a new core after the labels. -/
def after (labels : List (TimerLabel Unit)) : TimerState Unit := System.walk next labels {}

theorem after_reachable (labels : List (TimerLabel Unit)) :
    (timerSystem Unit).Reachable (after labels) :=
  System.Reachable.leads (.init rfl) (System.leads_walk step_of_next labels _)

/-- Three timers; the last one is cancelled when its node is in the heap, one that does not exist
is cancelled, and the timer thread posts the others. -/
def twoPosted : TimerState Unit := after
  [.init {} false, .schedule 10 () false {} false, .schedule 5 () false {} false,
    .schedule 20 () false {} false, .processCommands 3, .cancel ⟨3, 3⟩, .cancel ⟨4, 4⟩, .runReady 0,
    .sampleNow 12, .takeDue, .post false, .takeDue, .post false]

/-- The theorem for timers that were posted, with the node of a cancelled one in the heap. -/
theorem delivery_safe_two_posted :
    (twoPosted.posted.map fun p => p.node.id) = [⟨2, 2⟩, ⟨1, 1⟩] ∧
    twoPosted.cancelled = [⟨3, 3⟩] ∧ (twoPosted.core.heap.entries.map (·.id)) = [⟨3, 3⟩] ∧
    (twoPosted.posted.map fun p => p.node.id).Nodup ∧
    (∀ id ∈ twoPosted.cancelled, ∀ p ∈ twoPosted.posted, p.node.id ≠ id) ∧
    ∀ p ∈ twoPosted.posted, p.node.deadline ≤ p.now := by
  have hr : (timerSystem Unit).Reachable twoPosted := after_reachable _
  obtain ⟨-, honce, hspared, hdue, -⟩ := delivery_safe hr
  exact ⟨by decide +kernel, by decide +kernel, by decide +kernel, honce, hspared, hdue⟩

end TimerState

end AegisFlow
