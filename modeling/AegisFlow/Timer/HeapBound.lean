import AegisFlow.Timer.Reservations

/-!
# How large the heap of timers gets

`init` reserves memory for as many heap nodes as there may be reservations.  A timer that is
cancelled gives its reservation back at once, but its node stays in the heap until it comes to the
front, so the heap can outgrow the reserved memory.

* `TimerState.overfull_heap` : **a core for one timer with two nodes in its heap**, and a command
  for which the reserved memory does not suffice;
* `TimerCore.Owned` : every node in the heap has its reservation;
* `TimerState.heap_within_capacity` : **all but the stale nodes of the heap fit into the reserved
  memory**, and as long as no timer is cancelled whose node is in the heap, the heap does, and no
  command fails.
-/

namespace AegisFlow

variable {Sink : Type}

namespace TimerCore

/-- The timer has a reservation, cancelled or not. -/
def Claimed (core : TimerCore Sink) (node : HeapNode Sink) : Prop :=
  ∃ r, core.reservations[node.id.value]? = some r ∧ r.generation = node.id.generation

/-- Every one of the timers has a reservation. -/
def Owns (core : TimerCore Sink) (nodes : List (HeapNode Sink)) : Prop :=
  ∀ node ∈ nodes, core.Claimed node

/-- Every timer in the heap has a reservation. -/
def Owned (core : TimerCore Sink) : Prop := core.Owns core.heap.entries

/-- No number is in the heap twice. -/
def HeapDistinct (core : TimerCore Sink) : Prop :=
  (core.heap.entries.map fun node => node.id.value).Nodup

variable {core : TimerCore Sink} {node : HeapNode Sink} {nodes : List (HeapNode Sink)}

theorem claimed_of_active (h : core.active node.id = true) :
    core.Claimed node := ⟨_, active_iff.mp h, rfl⟩

/-- Timers with different numbers and a reservation each are no more than the reservations. -/
theorem length_le_size (hdistinct : (nodes.map fun node => node.id.value).Nodup)
    (hclaimed : core.Owns nodes) : nodes.length ≤ core.reservations.size := by
  have hsubset : (nodes.map fun node => node.id.value) ⊆ core.reservations.keys := by
    intro v hv
    obtain ⟨node, hnode, rfl⟩ := List.mem_map.mp hv
    obtain ⟨r, hr, -⟩ := hclaimed node hnode
    rw [Std.TreeMap.mem_keys, Std.TreeMap.mem_iff_isSome_getElem?, hr]
    rfl
  calc nodes.length = (nodes.map fun node => node.id.value).length := (List.length_map _).symm
    _ ≤ core.reservations.keys.length := (hdistinct.subperm hsubset).length_le
    _ = core.reservations.size := Std.TreeMap.length_keys

theorem Reserved.heapDistinct (h : Reserved core) : core.HeapDistinct := by
  have hdistinct := h.distinct
  rw [pendingNodes, List.map_append] at hdistinct
  exact hdistinct.of_append_right

/-! ### What the operations keep -/

/-- Removing the reservation of another number. -/
theorem Owns.erase (h : core.Owns nodes) {v : ℕ} (hfree : ∀ node ∈ nodes, node.id.value ≠ v) :
    ({ core with reservations := core.reservations.erase v } : TimerCore Sink).Owns nodes := by
  intro node hnode
  obtain ⟨r, hr, hgeneration⟩ := h node hnode
  refine ⟨r, ?_, hgeneration⟩
  change (core.reservations.erase v)[node.id.value]? = some r
  rw [TreeMap.lookup_erase, if_neg (hfree node hnode).symm]
  exact hr

theorem Owned.reserve (h : core.Owned) (hfresh : core.reservations[node.id.value]? = none) :
    (core.reserve node).Owned := by
  intro n hn
  obtain ⟨r, hr, hgeneration⟩ := h n hn
  refine ⟨r, ?_, hgeneration⟩
  change (core.reservations.insert _ _)[n.id.value]? = some r
  rw [TreeMap.lookup_insert, if_neg]
  · exact hr
  · intro heq
    rw [← heq, hfresh] at hr
    cases hr

/-- Cancelling a timer that is not in the heap. -/
theorem Owned.cancel (h : core.Owned) {id : TimerId}
    (houtside : (core.cancel id).1 = .ok → ∀ node ∈ core.heap.entries, node.id ≠ id) :
    (core.cancel id).2.Owned := by
  rcases core.cancel_cases id with ⟨-, hcore⟩ | ⟨hok, hcore, r, hr, hgeneration⟩
  · rw [hcore]
    exact h
  · rw [hcore]
    refine Owns.erase h fun node hnode hvalue => houtside hok node hnode ?_
    -- The reservation is that of the timer in the heap, so the numbers agree altogether.
    obtain ⟨r', hr', hgeneration'⟩ := h node hnode
    rw [hvalue, hr] at hr'
    cases hr'
    cases hid : node.id
    cases id
    simp_all

theorem Owned.push (h : core.Owned) (hactive : core.active node.id = true) :
    ({ core with heap := core.heap.push node } : TimerCore Sink).Owned := by
  intro n hn
  rcases MinQueue.mem_push.mp hn with rfl | hn
  · exact claimed_of_active hactive
  · exact h n hn

theorem Owned.cancelAll (h : core.Owned) : core.cancelAll.Owned := by
  intro node hnode
  obtain ⟨r, hr, hgeneration⟩ := h node hnode
  refine ⟨{ r with cancelled := true }, ?_, hgeneration⟩
  rw [TimerCore.cancelAll, Std.TreeMap.getElem?_map, hr]
  rfl

theorem Owned.consume (h : core.Owned) (memory : ℕ) (commands : List (TimerCommand Sink)) :
    (core.consume memory commands).2.Owned := by
  fun_induction TimerCore.consume core memory commands with
  | case1 core => exact h
  | case2 core memory rest ih => exact ih h.cancelAll
  | case3 core memory node rest hstale ih => exact ih h
  | case4 core node rest hactive => exact h
  | case5 core node rest hactive memory ih => exact ih (h.push (by simpa using hactive))

theorem cancelAll_size (core : TimerCore Sink) :
    core.cancelAll.reservations.size = core.reservations.size := Std.TreeMap.size_map

/-- With memory for one node for each reservation, all commands are carried out. -/
theorem Owned.consume_ok (h : core.Owned) {memory : ℕ} {commands : List (TimerCommand Sink)}
    (hdistinct : ((commands.filterMap commandNode ++ core.heap.entries).map
      fun node => node.id.value).Nodup)
    (hmemory : core.reservations.size ≤ core.heap.entries.length + memory) :
    (core.consume memory commands).1 = .ok := by
  fun_induction TimerCore.consume core memory commands with
  | case1 core => rfl
  | case2 core memory rest ih =>
      exact ih h.cancelAll hdistinct (core.cancelAll_size.le.trans hmemory)
  | case3 core memory node rest hstale ih =>
    exact ih h (hdistinct.sublist ((List.sublist_cons_self _ _).map _)) hmemory
  | case4 core node rest hactive =>
    -- The node and those in the heap would have one reservation more than there are.
    have hnodes : (node :: core.heap.entries).length ≤ core.reservations.size := by
      refine length_le_size ?_ ?_
      · refine hdistinct.sublist (List.Sublist.map _ ?_)
        exact (List.sublist_append_right _ _).cons_cons node
      · intro n hn
        rcases List.mem_cons.mp hn with rfl | hn
        · exact claimed_of_active (by simpa using hactive)
        · exact h n hn
    rw [List.length_cons] at hnodes
    omega
  | case5 core node rest hactive memory ih =>
    have hperm := core.push_entries_perm node
    refine ih (h.push (by simpa using hactive)) ?_ ?_
    · refine (List.Perm.nodup_iff (List.Perm.map _ ?_)).mp hdistinct
      exact (List.perm_middle.symm.trans (hperm.symm.append_left _))
    · change core.reservations.size ≤ (core.heap.push node).entries.length + memory
      rw [hperm.length_eq, List.length_cons]
      omega

theorem Owns.dropCancelled (h : core.Owns nodes) {id : TimerId}
    (hfree : ∀ node ∈ nodes, node.id.value ≠ id.value) : (core.dropCancelled id).Owns nodes := by
  unfold TimerCore.dropCancelled
  split
  · exact h
  · split
    · exact h.erase hfree
    · exact h

/-- Cleaning up removes a reservation together with its node only. -/
theorem Owns.cleanup {entries : List (HeapNode Sink)} (h : core.Owns entries)
    (hsorted : entries.Pairwise fun a b => a.key ≤ b.key)
    (hdistinct : (entries.map fun node => node.id.value).Nodup) :
    (core.cleanup entries hsorted).Owned := by
  induction entries generalizing core with
  | nil => exact h
  | cons node rest ih =>
    rw [List.map_cons, List.nodup_cons] at hdistinct
    unfold TimerCore.cleanup
    split
    · exact h
    · have hrest : core.Owns rest := fun n hn => h n (List.mem_cons_of_mem _ hn)
      refine ih (hrest.dropCancelled fun n hn heq => hdistinct.1 ?_) hsorted.of_cons hdistinct.2
      exact heq ▸ List.mem_map_of_mem hn

theorem Owned.cleanupStaleLocked (h : core.Owned) (hdistinct : core.HeapDistinct) :
    core.cleanupStaleLocked.Owned := Owns.cleanup h core.heap.sorted hdistinct

theorem HeapDistinct.cleanupStaleLocked (h : core.HeapDistinct) :
    core.cleanupStaleLocked.HeapDistinct :=
  h.sublist (core.cleanupStaleLocked_prunes.entries.map _)

theorem heapDistinct_consume (h : Reserved core) (memory : ℕ) :
    (core.consume memory core.commands).2.HeapDistinct := by
  obtain ⟨l, hperm, hsub⟩ := consume_pending core memory core.commands
  have hall := (hperm.map fun node => node.id.value).nodup_iff.mp (h.distinct.sublist (hsub.map _))
  rw [pendingNodes, List.map_append] at hall
  exact hall.of_append_right

theorem Owned.processCommands (h : core.Owned) (hreserved : Reserved core) (memory : ℕ) :
    (core.processCommands memory).2.Owned := by
  unfold TimerCore.processCommands
  split
  · exact h
  · exact (h.consume memory core.commands).cleanupStaleLocked
      (heapDistinct_consume hreserved memory)

/-- Taking a timer that is due removes its node and its reservation. -/
theorem Owned.takeDue (h : core.Owned) (hdistinct : core.HeapDistinct) (now : ℕ) :
    (core.takeDue now).2.Owned := by
  have hclean := h.cleanupStaleLocked hdistinct
  have hcleanDistinct := hdistinct.cleanupStaleLocked
  unfold TimerCore.takeDue
  split
  · exact h
  · dsimp only
    generalize core.cleanupStaleLocked = clean at *
    have hpop : ({ clean with heap := clean.heap.pop } : TimerCore Sink).Owned :=
      fun n hn => hclean n ((pop_entries_sublist clean.heap).subset hn)
    split
    · exact hclean
    case h_2 node htop =>
      split
      · exact hclean
      · split
        · refine Owns.erase hpop fun n hn heq => ?_
          -- The first node is not among the others.
          obtain ⟨rest, hrest⟩ := List.head?_eq_some_iff.mp
            (show clean.heap.entries.head? = some node from htop)
          have hmem : n ∈ rest := by
            have htail : clean.heap.pop.entries = rest := by
              change clean.heap.entries.tail = rest
              rw [hrest]
              rfl
            exact htail ▸ hn
          unfold HeapDistinct at hcleanDistinct
          rw [hrest, List.map_cons, List.nodup_cons] at hcleanDistinct
          exact hcleanDistinct.1 (heq ▸ List.mem_map_of_mem hmem)
        · exact hpop

end TimerCore

namespace TimerState

/-- The step is no successful `cancel` of a timer whose node is in the heap. -/
def CancelsOutsideHeap (s : TimerState Sink) : TimerLabel Sink → Prop
  | .cancel id => (s.core.cancel id).1 = .ok → ∀ node ∈ s.core.heap.entries, node.id ≠ id
  | _ => True

instance (s : TimerState Sink) (l : TimerLabel Sink) : Decidable (s.CancelsOutsideHeap l) := by
  cases l <;> unfold CancelsOutsideHeap <;> infer_instance

/-- In the runs that never cancel a timer in the heap, every node of the heap has its
reservation. -/
theorem owned {s : TimerState Sink}
    (h : ((timerSystem Sink).restrict CancelsOutsideHeap).Reachable s) : s.core.Owned := by
  refine h.invariant (I := fun s => s.core.Owned) (fun s hinit => ?_) fun s l s' hr hs hst => ?_
  · obtain rfl : s = {} := hinit
    exact fun node hnode => absurd hnode List.not_mem_nil
  · obtain ⟨hst, houtside⟩ := hst
    have hreserved := reserved hr.of_restrict
    cases hst with
    | init config outOfMemory =>
      change (s.core.init config outOfMemory).2.Owned
      unfold TimerCore.init
      split
      · exact hs
      · split
        · exact hs
        · split <;> exact hs
    | schedule deadline sink expired event outOfMemory =>
      change (s.core.scheduleAt deadline sink expired event outOfMemory).2.2.Owned
      rcases s.core.scheduleAt_cases deadline sink expired event outOfMemory with
        ⟨-, hcore⟩ | ⟨-, hresult, hfresh⟩
      · rw [hcore]
        exact hs
      · rw [hresult]
        exact hs.reserve hfresh
    | cancel id => exact hs.cancel houtside
    | requestStop outOfMemory =>
      change (s.core.requestStop outOfMemory).2.Owned
      unfold TimerCore.requestStop
      split_ifs <;> exact hs
    | processCommands hidle memory => exact hs.processCommands hreserved memory
    | runReady hidle memory => exact hs.processCommands hreserved memory
    | sampleNow hphase now => exact hs
    | takeDue hphase =>
      rw [taken_core]
      exact hs.takeDue hreserved.heapDistinct _
    | post hphase expired => exact hs
    | finish hphase => exact hs.cleanupStaleLocked hreserved.heapDistinct

/-- **The heap and the memory reserved for it.**  In every state that clients and the timer thread
can reach, the nodes of the heap, without those of timers that are no longer wanted, are at most as
many as timers are allowed.  After a run without a successful `cancel` of a timer whose node is in
the heap, so are all nodes, and with memory for that many no command fails. -/
theorem heap_within_capacity {s : TimerState Sink} (h : (timerSystem Sink).Reachable s)
    {config : TimerCoreConfig} (hconfig : s.core.config = some config) :
    s.core.heap.entries.countP (fun node => s.core.active node.id) ≤ config.timerCapacity ∧
    (((timerSystem Sink).restrict CancelsOutsideHeap).Reachable s →
      s.core.heap.entries.length ≤ config.timerCapacity ∧
      ∀ memory, config.timerCapacity ≤ s.core.heap.entries.length + memory →
        (s.core.processCommands memory).1 = .ok) := by
  have hreserved := reserved h
  have hcapacity := hreserved.capacity config hconfig
  refine ⟨?_, fun hrestricted => ?_⟩
  · rw [List.countP_eq_length_filter]
    refine (TimerCore.length_le_size ?_ fun node hnode => ?_).trans hcapacity
    · exact hreserved.heapDistinct.sublist (List.filter_sublist.map _)
    · exact TimerCore.claimed_of_active (List.mem_filter.mp hnode).2
  · have howned := owned hrestricted
    refine ⟨(TimerCore.length_le_size hreserved.heapDistinct howned).trans hcapacity, ?_⟩
    intro memory hmemory
    unfold TimerCore.processCommands
    rw [if_neg (by rw [hconfig]; exact Bool.false_ne_true)]
    exact howned.consume_ok hreserved.distinct (hcapacity.trans hmemory)

/-- A core for one timer; the timer for time 10 came into the heap and was cancelled, and one for
time 5 is scheduled instead. -/
def replacedTimer : TimerState Unit := after
  [.init ⟨1, 1⟩ false, .schedule 10 () false {} false, .processCommands 1, .cancel ⟨1, 1⟩,
    .schedule 5 () false {} false]

/-- The timer thread carries out the command. -/
def overfullTimer : TimerState Unit :=
  { replacedTimer with core := (replacedTimer.core.processCommands 1).2 }

theorem overfullTimer_reachable : (timerSystem Unit).Reachable overfullTimer :=
  .step (l := .processCommands 1) (after_reachable _) (.processCommands (by decide +kernel) _)

/-- A core for two timers; one is cancelled before its command is carried out, and once more when
it is gone. -/
def withdrawnTimer : TimerState Unit :=
  System.walk (fun s l => if CancelsOutsideHeap s l then next s l else none)
    [.init ⟨2, 2⟩ false, .schedule 10 () false {} false, .schedule 5 () false {} false,
      .cancel ⟨2, 2⟩, .processCommands 2, .cancel ⟨2, 2⟩, .schedule 20 () false {} false] {}

/-- The theorem for a heap with a stale node, and for a run in which timers are cancelled outside of
the heap. -/
theorem heap_within_capacity_withdrawn :
    overfullTimer.core.heap.entries.countP (fun node => overfullTimer.core.active node.id) ≤ 1 ∧
    withdrawnTimer.cancelled = [⟨2, 2⟩] ∧ withdrawnTimer.core.heap.entries.length ≤ 2 ∧
    (withdrawnTimer.core.processCommands 1).1 = .ok := by
  have hrun : ((timerSystem Unit).restrict CancelsOutsideHeap).Reachable withdrawnTimer := by
    refine System.Reachable.leads (.init rfl) (System.leads_walk (fun s l s' h => ?_) _ _)
    obtain ⟨houtside, hnext⟩ := Option.ite_none_right_eq_some.mp h
    exact ⟨step_of_next s l s' hnext, houtside⟩
  have hconfig : withdrawnTimer.core.config = some ⟨2, 2⟩ := by decide +kernel
  obtain ⟨hlength, hcommands⟩ := (heap_within_capacity hrun.of_restrict hconfig).2 hrun
  have hoverfull : overfullTimer.core.config = some ⟨1, 1⟩ := by decide +kernel
  exact ⟨(heap_within_capacity overfullTimer_reachable hoverfull).1, by decide +kernel, hlength,
    hcommands 1 (by decide +kernel)⟩

/-- **A heap larger than the memory reserved for it.**  The core allows one timer and its heap
holds the node of a cancelled one; the next command fails without more memory, and with more memory
the heap has two nodes. -/
theorem overfull_heap :
    (timerSystem Unit).Reachable replacedTimer ∧
    replacedTimer.core.config = some ⟨1, 1⟩ ∧
    replacedTimer.core.heap.entries.length = 1 ∧
    (replacedTimer.core.processCommands 0).1 = .internalError ∧
    (timerSystem Unit).Reachable overfullTimer ∧
    overfullTimer.core.heap.entries.length = 2 := by
  refine ⟨after_reachable _, ?_, ?_, ?_, overfullTimer_reachable, ?_⟩
  · decide +kernel
  · decide +kernel
  · decide +kernel
  · decide +kernel

end TimerState

end AegisFlow
