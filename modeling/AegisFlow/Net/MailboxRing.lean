import AegisFlow.Collections.Ring
import AegisFlow.Net.Completion

/-!
# The ring of a loop mailbox

`LoopMailbox` of `Net/Completion` is a list with its accounting.  The program keeps a vector of
optional completions instead, with the position of the oldest one, the position of the next one,
the number of completions and the number of their bytes, each updated on its own.  `MailboxRing`
is that vector, with the arithmetic of `size_t`.

* `MailboxRing.Models` : the ring holds the completions of a list mailbox, its free slots hold
  nothing, and the counters agree.
* `Models.tryPost`, `Models.tryPop`, `Models.close` : **the ring refines the list**, whatever the
  write to the event descriptor returns.
* `MailboxRing.bounded_fifo` : what the ring holds after any calls, in terms of what was accepted
  and what was taken out.
-/

namespace AegisFlow

namespace LoopMailbox

/-- The mailbox takes the completion, provided that the loop can be woken. -/
structure Admits (box : LoopMailbox) (completion : BusinessCompletion) : Prop where
  valid : ¬ (!completion.valid) = true
  size : ¬ box.maxCompletionBytes < completion.responseFrame.length
  accepting : ¬ (!box.accepting) = true
  room : ¬ box.queue.length = box.capacity
  bytes : ¬ box.byteCapacity - box.bufferedBytes < completion.responseFrame.length

/-- The mailbox after an accepted post. -/
structure Appended (box : LoopMailbox) (completion : BusinessCompletion) (box' : LoopMailbox) :
    Prop where
  queue : box'.queue = box.queue ++ [completion]
  bytes : box'.bufferedBytes = box.bufferedBytes + completion.responseFrame.length
  capacity : box'.capacity = box.capacity
  byteCapacity : box'.byteCapacity = box.byteCapacity
  maxCompletionBytes : box'.maxCompletionBytes = box.maxCompletionBytes
  accepting : box'.accepting = box.accepting

variable {box : LoopMailbox} {completion : BusinessCompletion} {wake : Bool}

theorem tryPost_refused (h : ¬ (box.Admits completion ∧ wake = true)) :
    box.tryPost completion wake = (false, box) := by
  unfold tryPost
  split_ifs with hvalid hmax haccepting hfull hbytes hwake
  · rfl
  · rfl
  · rfl
  · rfl
  · rfl
  · rfl
  · refine absurd ⟨⟨hvalid, hmax, haccepting, hfull, hbytes⟩, ?_⟩ h
    simpa using hwake

theorem tryPost_admitted (h : box.Admits completion) :
    (box.tryPost completion true).1 = true ∧
      box.Appended completion (box.tryPost completion true).2 := by
  unfold tryPost
  rw [if_neg h.valid, if_neg h.size, if_neg h.accepting, dif_neg h.room, dif_neg h.bytes,
    if_neg (by decide)]
  exact ⟨rfl, rfl, rfl, rfl, rfl, rfl, rfl⟩

/-- The mailbox after its oldest completion is taken. -/
structure Removed (box : LoopMailbox) (completion : BusinessCompletion) (box' : LoopMailbox) :
    Prop where
  queue : box.queue = completion :: box'.queue
  bytes : box.bufferedBytes = box'.bufferedBytes + completion.responseFrame.length
  capacity : box'.capacity = box.capacity
  byteCapacity : box'.byteCapacity = box.byteCapacity
  maxCompletionBytes : box'.maxCompletionBytes = box.maxCompletionBytes
  accepting : box'.accepting = box.accepting

theorem tryPop_nil (h : box.queue = []) : box.tryPop = none := by
  unfold tryPop
  split
  case h_1 => rfl
  case h_2 hq =>
    rw [h] at hq
    cases hq

theorem tryPop_cons {rest : List BusinessCompletion} (h : box.queue = completion :: rest) :
    ∃ box', box.tryPop = some (completion, box') ∧ box.Removed completion box' := by
  have hbytes := box.bytes_eq
  rw [h, List.map_cons, List.sum_cons] at hbytes
  unfold tryPop
  split
  case h_1 hq =>
    rw [h] at hq
    cases hq
  case h_2 hq =>
    have hsame := hq
    rw [h] at hsame
    cases hsame
    exact ⟨_, rfl, hq, by dsimp only; omega, rfl, rfl, rfl, rfl⟩

end LoopMailbox

/-- What the write to the event descriptor returns, once it is not interrupted. -/
inductive WakeWrite
  /-- All eight bytes are written. -/
  | written
  /-- `EAGAIN`: the counter of the descriptor is at its maximum, so the loop will wake up. -/
  | again
  /-- Any other error. -/
  | failed
  deriving DecidableEq, Repr

/-- The vector of a mailbox with `n` slots. -/
structure MailboxRing (n : ℕ) where
  ring : Ring BusinessCompletion n
  bufferedBytes : ℕ
  byteCapacity : ℕ
  maxCompletionBytes : ℕ
  accepting : Bool

namespace MailboxRing

/-- Bytes of a frame. -/
def frameBytes (completion : BusinessCompletion) : ℕ := completion.responseFrame.length

variable {n : ℕ} [NeZero n]

/-- A new mailbox; the bounds must make sense. -/
def create (byteCapacity maxCompletionBytes : ℕ) : Option (MailboxRing n) :=
  if byteCapacity = 0 ∨ maxCompletionBytes = 0 ∨ byteCapacity < maxCompletionBytes then none
  else some ⟨Ring.empty, 0, byteCapacity, maxCompletionBytes, true⟩

/-- The ring with the completion in it. -/
def posted (m : MailboxRing n) (completion : BusinessCompletion) : MailboxRing n :=
  { m with
    ring := m.ring.push completion
    bufferedBytes := (m.bufferedBytes + frameBytes completion) % 2 ^ 64 }

/-- The ring with the completion taken back. -/
def takenBack (m : MailboxRing n) (completion : BusinessCompletion) : MailboxRing n :=
  { m.posted completion with
    ring := (m.posted completion).ring.unpush m.ring.tail
    bufferedBytes := sizeSub (m.posted completion).bufferedBytes (frameBytes completion) }

/-- Post a completion: it is put into the ring first, and taken back if the loop cannot be
woken. -/
def tryPost (m : MailboxRing n) (completion : BusinessCompletion) (wake : WakeWrite) :
    Bool × MailboxRing n :=
  if !completion.valid then (false, m)
  else if m.maxCompletionBytes < frameBytes completion then (false, m)
  else if !m.accepting then (false, m)
  else if m.ring.size = n then (false, m)
  else if sizeSub m.byteCapacity m.bufferedBytes < frameBytes completion then (false, m)
  else match wake with
    | .written => (true, m.posted completion)
    | .again => (true, m.posted completion)
    | .failed => (false, m.takenBack completion)

/-- Empty the slot at the head.  Reading an empty slot is undefined; it counts as zero bytes. -/
def release (m : MailboxRing n) : MailboxRing n :=
  { m with
    ring := m.ring.pop.2
    bufferedBytes := sizeSub m.bufferedBytes ((m.ring.slots m.ring.head).elim 0 frameBytes) }

/-- Take the oldest completion. -/
def tryPop (m : MailboxRing n) : Option BusinessCompletion × MailboxRing n :=
  if m.ring.size = 0 then (none, m) else (m.ring.pop.1, m.release)

/-- Empty `count` slots, one after the other. -/
def releaseAll : (count : ℕ) → MailboxRing n → MailboxRing n
  | 0, m => m
  | count + 1, m => releaseAll count m.release

/-- Refuse further completions and drop those that wait. -/
def close (m : MailboxRing n) : MailboxRing n :=
  let emptied := releaseAll m.ring.size { m with accepting := false }
  { emptied with
    ring := { emptied.ring with tail := emptied.ring.head }
    bufferedBytes := 0 }

/-! ### The ring refines the list -/

/-- The ring holds the completions of the list mailbox and nothing else; the counters agree. -/
structure Models (m : MailboxRing n) (box : LoopMailbox) : Prop where
  ring : m.ring.Represents box.queue
  vacant : m.ring.Vacant
  capacity : box.capacity = n
  bytes : m.bufferedBytes = box.bufferedBytes
  byteCapacity : m.byteCapacity = box.byteCapacity
  maxCompletionBytes : m.maxCompletionBytes = box.maxCompletionBytes
  accepting : m.accepting = box.accepting
  range : m.byteCapacity < 2 ^ 64

theorem models_create {byteCapacity maxCompletionBytes : ℕ} {m : MailboxRing n}
    (hrange : byteCapacity < 2 ^ 64) (h : create byteCapacity maxCompletionBytes = some m) :
    m.Models (.empty n byteCapacity maxCompletionBytes) := by
  obtain ⟨-, h⟩ := Option.ite_none_left_eq_some.mp h
  cases h
  exact ⟨Ring.represents_empty, Ring.vacant_empty, rfl, rfl, rfl, rfl, rfl, hrange⟩

variable {m : MailboxRing n} {box : LoopMailbox}

/-- The bytes left are computed without wrapping. -/
theorem Models.bytesLeft (h : m.Models box) :
    sizeSub m.byteCapacity m.bufferedBytes = box.byteCapacity - box.bufferedBytes := by
  rw [h.byteCapacity, h.bytes]
  exact sizeSub_of_le box.bytes_le

/-- The ring takes the completion, provided that the loop can be woken. -/
structure Admits (m : MailboxRing n) (completion : BusinessCompletion) : Prop where
  valid : ¬ (!completion.valid) = true
  size : ¬ m.maxCompletionBytes < frameBytes completion
  accepting : ¬ (!m.accepting) = true
  room : ¬ m.ring.size = n
  bytes : ¬ sizeSub m.byteCapacity m.bufferedBytes < frameBytes completion

theorem Models.admits_iff (h : m.Models box) (completion : BusinessCompletion) :
    m.Admits completion ↔ box.Admits completion := by
  have hsize : m.ring.size = box.queue.length := h.ring.size
  constructor
  · rintro ⟨hvalid, hmax, haccepting, hroom, hbytes⟩
    rw [h.maxCompletionBytes] at hmax
    rw [h.accepting] at haccepting
    rw [hsize, ← h.capacity] at hroom
    rw [h.bytesLeft] at hbytes
    exact ⟨hvalid, hmax, haccepting, hroom, hbytes⟩
  · rintro ⟨hvalid, hmax, haccepting, hroom, hbytes⟩
    rw [← h.maxCompletionBytes] at hmax
    rw [← h.accepting] at haccepting
    rw [← hsize, h.capacity] at hroom
    rw [← h.bytesLeft] at hbytes
    exact ⟨hvalid, hmax, haccepting, hroom, hbytes⟩

theorem tryPost_refused {completion : BusinessCompletion} (h : ¬ m.Admits completion)
    (wake : WakeWrite) : m.tryPost completion wake = (false, m) := by
  unfold MailboxRing.tryPost
  by_cases hvalid : (!completion.valid) = true
  · rw [if_pos hvalid]
  by_cases hmax : m.maxCompletionBytes < frameBytes completion
  · rw [if_neg hvalid, if_pos hmax]
  by_cases haccepting : (!m.accepting) = true
  · rw [if_neg hvalid, if_neg hmax, if_pos haccepting]
  by_cases hroom : m.ring.size = n
  · rw [if_neg hvalid, if_neg hmax, if_neg haccepting, if_pos hroom]
  by_cases hbytes : sizeSub m.byteCapacity m.bufferedBytes < frameBytes completion
  · rw [if_neg hvalid, if_neg hmax, if_neg haccepting, if_neg hroom, if_pos hbytes]
  exact absurd ⟨hvalid, hmax, haccepting, hroom, hbytes⟩ h

theorem tryPost_admitted (h : m.Admits completion) (wake : WakeWrite) :
    m.tryPost completion wake =
      if wake = .failed then (false, m.takenBack completion) else (true, m.posted completion) := by
  unfold MailboxRing.tryPost
  rw [if_neg h.valid, if_neg h.size, if_neg h.accepting, if_neg h.room, if_neg h.bytes]
  cases wake with
  | written => rfl
  | again => rfl
  | failed => rfl

section

variable (h : m.Models box) (hadmits : box.Admits completion)
include h hadmits

/-- The bytes with the completion fit the capacity, so their sum does not wrap. -/
theorem Models.bytes_posted :
    (m.posted completion).bufferedBytes = box.bufferedBytes + frameBytes completion := by
  have hle := box.bytes_le
  have hrange := h.range
  have hcapacity := h.byteCapacity
  have hfits : ¬ box.byteCapacity - box.bufferedBytes < frameBytes completion := hadmits.bytes
  change (m.bufferedBytes + frameBytes completion) % 2 ^ 64 = _
  rw [h.bytes]
  exact Nat.mod_eq_of_lt (by omega)

theorem Models.room : m.ring.size < n :=
  lt_of_le_of_ne h.ring.size_le ((h.admits_iff completion).mpr hadmits).room

theorem Models.posted {box' : LoopMailbox} (hbox : box.Appended completion box') :
    (m.posted completion).Models box' where
  ring := by
    rw [hbox.queue]
    exact h.ring.push (h.room hadmits)
  vacant := h.vacant.push h.ring (h.room hadmits)
  capacity := hbox.capacity.trans h.capacity
  bytes := (h.bytes_posted hadmits).trans hbox.bytes.symm
  byteCapacity := h.byteCapacity.trans hbox.byteCapacity.symm
  maxCompletionBytes := h.maxCompletionBytes.trans hbox.maxCompletionBytes.symm
  accepting := h.accepting.trans hbox.accepting.symm
  range := h.range

/-- **Taking a completion back leaves no trace of it.** -/
theorem Models.takenBack : m.takenBack completion = m := by
  have hring : (m.posted completion).ring.unpush m.ring.tail = m.ring :=
    Ring.unpush_push h.ring h.vacant (h.room hadmits)
  have hbytes : sizeSub (m.posted completion).bufferedBytes (frameBytes completion) =
      m.bufferedBytes := by
    rw [h.bytes_posted hadmits, sizeSub_of_le (Nat.le_add_left _ _), Nat.add_sub_cancel, h.bytes]
  unfold MailboxRing.takenBack
  rw [hring, hbytes]
  rfl

end

/-- A post has the same outcome in the ring; if it is refused, the ring is as it was. -/
theorem Models.tryPost (h : m.Models box) (completion : BusinessCompletion) (wake : WakeWrite) :
    (m.tryPost completion wake).1 = (box.tryPost completion (wake != .failed)).1 ∧
    (m.tryPost completion wake).2.Models (box.tryPost completion (wake != .failed)).2 ∧
    ((m.tryPost completion wake).1 = false → (m.tryPost completion wake).2 = m) := by
  by_cases hadmits : box.Admits completion
  · have hring := (h.admits_iff completion).mpr hadmits
    by_cases hwake : wake = .failed
    · subst hwake
      rw [tryPost_admitted hring, if_pos rfl, h.takenBack hadmits,
        LoopMailbox.tryPost_refused (fun hpost => absurd hpost.2 (by decide))]
      exact ⟨rfl, h, fun _ => rfl⟩
    · have hwoken : (wake != .failed) = true := bne_iff_ne.mpr hwake
      obtain ⟨htrue, happended⟩ := LoopMailbox.tryPost_admitted hadmits
      rw [tryPost_admitted hring, if_neg hwake, hwoken]
      exact ⟨htrue.symm, h.posted hadmits happended, nofun⟩
  · rw [tryPost_refused (fun hring => hadmits ((h.admits_iff completion).mp hring)),
      LoopMailbox.tryPost_refused (fun hpost => hadmits hpost.1)]
    exact ⟨rfl, h, fun _ => rfl⟩

/-- Emptying the slot at the head takes the oldest completion; the bytes do not wrap. -/
theorem Models.release (h : m.Models box) {completion : BusinessCompletion} {box' : LoopMailbox}
    (hbox : box.Removed completion box') :
    m.ring.pop.1 = some completion ∧ m.release.Models box' := by
  have hring : m.ring.Represents (completion :: box'.queue) := hbox.queue ▸ h.ring
  obtain ⟨hfirst, hrest⟩ := hring.pop
  have hslot : m.ring.slots m.ring.head = some completion := hfirst
  have hbytes : m.release.bufferedBytes = box'.bufferedBytes := by
    change sizeSub m.bufferedBytes ((m.ring.slots m.ring.head).elim 0 frameBytes) = _
    rw [hslot, h.bytes, hbox.bytes]
    exact (sizeSub_of_le (Nat.le_add_left _ _)).trans (Nat.add_sub_cancel _ _)
  exact ⟨hfirst, hrest, h.vacant.pop, hbox.capacity.trans h.capacity, hbytes,
    h.byteCapacity.trans hbox.byteCapacity.symm,
    h.maxCompletionBytes.trans hbox.maxCompletionBytes.symm,
    h.accepting.trans hbox.accepting.symm, h.range⟩

/-- Taking a completion has the same outcome in the ring. -/
theorem Models.tryPop (h : m.Models box) :
    m.tryPop.1 = box.queue.head? ∧
    ∃ box', m.tryPop.2.Models box' ∧ box'.queue = box.queue.tail ∧
      box'.accepting = box.accepting ∧ box' = (box.tryPop.map Prod.snd).getD box := by
  have hsize : m.ring.size = box.queue.length := h.ring.size
  unfold MailboxRing.tryPop
  cases hqueue : box.queue with
  | nil =>
    rw [hqueue, List.length_nil] at hsize
    rw [if_pos hsize, LoopMailbox.tryPop_nil hqueue]
    exact ⟨rfl, box, h, hqueue, rfl, rfl⟩
  | cons completion rest =>
    rw [hqueue, List.length_cons] at hsize
    obtain ⟨box', hpop, hbox⟩ := LoopMailbox.tryPop_cons hqueue
    obtain ⟨hfirst, hmodels⟩ := h.release hbox
    rw [if_neg (by omega), hpop]
    have hsame := hbox.queue
    rw [hqueue] at hsame
    exact ⟨hfirst, box', hmodels, (List.cons.inj hsame).2.symm, hbox.accepting, rfl⟩

/-- Emptying as many slots as are in use leaves an empty ring. -/
theorem Models.releaseAll (h : m.Models box) :
    (releaseAll box.queue.length m).ring.size = 0 ∧
      (releaseAll box.queue.length m).ring.Vacant := by
  -- By induction on the completions that wait.
  induction hqueue : box.queue generalizing m box with
  | nil =>
    have hsize := h.ring.size
    rw [hqueue] at hsize
    exact ⟨hsize, h.vacant⟩
  | cons completion rest ih =>
    obtain ⟨box', -, hbox⟩ := LoopMailbox.tryPop_cons hqueue
    have hsame := hbox.queue
    rw [hqueue] at hsame
    exact ih (h.release hbox).2 (List.cons.inj hsame).2.symm

@[simp] theorem releaseAll_byteCapacity (count : ℕ) (m : MailboxRing n) :
    (releaseAll count m).byteCapacity = m.byteCapacity := by
  induction count generalizing m with
  | zero => rfl
  | succ count ih => exact ih m.release

@[simp] theorem releaseAll_maxCompletionBytes (count : ℕ) (m : MailboxRing n) :
    (releaseAll count m).maxCompletionBytes = m.maxCompletionBytes := by
  induction count generalizing m with
  | zero => rfl
  | succ count ih => exact ih m.release

@[simp] theorem releaseAll_accepting (count : ℕ) (m : MailboxRing n) :
    (releaseAll count m).accepting = m.accepting := by
  induction count generalizing m with
  | zero => rfl
  | succ count ih => exact ih m.release

/-- Closing empties the ring. -/
theorem Models.close (h : m.Models box) : m.close.Models box.close := by
  have hclosed : Models { m with accepting := false } { box with accepting := false } :=
    ⟨h.ring, h.vacant, h.capacity, h.bytes, h.byteCapacity, h.maxCompletionBytes, rfl, h.range⟩
  obtain ⟨hsize, hvacant⟩ := hclosed.releaseAll
  unfold MailboxRing.close
  rw [h.ring.size]
  refine ⟨Ring.represents_nil hsize, hvacant, h.capacity, rfl, ?_, ?_, ?_, ?_⟩
  · exact (releaseAll_byteCapacity _ _).trans h.byteCapacity
  · exact (releaseAll_maxCompletionBytes _ _).trans h.maxCompletionBytes
  · exact releaseAll_accepting _ _
  · exact lt_of_eq_of_lt (releaseAll_byteCapacity _ _) h.range

/-! ### What the ring holds -/

/-- The calls of a mailbox. -/
inductive Call
  | tryPost (completion : BusinessCompletion) (wake : WakeWrite)
  | tryPop
  | close
  deriving DecidableEq, Repr

/-- What has happened to a mailbox. -/
structure Log where
  /-- Completions whose post returned `true`. -/
  accepted : List BusinessCompletion := []
  /-- Completions taken out, oldest first. -/
  popped : List BusinessCompletion := []
  closed : Bool := false
  deriving DecidableEq, Repr

/-- Accepted and not yet taken out. -/
def Log.unpopped (log : Log) : List BusinessCompletion := log.accepted.drop log.popped.length

/-- Accepted, not yet taken out and not dropped when the mailbox was closed. -/
def Log.waiting (log : Log) : List BusinessCompletion := if log.closed then [] else log.unpopped

/-- Answer a call and log it. -/
def serve (s : MailboxRing n × Log) : Call → MailboxRing n × Log
  | .tryPost completion wake =>
    ((s.1.tryPost completion wake).2,
      if (s.1.tryPost completion wake).1 then
        { s.2 with accepted := s.2.accepted ++ [completion] }
      else s.2)
  | .tryPop =>
    (s.1.tryPop.2, { s.2 with popped := s.2.popped ++ s.1.tryPop.1.toList })
  | .close => (s.1.close, { s.2 with closed := true })

/-- The ring and the log after some calls. -/
def after (m : MailboxRing n) (calls : List Call) : MailboxRing n × Log :=
  calls.foldl serve (m, {})

/-- What is known between two calls: the ring models a list mailbox with the completions that
wait, those taken out were accepted in that order, and a closed mailbox accepts nothing. -/
structure Logged (s : MailboxRing n × Log) : Prop where
  models : ∃ box, s.1.Models box ∧ box.queue = s.2.waiting ∧
    (s.2.closed = true → box.accepting = false)
  order : s.2.popped <+: s.2.accepted

variable {s : MailboxRing n × Log}

omit [NeZero n] in
/-- What was accepted is what was taken out, followed by the rest. -/
theorem Log.accepted_eq {log : Log} (h : log.popped <+: log.accepted) :
    log.accepted = log.popped ++ log.unpopped := by
  obtain ⟨rest, hrest⟩ := h
  rw [Log.unpopped, ← hrest, List.drop_left]

theorem Logged.tryPost (h : Logged s) (completion : BusinessCompletion) (wake : WakeWrite) :
    Logged (serve s (.tryPost completion wake)) := by
  obtain ⟨box, hmodels, hqueue, hclosed⟩ := h.models
  obtain ⟨hreply, hnext, -⟩ := hmodels.tryPost completion wake
  rw [serve]
  by_cases hpost : box.Admits completion ∧ (wake != .failed) = true
  · obtain ⟨hadmits, hwake⟩ := hpost
    obtain ⟨htrue, happended⟩ := LoopMailbox.tryPost_admitted hadmits
    rw [hwake] at hreply hnext
    -- A closed mailbox would not have accepted the completion.
    have hopen : s.2.closed = false := by
      by_contra hne
      have hrefuse := hclosed (Bool.not_eq_false _ ▸ hne)
      exact hadmits.accepting (by rw [hrefuse]; rfl)
    have hlength := h.order.length_le
    rw [hreply, htrue, if_pos rfl]
    refine ⟨⟨_, hnext, ?_, ?_⟩, h.order.trans (List.prefix_append _ _)⟩
    · rw [Log.waiting, hopen, if_neg Bool.false_ne_true] at hqueue
      rw [happended.queue, hqueue, Log.waiting]
      change _ = if s.2.closed = true then [] else _
      rw [hopen, if_neg Bool.false_ne_true]
      exact (List.drop_append_of_le_length hlength).symm
    · intro hnow
      rw [hopen] at hnow
      cases hnow
  · rw [LoopMailbox.tryPost_refused hpost] at hreply hnext
    rw [hreply, if_neg Bool.false_ne_true]
    exact ⟨⟨box, hnext, hqueue, hclosed⟩, h.order⟩

theorem Logged.tryPop (h : Logged s) : Logged (serve s .tryPop) := by
  obtain ⟨box, hmodels, hqueue, hclosed⟩ := h.models
  obtain ⟨hreply, box', hnext, htail, haccepting, -⟩ := hmodels.tryPop
  have haccepted := Log.accepted_eq h.order
  rw [serve, hreply, hqueue]
  cases hstate : s.2.closed with
  | true =>
    have hnone : s.2.waiting = [] := if_pos hstate
    rw [hqueue, hnone] at htail
    rw [hnone, List.head?_nil, Option.toList_none, List.append_nil]
    exact ⟨⟨box', hnext, htail.trans hnone.symm, fun hc => haccepting.trans (hclosed hc)⟩, h.order⟩
  | false =>
    have hsome : s.2.waiting = s.2.unpopped := if_neg (by rw [hstate]; decide)
    rw [hqueue, hsome] at htail
    rw [hsome]
    refine ⟨⟨box', hnext, ?_, fun hc => haccepting.trans (hclosed hc)⟩, ?_⟩
    · rw [htail]
      change _ = if s.2.closed = true then [] else
        s.2.accepted.drop (s.2.popped ++ s.2.unpopped.head?.toList).length
      rw [hstate, if_neg Bool.false_ne_true, List.length_append, ← List.drop_drop]
      change _ = s.2.unpopped.drop _
      cases s.2.unpopped with
      | nil => rfl
      | cons _ _ => rfl
    · change s.2.popped ++ s.2.unpopped.head?.toList <+: s.2.accepted
      rw [haccepted]
      refine (List.prefix_append_right_inj _).mpr ?_
      cases s.2.unpopped with
      | nil => exact List.nil_prefix
      | cons first rest => exact ⟨rest, rfl⟩

theorem Logged.serve (h : Logged s) (call : Call) : Logged (serve s call) := by
  cases call with
  | tryPost completion wake => exact h.tryPost completion wake
  | tryPop => exact h.tryPop
  | close =>
    obtain ⟨box, hmodels, -, -⟩ := h.models
    exact ⟨⟨box.close, hmodels.close, rfl, fun _ => rfl⟩, h.order⟩

theorem Logged.foldl (h : Logged s) (calls : List Call) :
    Logged (calls.foldl MailboxRing.serve s) := by
  induction calls generalizing s with
  | nil => exact h
  | cons call calls ih => exact ih (h.serve call)

/-- The ring is a bounded queue of the completions that wait. -/
structure BoundedFifo (s : MailboxRing n × Log) : Prop where
  /-- The slots from the head on hold the completions that wait, oldest first. -/
  contents : s.1.ring.Represents s.2.waiting
  /-- The other slots hold nothing. -/
  vacant : s.1.ring.Vacant
  /-- The bytes counted are those of the frames that wait. -/
  bytes : s.1.bufferedBytes = (s.2.waiting.map frameBytes).sum
  bytes_le : s.1.bufferedBytes ≤ s.1.byteCapacity
  /-- The bytes left are computed without wrapping. -/
  bytesLeft : sizeSub s.1.byteCapacity s.1.bufferedBytes = s.1.byteCapacity - s.1.bufferedBytes
  /-- Completions have come out in the order in which they were accepted. -/
  order : s.2.popped <+: s.2.accepted
  /-- The oldest comes out next. -/
  next : s.1.tryPop.1 = s.2.waiting.head?
  /-- A post that is refused leaves no trace. -/
  refused : ∀ completion wake, (s.1.tryPost completion wake).1 = false →
    (s.1.tryPost completion wake).2 = s.1

theorem Logged.boundedFifo (h : Logged s) : BoundedFifo s := by
  obtain ⟨box, hmodels, hqueue, -⟩ := h.models
  have hle : s.1.bufferedBytes ≤ s.1.byteCapacity := by
    rw [hmodels.bytes, hmodels.byteCapacity]
    exact box.bytes_le
  refine ⟨hqueue ▸ hmodels.ring, hmodels.vacant, ?_, hle, sizeSub_of_le hle, h.order, ?_, ?_⟩
  · rw [hmodels.bytes, box.bytes_eq, hqueue]
    rfl
  · rw [hmodels.tryPop.1, hqueue]
  · intro completion wake
    exact (hmodels.tryPost completion wake).2.2

/-- **The mailbox is a bounded queue with exact accounting.**  After any calls of a new mailbox,
whatever the writes to its event descriptor return, the ring holds exactly the completions that
were accepted and neither taken out nor dropped by closing the mailbox. -/
theorem bounded_fifo {byteCapacity maxCompletionBytes : ℕ} {m : MailboxRing n}
    (hrange : byteCapacity < 2 ^ 64) (hcreate : create byteCapacity maxCompletionBytes = some m)
    (calls : List Call) : BoundedFifo (after m calls) := by
  have hnew : Logged (m, {}) :=
    ⟨⟨_, models_create hrange hcreate, rfl, fun h => absurd h Bool.false_ne_true⟩, List.nil_prefix⟩
  exact (hnew.foldl calls).boundedFifo

/-- An empty mailbox with two slots and eight bytes. -/
def smallMailbox : MailboxRing 2 := ⟨Ring.empty, 0, 8, 8, true⟩

/-- A completion with a frame of `bytes` bytes. -/
def smallCompletion (bytes : ℕ) : BusinessCompletion where
  token := { fd := 3, generation := 1 }
  status := .response
  responseFrame := List.replicate bytes 7

/-- Two completions fill the mailbox, a third is refused; when the first is taken out, there is room
for another one, but the loop cannot be woken. -/
def smallCalls : List Call :=
  [.tryPost (smallCompletion 3) .written, .tryPost (smallCompletion 5) .again,
    .tryPost (smallCompletion 1) .written, .tryPop, .tryPost (smallCompletion 2) .failed]

theorem bounded_fifo_small :
    (after smallMailbox smallCalls).1.bufferedBytes = 5 ∧
    (after smallMailbox smallCalls).2.waiting = [smallCompletion 5] ∧
    BoundedFifo (after smallMailbox smallCalls) := by
  have hcreate : create 8 8 = some smallMailbox := rfl
  exact ⟨by decide, by decide, bounded_fifo (by decide) hcreate smallCalls⟩

/-- Closing the mailbox drops what was accepted and not taken out. -/
theorem close_drops_accepted :
    (after smallMailbox [.tryPost (smallCompletion 3) .written, .close]).2.unpopped =
      [smallCompletion 3] ∧
    ¬ (after smallMailbox [.tryPost (smallCompletion 3) .written, .close]).1.ring.Represents
      (after smallMailbox [.tryPost (smallCompletion 3) .written, .close]).2.unpopped := by
  refine ⟨rfl, fun h => ?_⟩
  have hsize := h.size
  exact absurd hsize (by decide)

end MailboxRing

end AegisFlow
