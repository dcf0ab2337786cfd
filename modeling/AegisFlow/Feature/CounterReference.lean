import AegisFlow.Feature.SlidingCounter

/-!
# What a sliding counter counts

The reference of `SlidingCounter` is a list of additions.  An addition is retained as long as its
bucket is inside the window at its own reading and at every reading since; readings may go back,
and an addition that was once outside is not counted again.

* `CounterCall`, `SlidingCounter.call`, `SlidingCounter.after` : the calls of a counter;
* `retained` : the reference;
* `SlidingCounter.holds_after` : a counter represents the additions retained;
* `SlidingCounter.refines_retained` : **every result is that of the reference**, while the
  additions retained fit into 32 bits.
-/

namespace AegisFlow

/-- A call of a counter. -/
inductive CounterCall
  | add (eventTsMs nowMs delta : ℕ)
  | sum (nowMs : ℕ)
  deriving DecidableEq, Repr

/-- What a call returns. -/
inductive CounterResult
  | added (accepted : Bool)
  | counted (sum : ℕ)
  deriving DecidableEq, Repr

/-- The clock reading of a call. -/
def CounterCall.nowMs : CounterCall → ℕ
  | .add _ nowMs _ => nowMs
  | .sum nowMs => nowMs

/-! ### The reference -/

section Reference

variable (n bucketMs : ℕ)

/-- The addition a call makes, if its bucket is inside the window at its own reading. -/
def CounterCall.addition : CounterCall → Option Addition
  | .add eventTsMs nowMs delta =>
    if InWindow n (nowMs / bucketMs) (eventTsMs / bucketMs) then
      some (eventTsMs / bucketMs, delta)
    else none
  | .sum _ => none

/-- The bucket of an addition is inside the window at every reading of `calls`. -/
def InsideAt (calls : List CounterCall) (a : Addition) : Prop :=
  ∀ c ∈ calls, InWindow n (c.nowMs / bucketMs) a.1

instance (calls : List CounterCall) (a : Addition) : Decidable (InsideAt n bucketMs calls a) :=
  inferInstanceAs (Decidable (∀ c ∈ calls, _))

/-- The additions of `calls` that were inside the window at their own reading and at every later
one. -/
def retained : List CounterCall → List Addition
  | [] => []
  | c :: later =>
    ((c.addition n bucketMs).filter fun a => decide (InsideAt n bucketMs later a)).toList ++
      retained later

/-- What a call returns after the calls `before`. -/
def expected (before : List CounterCall) : CounterCall → CounterResult
  | .add eventTsMs nowMs _ =>
    .added (decide (InWindow n (nowMs / bucketMs) (eventTsMs / bucketMs)))
  | .sum nowMs => .counted (amount (retained n bucketMs (before ++ [.sum nowMs])))

/-- One more call: what left the window is dropped, and what it adds comes last. -/
theorem retained_append (before : List CounterCall) (c : CounterCall) :
    retained n bucketMs (before ++ [c]) =
      (retained n bucketMs before).filter
          (fun a => decide (InWindow n (c.nowMs / bucketMs) a.1)) ++
        (c.addition n bucketMs).toList := by
  induction before with
  | nil =>
    simp only [List.nil_append, retained, List.append_nil, List.filter_nil]
    cases c.addition n bucketMs with
    | none => rfl
    | some a => simp [InsideAt]
  | cons d before ih =>
    have hboth : ∀ a, InsideAt n bucketMs (before ++ [c]) a ↔
        InsideAt n bucketMs before a ∧ InWindow n (c.nowMs / bucketMs) a.1 := by
      intro a
      simp [InsideAt, or_imp, forall_and]
    rw [List.cons_append, retained, ih, retained, List.filter_append, List.append_assoc]
    congr 1
    cases d.addition n bucketMs with
    | none => rfl
    | some a =>
      simp only [Option.filter_some, hboth, Bool.decide_and]
      by_cases h : InsideAt n bucketMs before a
      · by_cases hw : InWindow n (c.nowMs / bucketMs) a.1 <;> simp [h, hw]
      · simp [h]

end Reference

namespace SlidingCounter

variable {n : ℕ} [NeZero n]

/-! ### Calls -/

/-- Make a call. -/
def call (c : SlidingCounter n) : CounterCall → CounterResult × SlidingCounter n
  | .add eventTsMs nowMs delta =>
    (.added (c.add eventTsMs nowMs delta).1, (c.add eventTsMs nowMs delta).2)
  | .sum nowMs => (.counted (c.sum nowMs).1, (c.sum nowMs).2)

/-- The counter after a sequence of calls. -/
def after (c : SlidingCounter n) (calls : List CounterCall) : SlidingCounter n :=
  calls.foldl (fun c call => (c.call call).2) c

@[simp] theorem after_append (c : SlidingCounter n) (calls : List CounterCall)
    (last : CounterCall) : c.after (calls ++ [last]) = ((c.after calls).call last).2 := by
  simp [after]

@[simp] theorem call_bucketMs (c : SlidingCounter n) (call : CounterCall) :
    (c.call call).2.bucketMs = c.bucketMs := by
  cases call with
  | add eventTsMs nowMs delta => exact add_bucketMs _ _ _ _
  | sum nowMs => rfl

/-- A call keeps the additions inside the window at its reading, and makes its own. -/
theorem Holds.call {c : SlidingCounter n} {additions : List Addition} {now : ℕ}
    (h : Holds c additions now) (call : CounterCall) :
    Holds (c.call call).2 (keptAt n (c.bucketOf call.nowMs) additions ++
      (call.addition n c.bucketMs).toList) (c.bucketOf call.nowMs) := by
  cases call with
  | sum nowMs =>
    rw [CounterCall.addition, Option.toList_none, List.append_nil]
    exact h.expire nowMs
  | add eventTsMs nowMs delta =>
    have hadd := h.add eventTsMs nowMs delta
    have hmade : addedAt n (c.bucketOf nowMs) (c.bucketOf eventTsMs) delta =
        ((CounterCall.add eventTsMs nowMs delta).addition n c.bucketMs).toList := by
      by_cases hin : InWindow n (nowMs / c.bucketMs) (eventTsMs / c.bucketMs) <;>
        simp [addedAt, CounterCall.addition, bucketOf, hin]
    rwa [hmade] at hadd

/-! ### Whole runs -/

theorem after_bucketMs (c : SlidingCounter n) (calls : List CounterCall) :
    (c.after calls).bucketMs = c.bucketMs := by
  induction calls using List.reverseRecOn with
  | nil => rfl
  | append_singleton calls call ih => rw [after_append, call_bucketMs, ih]

/-- The counter represents the additions retained. -/
theorem holds_after {bucketMs : ℕ} {h : 0 < bucketMs} (calls : List CounterCall) :
    ∃ now, Holds ((new n bucketMs h).after calls) (retained n bucketMs calls) now := by
  induction calls using List.reverseRecOn with
  | nil => exact ⟨0, .new⟩
  | append_singleton calls call ih =>
    obtain ⟨now, hold⟩ := ih
    have hwidth : ((new n bucketMs h).after calls).bucketMs = bucketMs := after_bucketMs _ _
    have hcall := hold.call call
    rw [bucketOf, hwidth] at hcall
    rw [retained_append, after_append]
    exact ⟨_, hcall⟩

/-- What a call returns, once the counter represents the additions retained. -/
theorem call_result {c : SlidingCounter n} {before : List CounterCall} {now : ℕ}
    (h : Holds c (retained n c.bucketMs before) now) (last : CounterCall)
    (hsmall : amount (retained n c.bucketMs (before ++ [last])) < 2 ^ 32) :
    (c.call last).1 = expected n c.bucketMs before last := by
  cases last with
  | add eventTsMs nowMs delta =>
    simp only [call, add_eq, expected, bucketOf]
    by_cases hin : InWindow n (nowMs / c.bucketMs) (eventTsMs / c.bucketMs) <;> simp [hin]
  | sum nowMs =>
    have happend := retained_append n c.bucketMs before (.sum nowMs)
    rw [CounterCall.addition, Option.toList_none, List.append_nil] at happend
    have hread : (c.sum nowMs).1 =
        amount (retained n c.bucketMs (before ++ [.sum nowMs])) % 2 ^ 32 := by
      rw [h.sum_eq, happend]
      rfl
    simp only [call, expected, hread, Nat.mod_eq_of_lt hsmall]

/-- **A sliding counter equals its reference.**  For every sequence of calls with arbitrary
readings, as long as the additions retained add up to less than `2 ^ 32`: `sum` returns what the
additions add up to whose bucket was inside the window at their own reading and at every reading
since; `add` returns whether the bucket of the event is inside the window; every bucket retained is
in its own slot, and no two of them share one. -/
theorem refines_retained {bucketMs : ℕ} {c : SlidingCounter n}
    (hcreate : create n bucketMs = some c) (before : List CounterCall) (last : CounterCall)
    (hsmall : ∀ calls, calls <+: before ++ [last] →
      amount (retained n bucketMs calls) < 2 ^ 32) :
    ((c.after before).call last).1 = expected n bucketMs before last ∧
    (∀ a ∈ retained n bucketMs (before ++ [last]),
      ((c.after (before ++ [last])).buckets (slotOf n a.1)).occupied = true ∧
      ((c.after (before ++ [last])).buckets (slotOf n a.1)).bucketId = a.1) ∧
    (∀ a ∈ retained n bucketMs (before ++ [last]), ∀ b ∈ retained n bucketMs (before ++ [last]),
      slotOf n a.1 = slotOf n b.1 → a.1 = b.1) := by
  unfold create at hcreate
  split_ifs at hcreate with hpos
  cases hcreate
  have hlast := hsmall _ (List.prefix_refl _)
  obtain ⟨now, hbefore⟩ := holds_after (n := n) (h := hpos) before
  obtain ⟨now', hold⟩ := holds_after (n := n) (h := hpos) (before ++ [last])
  have hwidth : ((new n bucketMs hpos).after before).bucketMs = bucketMs := after_bucketMs _ _
  refine ⟨?_, hold.held, fun a ha b hb hslot => ?_⟩
  · have hresult := @call_result n _ ((new n bucketMs hpos).after before) before now
    rw [hwidth] at hresult
    exact hresult hbefore last hlast
  · rw [← (hold.held a ha).2, ← (hold.held b hb).2, hslot]

/-- Two additions, and a clock that goes back by one bucket. -/
def rolledBackCalls : List CounterCall := [.add 5 5 3, .add 12 15 4, .sum 8]

/-- When the clock has returned, the addition of the later bucket is gone. -/
theorem refines_retained_rollback :
    expected 2 10 rolledBackCalls (.sum 15) = .counted 3 ∧
    (((new 2 10 (by decide)).after rolledBackCalls).call (.sum 15)).1 = .counted 3 := by
  have hexpected : expected 2 10 rolledBackCalls (.sum 15) = .counted 3 := by decide
  have hall : ∀ calls ∈ (rolledBackCalls ++ [CounterCall.sum 15]).inits,
      amount (retained 2 10 calls) < 2 ^ 32 := by decide
  refine ⟨hexpected, ?_⟩
  rw [← hexpected]
  exact (refines_retained (n := 2) rfl _ _ fun calls h => hall calls ((List.mem_inits _ _).2 h)).1

end SlidingCounter

end AegisFlow
