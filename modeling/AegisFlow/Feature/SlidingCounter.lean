import AegisFlow.Window.Basic
import Mathlib.Data.Nat.ModEq
import Mathlib.Tactic.SplitIfs

/-!
# The sliding counter

`SlidingCounter n` counts events over the last `n` buckets of time in a ring of `n` slots and a
running total.  Buckets are not cleared by a timer: every call first runs `expire`, which drops
the slots outside the window at its clock reading.

`SlidingCounter.Holds c additions now` says that `c` represents the additions, at the bucket `now`
of the last reading.  Readings may go back; the slots that then lie in the future are dropped.

* `Holds.expire`, `Holds.add` : every operation keeps the additions that are inside the window at
  its reading, and makes its own;
* `Holds.sum_eq` : what is read is what the additions inside the window add up to, in 32 bits.
-/

namespace AegisFlow

/-- A slot of the ring. -/
structure Bucket where
  /-- The bucket of time the slot counts. -/
  bucketId : ℕ
  /-- Its events, a 32-bit number. -/
  count : ℕ
  occupied : Bool
  deriving DecidableEq, Repr

namespace Bucket

/-- A slot not in use. -/
def vacant : Bucket := ⟨0, 0, false⟩

/-- The slot is in use for a bucket outside the given range. -/
def isStale (minimum nowBucket : ℕ) (b : Bucket) : Bool :=
  b.occupied && !(decide (minimum ≤ b.bucketId) && decide (b.bucketId ≤ nowBucket))

end Bucket

/-- Subtraction of 64-bit unsigned numbers. -/
def sub64 (a b : ℕ) : ℕ := (a + 2 ^ 64 - b) % 2 ^ 64

/-! ### Additions -/

/-- An addition: its bucket and how much was added. -/
abbrev Addition := ℕ × ℕ

/-- What is added up. -/
def amount (additions : List Addition) : ℕ := (additions.map Prod.snd).sum

@[simp] theorem amount_append (additions additions' : List Addition) :
    amount (additions ++ additions') = amount additions + amount additions' := by
  simp [amount]

/-- The additions inside the window at `now`. -/
def keptAt (n now : ℕ) (additions : List Addition) : List Addition :=
  additions.filter fun a => decide (InWindow n now a.1)

/-- An addition made at `now`, if its bucket is inside the window. -/
def addedAt (n now b delta : ℕ) : List Addition := if InWindow n now b then [(b, delta)] else []

/-! ### Counters -/

/-- A counter of events over `n` buckets of time. -/
@[ext]
structure SlidingCounter (n : ℕ) where
  buckets : Fin n → Bucket
  bucketMs : ℕ
  /-- The sum of the slots, a 64-bit number. -/
  total : ℕ
  bucketMs_pos : 0 < bucketMs

namespace SlidingCounter

variable {n : ℕ}

/-- A counter that has seen nothing. -/
def new (n bucketMs : ℕ) (h : 0 < bucketMs) : SlidingCounter n :=
  ⟨fun _ => .vacant, bucketMs, 0, h⟩

/-- Construct a counter; a width of zero is refused. -/
def create (n bucketMs : ℕ) : Option (SlidingCounter n) :=
  if h : 0 < bucketMs then some (new n bucketMs h) else none

/-- The bucket of a point in time. -/
def bucketOf (c : SlidingCounter n) (ms : ℕ) : ℕ := ms / c.bucketMs

/-- The first bucket that is still counted. -/
def minimum (n nowBucket : ℕ) : ℕ :=
  if nowBucket < n - 1 then 0
  -- computed as `nowBucket - n + 1` in 64 bits, which passes through zero for `nowBucket = n - 1`
  else nowBucket + 1 - n

/-- Drop the slots outside the window, those of the future included. -/
def expire (c : SlidingCounter n) (nowMs : ℕ) : SlidingCounter n :=
  let stale := Bucket.isStale (minimum n (c.bucketOf nowMs)) (c.bucketOf nowMs)
  { c with
    buckets := fun i => if stale (c.buckets i) then .vacant else c.buckets i
    total := (List.finRange n).foldl
      (fun total i => if stale (c.buckets i) then sub64 total (c.buckets i).count else total)
      c.total }

/-- Count `delta` events of a bucket inside the window. -/
def record [NeZero n] (c : SlidingCounter n) (eventBucket delta : ℕ) : SlidingCounter n :=
  let bucket := c.buckets (slotOf n eventBucket)
  let reused := !bucket.occupied || bucket.bucketId != eventBucket
  let count := if reused then 0 else bucket.count
  let total := if reused then sub64 c.total bucket.count else c.total
  { c with
    buckets := Function.update c.buckets (slotOf n eventBucket)
      ⟨eventBucket, (count + delta) % 2 ^ 32, true⟩
    total := (total + delta) % 2 ^ 64 }

/-- Count `delta` events; returns whether their bucket is inside the window. -/
def add [NeZero n] (c : SlidingCounter n) (eventTsMs nowMs delta : ℕ) :
    Bool × SlidingCounter n :=
  if c.bucketOf nowMs < c.bucketOf eventTsMs ∨
      n ≤ c.bucketOf nowMs - c.bucketOf eventTsMs then (false, c.expire nowMs)
  else (true, (c.expire nowMs).record (c.bucketOf eventTsMs) delta)

/-- Read the counter, as a 32-bit number. -/
def sum (c : SlidingCounter n) (nowMs : ℕ) : ℕ × SlidingCounter n :=
  ((c.expire nowMs).total % 2 ^ 32, c.expire nowMs)

/-! ### Arithmetic of the running total -/

theorem sub64_zero {a : ℕ} (ha : a < 2 ^ 64) : sub64 a 0 = a := by
  rw [sub64, Nat.sub_zero, Nat.add_mod_right, Nat.mod_eq_of_lt ha]

theorem sub64_add {a b : ℕ} (hb : b < 2 ^ 32) : sub64 a b + b ≡ a [MOD 2 ^ 32] := by
  unfold sub64 Nat.ModEq
  omega

/-- What a loop takes from the total, added again. -/
theorem foldl_sub64 {ι : Type*} (p : ι → Bool) {f : ι → ℕ} (hf : ∀ i, f i < 2 ^ 32) (l : List ι)
    (t : ℕ) :
    l.foldl (fun t i => if p i then sub64 t (f i) else t) t +
      (l.map fun i => if p i then f i else 0).sum ≡ t [MOD 2 ^ 32] := by
  induction l generalizing t with
  | nil => rfl
  | cons i l ih =>
    rw [List.foldl_cons, List.map_cons, List.sum_cons]
    split_ifs with hi
    · rw [Nat.add_left_comm, Nat.add_comm (f i)]
      exact ((ih (sub64 t (f i))).add_right (f i)).trans (sub64_add (hf i))
    · rw [Nat.zero_add]
      exact ih t

theorem foldl_sub64_lt {ι : Type*} (p : ι → Bool) (f : ι → ℕ) (l : List ι) (t : ℕ)
    (ht : t < 2 ^ 64) :
    l.foldl (fun t i => if p i then sub64 t (f i) else t) t < 2 ^ 64 := by
  induction l generalizing t with
  | nil => exact ht
  | cons i l ih =>
    rw [List.foldl_cons]
    refine ih _ ?_
    split_ifs
    · exact Nat.mod_lt _ (Nat.two_pow_pos 64)
    · exact ht

@[simp] theorem add_bucketMs [NeZero n] (c : SlidingCounter n) (ts now delta : ℕ) :
    (c.add ts now delta).2.bucketMs = c.bucketMs := by
  unfold add
  split_ifs <;> rfl

@[simp] theorem add_bucketOf [NeZero n] (c : SlidingCounter n) (ts now delta ms : ℕ) :
    (c.add ts now delta).2.bucketOf ms = c.bucketOf ms := by
  rw [bucketOf, add_bucketMs, bucketOf]

theorem isStale_iff [NeZero n] {nowBucket : ℕ} {b : Bucket} :
    b.isStale (minimum n nowBucket) nowBucket = true ↔
      b.occupied = true ∧ ¬ InWindow n nowBucket b.bucketId := by
  have hn := Nat.pos_of_neZero n
  have hmin : minimum n nowBucket = windowStart n nowBucket := by
    unfold minimum windowStart
    split_ifs <;> omega
  rw [hmin, inWindow_iff]
  simp only [Bucket.isStale, Bool.and_eq_true, Bool.not_eq_true', Bool.and_eq_false_iff,
    decide_eq_false_iff_not, not_and_or]

/-! ### Well-formed counters -/

/-- What holds of a counter whatever the clock did: slots in use are in their place, the others
count nothing. -/
structure Placed [NeZero n] (c : SlidingCounter n) : Prop where
  slot : ∀ i, (c.buckets i).occupied = true → slotOf n (c.buckets i).bucketId = i
  vacant : ∀ i, (c.buckets i).occupied = false → (c.buckets i).count = 0
  total_lt : c.total < 2 ^ 64

/-- A counter that has just expired at the bucket `now`: all slots in use are inside the
window. -/
structure Settled [NeZero n] (c : SlidingCounter n) (now : ℕ) : Prop extends Placed c where
  inside : ∀ i, (c.buckets i).occupied = true → InWindow n now (c.buckets i).bucketId

section

variable [NeZero n] {c : SlidingCounter n} {now nowMs : ℕ}

theorem placed_new {bucketMs : ℕ} {h : 0 < bucketMs} : Placed (new n bucketMs h) where
  slot _ hi := Bool.noConfusion hi
  vacant _ _ := rfl
  total_lt := Nat.two_pow_pos 64

theorem settled_new {bucketMs : ℕ} {h : 0 < bucketMs} : Settled (new n bucketMs h) now where
  toPlaced := placed_new
  inside _ hi := Bool.noConfusion hi

theorem Placed.expire (h : Placed c) : Settled (c.expire nowMs) (c.bucketOf nowMs) where
  slot i hi := by
    simp only [SlidingCounter.expire] at hi ⊢
    split_ifs at hi ⊢
    · exact Bool.noConfusion hi
    · exact h.slot i hi
  vacant i hi := by
    simp only [SlidingCounter.expire] at hi ⊢
    split_ifs at hi ⊢
    · rfl
    · exact h.vacant i hi
  total_lt := foldl_sub64_lt _ _ _ _ h.total_lt
  inside i hi := by
    simp only [SlidingCounter.expire] at hi ⊢
    split_ifs at hi ⊢ with hstale
    · exact Bool.noConfusion hi
    · by_contra hout
      exact hstale (isStale_iff.mpr ⟨hi, hout⟩)

namespace Settled

variable {b : ℕ}

section

variable (h : Settled c now) (hb : InWindow n now b)
include h hb

/-- The slot of a bucket inside the window holds that bucket or nothing. -/
theorem reused_count (hre : (!(c.buckets (slotOf n b)).occupied ||
      (c.buckets (slotOf n b)).bucketId != b) = true) : (c.buckets (slotOf n b)).count = 0 := by
  cases hocc : (c.buckets (slotOf n b)).occupied with
  | false => exact h.vacant _ hocc
  | true =>
    have hid := (h.inside _ hocc).eq_of_slot hb (h.slot _ hocc)
    simp [hocc, hid] at hre

theorem record_total (delta : ℕ) : (c.record b delta).total = (c.total + delta) % 2 ^ 64 := by
  simp only [SlidingCounter.record]
  split_ifs with hre
  · rw [h.reused_count hb hre, sub64_zero h.total_lt]
  · rfl

theorem record_buckets (delta : ℕ) :
    (c.record b delta).buckets = Function.update c.buckets (slotOf n b)
      ⟨b, ((c.buckets (slotOf n b)).count + delta) % 2 ^ 32, true⟩ := by
  simp only [SlidingCounter.record]
  split_ifs with hre
  · rw [h.reused_count hb hre]
  · rfl

theorem record (delta : ℕ) : Settled (c.record b delta) now := by
  have hbuckets := h.record_buckets hb delta
  refine ⟨⟨?_, ?_, ?_⟩, ?_⟩
  · intro i hi
    by_cases hslot : i = slotOf n b
    · subst hslot
      simp [hbuckets]
    · simp only [hbuckets, Function.update_of_ne hslot] at hi ⊢
      exact h.slot i hi
  · intro i hi
    by_cases hslot : i = slotOf n b
    · subst hslot
      simp [hbuckets] at hi
    · simp only [hbuckets, Function.update_of_ne hslot] at hi ⊢
      exact h.vacant i hi
  · rw [h.record_total hb delta]
    exact Nat.mod_lt _ (Nat.two_pow_pos 64)
  · intro i hi
    by_cases hslot : i = slotOf n b
    · subst hslot
      simpa [hbuckets] using hb
    · simp only [hbuckets, Function.update_of_ne hslot] at hi ⊢
      exact h.inside i hi

end

end Settled

end

/-! ### Events of the window -/

/-- The test of `add` is whether the bucket is inside the window. -/
theorem add_eq [NeZero n] (c : SlidingCounter n) (eventTsMs nowMs delta : ℕ) :
    c.add eventTsMs nowMs delta =
      if InWindow n (c.bucketOf nowMs) (c.bucketOf eventTsMs) then
        (true, (c.expire nowMs).record (c.bucketOf eventTsMs) delta)
      else (false, c.expire nowMs) := by
  unfold add
  by_cases hin : InWindow n (c.bucketOf nowMs) (c.bucketOf eventTsMs)
  · rw [if_neg (by have := hin.1; have := hin.2; omega), if_pos hin]
  · rw [if_pos (by unfold InWindow at hin; omega), if_neg hin]

/-- A second expiry within one bucket of time changes nothing. -/
theorem Settled.expire_eq [NeZero n] {c : SlidingCounter n} {now nowMs : ℕ} (h : Settled c now)
    (hnow : c.bucketOf nowMs = now) : c.expire nowMs = c := by
  have hno : ∀ i, (c.buckets i).isStale (minimum n now) now = false := by
    intro i
    rw [Bool.eq_false_iff, Ne, isStale_iff]
    rintro ⟨hocc, hout⟩
    exact hout (h.inside i hocc)
  ext1
  · funext i
    simp [SlidingCounter.expire, hnow, hno]
  · rfl
  · simp [SlidingCounter.expire, hnow, hno]

/-! ### What a counter represents -/

variable [NeZero n]

/-- What the additions of slot `i` add up to. -/
def slotAmount (additions : List Addition) (i : Fin n) : ℕ :=
  amount (additions.filter fun a => decide (slotOf n a.1 = i))

theorem sum_slotAmount (additions : List Addition) :
    ∑ i : Fin n, slotAmount additions i = amount additions :=
  sum_filter_slot _ _ additions

/-- The counter represents the additions, at the bucket of the last reading.  A slot wraps around
at 32 bits, the total at 64: they agree as far as `sum` can tell. -/
structure Holds (c : SlidingCounter n) (additions : List Addition) (now : ℕ) : Prop
    extends Settled c now where
  /-- Every addition is in the slot of its bucket. -/
  held : ∀ a ∈ additions,
    (c.buckets (slotOf n a.1)).occupied = true ∧ (c.buckets (slotOf n a.1)).bucketId = a.1
  count : ∀ i, (c.buckets i).count = slotAmount additions i % 2 ^ 32
  total : c.total ≡ amount additions [MOD 2 ^ 32]

namespace Holds

variable {c : SlidingCounter n} {additions : List Addition} {now : ℕ}

theorem new {bucketMs : ℕ} {h : 0 < bucketMs} : Holds (SlidingCounter.new n bucketMs h) [] now where
  toSettled := settled_new
  held _ ha := absurd ha List.not_mem_nil
  count _ := rfl
  total := rfl

section

variable (h : Holds c additions now)
include h

theorem count_lt (i : Fin n) : (c.buckets i).count < 2 ^ 32 := by
  rw [h.count]
  exact Nat.mod_lt _ (Nat.two_pow_pos 32)

theorem sum_count : ∑ i, (c.buckets i).count ≡ amount additions [MOD 2 ^ 32] := by
  simp only [h.count]
  rw [Nat.ModEq, ← Finset.sum_nat_mod, sum_slotAmount]

/-- An addition leaves with its slot. -/
theorem inWindow_iff_not_stale {a : Addition} (ha : a ∈ additions) (now' : ℕ) :
    InWindow n now' a.1 ↔
      (c.buckets (slotOf n a.1)).isStale (minimum n now') now' = false := by
  obtain ⟨hocc, hid⟩ := h.held a ha
  rw [Bool.eq_false_iff, Ne, isStale_iff, hid]
  simp [hocc]

theorem slotAmount_keptAt (now' : ℕ) (i : Fin n) :
    slotAmount (keptAt n now' additions) i % 2 ^ 32 =
      if (c.buckets i).isStale (minimum n now') now' then 0 else (c.buckets i).count := by
  have hkeep : ∀ a ∈ additions, slotOf n a.1 = i → (InWindow n now' a.1 ↔
      (c.buckets i).isStale (minimum n now') now' = false) := by
    rintro a ha rfl
    exact h.inWindow_iff_not_stale ha now'
  rw [slotAmount, keptAt, List.filter_filter]
  split_ifs with hstale
  · -- the slot is dropped, and no addition to it is inside the window
    have hnone : (additions.filter fun a => decide (slotOf n a.1 = i) &&
        decide (InWindow n now' a.1)) = [] := by
      rw [List.filter_eq_nil_iff]
      intro a ha
      simp only [Bool.and_eq_true, decide_eq_true_eq, not_and]
      intro hi hin
      rw [(hkeep a ha hi).1 hin] at hstale
      cases hstale
    rw [hnone]
    rfl
  · rw [Bool.not_eq_true] at hstale
    rw [h.count, slotAmount]
    congr 2
    refine List.filter_congr fun a ha => ?_
    by_cases hi : slotOf n a.1 = i
    · simp [hi, (hkeep a ha hi).2 hstale]
    · simp [hi]

/-- What `expire` drops and what it leaves make up the old total. -/
theorem expire_total (nowMs : ℕ) :
    (c.expire nowMs).total + ∑ i, (if (c.buckets i).isStale (minimum n (c.bucketOf nowMs))
      (c.bucketOf nowMs) then (c.buckets i).count else 0) ≡ c.total [MOD 2 ^ 32] := by
  have hfold := foldl_sub64
    (fun i => (c.buckets i).isStale (minimum n (c.bucketOf nowMs)) (c.bucketOf nowMs))
    h.count_lt (List.finRange n) c.total
  rwa [← Fin.sum_univ_def] at hfold

/-- **Expiry** drops the additions that left the window, on either side. -/
theorem expire (nowMs : ℕ) :
    Holds (c.expire nowMs) (keptAt n (c.bucketOf nowMs) additions) (c.bucketOf nowMs) where
  toSettled := h.toPlaced.expire
  held a ha := by
    obtain ⟨hmem, hin⟩ := List.mem_filter.1 ha
    have hfresh := (h.inWindow_iff_not_stale hmem _).1 (of_decide_eq_true hin)
    simp only [SlidingCounter.expire, hfresh]
    exact h.held a hmem
  count i := by
    rw [h.slotAmount_keptAt]
    simp only [SlidingCounter.expire]
    split_ifs <;> rfl
  total := by
    have hcount : ∑ i : Fin n, slotAmount (keptAt n (c.bucketOf nowMs) additions) i % 2 ^ 32 +
        ∑ i, (if (c.buckets i).isStale (minimum n (c.bucketOf nowMs)) (c.bucketOf nowMs)
          then (c.buckets i).count else 0) = ∑ i, (c.buckets i).count := by
      rw [← Finset.sum_add_distrib]
      refine Finset.sum_congr rfl fun i _ => ?_
      rw [h.slotAmount_keptAt]
      split_ifs <;> simp
    have hkept : amount (keptAt n (c.bucketOf nowMs) additions) ≡
        ∑ i : Fin n, slotAmount (keptAt n (c.bucketOf nowMs) additions) i % 2 ^ 32
          [MOD 2 ^ 32] := by
      rw [Nat.ModEq, ← Finset.sum_nat_mod, sum_slotAmount]
    refine Nat.ModEq.trans (Nat.ModEq.add_right_cancel' _ ((h.expire_total nowMs).trans ?_))
      hkept.symm
    rw [hcount]
    exact h.total.trans h.sum_count.symm

theorem record {b delta : ℕ} (hb : InWindow n now b) :
    Holds (c.record b delta) (additions ++ [(b, delta)]) now := by
  have hbuckets := h.record_buckets hb delta
  refine ⟨h.toSettled.record hb delta, fun a ha => ?_, fun i => ?_, ?_⟩
  · rw [hbuckets]
    by_cases hslot : slotOf n a.1 = slotOf n b
    · rw [hslot, Function.update_self]
      refine ⟨rfl, ?_⟩
      obtain ha | ha := List.mem_append.1 ha
      · -- an addition of the same slot is one of the same bucket
        obtain ⟨hocc, hid⟩ := h.held a ha
        have hin := h.inside _ hocc
        rw [hid] at hin
        exact hb.eq_of_slot hin hslot.symm
      · rw [List.mem_singleton.1 ha]
    · rw [Function.update_of_ne hslot]
      obtain ha | ha := List.mem_append.1 ha
      · exact h.held a ha
      · rw [List.mem_singleton.1 ha] at hslot
        exact absurd rfl hslot
  · by_cases hslot : i = slotOf n b
    · subst hslot
      rw [hbuckets, Function.update_self, h.count]
      simp [slotAmount, amount]
    · rw [hbuckets, Function.update_of_ne hslot, h.count]
      simp [slotAmount, amount, Ne.symm hslot]
  · rw [h.record_total hb delta, amount_append]
    have hwrap : (c.total + delta) % 2 ^ 64 ≡ c.total + delta [MOD 2 ^ 32] := by
      rw [Nat.ModEq, Nat.mod_mod_of_dvd _ (by decide)]
    exact hwrap.trans (h.total.add_right delta)

/-- **An addition** is kept if its bucket is inside the window. -/
theorem add (eventTsMs nowMs delta : ℕ) :
    Holds (c.add eventTsMs nowMs delta).2
      (keptAt n (c.bucketOf nowMs) additions ++
        addedAt n (c.bucketOf nowMs) (c.bucketOf eventTsMs) delta) (c.bucketOf nowMs) := by
  have he := h.expire nowMs
  rw [add_eq, addedAt]
  split_ifs with hin
  · exact he.record hin
  · rw [List.append_nil]
    exact he

/-- **What is read** is what the additions inside the window add up to, in 32 bits. -/
theorem sum_eq (nowMs : ℕ) :
    (c.sum nowMs).1 = amount (keptAt n (c.bucketOf nowMs) additions) % 2 ^ 32 :=
  (h.expire nowMs).total

end

end Holds

end SlidingCounter

end AegisFlow
