import AegisFlow.Feature.DistinctReference
import Mathlib.Data.Finset.Prod
import Mathlib.Order.Interval.Finset.Nat

/-!
# The expiry queue of a sliding set is bounded

`SlidingDistinct` adds an entry to its queue whenever a member moves to a later bucket, and takes
entries out in the order of their buckets only.  Entries that are out of date stay until their own
bucket leaves the window.

* `SlidingDistinct.Tidy` : the entries are inside the window, belong to members of the map whose
  last bucket is not earlier, and no entry is there twice;
* `Tidy.expire`, `Tidy.record`, `Tidy.call` : every operation keeps that, also when the clock goes
  back;
* `SlidingDistinct.expiry_queue_bounded` : after any calls **the queue has at most one entry for
  every member and every bucket of the window**.
-/

namespace AegisFlow

namespace MinQueue

variable {α K : Type*} [LinearOrder K] {key : α → K} {q : MinQueue key}

theorem nodup_push [DecidableEq α] (h : q.entries.Nodup) {a : α} (ha : a ∉ q) :
    (q.push a).entries.Nodup :=
  (List.perm_orderedInsert _ a q.entries).nodup_iff.mpr (List.nodup_cons.mpr ⟨ha, h⟩)

theorem nodup_popBelow (h : q.entries.Nodup) (bound : K) : (q.popBelow bound).entries.Nodup :=
  h.sublist (List.dropWhile_sublist _)

end MinQueue

namespace SlidingDistinct

/-! ### What holds of the queue -/

/-- The queue holds nothing that a later expiry would not find in its place. -/
structure Tidy (d : SlidingDistinct) : Prop where
  /-- Every member has an entry for its last bucket. -/
  indexed : Indexed d
  /-- Entries are inside the window of the last reading. -/
  inside : ∀ e ∈ d.expiredQueue, InWindow d.windowBucketNum d.lastNowBucket e.bucket
  /-- Entries belong to members, and are not later than the last bucket of the member. -/
  owned : ∀ e ∈ d.expiredQueue,
    ∃ last, d.lastSeenBucket.lookup e.member = some last ∧ e.bucket ≤ last
  nodup : d.expiredQueue.entries.Nodup
  members : d.lastSeenBucket.keys.card ≤ d.maxMembers
  /-- Without a reading nothing was added. -/
  unread : d.clockInitialized = false → d.expiredQueue.entries = []

namespace Tidy

variable {d : SlidingDistinct}

theorem new {windowMs bucketMs maxMembers : ℕ} {hb : 0 < bucketMs} {hw : bucketMs ≤ windowMs} :
    Tidy (new windowMs bucketMs maxMembers hb hw) where
  indexed := indexed_new
  inside _ he := absurd he (MinQueue.notMem_empty _)
  owned _ he := absurd he (MinQueue.notMem_empty _)
  nodup := List.nodup_nil
  members := Nat.zero_le _
  unread _ := rfl

/-- Entries are not later than a reading that did not go back. -/
theorem le_of_not_rolledBack (h : Tidy d) {now : ℕ} (hback : d.rolledBack now = false)
    {e : DistinctEntry} (he : e ∈ d.expiredQueue) : e.bucket ≤ now := by
  have hlast := (h.inside e he).1
  cases hclock : d.clockInitialized with
  | false =>
    rw [MinQueue.mem_def, h.unread hclock] at he
    exact absurd he List.not_mem_nil
  | true =>
    rw [rolledBack, hclock, Bool.true_and, decide_eq_false_iff_not] at hback
    omega

/-- The members and entries that are left by an expiry. -/
theorem expire (h : Tidy d) (nowMs : ℕ) : Tidy (d.expire nowMs) := by
  have hindexed := h.indexed.expire nowMs
  have hconfig := d.expire_sameConfig nowMs
  have hmembers : (d.expire nowMs).lastSeenBucket.keys.card ≤ (d.expire nowMs).maxMembers := by
    rw [← view_seen, view_expire h.indexed, hconfig.maxMembers]
    exact DistinctView.card_expire_le.trans h.members
  by_cases hback : d.rolledBack (d.bucketOf nowMs) = true
  · -- everything was cleared
    have hempty : (d.expire nowMs).expiredQueue.entries = [] := by
      simp only [SlidingDistinct.expire, rollBack, hback, if_pos]
      rfl
    refine ⟨hindexed, ?_, ?_, ?_, hmembers, fun _ => hempty⟩
    · intro e he
      rw [MinQueue.mem_def, hempty] at he
      exact absurd he List.not_mem_nil
    · intro e he
      rw [MinQueue.mem_def, hempty] at he
      exact absurd he List.not_mem_nil
    · rw [hempty]
      exact List.nodup_nil
  · rw [Bool.not_eq_true] at hback
    have hqueue : (d.expire nowMs).expiredQueue =
        d.expiredQueue.popBelow (windowStart d.windowBucketNum (d.bucketOf nowMs)) := by
      simp only [SlidingDistinct.expire, rollBack, hback, minValidBucket_eq]
      rfl
    have hseen : (d.expire nowMs).lastSeenBucket = d.lastSeenBucket.retain fun _ b =>
        decide (windowStart d.windowBucketNum (d.bucketOf nowMs) ≤ b) := by
      rw [← view_seen, view_expire h.indexed, DistinctView.expire, rolledBack_view, hback]
      rfl
    refine ⟨hindexed, ?_, ?_, ?_, hmembers, fun hclock => absurd hclock Bool.noConfusion⟩
    · intro e he
      rw [hqueue, MinQueue.mem_popBelow] at he
      rw [hconfig.windowBucketNum]
      exact inWindow_iff.mpr ⟨he.2, h.le_of_not_rolledBack hback he.1⟩
    · intro e he
      rw [hqueue, MinQueue.mem_popBelow] at he
      obtain ⟨last, hlast, hle⟩ := h.owned e he.1
      refine ⟨last, ?_, hle⟩
      rw [hseen, Finmap.lookup_retain, hlast, Option.filter_some, if_pos]
      exact decide_eq_true (he.2.trans hle)
    · rw [hqueue]
      exact MinQueue.nodup_popBelow h.nodup _

/-- A member moves to a bucket later than all its entries. -/
theorem moveTo (h : Tidy d) {member : Bytes} {bucket : ℕ} (hclock : d.clockInitialized = true)
    (hin : InWindow d.windowBucketNum d.lastNowBucket bucket)
    (hlater : ∀ last, d.lastSeenBucket.lookup member = some last → last < bucket)
    (hroom : (insert member d.lastSeenBucket.keys).card ≤ d.maxMembers) :
    Tidy (d.moveTo member bucket) where
  indexed := h.indexed.moveTo member bucket
  inside e he := by
    obtain rfl | he := MinQueue.mem_push.mp he
    · exact hin
    · exact h.inside e he
  owned e he := by
    obtain rfl | he := MinQueue.mem_push.mp he
    · exact ⟨bucket, Finmap.lookup_insert _, le_rfl⟩
    · obtain ⟨last, hlast, hle⟩ := h.owned e he
      by_cases hm : e.member = member
      · rw [hm] at hlast ⊢
        exact ⟨bucket, Finmap.lookup_insert _, hle.trans (hlater last hlast).le⟩
      · exact ⟨last, (Finmap.lookup_insert_of_ne _ hm).trans hlast, hle⟩
  nodup := by
    refine MinQueue.nodup_push h.nodup fun hmem => ?_
    obtain ⟨last, hlast, hle⟩ := h.owned _ hmem
    exact absurd (hlater last hlast) (not_lt.mpr hle)
  members := by
    change (d.lastSeenBucket.insert member bucket).keys.card ≤ d.maxMembers
    rwa [Finmap.keys_insert]
  unread hunread := absurd (hclock.symm.trans hunread) Bool.noConfusion

theorem record (h : Tidy d) {bucket : ℕ} (hclock : d.clockInitialized = true)
    (hin : InWindow d.windowBucketNum d.lastNowBucket bucket) (member : Bytes) :
    Tidy (d.record member bucket).2 := by
  unfold SlidingDistinct.record
  cases hseen : d.lastSeenBucket.lookup member with
  | some last =>
    have hmem : member ∈ d.lastSeenBucket.keys :=
      Finmap.mem_keys.mpr (Finmap.mem_iff.mpr ⟨last, hseen⟩)
    simp only
    split_ifs with hle
    · exact h
    · refine h.moveTo hclock hin (fun last' hlast' => ?_) ?_
      · obtain rfl := Option.some.inj (hseen.symm.trans hlast')
        exact not_le.mp hle
      · rw [Finset.insert_eq_of_mem hmem]
        exact h.members
  | none =>
    simp only
    split_ifs with hfull
    · exact h
    · refine h.moveTo hclock hin (fun last hlast => ?_) ?_
      · rw [hseen] at hlast
        cases hlast
      · exact (Finset.card_insert_le _ _).trans (not_le.mp hfull)

theorem add (h : Tidy d) (member : Bytes) (eventTsMs nowMs : ℕ) :
    Tidy (d.add member eventTsMs nowMs).2 := by
  unfold SlidingDistinct.add
  split_ifs with hout
  · exact h.expire nowMs
  · refine (h.expire nowMs).record rfl ?_ member
    rw [(d.expire_sameConfig nowMs).windowBucketNum]
    rw [minValidBucket_eq, not_or, not_lt, not_lt] at hout
    exact inWindow_iff.mpr hout.symm

/-- **A call leaves the queue tidy.** -/
theorem call (h : Tidy d) (c : DistinctCall) : Tidy (d.call c).2 := by
  cases c with
  | add member eventTsMs nowMs => exact h.add member eventTsMs nowMs
  | count nowMs => exact h.expire nowMs

/-! ### How many entries there are -/

/-- There is at most one entry for every member and every bucket of the window. -/
theorem length_le (h : Tidy d) :
    d.expiredQueue.entries.length ≤ d.maxMembers * d.windowBucketNum := by
  let window := Finset.Icc (windowStart d.windowBucketNum d.lastNowBucket) d.lastNowBucket
  have hwindow : window.card ≤ d.windowBucketNum := by
    rw [Nat.card_Icc, windowStart]
    omega
  have hsub : d.expiredQueue.entries.toFinset.image (fun e => (e.member, e.bucket)) ⊆
      d.lastSeenBucket.keys ×ˢ window := by
    intro p hp
    obtain ⟨e, he, rfl⟩ := Finset.mem_image.mp hp
    have he := List.mem_toFinset.mp he
    obtain ⟨last, hlast, -⟩ := h.owned e he
    refine Finset.mem_product.mpr ⟨?_, Finset.mem_Icc.mpr (inWindow_iff.mp (h.inside e he))⟩
    exact Finmap.mem_keys.mpr (Finmap.mem_iff.mpr ⟨last, hlast⟩)
  have hinj : Function.Injective fun e : DistinctEntry => (e.member, e.bucket) := by
    rintro ⟨b, m⟩ ⟨b', m'⟩ heq
    cases heq
    rfl
  calc d.expiredQueue.entries.length
      = (d.expiredQueue.entries.toFinset.image fun e => (e.member, e.bucket)).card := by
        rw [Finset.card_image_of_injective _ hinj, List.toFinset_card_of_nodup h.nodup]
    _ ≤ d.lastSeenBucket.keys.card * window.card := by
        rw [← Finset.card_product]
        exact Finset.card_le_card hsub
    _ ≤ d.maxMembers * d.windowBucketNum := Nat.mul_le_mul h.members hwindow

end Tidy

/-! ### Whole runs -/

/-- The set after a sequence of calls. -/
def after (d : SlidingDistinct) (calls : List DistinctCall) : SlidingDistinct :=
  calls.foldl (fun d c => (d.call c).2) d

theorem tidy_after {d : SlidingDistinct} (h : Tidy d) (calls : List DistinctCall) :
    Tidy (d.after calls) ∧ SameConfig d (d.after calls) := by
  induction calls generalizing d with
  | nil => exact ⟨h, rfl, rfl, rfl⟩
  | cons c calls ih =>
    obtain ⟨-, -, -, hconfig⟩ := call_refines h.indexed c
    obtain ⟨htidy, hconfig'⟩ := ih (h.call c)
    exact ⟨htidy, hconfig.trans hconfig'⟩

/-- **The expiry queue is bounded.**  After any calls with arbitrary readings, every entry is inside
the window of the last reading and belongs to a member, no entry is there twice, and there are at
most as many as members and buckets allow. -/
theorem expiry_queue_bounded {windowMs bucketMs maxMembers : ℕ} {d : SlidingDistinct}
    (hcreate : create windowMs bucketMs maxMembers = some d) (calls : List DistinctCall) :
    (∀ e ∈ (d.after calls).expiredQueue,
      InWindow (windowMs / bucketMs) (d.after calls).lastNowBucket e.bucket ∧
      e.member ∈ (d.after calls).lastSeenBucket) ∧
    (d.after calls).expiredQueue.entries.Nodup ∧
    (d.after calls).expiredQueue.entries.length ≤ maxMembers * (windowMs / bucketMs) := by
  unfold create at hcreate
  split_ifs at hcreate with hvalid hbad
  cases hcreate
  obtain ⟨htidy, hconfig⟩ := tidy_after
    (@Tidy.new windowMs bucketMs maxMembers hvalid.1 hvalid.2) calls
  refine ⟨fun e he => ⟨?_, ?_⟩, htidy.nodup, ?_⟩
  · have hin := htidy.inside e he
    rwa [hconfig.windowBucketNum] at hin
  · obtain ⟨last, hlast, -⟩ := htidy.owned e he
    exact Finmap.mem_iff.mpr ⟨last, hlast⟩
  · have hlength := htidy.length_le
    rwa [hconfig.windowBucketNum, hconfig.maxMembers] at hlength

/-- A member that moves to a later bucket, and a second member. -/
def movingCalls : List DistinctCall := [.add [1] 5 5, .add [1] 12 15, .add [2] 15 15]

/-- Two members have three entries, one of them out of date. -/
theorem expiry_queue_bounded_moving :
    ((new 20 10 2 (by decide) (by decide)).after movingCalls).expiredQueue.entries.length = 3 ∧
    ((new 20 10 2 (by decide) (by decide)).after movingCalls).expiredQueue.entries.length ≤
      2 * (20 / 10) :=
  ⟨by decide, (expiry_queue_bounded (d := new 20 10 2 (by decide) (by decide)) rfl movingCalls).2.2⟩

end SlidingDistinct

end AegisFlow
