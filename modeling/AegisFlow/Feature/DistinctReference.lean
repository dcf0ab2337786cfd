import AegisFlow.Feature.SlidingDistinct

/-!
# What a sliding set of distinct members counts

The reference of `SlidingDistinct` is `DistinctView`: one map from members to their latest bucket,
and no queue.  When the reading goes back the map is cleared, otherwise the members that left the
window are removed.

* `DistinctCall`, `SlidingDistinct.results`, `DistinctView.results` : the calls of a set, and what
  they return;
* `SlidingDistinct.refines_view` : **every result is that of the reference**; the number of members
  is returned in 32 bits, which is exact for fewer than `2 ^ 32` members.
-/

namespace AegisFlow

/-- A call of a set of distinct members. -/
inductive DistinctCall
  | add (member : Bytes) (eventTsMs nowMs : ℕ)
  | count (nowMs : ℕ)
  deriving DecidableEq, Repr

/-- What a call returns. -/
inductive DistinctResult
  | added (accepted : Bool)
  | counted (count : ℕ)
  deriving DecidableEq, Repr

/-- A number is returned in 32 bits. -/
def DistinctResult.narrow : DistinctResult → DistinctResult
  | .added accepted => .added accepted
  | .counted count => .counted (count % 2 ^ 32)

/-! ### The reference -/

namespace DistinctView

section

variable (w bucketMs limit : ℕ)

/-- A member the view has, or has room for. -/
def accepts (v : DistinctView) (member : Bytes) : Bool :=
  (v.seen.lookup member).isSome || decide (v.seen.keys.card < limit)

/-- Make a call: events outside the window are refused. -/
def call (v : DistinctView) : DistinctCall → DistinctResult × DistinctView
  | .add member eventTsMs nowMs =>
    (.added (decide (InWindow w (nowMs / bucketMs) (eventTsMs / bucketMs)) &&
        (v.expire w (nowMs / bucketMs)).accepts limit member),
      v.add w limit member (eventTsMs / bucketMs) (nowMs / bucketMs))
  | .count nowMs =>
    (.counted (v.count w (nowMs / bucketMs)), v.expire w (nowMs / bucketMs))

/-- The view after a sequence of calls. -/
def after (v : DistinctView) (calls : List DistinctCall) : DistinctView :=
  calls.foldl (fun v c => (v.call w bucketMs limit c).2) v

/-- What a sequence of calls returns. -/
def results : DistinctView → List DistinctCall → List DistinctResult
  | _, [] => []
  | v, c :: calls => (v.call w bucketMs limit c).1 :: results (v.call w bucketMs limit c).2 calls

end

variable {w bucketMs limit : ℕ} {v : DistinctView}

/-- A view never has more members than its limit. -/
theorem card_call_le (h : v.seen.keys.card ≤ limit) (c : DistinctCall) :
    (v.call w bucketMs limit c).2.seen.keys.card ≤ limit := by
  cases c with
  | count nowMs => exact card_expire_le.trans h
  | add member eventTsMs nowMs => exact card_add_le h

/-- With a limit below `2 ^ 32`, 32 bits are enough. -/
theorem results_narrow (hlimit : limit < 2 ^ 32) (h : v.seen.keys.card ≤ limit)
    (calls : List DistinctCall) :
    (v.results w bucketMs limit calls).map DistinctResult.narrow =
      v.results w bucketMs limit calls := by
  induction calls generalizing v with
  | nil => rfl
  | cons c calls ih =>
    rw [results, List.map_cons, ih (card_call_le h c)]
    cases c with
    | add member eventTsMs nowMs => rfl
    | count nowMs =>
      have hle : v.count w (nowMs / bucketMs) ≤ limit := card_expire_le.trans h
      simp only [call, DistinctResult.narrow]
      rw [Nat.mod_eq_of_lt (by omega)]

end DistinctView

/-! ### The set and its reference -/

namespace SlidingDistinct

variable {d : SlidingDistinct}

/-- Make a call. -/
def call (d : SlidingDistinct) : DistinctCall → DistinctResult × SlidingDistinct
  | .add member eventTsMs nowMs =>
    (.added (d.add member eventTsMs nowMs).1, (d.add member eventTsMs nowMs).2)
  | .count nowMs => (.counted (d.count nowMs).1, (d.count nowMs).2)

/-- What a sequence of calls returns. -/
def results : SlidingDistinct → List DistinctCall → List DistinctResult
  | _, [] => []
  | d, c :: calls => (d.call c).1 :: results (d.call c).2 calls

theorem record_accepted (d : SlidingDistinct) (member : Bytes) (bucket : ℕ) :
    (d.record member bucket).1 = d.view.accepts d.maxMembers member := by
  unfold record DistinctView.accepts
  rw [view_seen]
  cases d.lastSeenBucket.lookup member with
  | some last =>
    simp only
    split_ifs <;> rfl
  | none =>
    simp only
    split_ifs with hfull
    · simp [hfull]
    · simp [Nat.lt_of_not_le hfull]

theorem add_accepted (h : Indexed d) (member : Bytes) (ts nowMs : ℕ) :
    (d.add member ts nowMs).1 =
      (decide (InWindow d.windowBucketNum (d.bucketOf nowMs) (d.bucketOf ts)) &&
        (d.view.expire d.windowBucketNum (d.bucketOf nowMs)).accepts d.maxMembers member) := by
  unfold SlidingDistinct.add
  split_ifs with hout
  · have hnot : ¬ InWindow d.windowBucketNum (d.bucketOf nowMs) (d.bucketOf ts) := by
      rw [inWindow_iff, ← minValidBucket_eq]
      omega
    rw [decide_eq_false hnot, Bool.false_and]
  · have hin : InWindow d.windowBucketNum (d.bucketOf nowMs) (d.bucketOf ts) := by
      rw [inWindow_iff, ← minValidBucket_eq]
      omega
    rw [record_accepted, view_expire h, (d.expire_sameConfig nowMs).maxMembers,
      decide_eq_true hin, Bool.true_and]

/-- One call: the result and what can be observed afterwards are those of the reference. -/
theorem call_refines (h : Indexed d) (c : DistinctCall) :
    (d.call c).1 = (d.view.call d.windowBucketNum d.bucketMs d.maxMembers c).1.narrow ∧
      (d.call c).2.view = (d.view.call d.windowBucketNum d.bucketMs d.maxMembers c).2 ∧
      (d.call c).2.Indexed ∧ SameConfig d (d.call c).2 := by
  cases c with
  | add member eventTsMs nowMs =>
    exact ⟨congrArg _ (add_accepted h member eventTsMs nowMs), view_add h member eventTsMs nowMs,
      h.add member eventTsMs nowMs, d.add_sameConfig member eventTsMs nowMs⟩
  | count nowMs =>
    exact ⟨congrArg _ (count_eq h nowMs), view_expire h nowMs, h.expire nowMs,
      d.expire_sameConfig nowMs⟩

theorem results_refine (h : Indexed d) (calls : List DistinctCall) :
    d.results calls =
      (d.view.results d.windowBucketNum d.bucketMs d.maxMembers calls).map
        DistinctResult.narrow := by
  induction calls generalizing d with
  | nil => rfl
  | cons c calls ih =>
    obtain ⟨hresult, hview, hindexed, hconfig⟩ := call_refines h c
    rw [results, ih hindexed, hresult, hview, hconfig.windowBucketNum, hconfig.bucketMs,
      hconfig.maxMembers, DistinctView.results, List.map_cons]

/-- **A set of distinct members equals its reference.**  For every sequence of calls with arbitrary
readings, `add` returns what the reference does, and `count` the number of members in 32 bits: with
a limit below `2 ^ 32`, every result is that of the reference. -/
theorem refines_view {windowMs bucketMs maxMembers : ℕ}
    (hcreate : create windowMs bucketMs maxMembers = some d) (calls : List DistinctCall) :
    d.results calls =
      (DistinctView.new.results (windowMs / bucketMs) bucketMs maxMembers calls).map
        DistinctResult.narrow ∧
    (maxMembers < 2 ^ 32 → d.results calls =
      DistinctView.new.results (windowMs / bucketMs) bucketMs maxMembers calls) := by
  unfold create at hcreate
  split_ifs at hcreate with hvalid hbad
  cases hcreate
  have hrefine := results_refine (@indexed_new windowMs bucketMs maxMembers hvalid.1 hvalid.2) calls
  refine ⟨hrefine, fun hlimit => hrefine.trans ?_⟩
  exact DistinctView.results_narrow hlimit (Nat.zero_le _) calls

/-- Three members and room for two; the first one leaves the window. -/
def crowdedCalls : List DistinctCall :=
  [.add [1] 5 5, .add [2] 12 15, .add [3] 15 15, .count 15, .add [2] 15 15, .add [3] 25 25,
    .count 25, .count 8]

theorem refines_view_crowded :
    (new 20 10 2 (by decide) (by decide)).results crowdedCalls =
      [.added true, .added true, .added false, .counted 2, .added true, .added true, .counted 2,
        .counted 0] := by
  have hcreate : create 20 10 2 = some (new 20 10 2 (by decide) (by decide)) := rfl
  have href : DistinctView.new.results (20 / 10) 10 2 crowdedCalls =
      [.added true, .added true, .added false, .counted 2, .added true, .added true, .counted 2,
        .counted 0] := by decide
  rw [← href]
  exact (refines_view hcreate crowdedCalls).2 (by decide)

/-! ### More than 32 bits of members -/

/-- Add the members named by the first `k` numbers, all at time zero. -/
def addNumbers (k : ℕ) : List DistinctCall := (List.range k).map fun i => .add (toText i) 0 0

theorem toText_injective : Function.Injective toText := fun a b h => by
  rw [← digitsValue_toText a, h, digitsValue_toText]

theorem results_append (w bucketMs limit : ℕ) (v : DistinctView) (calls : List DistinctCall)
    (c : DistinctCall) : v.results w bucketMs limit (calls ++ [c]) =
      v.results w bucketMs limit calls ++
        [((v.after w bucketMs limit calls).call w bucketMs limit c).1] := by
  induction calls generalizing v with
  | nil => rfl
  | cons d calls ih =>
    rw [List.cons_append, DistinctView.results, ih, DistinctView.results, List.cons_append]
    rfl

/-- At time zero nothing expires. -/
theorem expire_zero {v : DistinctView} (h : ∀ last ∈ v.clock, last = 0) :
    (v.expire 1 0).seen = v.seen := by
  have hback : v.rolledBack 0 = false := by
    rw [DistinctView.rolledBack, Option.any_eq_false]
    intro last hlast
    simp [h last hlast]
  refine Finmap.ext_lookup fun u => ?_
  rw [DistinctView.expire, hback]
  cases hu : v.seen.lookup u <;> simp [hu, windowStart]

/-- The members added are all there, as long as there is room. -/
theorem after_addNumbers {k limit : ℕ} (hk : k ≤ limit) :
    (∀ last ∈ (DistinctView.new.after 1 1 limit (addNumbers k)).clock, last = 0) ∧
      (DistinctView.new.after 1 1 limit (addNumbers k)).seen.keys =
        (Finset.range k).image toText := by
  induction k with
  | zero => exact ⟨fun last h => absurd h (Option.not_mem_none last), rfl⟩
  | succ k ih =>
    obtain ⟨hclock, hkeys⟩ := ih (Nat.le_of_succ_le hk)
    have hlast : DistinctView.new.after 1 1 limit (addNumbers (k + 1)) =
        (DistinctView.new.after 1 1 limit (addNumbers k)).add 1 limit (toText k) 0 0 := by
      simp [addNumbers, List.range_succ, DistinctView.after, DistinctView.call]
    rw [hlast]
    generalize DistinctView.new.after 1 1 limit (addNumbers k) = v at hclock hkeys ⊢
    have hseen := expire_zero hclock
    rw [← hseen] at hkeys
    rw [DistinctView.add, if_pos ⟨le_rfl, Nat.zero_lt_one⟩]
    have hcard : (v.expire 1 0).seen.keys.card < limit := by
      rw [hkeys, Finset.card_image_of_injective _ toText_injective, Finset.card_range]
      omega
    refine ⟨fun last h => ?_, ?_⟩
    · rw [DistinctView.record_clock] at h
      exact (Option.some.inj h).symm
    · rw [DistinctView.record_seen fun _ => hcard, Finmap.keys_insert, hkeys,
        Finset.range_add_one, Finset.image_insert]

/-- What the reference and the set say of as many members as there is room for. -/
theorem count_addNumbers {k : ℕ} (hk : 0 < k) :
    ∃ d, create 1 1 k = some d ∧
      (DistinctView.new.results 1 1 k (addNumbers k ++ [.count 0])).getLast? = some (.counted k) ∧
      (d.results (addNumbers k ++ [.count 0])).getLast? = some (.counted (k % 2 ^ 32)) := by
  obtain ⟨hclock, hkeys⟩ := after_addNumbers (Nat.le_refl k)
  have hcreate : create 1 1 k = some (new 1 1 k Nat.zero_lt_one le_rfl) := by
    rw [create, dif_pos ⟨Nat.zero_lt_one, le_rfl⟩, if_neg (by simp; omega)]
  have hcount : (DistinctView.new.results 1 1 k (addNumbers k ++ [.count 0])).getLast? =
      some (.counted k) := by
    rw [results_append, List.getLast?_concat]
    simp only [DistinctView.call, DistinctView.count, Nat.zero_div, expire_zero hclock, hkeys,
      Finset.card_image_of_injective _ toText_injective, Finset.card_range]
  refine ⟨_, hcreate, hcount, ?_⟩
  have hrefine := results_refine (@indexed_new 1 1 k Nat.zero_lt_one le_rfl)
    (addNumbers k ++ [.count 0])
  rw [hrefine, List.getLast?_map]
  exact congrArg (Option.map DistinctResult.narrow) hcount

/-- With a limit of `2 ^ 32` members and as many members, `count` returns zero. -/
theorem count_wraps :
    ∃ d calls, create 1 1 (2 ^ 32) = some d ∧
      (DistinctView.new.results 1 1 (2 ^ 32) calls).getLast? = some (.counted (2 ^ 32)) ∧
      (d.results calls).getLast? = some (.counted 0) := by
  obtain ⟨d, hcreate, href, hset⟩ := @count_addNumbers (2 ^ 32) (by decide)
  rw [Nat.mod_self] at hset
  exact ⟨d, _, hcreate, href, hset⟩

end SlidingDistinct

end AegisFlow
