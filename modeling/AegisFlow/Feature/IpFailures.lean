import AegisFlow.Feature.CounterReference
import AegisFlow.Feature.DistinctReference
import AegisFlow.Feature.FeatureStore

/-!
# The two features of an address

For every address the store keeps the users that failed and the number of failures, over the same
window but in two structures.  When the clock goes back, the set of users is cleared, while the
counter drops the slots of the future only.

* `failuresOf` : the failed logins of an address among the calls so far;
* `IpFeatureState.Coupled` : the counter holds a log of failures, in which every member of the set
  failed in its last bucket;
* `Coupled.update` : the visits of `updateIp` keep that;
* `LoginFeatureStore.ip_users_le_failures` : **no snapshot has more failed users than failures.**
-/

namespace AegisFlow

open LoginFeatureStore

/-- A failed login: the user, and the bucket of its time. -/
abbrev Failure := Bytes × ℕ

/-- The failed login of an address that a call takes into account. -/
def FeatureCall.failureOf (ip : Bytes) : FeatureCall → Option Failure
  | .update attempt nowMs =>
    if attempt.ip = ip ∧ failedWithin kDistinctWindowMs attempt nowMs = true then
      some (attempt.userId, attempt.timestampMs / kIpFailureBucketMs)
    else none
  | .reclaim _ => none

/-- The failed logins of an address. -/
def failuresOf (ip : Bytes) (calls : List FeatureCall) : List Failure :=
  calls.filterMap (FeatureCall.failureOf ip)

/-- The failures that are inside the window at a bucket. -/
def windowed (now : ℕ) (failures : List Failure) : List Failure :=
  failures.filter fun f => decide (InWindow 60 now f.2)

namespace DistinctView

variable {w limit : ℕ} {v : DistinctView}

/-- A member is where it was, or where it was added. -/
theorem of_lookup_record {member u : Bytes} {bucket b : ℕ}
    (h : (v.record limit member bucket).seen.lookup u = some b) :
    v.seen.lookup u = some b ∨ (u, b) = (member, bucket) := by
  unfold record at h
  cases hseen : v.seen.lookup member with
  | none =>
    simp only [hseen] at h
    split_ifs at h with hfull
    · exact .inl h
    · by_cases hu : u = member
      · subst hu
        rw [Finmap.lookup_insert, Option.some.injEq] at h
        exact .inr (by rw [h])
      · exact .inl ((Finmap.lookup_insert_of_ne _ hu).symm.trans h)
  | some last =>
    simp only [hseen] at h
    by_cases hu : u = member
    · subst hu
      rw [Finmap.lookup_insert, Option.some.injEq] at h
      obtain hle | hle := le_total bucket last
      · rw [max_eq_right hle] at h
        exact .inl (by rw [hseen, h])
      · rw [max_eq_left hle] at h
        exact .inr (by rw [h])
    · exact .inl ((Finmap.lookup_insert_of_ne _ hu).symm.trans h)

end DistinctView

namespace IpFeatureState

/-- The counter holds a log of failures, and every member of the set failed in its last bucket. -/
structure Coupled (st : IpFeatureState) (log : List Failure) (now : ℕ) : Prop where
  counter : st.failures10m.Holds (log.map fun f => (f.2, 1)) now
  /-- The buckets of the counter are those of the set. -/
  width : st.failures10m.bucketMs = kIpFailureBucketMs
  /-- The queue of the set cannot be observed. -/
  indexed : st.distinct.Indexed
  config : SlidingDistinct.SameConfig newDistinct st.distinct
  /-- Every member failed in its last bucket. -/
  known : ∀ u b, st.distinct.view.seen.lookup u = some b → (u, b) ∈ log
  /-- The set has the same last reading, unless it has no member. -/
  clock : st.distinct.view.clock = some now ∨ st.distinct.view.seen = ∅

namespace Coupled

variable {st : IpFeatureState} {log : List Failure} {now : ℕ}

theorem new : Coupled .new [] now where
  counter := .new
  width := rfl
  indexed := @SlidingDistinct.indexed_new _ _ _ kDistinctBucketMs_pos kDistinctBucketMs_le
  config := ⟨rfl, rfl, rfl⟩
  known u b h := by simp [IpFeatureState.new, newDistinct, DistinctView.new] at h
  clock := .inr rfl

/-- What the log says is inside the window. -/
theorem inside (h : Coupled st log now) {f : Failure} (hf : f ∈ log) : InWindow 60 now f.2 := by
  have hmem : (f.2, 1) ∈ log.map fun f => (f.2, 1) :=
    List.mem_map_of_mem (f := fun f : Failure => (f.2, 1)) hf
  obtain ⟨hocc, hid⟩ := h.counter.held _ hmem
  have hin := h.counter.inside _ hocc
  rwa [hid] at hin

theorem windowBucketNum (h : Coupled st log now) : st.distinct.windowBucketNum = 60 :=
  h.config.windowBucketNum

theorem bucketOf (h : Coupled st log now) (ms : ℕ) :
    st.distinct.bucketOf ms = ms / kIpFailureBucketMs := by
  rw [SlidingDistinct.bucketOf, h.config.bucketMs]
  rfl

theorem amount_log (log : List Failure) : amount (log.map fun f => (f.2, 1)) = log.length := by
  simp [amount, Function.comp_def]

theorem keptAt_log (now : ℕ) (log : List Failure) :
    keptAt 60 now (log.map fun f => (f.2, 1)) = (windowed now log).map fun f => (f.2, 1) := by
  rw [keptAt, List.filter_map]
  rfl

section

variable (h : Coupled st log now)
include h

/-- A member that is left by an expiry is one whose failure is still in the window. -/
theorem known_expire {nowMs : ℕ} {u : Bytes} {b : ℕ}
    (hu : (st.distinct.view.expire 60 (nowMs / kIpFailureBucketMs)).seen.lookup u = some b) :
    (u, b) ∈ windowed (nowMs / kIpFailureBucketMs) log := by
  obtain ⟨hback, hseen, hstart⟩ := DistinctView.lookup_expire_iff.mp hu
  have hmem := h.known u b hseen
  refine List.mem_filter.mpr ⟨hmem, decide_eq_true (inWindow_iff.mpr ⟨hstart, ?_⟩)⟩
  obtain hclock | hempty := h.clock
  · rw [DistinctView.rolledBack, hclock, Option.any_some, decide_eq_false_iff_not] at hback
    have hlast := (h.inside hmem).1
    omega
  · rw [hempty, Finmap.lookup_empty] at hseen
    cases hseen

/-- Reading both features. -/
theorem expire (nowMs lastSeenMs : ℕ) :
    Coupled ⟨st.distinct.expire nowMs, st.failures10m.expire nowMs, lastSeenMs⟩
      (windowed (nowMs / kIpFailureBucketMs) log) (nowMs / kIpFailureBucketMs) := by
  have hcounter := h.counter.expire nowMs
  have hview := SlidingDistinct.view_expire h.indexed nowMs
  rw [h.windowBucketNum, h.bucketOf] at hview
  rw [SlidingCounter.bucketOf, h.width, keptAt_log] at hcounter
  refine ⟨hcounter, h.width, h.indexed.expire nowMs,
    h.config.trans (st.distinct.expire_sameConfig nowMs), fun u b hu => ?_, .inl ?_⟩
  · exact h.known_expire (by rwa [← hview])
  · rw [hview]
    rfl

/-- A failure is added to both features, or to none of them. -/
theorem update (attempt : LoginAttempt) (nowMs : ℕ) :
    Coupled (ipFeature.update attempt nowMs st)
      (windowed (nowMs / kIpFailureBucketMs)
        (log ++ [(attempt.userId, attempt.timestampMs / kIpFailureBucketMs)]))
      (nowMs / kIpFailureBucketMs) := by
  have hcounter := h.counter.add attempt.timestampMs nowMs 1
  have hview := SlidingDistinct.view_add h.indexed attempt.userId attempt.timestampMs nowMs
  rw [h.windowBucketNum, h.bucketOf, h.bucketOf] at hview
  have hlog : keptAt 60 (nowMs / kIpFailureBucketMs) (log.map fun f => (f.2, 1)) ++
      addedAt 60 (nowMs / kIpFailureBucketMs) (attempt.timestampMs / kIpFailureBucketMs) 1 =
      (windowed (nowMs / kIpFailureBucketMs)
        (log ++ [(attempt.userId, attempt.timestampMs / kIpFailureBucketMs)])).map
          fun f => (f.2, 1) := by
    rw [keptAt_log, windowed, windowed, List.filter_append, List.map_append, addedAt]
    congr 1
    split_ifs with hin <;> simp [hin]
  rw [SlidingCounter.bucketOf, SlidingCounter.bucketOf, h.width, hlog] at hcounter
  refine ⟨hcounter, ?_, h.indexed.add _ _ _, h.config.trans (st.distinct.add_sameConfig _ _ _),
    fun u b hu => ?_, .inl ?_⟩
  · exact (SlidingCounter.add_bucketMs _ _ _ _).trans h.width
  · change (st.distinct.add attempt.userId attempt.timestampMs nowMs).2.view.seen.lookup u =
      some b at hu
    rw [hview, DistinctView.add] at hu
    rw [windowed, List.filter_append, List.mem_append]
    split_ifs at hu with hin
    · obtain hu | hu := DistinctView.of_lookup_record hu
      · exact .inl (h.known_expire hu)
      · rw [hu]
        simp [hin]
    · exact .inl (h.known_expire hu)
  · change (st.distinct.add attempt.userId attempt.timestampMs nowMs).2.view.clock = _
    rw [hview, DistinctView.add]
    split_ifs
    · rw [DistinctView.record_clock]
      rfl
    · rfl

/-- The members are among those that failed. -/
theorem card_le : st.distinct.lastSeenBucket.keys.card ≤ log.length := by
  have hsub : st.distinct.lastSeenBucket.keys ⊆ (log.map Prod.fst).toFinset := by
    intro u hu
    obtain ⟨b, hb⟩ := Finmap.mem_iff.mp (Finmap.mem_keys.mp hu)
    rw [List.mem_toFinset]
    exact List.mem_map_of_mem (h.known u b hb)
  calc st.distinct.lastSeenBucket.keys.card
      ≤ (log.map Prod.fst).toFinset.card := Finset.card_le_card hsub
    _ ≤ (log.map Prod.fst).length := List.toFinset_card_le _
    _ = log.length := List.length_map _

/-- What is read of the two features. -/
theorem read_le (nowMs : ℕ) (hsmall : (windowed (nowMs / kIpFailureBucketMs) log).length < 2 ^ 32) :
    (ipFeature.read nowMs st).1.1 ≤ (ipFeature.read nowMs st).1.2 := by
  have hread := h.counter.sum_eq nowMs
  rw [SlidingCounter.bucketOf, h.width, keptAt_log, amount_log, Nat.mod_eq_of_lt hsmall] at hread
  calc (st.distinct.expire nowMs).lastSeenBucket.keys.card % 2 ^ 32
      ≤ (st.distinct.expire nowMs).lastSeenBucket.keys.card := Nat.mod_le _ _
    _ ≤ (windowed (nowMs / kIpFailureBucketMs) log).length := (h.expire nowMs st.lastSeenMs).card_le
    _ = (st.failures10m.sum nowMs).1 := hread.symm

/-- **A visit keeps the features coupled.**  The log it reads is part of the past. -/
theorem serve (attempt : LoginAttempt) (nowMs : ℕ) {past : List Failure}
    (hpast : log.Sublist past) :
    ∃ st' log' now', Coupled st' log' now' ∧
      log'.Sublist (past ++ (FeatureCall.failureOf attempt.ip (.update attempt nowMs)).toList) ∧
      ipFeature.serve st attempt nowMs = ipFeature.read nowMs st' := by
  simp only [FeatureCall.failureOf, true_and]
  have hcan : ipFeature.canUpdate attempt nowMs = failedWithin kDistinctWindowMs attempt nowMs :=
    rfl
  simp only [Feature.serve, hcan]
  split_ifs with hfailed
  · exact ⟨_, _, _, h.update attempt nowMs, List.filter_sublist.trans (hpast.append_right _), rfl⟩
  · exact ⟨st, log, now, h, by simpa using hpast, rfl⟩

end

end Coupled

end IpFeatureState

/-! ### Whole runs -/

namespace LoginFeatureStore

variable {hash : Bytes → ℕ}

/-- No window of an address has `2 ^ 32` failures when the address is visited. -/
def FewFailures (calls : List FeatureCall) : Prop :=
  ∀ before attempt nowMs, before ++ [.update attempt nowMs] <+: calls →
    (windowed (nowMs / kIpFailureBucketMs)
      (failuresOf attempt.ip (before ++ [.update attempt nowMs]))).length < 2 ^ 32

theorem failuresOf_append (ip : Bytes) (calls : List FeatureCall) (c : FeatureCall) :
    failuresOf ip (calls ++ [c]) = failuresOf ip calls ++ (c.failureOf ip).toList := by
  rw [failuresOf, List.filterMap_append]
  cases h : c.failureOf ip <;> simp [failuresOf, h]

/-- Every address has coupled features. -/
def AllCoupled (store : LoginFeatureStore) (hash : Bytes → ℕ) (calls : List FeatureCall) : Prop :=
  ∀ ip st, store.ipShards.find hash ip = some st →
    ∃ log now, IpFeatureState.Coupled st log now ∧ log.Sublist (failuresOf ip calls)

/-- The state a visit works on is coupled. -/
theorem AllCoupled.created {store : LoginFeatureStore} {calls : List FeatureCall}
    (h : store.AllCoupled hash calls) {attempt : LoginAttempt} {nowMs : ℕ} {st : IpFeatureState}
    (hst : ipFeature.created hash store.ipShards attempt nowMs = some st) :
    ∃ log now, IpFeatureState.Coupled st log now ∧ log.Sublist (failuresOf attempt.ip calls) := by
  rw [← (Feature.created_eq hst).1]
  cases hfind : store.ipShards.find hash (ipFeature.key attempt) with
  | some st' => exact h _ _ hfind
  | none => exact ⟨[], 0, .new, List.nil_sublist _⟩

/-- A call keeps all addresses coupled. -/
theorem AllCoupled.call {store : LoginFeatureStore} {calls : List FeatureCall}
    (h : store.AllCoupled hash calls) (c : FeatureCall) :
    (store.call hash c).AllCoupled hash (calls ++ [c]) := by
  cases c with
  | update attempt nowMs =>
    intro ip st hst
    rw [failuresOf_append]
    change (ipFeature.visit hash store.ipShards attempt nowMs).2.find hash ip = some st at hst
    rw [Feature.find_visit] at hst
    split_ifs at hst with hip
    · subst hip
      obtain ⟨st', hst', rfl⟩ := Option.map_eq_some_iff.mp hst
      obtain ⟨log, now, hcoupled, hsub⟩ := h.created hst'
      obtain ⟨st'', log', now', hcoupled', hsub', hserve⟩ := hcoupled.serve attempt nowMs hsub
      rw [hserve]
      exact ⟨_, _, hcoupled'.expire nowMs st''.lastSeenMs, List.filter_sublist.trans hsub'⟩
    · obtain ⟨log, now, hcoupled, hsub⟩ := h ip st hst
      exact ⟨log, now, hcoupled, hsub.trans (List.sublist_append_left _ _)⟩
  | reclaim nowMs =>
    intro ip st hst
    change (ipFeature.reclaim store.ipShards nowMs _).find hash ip = some st at hst
    rw [Feature.find_reclaim, Option.filter_eq_some_iff] at hst
    obtain ⟨log, now, hcoupled, hsub⟩ := h ip st hst.1
    rw [failuresOf_append]
    exact ⟨log, now, hcoupled, hsub.trans (List.sublist_append_left _ _)⟩

theorem allCoupled_run {config : FeatureStateReclamationConfig}
    {hvalid : isValidReclamationConfig config = true} (calls : List FeatureCall) :
    ((new config hvalid).run hash calls).AllCoupled hash calls := by
  induction calls using List.reverseRecOn with
  | nil =>
    intro ip st hst
    cases hst
  | append_singleton calls c ih =>
    have hrun : (new config hvalid).run hash (calls ++ [c]) =
        ((new config hvalid).run hash calls).call hash c := by
      rw [run, List.foldl_append]
      rfl
    rw [hrun]
    exact ih.call c

/-- **No snapshot has more failed users than failures.**  This holds after any calls with arbitrary
readings, as long as no window of an address has `2 ^ 32` failures. -/
theorem ip_users_le_failures {config : FeatureStateReclamationConfig} {store : LoginFeatureStore}
    (hcreate : create config = some store) (calls : List FeatureCall) (attempt : LoginAttempt)
    (nowMs : ℕ) (hfew : FewFailures (calls ++ [.update attempt nowMs])) :
    (((store.run hash calls).updateAndGet hash attempt nowMs).1).ipDistinctFailedUser10m ≤
      (((store.run hash calls).updateAndGet hash attempt nowMs).1).ipLoginFailures10m := by
  unfold create at hcreate
  split_ifs at hcreate with hvalid
  cases hcreate
  have hall := @allCoupled_run hash config hvalid calls
  have hsmall := hfew calls attempt nowMs (List.prefix_refl _)
  rw [failuresOf_append] at hsmall
  change ((ipFeature.visit hash _ attempt nowMs).1).1 ≤ ((ipFeature.visit hash _ attempt nowMs).1).2
  unfold Feature.visit
  cases hcreated : ipFeature.created hash ((new config hvalid).run hash calls).ipShards attempt
    nowMs with
  | none => exact le_rfl
  | some st =>
    obtain ⟨log, now, hcoupled, hsub⟩ := hall.created hcreated
    obtain ⟨st', log', now', hcoupled', hsub', hserve⟩ := hcoupled.serve attempt nowMs hsub
    have hlog := (hsub'.filter fun f =>
      decide (InWindow 60 (nowMs / kIpFailureBucketMs) f.2)).length_le
    change (ipFeature.serve st attempt nowMs).1.1 ≤ (ipFeature.serve st attempt nowMs).1.2
    rw [hserve]
    exact hcoupled'.read_le nowMs (hlog.trans_lt hsmall)

/-- A short run has few failures. -/
theorem fewFailures_of_length {calls : List FeatureCall} (h : calls.length < 2 ^ 32) :
    FewFailures calls := by
  intro before attempt nowMs hearlier
  calc (windowed (nowMs / kIpFailureBucketMs)
        (failuresOf attempt.ip (before ++ [FeatureCall.update attempt nowMs]))).length
      ≤ (failuresOf attempt.ip (before ++ [FeatureCall.update attempt nowMs])).length :=
        List.filter_sublist.length_le
    _ ≤ (before ++ [FeatureCall.update attempt nowMs]).length := List.length_filterMap_le _ _
    _ ≤ calls.length := hearlier.length_le
    _ < 2 ^ 32 := h

/-- Two users fail from one address, the second one before the clock goes back. -/
def stuffingCalls : List FeatureCall :=
  [.update ⟨5000, [1], [9], [7], .fail⟩ 5000, .update ⟨25000, [2], [9], [7], .fail⟩ 26000,
    .reclaim 27000]

/-- The theorem for that run, at a reading before the second failure. -/
theorem ip_users_le_failures_stuffing :
    isValidReclamationConfig ⟨600000, 1200000, 1200000⟩ = true ∧
    ((((new ⟨600000, 1200000, 1200000⟩ (by decide)).run List.length stuffingCalls).updateAndGet
        List.length ⟨6000, [3], [9], [7], .fail⟩ 8000).1).ipDistinctFailedUser10m ≤
      ((((new ⟨600000, 1200000, 1200000⟩ (by decide)).run List.length stuffingCalls).updateAndGet
        List.length ⟨6000, [3], [9], [7], .fail⟩ 8000).1).ipLoginFailures10m := by
  refine ⟨by decide, ?_⟩
  exact @ip_users_le_failures List.length ⟨600000, 1200000, 1200000⟩ _ rfl stuffingCalls _ _
    (fewFailures_of_length (by decide))

end LoginFeatureStore

end AegisFlow
