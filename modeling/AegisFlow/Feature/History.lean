import AegisFlow.Feature.FeatureStore

/-!
# The store against the whole history

The feature store forgets: its windows drop what is too old, and reclamation drops whole states.
This file compares it with the complete list of the attempts it was given, each with the clock
reading of its arrival (`history`), from which nothing is ever dropped and in which reclamations
do not occur at all.

* `Feature.Refines` lists what a map of windows needs in order to be a view of the attempts that
  updated each key, and `Feature.Kept` is the invariant that then holds of the map;
* `Feature.Kept.visit`, `Feature.Kept.reclaim` : visits and reclamations keep it, and a visit
  reads what the log says;
* `userRefines`, `ipRefines`, `deviceRefines` : the three maps qualify;
* `snapshot_eq_history` : **every snapshot is computed from the whole history.**

An attempt dated after the reading of its own arrival is not counted, not even later when its
time has come (`snapshot_ne_untested`).
-/

namespace AegisFlow

open LoginFeatureStore

/-- An attempt with the clock reading of its arrival. -/
abbrev Arrival := LoginAttempt × ℕ

/-- The attempt a call makes; a reclamation makes none. -/
def FeatureCall.arrival : FeatureCall → Option Arrival
  | .update attempt nowMs => some (attempt, nowMs)
  | .reclaim _ => none

/-- All attempts of a sequence of calls. -/
def history (calls : List FeatureCall) : List Arrival := calls.filterMap FeatureCall.arrival

/-! ### One map -/

namespace Feature

variable {n : ℕ} [NeZero n] {σ ρ : Type} (F : Feature σ ρ)

/-- The attempts that updated a key. -/
def logOf (key : Bytes) (h : List Arrival) : List LoginAttempt :=
  (h.filter fun e => F.canUpdate e.1 e.2 && F.key e.1 == key).map Prod.fst

theorem logOf_append (key : Bytes) (h h' : List Arrival) :
    F.logOf key (h ++ h') = F.logOf key h ++ F.logOf key h' := by
  simp [logOf]

theorem logOf_single (key : Bytes) (attempt : LoginAttempt) (nowMs : ℕ) :
    F.logOf key [(attempt, nowMs)] =
      if F.canUpdate attempt nowMs = true ∧ key = F.key attempt then [attempt] else [] := by
  by_cases hkey : key = F.key attempt
  · subst hkey
    cases hcan : F.canUpdate attempt nowMs <;> simp [logOf, hcan]
  · have hne : (F.key attempt == key) = false := beq_eq_false_iff_ne.mpr (Ne.symm hkey)
    simp [logOf, hne, hkey]

/-- **A map of windows as a view of its log.**  `Rep st log now` : the state represents the log
at the last reading `now`.  `Live a now` : the attempt is still counted at `now`.  `Fits` bounds
the logs for which the representation is claimed. -/
structure Refines (ttlMs : ℕ) (Fits : List LoginAttempt → Prop) (Live : LoginAttempt → ℕ → Prop)
    (Rep : σ → List LoginAttempt → ℕ → Prop) (value : List LoginAttempt → ℕ → ρ) : Prop where
  /-- A new state represents every log that is no longer counted. -/
  fresh : ∀ {log now}, Fits log → (∀ a ∈ log, a.timestampMs ≤ now) → (∀ a ∈ log, ¬ Live a now) →
    Rep F.fresh log now
  update : ∀ {st log a now now'}, Rep st log now → now ≤ now' → a.timestampMs ≤ now' →
    Fits (log ++ [a]) → Rep (F.update a now' st) (log ++ [a]) now'
  read : ∀ {st log now now'}, Rep st log now → now ≤ now' →
    (F.read now' st).1 = value log now' ∧ Rep (F.read now' st).2 log now'
  value_nil : ∀ now, value [] now = F.absent
  fits_nil : Fits []
  fits : ∀ {st log now}, Rep st log now → Fits log
  fits_left : ∀ {log log'}, Fits (log ++ log') → Fits log
  canUpdate : ∀ {a now}, F.canUpdate a now = true → a.timestampMs ≤ now
  lastSeen_update : ∀ a now st, F.lastSeenMs (F.update a now st) = now
  lastSeen_read : ∀ now st, F.lastSeenMs (F.read now st).2 = F.lastSeenMs st
  /-- After the time to live, an attempt is no longer counted. -/
  cold : ∀ {a now}, a.timestampMs + ttlMs ≤ now → ¬ Live a now

/-- The map represents the history at the last reading `now`. -/
structure Kept (Rep : σ → List LoginAttempt → ℕ → Prop) (hash : Bytes → ℕ) (shards : Shards n σ)
    (h : List Arrival) (now : ℕ) : Prop where
  arrived : ∀ e ∈ h, e.2 ≤ now
  /-- Every state represents the log of its key, an absent state like a new one. -/
  rep : ∀ key, ∃ m ≤ now, Rep ((shards.find hash key).getD F.fresh) (F.logOf key h) m
  /-- Nothing in the log of a key is newer than the last update of its state. -/
  seen : ∀ key st, shards.find hash key = some st →
    ∀ a ∈ F.logOf key h, a.timestampMs ≤ F.lastSeenMs st

variable {F} {ttlMs : ℕ} {Fits : List LoginAttempt → Prop} {Live : LoginAttempt → ℕ → Prop}
  {Rep : σ → List LoginAttempt → ℕ → Prop} {value : List LoginAttempt → ℕ → ρ}
  {hash : Bytes → ℕ} {shards : Shards n σ} {h : List Arrival} {now nowMs : ℕ}
  {attempt : LoginAttempt}

namespace Refines

section

variable (R : F.Refines ttlMs Fits Live Rep value)
include R

theorem timestamp_le (harrived : ∀ e ∈ h, e.2 ≤ now) {key : Bytes} {a : LoginAttempt}
    (ha : a ∈ F.logOf key h) : a.timestampMs ≤ now := by
  simp only [logOf, List.mem_map, List.mem_filter, Bool.and_eq_true] at ha
  obtain ⟨e, ⟨hmem, hcan, -⟩, rfl⟩ := ha
  exact (R.canUpdate hcan).trans (harrived e hmem)

theorem fresh_nil (now : ℕ) : Rep F.fresh [] now :=
  R.fresh R.fits_nil (fun _ ha => absurd ha List.not_mem_nil)
    (fun _ ha => absurd ha List.not_mem_nil)

theorem read_fresh (now : ℕ) : (F.read now F.fresh).1 = F.absent :=
  (R.read (R.fresh_nil now) le_rfl).1.trans (R.value_nil now)

theorem kept_empty :
    F.Kept Rep hash (fun _ : Fin n => ∅) [] 0 where
  arrived e he := absurd he List.not_mem_nil
  rep key := ⟨0, le_rfl, by
    rw [show (Shards.find hash (fun _ : Fin n => (∅ : Finmap fun _ : Bytes => σ)) key) = none
      from Finmap.lookup_empty key]
    exact R.fresh_nil 0⟩
  seen key st hst := absurd hst (by simp [Shards.find])

/-- What serving an attempt does to a state. -/
theorem serve {st : σ} {log : List LoginAttempt} {m : ℕ} (hrep : Rep st log m) (hle : m ≤ nowMs)
    (hfits : Fits (log ++ if F.canUpdate attempt nowMs then [attempt] else [])) :
    (F.serve st attempt nowMs).1 =
        value (log ++ if F.canUpdate attempt nowMs then [attempt] else []) nowMs ∧
      Rep (F.serve st attempt nowMs).2
        (log ++ if F.canUpdate attempt nowMs then [attempt] else []) nowMs ∧
      F.lastSeenMs (F.serve st attempt nowMs).2 =
        if F.canUpdate attempt nowMs then nowMs else F.lastSeenMs st := by
  unfold Feature.serve
  by_cases hcan : F.canUpdate attempt nowMs = true
  · rw [if_pos hcan] at hfits
    simp only [if_pos hcan]
    have hup := R.update hrep hle (R.canUpdate hcan) hfits
    obtain ⟨hvalue, hrep'⟩ := R.read hup (le_refl nowMs)
    exact ⟨hvalue, hrep', by rw [R.lastSeen_read, R.lastSeen_update]⟩
  · simp only [if_neg hcan, List.append_nil]
    obtain ⟨hvalue, hrep'⟩ := R.read hrep hle
    exact ⟨hvalue, hrep', R.lastSeen_read nowMs st⟩

end

end Refines

namespace Kept

/-- The log of a key after a visit. -/
theorem logOf_visited (key : Bytes) :
    F.logOf key (h ++ [(attempt, nowMs)]) =
      F.logOf key h ++ if F.canUpdate attempt nowMs = true ∧ key = F.key attempt
        then [attempt] else [] := by
  rw [logOf_append, logOf_single]

theorem logOf_own :
    F.logOf (F.key attempt) (h ++ [(attempt, nowMs)]) =
      F.logOf (F.key attempt) h ++ if F.canUpdate attempt nowMs then [attempt] else [] := by
  simp [logOf_visited]

theorem logOf_other {key : Bytes} (hkey : key ≠ F.key attempt) :
    F.logOf key (h ++ [(attempt, nowMs)]) = F.logOf key h := by
  simp [logOf_visited, hkey]

variable (R : F.Refines ttlMs Fits Live Rep value) (k : F.Kept Rep hash shards h now)

include R k

/-- **A visit reads what the log says.** -/
theorem visit_fst (hle : now ≤ nowMs)
    (hfits : Fits (F.logOf (F.key attempt) (h ++ [(attempt, nowMs)]))) :
    (F.visit hash shards attempt nowMs).1 =
      value (F.logOf (F.key attempt) (h ++ [(attempt, nowMs)])) nowMs := by
  obtain ⟨m, hm, hrep⟩ := k.rep (F.key attempt)
  rw [logOf_own] at hfits ⊢
  unfold Feature.visit
  cases hst : F.created hash shards attempt nowMs with
  | some st =>
    rw [(created_eq hst).1] at hrep
    exact (R.serve hrep (hm.trans hle) hfits).1
  | none =>
    obtain ⟨hfind, hcan⟩ := created_none hst
    rw [hfind, Option.getD_none] at hrep
    simp only [hcan, Bool.false_eq_true, if_false, List.append_nil]
    rw [← (R.read hrep (hm.trans hle)).1, R.read_fresh]

/-- **Visits keep the representation.** -/
theorem visit (hle : now ≤ nowMs)
    (hfits : Fits (F.logOf (F.key attempt) (h ++ [(attempt, nowMs)]))) :
    F.Kept Rep hash (F.visit hash shards attempt nowMs).2 (h ++ [(attempt, nowMs)]) nowMs := by
  have harrived : ∀ e ∈ h ++ [(attempt, nowMs)], e.2 ≤ nowMs := by
    intro e he
    obtain he | he := List.mem_append.mp he
    · exact (k.arrived e he).trans hle
    · obtain rfl := List.mem_singleton.mp he
      exact le_rfl
  refine ⟨harrived, fun key => ?_, fun key st hst => ?_⟩
  · obtain ⟨m, hm, hrep⟩ := k.rep key
    rw [find_visit]
    split_ifs with hkey
    · subst hkey
      rw [logOf_own] at hfits ⊢
      cases hst : F.created hash shards attempt nowMs with
      | some st =>
        rw [(created_eq hst).1] at hrep
        exact ⟨nowMs, le_rfl, (R.serve hrep (hm.trans hle) hfits).2.1⟩
      -- No state was created, so the attempt is not counted either.
      | none =>
        obtain ⟨hfind, hcan⟩ := created_none hst
        rw [hfind] at hrep
        simp only [hcan, Bool.false_eq_true, if_false, List.append_nil]
        exact ⟨m, hm.trans hle, hrep⟩
    · rw [logOf_other hkey]
      exact ⟨m, hm.trans hle, hrep⟩
  · intro a ha
    rw [find_visit] at hst
    split_ifs at hst with hkey
    · subst hkey
      obtain ⟨st', hst', rfl⟩ := Option.map_eq_some_iff.mp hst
      obtain ⟨m, hm, hrep⟩ := k.rep (F.key attempt)
      obtain ⟨hget, hfind⟩ := created_eq hst'
      rw [hget] at hrep
      have hlast := (R.serve hrep (hm.trans hle) (logOf_own ▸ hfits)).2.2
      cases hcan : F.canUpdate attempt nowMs with
      | true =>
        rw [hcan, if_pos rfl] at hlast
        rw [hlast]
        exact R.timestamp_le harrived ha
      | false =>
        rw [logOf_own, hcan, if_neg Bool.false_ne_true, List.append_nil] at ha
        rw [hcan, if_neg Bool.false_ne_true] at hlast
        rw [hlast]
        exact k.seen _ st' (hfind hcan) a ha
    · rw [logOf_other hkey] at ha
      exact k.seen key st hst a ha

/-- **Reclamations keep the representation**: what they drop is no longer counted. -/
theorem reclaim (hle : now ≤ nowMs) {ttlMs' : ℕ} (httl : ttlMs ≤ ttlMs') :
    F.Kept Rep hash (F.reclaim shards nowMs ttlMs') h nowMs := by
  have harrived : ∀ e ∈ h, e.2 ≤ nowMs := fun e he => (k.arrived e he).trans hle
  refine ⟨harrived, fun key => ?_, fun key st hst => ?_⟩
  · obtain ⟨m, hm, hrep⟩ := k.rep key
    rw [find_reclaim]
    cases hfind : shards.find hash key with
    | none =>
      rw [hfind] at hrep
      exact ⟨m, hm.trans hle, hrep⟩
    | some st =>
      rw [hfind] at hrep
      by_cases hexp : isExpired (F.lastSeenMs st) nowMs ttlMs' = true
      · refine ⟨nowMs, le_rfl, ?_⟩
        rw [Option.filter_some_neg (by simp [hexp]), Option.getD_none]
        refine R.fresh (R.fits hrep) (fun a ha => R.timestamp_le harrived ha) fun a ha => ?_
        simp only [isExpired, Bool.and_eq_true, decide_eq_true_eq] at hexp
        have := k.seen key st hfind a ha
        exact R.cold (by omega)
      · rw [Option.filter_some_pos (by simp [hexp])]
        exact ⟨m, hm.trans hle, hrep⟩
  · rw [find_reclaim, Option.filter_eq_some_iff] at hst
    exact k.seen key st hst.1

end Kept

end Feature

/-! ### The windows -/

/-- The attempt lies in one of the last 60 buckets of the given width. -/
def InBuckets (widthMs : ℕ) (a : LoginAttempt) (nowMs : ℕ) : Prop :=
  InWindow 60 (nowMs / widthMs) (a.timestampMs / widthMs)

instance (widthMs : ℕ) (a : LoginAttempt) (nowMs : ℕ) : Decidable (InBuckets widthMs a nowMs) :=
  inferInstanceAs (Decidable (InWindow _ _ _))

/-- The users of some attempts. -/
def usersOf (log : List LoginAttempt) : Finset Bytes := (log.map LoginAttempt.userId).toFinset

/-- The attempts of a log in the last 60 buckets. -/
def recent (widthMs : ℕ) (log : List LoginAttempt) (nowMs : ℕ) : List LoginAttempt :=
  log.filter fun a => decide (InBuckets widthMs a nowMs)

theorem not_inBuckets {widthMs : ℕ} (hw : 0 < widthMs) {a : LoginAttempt} {nowMs : ℕ}
    (h : a.timestampMs + 60 * widthMs ≤ nowMs) : ¬ InBuckets widthMs a nowMs :=
  not_inWindow_div hw h

theorem usersOf_subset {log log' : List LoginAttempt} (h : ∀ a ∈ log, a ∈ log') :
    usersOf log ⊆ usersOf log' := by
  intro u hu
  simp only [usersOf, List.mem_toFinset, List.mem_map] at hu ⊢
  obtain ⟨a, ha, rfl⟩ := hu
  exact ⟨a, h a ha, rfl⟩

/-- What stays in the window was in it before. -/
theorem recent_recent {widthMs now now' : ℕ} {log : List LoginAttempt}
    (hlog : ∀ a ∈ log, a.timestampMs ≤ now) (hle : now ≤ now') :
    recent widthMs (recent widthMs log now) now' = recent widthMs log now' := by
  unfold recent
  rw [List.filter_filter]
  refine List.filter_congr fun a ha => ?_
  have hback : InBuckets widthMs a now' → InBuckets widthMs a now := fun h =>
    h.of_later (Nat.div_le_div_right (hlog a ha)) (Nat.div_le_div_right hle)
  by_cases h : InBuckets widthMs a now'
  · simp [h, hback h]
  · simp [h]

/-- The additions an attempt each makes. -/
def additionsOf (widthMs : ℕ) (log : List LoginAttempt) : List Addition :=
  log.map fun a => (a.timestampMs / widthMs, 1)

theorem amount_additionsOf (widthMs : ℕ) (log : List LoginAttempt) :
    amount (additionsOf widthMs log) = log.length := by
  simp [amount, additionsOf, Function.comp_def]

theorem keptAt_additionsOf (widthMs now : ℕ) (log : List LoginAttempt) :
    keptAt 60 (now / widthMs) (additionsOf widthMs log) =
      additionsOf widthMs (recent widthMs log now) := by
  rw [keptAt, additionsOf, List.filter_map]
  rfl

/-- A counter represents the attempts given to it. -/
structure CounterRep (widthMs : ℕ) (c : SlidingCounter 60) (log : List LoginAttempt) (now : ℕ) :
    Prop where
  width : c.bucketMs = widthMs
  holds : c.Holds (additionsOf widthMs (recent widthMs log now)) (now / widthMs)
  dated : ∀ a ∈ log, a.timestampMs ≤ now
  small : log.length < 2 ^ 32

namespace CounterRep

variable {widthMs : ℕ} {c : SlidingCounter 60} {log : List LoginAttempt} {now nowMs : ℕ}

theorem new (hw : 0 < widthMs) (hsmall : log.length < 2 ^ 32)
    (hle : ∀ a ∈ log, a.timestampMs ≤ now) (hout : ∀ a ∈ log, ¬ InBuckets widthMs a now) :
    CounterRep widthMs (.new 60 widthMs hw) log now where
  width := rfl
  holds := by
    have hnone : recent widthMs log now = [] := by
      rw [recent, List.filter_eq_nil_iff]
      exact fun a ha => by simpa using hout a ha
    rw [hnone]
    exact .new
  dated := hle
  small := hsmall

section

variable (h : CounterRep widthMs c log now) (hle : now ≤ nowMs)
include h hle

theorem keptAt_eq :
    keptAt 60 (c.bucketOf nowMs) (additionsOf widthMs (recent widthMs log now)) =
      additionsOf widthMs (recent widthMs log nowMs) := by
  rw [SlidingCounter.bucketOf, h.width, keptAt_additionsOf, recent_recent h.dated hle]

theorem add {a : LoginAttempt} (ha : a.timestampMs ≤ nowMs)
    (hsmall : (log ++ [a]).length < 2 ^ 32) :
    CounterRep widthMs (c.add a.timestampMs nowMs 1).2 (log ++ [a]) nowMs where
  width := (SlidingCounter.add_bucketMs _ _ _ _).trans h.width
  holds := by
    have hadd := h.holds.add a.timestampMs nowMs 1
    have hown : addedAt 60 (c.bucketOf nowMs) (c.bucketOf a.timestampMs) 1 =
        additionsOf widthMs (recent widthMs [a] nowMs) := by
      unfold addedAt SlidingCounter.bucketOf
      rw [h.width]
      by_cases hin : InBuckets widthMs a nowMs
      · rw [if_pos (by exact hin)]
        simp [additionsOf, recent, hin]
      · rw [if_neg (by exact hin)]
        simp [additionsOf, recent, hin]
    rw [h.keptAt_eq hle, hown, SlidingCounter.bucketOf, h.width] at hadd
    simpa [additionsOf, recent] using hadd
  dated b hb := by
    obtain hb | hb := List.mem_append.mp hb
    · exact (h.dated b hb).trans hle
    · exact List.mem_singleton.mp hb ▸ ha
  small := hsmall

theorem sum :
    (c.sum nowMs).1 = (recent widthMs log nowMs).length ∧
      CounterRep widthMs (c.sum nowMs).2 log nowMs := by
  have hexpire := h.holds.expire nowMs
  rw [h.keptAt_eq hle, SlidingCounter.bucketOf, h.width] at hexpire
  refine ⟨?_, h.width, hexpire, fun a ha => (h.dated a ha).trans hle, h.small⟩
  have hlt : (recent widthMs log nowMs).length < 2 ^ 32 :=
    lt_of_le_of_lt (List.length_filter_le _ _) h.small
  rw [h.holds.sum_eq, h.keptAt_eq hle, amount_additionsOf, Nat.mod_eq_of_lt hlt]

end

end CounterRep

/-- A set of distinct users represents the attempts given to it. -/
structure DistinctRep (d : SlidingDistinct) (log : List LoginAttempt) (now : ℕ) : Prop where
  config : SlidingDistinct.SameConfig newDistinct d
  indexed : d.Indexed
  tracks : d.view.Tracks 60 (log.map fun a => (a.userId, a.timestampMs / kDistinctBucketMs))
    (now / kDistinctBucketMs)

namespace DistinctRep

variable {d : SlidingDistinct} {log : List LoginAttempt} {now nowMs : ℕ}

theorem everyone_eq (log : List LoginAttempt) :
    DistinctView.everyone (log.map fun a => (a.userId, a.timestampMs / kDistinctBucketMs)) =
      usersOf log := by
  simp [DistinctView.everyone, usersOf, Function.comp_def]

theorem members_eq (log : List LoginAttempt) (nowMs : ℕ) :
    DistinctView.members 60 (log.map fun a => (a.userId, a.timestampMs / kDistinctBucketMs))
      (nowMs / kDistinctBucketMs) = usersOf (recent kDistinctBucketMs log nowMs) := by
  rw [DistinctView.members, List.filter_map, everyone_eq]
  rfl

theorem new (hle : ∀ a ∈ log, a.timestampMs ≤ now)
    (hout : ∀ a ∈ log, ¬ InBuckets kDistinctBucketMs a now) : DistinctRep newDistinct log now where
  config := ⟨rfl, rfl, rfl⟩
  indexed := SlidingDistinct.indexed_new
  tracks := by
    refine .new ?_ ?_
    · simp only [List.forall_mem_map]
      exact fun a ha => Nat.div_le_div_right (hle a ha)
    · simp only [List.forall_mem_map]
      exact hout

section

variable (h : DistinctRep d log now)
include h

theorem bucketOf_eq (ms : ℕ) : d.bucketOf ms = ms / kDistinctBucketMs := by
  rw [SlidingDistinct.bucketOf, h.config.bucketMs]
  rfl

theorem windowBucketNum_eq : d.windowBucketNum = 60 := h.config.1

theorem maxMembers_eq : d.maxMembers = kDistinctMaxMembers :=
  h.config.3

theorem add (hle : now ≤ nowMs) {a : LoginAttempt} (ha : a.timestampMs ≤ nowMs)
    (hroom : (usersOf (log ++ [a])).card ≤ kDistinctMaxMembers) :
    DistinctRep (d.add a.userId a.timestampMs nowMs).2 (log ++ [a]) nowMs := by
  refine ⟨h.config.trans (d.add_sameConfig a.userId a.timestampMs nowMs),
    h.indexed.add _ _ _, ?_⟩
  have hlimit : (DistinctView.everyone ((log.map fun a =>
      (a.userId, a.timestampMs / kDistinctBucketMs)) ++
        [(a.userId, a.timestampMs / kDistinctBucketMs)])).card ≤ kDistinctMaxMembers := by
    rw [← everyone_eq] at hroom
    simpa using hroom
  have hadd := h.tracks.add (Nat.div_le_div_right hle) (Nat.div_le_div_right ha) hlimit
  rw [SlidingDistinct.view_add h.indexed, h.bucketOf_eq, h.bucketOf_eq, h.windowBucketNum_eq,
    h.maxMembers_eq]
  simpa using hadd

theorem count (hle : now ≤ nowMs) (hroom : (usersOf log).card ≤ kDistinctMaxMembers) :
    (d.count nowMs).1 = (usersOf (recent kDistinctBucketMs log nowMs)).card ∧
      DistinctRep (d.count nowMs).2 log nowMs := by
  have hdiv : now / kDistinctBucketMs ≤ nowMs / kDistinctBucketMs := Nat.div_le_div_right hle
  have hwindow := h.windowBucketNum_eq
  have hfew : (usersOf (recent kDistinctBucketMs log nowMs)).card < 2 ^ 32 :=
    lt_of_le_of_lt ((Finset.card_le_card (usersOf_subset fun a ha =>
      (List.mem_filter.mp ha).1)).trans hroom) (by decide)
  refine ⟨?_, h.config.trans (d.expire_sameConfig nowMs), h.indexed.expire nowMs, ?_⟩
  · rw [SlidingDistinct.count_eq h.indexed, hwindow, h.bucketOf_eq, h.tracks.count_eq hdiv,
      members_eq, Nat.mod_eq_of_lt hfew]
  · have := h.tracks.expire hdiv
    rwa [← hwindow, ← h.bucketOf_eq, ← SlidingDistinct.view_expire h.indexed, hwindow,
      h.bucketOf_eq] at this

end

end DistinctRep

/-! ### The three maps are views of their logs -/

/-- A log short enough for 32-bit counts. -/
def Countable (log : List LoginAttempt) : Prop := log.length < 2 ^ 32

/-- A log with no more users than a set of distinct users holds. -/
def FewUsers (log : List LoginAttempt) : Prop := (usersOf log).card ≤ kDistinctMaxMembers

theorem countable_nil : Countable [] := Nat.two_pow_pos 32

theorem fewUsers_nil : FewUsers [] := Nat.zero_le _

theorem Countable.left {log log' : List LoginAttempt} (h : Countable (log ++ log')) :
    Countable log := by
  unfold Countable at h ⊢
  rw [List.length_append] at h
  omega

theorem FewUsers.left {log log' : List LoginAttempt} (h : FewUsers (log ++ log')) :
    FewUsers log :=
  (Finset.card_le_card (usersOf_subset fun _ => List.mem_append_left _)).trans h

theorem timestamp_le_of_failedWithin {windowMs nowMs : ℕ} {a : LoginAttempt}
    (h : failedWithin windowMs a nowMs = true) : a.timestampMs ≤ nowMs := by
  simp only [failedWithin, isWithinWindow, Bool.and_eq_true, decide_eq_true_eq] at h
  exact h.2.1

theorem userRefines : userFeature.Refines kUserWindowMs Countable (InBuckets kUserBucketMs)
    (fun st => CounterRep kUserBucketMs st.loginFail5m)
    (fun log now => (recent kUserBucketMs log now).length) where
  fresh hfits hle hout := CounterRep.new kUserBucketMs_pos hfits hle hout
  update hrep hle ha hfits := hrep.add hle ha hfits
  read hrep hle := hrep.sum hle
  value_nil _ := rfl
  fits_nil := countable_nil
  fits hrep := hrep.small
  fits_left := Countable.left
  canUpdate := timestamp_le_of_failedWithin
  lastSeen_update _ _ _ := rfl
  lastSeen_read _ _ := rfl
  cold h := not_inBuckets kUserBucketMs_pos h

theorem ipRefines : ipFeature.Refines kDistinctWindowMs (fun log => Countable log ∧ FewUsers log)
    (InBuckets kDistinctBucketMs)
    (fun st log now => DistinctRep st.distinct log now ∧
      CounterRep kIpFailureBucketMs st.failures10m log now ∧ FewUsers log)
    (fun log now => ((usersOf (recent kDistinctBucketMs log now)).card,
      (recent kIpFailureBucketMs log now).length)) where
  fresh hfits hle hout :=
    ⟨.new hle hout, .new kIpFailureBucketMs_pos hfits.1 hle hout, hfits.2⟩
  update hrep hle ha hfits :=
    ⟨hrep.1.add hle ha hfits.2, hrep.2.1.add hle ha hfits.1, hfits.2⟩
  read hrep hle := by
    obtain ⟨hcount, hd⟩ := hrep.1.count hle hrep.2.2
    obtain ⟨hsum, hc⟩ := hrep.2.1.sum hle
    exact ⟨Prod.ext hcount hsum, hd, hc, hrep.2.2⟩
  value_nil _ := rfl
  fits_nil := ⟨countable_nil, fewUsers_nil⟩
  fits hrep := ⟨hrep.2.1.small, hrep.2.2⟩
  fits_left h := ⟨h.1.left, h.2.left⟩
  canUpdate := timestamp_le_of_failedWithin
  lastSeen_update _ _ _ := rfl
  lastSeen_read _ _ := rfl
  cold h := not_inBuckets kDistinctBucketMs_pos h

theorem deviceRefines : deviceFeature.Refines kDistinctWindowMs FewUsers
    (InBuckets kDistinctBucketMs)
    (fun st log now => DistinctRep st.distinct log now ∧ FewUsers log)
    (fun log now => (usersOf (recent kDistinctBucketMs log now)).card) where
  fresh hfits hle hout := ⟨.new hle hout, hfits⟩
  update hrep hle ha hfits := ⟨hrep.1.add hle ha hfits, hfits⟩
  read hrep hle := by
    obtain ⟨hcount, hd⟩ := hrep.1.count hle hrep.2
    exact ⟨hcount, hd, hrep.2⟩
  value_nil _ := rfl
  fits_nil := fewUsers_nil
  fits hrep := hrep.2
  fits_left := FewUsers.left
  canUpdate h := by
    simp only [deviceFeature, isWithinWindow, Bool.and_eq_true, decide_eq_true_eq] at h
    exact h.1
  lastSeen_update _ _ _ := rfl
  lastSeen_read _ _ := rfl
  cold h := not_inBuckets kDistinctBucketMs_pos h

/-! ### Whole runs -/

namespace LoginFeatureStore

/-- The history fits the store: counts stay below `2 ^ 32` and no address or device has more
users than a set of distinct users holds. -/
structure Fits (h : List Arrival) : Prop where
  length : h.length < 2 ^ 32
  ip : ∀ key, FewUsers (ipFeature.logOf key h)
  device : ∀ key, FewUsers (deviceFeature.logOf key h)

/-- The store represents the history. -/
structure Represents (hash : Bytes → ℕ) (store : LoginFeatureStore) (h : List Arrival)
    (now : ℕ) : Prop where
  user : userFeature.Kept (fun st => CounterRep kUserBucketMs st.loginFail5m) hash
    store.userShards h now
  ip : ipFeature.Kept (fun st log now => DistinctRep st.distinct log now ∧
    CounterRep kIpFailureBucketMs st.failures10m log now ∧ FewUsers log) hash store.ipShards h now
  device : deviceFeature.Kept (fun st log now => DistinctRep st.distinct log now ∧ FewUsers log)
    hash store.deviceShards h now

variable {hash : Bytes → ℕ} {store : LoginFeatureStore} {h : List Arrival} {now nowMs : ℕ}
  {attempt : LoginAttempt}

theorem Fits.left {h' : List Arrival} (hfits : Fits (h ++ h')) : Fits h where
  length := by
    have := hfits.length
    rw [List.length_append] at this
    omega
  ip key := FewUsers.left (by rw [← Feature.logOf_append]; exact hfits.ip key)
  device key := FewUsers.left (by rw [← Feature.logOf_append]; exact hfits.device key)

theorem Fits.countable (hfits : Fits h) {σ ρ : Type} (F : Feature σ ρ) (key : Bytes) :
    Countable (F.logOf key h) := by
  refine lt_of_le_of_lt ?_ hfits.length
  rw [Feature.logOf, List.length_map]
  exact List.length_filter_le _ _

theorem represents_new {config : FeatureStateReclamationConfig}
    {hvalid : isValidReclamationConfig config = true} :
    (new config hvalid).Represents hash [] 0 :=
  ⟨userRefines.kept_empty, ipRefines.kept_empty, deviceRefines.kept_empty⟩

theorem Represents.update (k : store.Represents hash h now) (hle : now ≤ nowMs)
    (hfits : Fits (h ++ [(attempt, nowMs)])) :
    (store.updateAndGet hash attempt nowMs).2.Represents hash (h ++ [(attempt, nowMs)]) nowMs where
  user := k.user.visit userRefines hle (hfits.countable _ _)
  ip := k.ip.visit ipRefines hle ⟨hfits.countable _ _, hfits.ip _⟩
  device := k.device.visit deviceRefines hle (hfits.device _)

theorem Represents.reclaim (k : store.Represents hash h now) (hle : now ≤ nowMs) :
    (store.reclaimColdStates nowMs).Represents hash h nowMs := by
  have hvalid := store.config_valid
  simp only [isValidReclamationConfig, Bool.and_eq_true, decide_eq_true_eq] at hvalid
  exact ⟨k.user.reclaim userRefines hle hvalid.1.1, k.ip.reclaim ipRefines hle hvalid.1.2,
    k.device.reclaim deviceRefines hle hvalid.2⟩

/-- **Every run keeps the representation**, as long as the clock does not go back. -/
theorem represents_run (hash : Bytes → ℕ) {config : FeatureStateReclamationConfig}
    (hvalid : isValidReclamationConfig config = true) (calls : List FeatureCall)
    (hmono : (calls.map FeatureCall.nowMs).Pairwise (· ≤ ·)) (hfits : Fits (history calls)) :
    ∃ now, ((new config hvalid).run hash calls).Represents hash (history calls) now ∧
      ∀ nowMs, (∀ c ∈ calls, c.nowMs ≤ nowMs) → now ≤ nowMs := by
  induction calls using List.reverseRecOn with
  | nil => exact ⟨0, represents_new, fun _ _ => Nat.zero_le _⟩
  | append_singleton calls c ih =>
    rw [List.map_append, List.pairwise_append] at hmono
    obtain ⟨hmono, -, hlast⟩ := hmono
    have hsplit : history (calls ++ [c]) = history calls ++ history [c] := List.filterMap_append
    rw [hsplit] at hfits ⊢
    obtain ⟨now, hrep, hnow⟩ := ih hmono hfits.left
    have hle : now ≤ c.nowMs := by
      refine hnow _ fun c' hc' => hlast _ (List.mem_map_of_mem hc') _ ?_
      exact List.mem_singleton_self _
    refine ⟨c.nowMs, ?_, fun nowMs hall => hall c (by simp)⟩
    rw [run, List.foldl_append]
    cases c with
    | update attempt nowMs => exact hrep.update hle hfits
    | reclaim nowMs =>
      rw [show history [FeatureCall.reclaim nowMs] = [] from rfl, List.append_nil]
      exact hrep.reclaim hle

/-! ### Snapshots -/

/-- The attempts of a history that are accepted and share a key with an attempt. -/
def arrivalsOf (accept : LoginAttempt → ℕ → Bool) (key : LoginAttempt → Bytes) (h : List Arrival)
    (attempt : LoginAttempt) : List LoginAttempt :=
  (h.filter fun e => accept e.1 e.2 && key e.1 == key attempt).map Prod.fst

/-- The snapshot counted from a history, for given notions of which attempts count for the user,
for the address and for the device. -/
def countedSnapshot (acceptUser acceptIp acceptDevice : LoginAttempt → ℕ → Bool)
    (h : List Arrival) (attempt : LoginAttempt) (nowMs : ℕ) : LoginFeatureSnapshot where
  userLoginFail5m :=
    (recent 5000 (arrivalsOf acceptUser LoginAttempt.userId h attempt) nowMs).length
  ipDistinctFailedUser10m :=
    (usersOf (recent 10000 (arrivalsOf acceptIp LoginAttempt.ip h attempt) nowMs)).card
  deviceDistinctAccount10m :=
    (usersOf (recent 10000 (arrivalsOf acceptDevice LoginAttempt.deviceId h attempt) nowMs)).card
  ipLoginFailures10m := (recent 10000 (arrivalsOf acceptIp LoginAttempt.ip h attempt) nowMs).length

/-- The snapshot counted from the attempts that pass the window test at their own arrival. -/
def historySnapshot : List Arrival → LoginAttempt → ℕ → LoginFeatureSnapshot :=
  countedSnapshot (failedWithin (5 * 60 * 1000)) (failedWithin (10 * 60 * 1000))
    fun a nowMs => isWithinWindow a.timestampMs nowMs (10 * 60 * 1000)

/-- The snapshot that counts for addresses and devices also attempts that fail the window test
at their arrival. -/
def untestedSnapshot : List Arrival → LoginAttempt → ℕ → LoginFeatureSnapshot :=
  countedSnapshot (failedWithin (5 * 60 * 1000)) (fun a _ => a.result == .fail) fun _ _ => true

theorem Fits.of_length (hlen : h.length ≤ kDistinctMaxMembers) : Fits h := by
  have hfew : ∀ {σ ρ : Type} (F : Feature σ ρ) (key : Bytes), FewUsers (F.logOf key h) := by
    intro σ ρ F key
    have hcard := List.toFinset_card_le ((F.logOf key h).map LoginAttempt.userId)
    have hfilter := List.length_filter_le (fun e => F.canUpdate e.1 e.2 && F.key e.1 == key) h
    rw [List.length_map, Feature.logOf, List.length_map] at hcard
    exact hcard.trans (hfilter.trans hlen)
  exact ⟨lt_of_le_of_lt hlen (by decide), hfew ipFeature, hfew deviceFeature⟩

/-- **The store refines the full event log.**  After any calls whose readings do not go back,
every snapshot is the one counted from all attempts so far, the present one included.
Reclamations do not occur in that count. -/
theorem snapshot_eq_history (hash : Bytes → ℕ) (config : FeatureStateReclamationConfig)
    (hvalid : isValidReclamationConfig config = true) (calls : List FeatureCall)
    (attempt : LoginAttempt) (nowMs : ℕ)
    (hmono : ((calls ++ [FeatureCall.update attempt nowMs]).map FeatureCall.nowMs).Pairwise
      (· ≤ ·))
    (hfits : Fits (history (calls ++ [FeatureCall.update attempt nowMs]))) :
    (((new config hvalid).run hash calls).updateAndGet hash attempt nowMs).1 =
      historySnapshot (history (calls ++ [FeatureCall.update attempt nowMs])) attempt nowMs := by
  rw [List.map_append, List.pairwise_append] at hmono
  obtain ⟨hmono, -, hlast⟩ := hmono
  have hsplit : history (calls ++ [FeatureCall.update attempt nowMs]) =
      history calls ++ [(attempt, nowMs)] := List.filterMap_append
  rw [hsplit] at hfits ⊢
  obtain ⟨now, hrep, hnow⟩ := represents_run hash hvalid calls hmono hfits.left
  have hle : now ≤ nowMs :=
    hnow nowMs fun c hc => hlast _ (List.mem_map_of_mem hc) _ (List.mem_singleton_self _)
  have huser := hrep.user.visit_fst userRefines hle (hfits.countable _ _)
  have hip := hrep.ip.visit_fst ipRefines hle ⟨hfits.countable _ _, hfits.ip _⟩
  have hdevice := hrep.device.visit_fst deviceRefines hle (hfits.device _)
  simp only [updateAndGet, updateUser, updateIp, updateDevice, huser, hip, hdevice]
  rfl

/-- An attempt from a fixed address and device. -/
def sampleAttempt (user : UInt8) (timestampMs : ℕ) (result : LoginResult) : LoginAttempt :=
  ⟨timestampMs, [user], [49], [50], result⟩

theorem snapshot_eq_history_reclaimed :
    ∃ hvalid, (((new ⟨300000, 600000, 600000⟩ hvalid).run (fun _ => 0)
        [.update (sampleAttempt 1 1000 .fail) 2000, .reclaim 602000,
          .update (sampleAttempt 1 605000 .fail) 605000]).updateAndGet (fun _ => 0)
        (sampleAttempt 2 609000 .success) 610000).1 = ⟨0, 1, 2, 1⟩ := by
  refine ⟨by decide, ?_⟩
  rw [snapshot_eq_history _ _ _ _ _ _ (by decide) (Fits.of_length (by decide))]
  decide

/-- **Attempts dated after their arrival are never counted** for the address or the device: one
arrives a second early, and a later reading does not see it. -/
theorem snapshot_ne_untested :
    ∃ hvalid, Fits (history [.update (sampleAttempt 1 5000 .fail) 4000,
          .update (sampleAttempt 1 6000 .success) 6000]) ∧
      (((new ⟨300000, 600000, 600000⟩ hvalid).run (fun _ => 0)
        [.update (sampleAttempt 1 5000 .fail) 4000]).updateAndGet (fun _ => 0)
        (sampleAttempt 1 6000 .success) 6000).1.ipLoginFailures10m = 0 ∧
      (untestedSnapshot (history [.update (sampleAttempt 1 5000 .fail) 4000,
          .update (sampleAttempt 1 6000 .success) 6000])
        (sampleAttempt 1 6000 .success) 6000).ipLoginFailures10m = 1 :=
  ⟨by decide, Fits.of_length (by decide), by decide, by decide⟩

end LoginFeatureStore

end AegisFlow
