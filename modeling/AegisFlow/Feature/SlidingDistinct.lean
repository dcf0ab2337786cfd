import AegisFlow.Base.Text
import AegisFlow.Collections.Basic
import AegisFlow.Window.Basic
import Mathlib.Tactic.SplitIfs

/-!
# The sliding set of distinct members

`SlidingDistinct` counts the distinct members seen over a window of time buckets, up to a fixed
number of members.  A map holds the last bucket of every member; a priority queue holds an
entry for every bucket a member was moved to, so that `expire` finds the members to drop without
going through the map.  An entry in the queue may be out of date: it drops its member only if
the map still says the same bucket.

The abstract layer is `DistinctView`, where members are dropped from the map directly:

* `SlidingDistinct.view_expire`, `SlidingDistinct.view_add` : as long as every member has an
  entry for its last bucket (`SlidingDistinct.Indexed`), the queue cannot be observed, and the
  operations are those of the view;
* `DistinctView.Tracks` says that a view represents the log of everything added to it while
  readings do not go back, and `DistinctView.Tracks.count_eq` what is then read;
* `DistinctView.add_comm` : two additions within one bucket of time commute while there is
  room for both;
* `DistinctView.mem_keys_forward`, `DistinctView.mem_keys_backward` : the members after two
  additions, in the order of their readings and in the other one.
-/

namespace AegisFlow

/-- The last bucket of every member. -/
abbrev SeenMap := Finmap fun _ : Bytes => ℕ

/-- An element of the expiry queue. -/
structure DistinctEntry where
  /-- The bucket the member was moved to. -/
  bucket : ℕ
  member : Bytes
  deriving DecidableEq, Repr

/-- The distinct members over a window of time. -/
structure SlidingDistinct where
  windowBucketNum : ℕ
  bucketMs : ℕ
  /-- How many members are kept at most. -/
  maxMembers : ℕ
  lastNowBucket : ℕ
  /-- Whether there was a reading. -/
  clockInitialized : Bool
  lastSeenBucket : SeenMap
  /-- The entries to expire, earliest bucket first. -/
  expiredQueue : MinQueue DistinctEntry.bucket
  bucketMs_pos : 0 < bucketMs
  window_pos : 0 < windowBucketNum

namespace SlidingDistinct

/-- A set that has seen nothing. -/
def new (windowMs bucketMs maxMembers : ℕ) (hb : 0 < bucketMs) (hw : bucketMs ≤ windowMs) :
    SlidingDistinct :=
  ⟨windowMs / bucketMs, bucketMs, maxMembers, 0, false, ∅, .empty, hb, Nat.div_pos hw hb⟩

/-- Construct a set; an empty window, one that is not made of whole buckets and a set without
members are refused. -/
def create (windowMs bucketMs maxMembers : ℕ) : Option SlidingDistinct :=
  if h : 0 < bucketMs ∧ bucketMs ≤ windowMs then
    if windowMs % bucketMs ≠ 0 ∨ maxMembers = 0 then none
    else some (new windowMs bucketMs maxMembers h.1 h.2)
  else none

/-- The bucket of a point in time. -/
def bucketOf (d : SlidingDistinct) (ms : ℕ) : ℕ := ms / d.bucketMs

/-- The first bucket of the window. -/
def minValidBucket (d : SlidingDistinct) (nowBucket : ℕ) : ℕ :=
  if nowBucket < d.windowBucketNum then 0 else nowBucket - d.windowBucketNum + 1

/-- Handle an expired entry: it drops its member only if the member was not seen since. -/
def forget (seen : SeenMap) (e : DistinctEntry) : SeenMap :=
  if seen.lookup e.member = some e.bucket then seen.erase e.member else seen

variable (d : SlidingDistinct)

/-- The reading lies before the last one. -/
def rolledBack (nowBucket : ℕ) : Bool :=
  d.clockInitialized && decide (nowBucket < d.lastNowBucket)

/-- The set without its members, if the reading went back. -/
def rollBack (nowBucket : ℕ) : SlidingDistinct :=
  if d.rolledBack nowBucket then { d with lastSeenBucket := ∅, expiredQueue := .empty } else d

/-- Drop the members that left the window. -/
def dropBefore (minimum : ℕ) : SlidingDistinct :=
  { d with
    lastSeenBucket := (d.expiredQueue.below minimum).foldl forget d.lastSeenBucket
    expiredQueue := d.expiredQueue.popBelow minimum }

/-- Note a reading. -/
def readClock (nowBucket : ℕ) : SlidingDistinct :=
  { d with clockInitialized := true, lastNowBucket := nowBucket }

/-- Bring the set to a new reading. -/
def expire (nowMs : ℕ) : SlidingDistinct :=
  ((d.rollBack (d.bucketOf nowMs)).readClock (d.bucketOf nowMs)).dropBefore
    (d.minValidBucket (d.bucketOf nowMs))

/-- Move a member to a bucket. -/
def moveTo (member : Bytes) (bucket : ℕ) : SlidingDistinct :=
  { d with
    lastSeenBucket := d.lastSeenBucket.insert member bucket
    expiredQueue := d.expiredQueue.push ⟨bucket, member⟩ }

/-- Add a member in a bucket inside the window; returns whether it is a member now. -/
def record (member : Bytes) (eventBucket : ℕ) : Bool × SlidingDistinct :=
  match d.lastSeenBucket.lookup member with
  | some seen => if eventBucket ≤ seen then (true, d) else (true, d.moveTo member eventBucket)
  | none =>
    -- a full set takes no new member, but members it has are still moved
    if d.maxMembers ≤ d.lastSeenBucket.keys.card then (false, d)
    else (true, d.moveTo member eventBucket)

/-- Add a member; returns whether it is a member now. -/
def add (member : Bytes) (eventTsMs nowMs : ℕ) : Bool × SlidingDistinct :=
  if d.bucketOf nowMs < d.bucketOf eventTsMs ∨
      d.bucketOf eventTsMs < d.minValidBucket (d.bucketOf nowMs) then (false, d.expire nowMs)
  else (d.expire nowMs).record member (d.bucketOf eventTsMs)

/-- The number of members, as a 32-bit number. -/
def count (nowMs : ℕ) : ℕ × SlidingDistinct :=
  ((d.expire nowMs).lastSeenBucket.keys.card % 2 ^ 32, d.expire nowMs)

end SlidingDistinct

/-! ### Without the queue -/

/-- What can be observed of a set of distinct members. -/
@[ext]
structure DistinctView where
  /-- The bucket of the last reading. -/
  clock : Option ℕ
  /-- The last bucket of every member. -/
  seen : SeenMap

namespace DistinctView

/-- A view that has seen nothing. -/
def new : DistinctView := ⟨none, ∅⟩

/-- The reading lies before the last one. -/
def rolledBack (v : DistinctView) (now : ℕ) : Bool := v.clock.any fun last => decide (now < last)

/-- Bring the view to a new reading, for a window of `w` buckets. -/
def expire (w : ℕ) (v : DistinctView) (now : ℕ) : DistinctView where
  clock := some now
  seen := if v.rolledBack now then ∅ else v.seen.retain fun _ b => decide (windowStart w now ≤ b)

/-- Add a member in a bucket, if there is room for it among `limit` members. -/
def record (limit : ℕ) (v : DistinctView) (member : Bytes) (bucket : ℕ) : DistinctView :=
  match v.seen.lookup member with
  | some last => { v with seen := v.seen.insert member (max bucket last) }
  | none => if limit ≤ v.seen.keys.card then v else { v with seen := v.seen.insert member bucket }

/-- Bring the view to a reading and add a member. -/
def add (w limit : ℕ) (v : DistinctView) (member : Bytes) (bucket now : ℕ) : DistinctView :=
  if InWindow w now bucket then (v.expire w now).record limit member bucket else v.expire w now

/-- The number of members at a reading. -/
def count (w : ℕ) (v : DistinctView) (now : ℕ) : ℕ := (v.expire w now).seen.keys.card

@[simp] theorem record_clock (limit : ℕ) (v : DistinctView) (member : Bytes) (bucket : ℕ) :
    (v.record limit member bucket).clock = v.clock := by
  unfold record
  split
  · rfl
  · split_ifs <;> rfl

/-- With room for it, a member moves to the later of its buckets. -/
theorem record_seen {limit : ℕ} {v : DistinctView} {member : Bytes}
    (hroom : v.seen.lookup member = none → v.seen.keys.card < limit) (bucket : ℕ) :
    (v.record limit member bucket).seen =
      v.seen.insert member (max bucket ((v.seen.lookup member).getD 0)) := by
  unfold record
  cases hseen : v.seen.lookup member with
  | none =>
    simp only [Option.getD_none, Nat.max_zero]
    rw [if_neg (not_le.mpr (hroom hseen))]
  | some last => rfl

/-- The members left by an expiry were there before, and the clock did not go back. -/
theorem lookup_expire_iff {w : ℕ} {v : DistinctView} {now : ℕ} {member : Bytes} {bucket : ℕ} :
    (v.expire w now).seen.lookup member = some bucket ↔ v.rolledBack now = false ∧
      v.seen.lookup member = some bucket ∧ windowStart w now ≤ bucket := by
  unfold expire
  split_ifs with hback
  · simp [hback]
  · simp [hback, Option.filter_eq_some_iff]

end DistinctView

namespace SlidingDistinct

variable {d : SlidingDistinct} {nowMs : ℕ}

/-- Every member has an entry for its last bucket in the queue. -/
def Indexed (d : SlidingDistinct) : Prop :=
  ∀ member bucket, d.lastSeenBucket.lookup member = some bucket →
    (⟨bucket, member⟩ : DistinctEntry) ∈ d.expiredQueue

/-- What can be observed of the set. -/
def view (d : SlidingDistinct) : DistinctView :=
  ⟨if d.clockInitialized then some d.lastNowBucket else none, d.lastSeenBucket⟩

@[simp] theorem view_seen (d : SlidingDistinct) : d.view.seen = d.lastSeenBucket := rfl

@[simp] theorem view_new {windowMs bucketMs maxMembers : ℕ} {hb : 0 < bucketMs}
    {hw : bucketMs ≤ windowMs} : (new windowMs bucketMs maxMembers hb hw).view = .new := rfl

theorem indexed_new {windowMs bucketMs maxMembers : ℕ} {hb : 0 < bucketMs}
    {hw : bucketMs ≤ windowMs} : (new windowMs bucketMs maxMembers hb hw).Indexed := by
  intro member bucket h
  simp [new] at h

theorem lookup_forget {seen : SeenMap} {e : DistinctEntry} {u : Bytes} {b : ℕ} :
    (forget seen e).lookup u = some b ↔ seen.lookup u = some b ∧ (⟨b, u⟩ : DistinctEntry) ≠ e := by
  obtain ⟨bucket, member⟩ := e
  unfold forget
  by_cases hu : u = member
  · subst hu
    split_ifs with h
    · have hgone : ∀ x, seen.lookup u = some x → x = bucket := fun x hx =>
        Option.some.inj (hx.symm.trans h)
      simpa using fun hb => hgone b hb
    · refine ⟨fun hb => ⟨hb, ?_⟩, And.left⟩
      rintro ⟨⟩
      exact h hb
  · have hne : (⟨b, u⟩ : DistinctEntry) ≠ ⟨bucket, member⟩ := by
      rintro ⟨⟩
      exact hu rfl
    split_ifs
    · rw [Finmap.lookup_erase_ne hu, and_iff_left hne]
    · rw [and_iff_left hne]

/-- Expired entries drop the members they are up to date for. -/
theorem lookup_foldl_forget {l : List DistinctEntry} {seen : SeenMap} {u : Bytes} {b : ℕ} :
    (l.foldl forget seen).lookup u = some b ↔
      seen.lookup u = some b ∧ (⟨b, u⟩ : DistinctEntry) ∉ l := by
  induction l generalizing seen with
  | nil => simp
  | cons e l ih => rw [List.foldl_cons, ih, lookup_forget, List.mem_cons, not_or, and_assoc]

theorem Indexed.dropBefore_seen (h : Indexed d) (minimum : ℕ) :
    (d.dropBefore minimum).lastSeenBucket =
      d.lastSeenBucket.retain fun _ b => decide (minimum ≤ b) := by
  refine Finmap.ext_lookup fun u => Option.ext fun b => ?_
  rw [Finmap.lookup_retain, Option.filter_eq_some_iff]
  refine Iff.trans lookup_foldl_forget (and_congr_right fun hb => ?_)
  simp [h u b hb]

theorem Indexed.dropBefore (h : Indexed d) (minimum : ℕ) : (d.dropBefore minimum).Indexed := by
  intro u b hu
  rw [h.dropBefore_seen, Finmap.lookup_retain, Option.filter_eq_some_iff] at hu
  exact MinQueue.mem_popBelow.mpr ⟨h u b hu.1, of_decide_eq_true hu.2⟩

theorem Indexed.rollBack (h : Indexed d) (now : ℕ) : (d.rollBack now).Indexed := by
  unfold SlidingDistinct.rollBack
  split_ifs
  · intro u b hu
    simp at hu
  · exact h

theorem Indexed.moveTo (h : Indexed d) (member : Bytes) (bucket : ℕ) :
    (d.moveTo member bucket).Indexed := by
  intro u b hu
  refine MinQueue.mem_push.mpr ?_
  by_cases hm : u = member
  · subst hm
    left
    simp only [SlidingDistinct.moveTo, Finmap.lookup_insert, Option.some.injEq] at hu
    rw [hu]
  · right
    rw [SlidingDistinct.moveTo, Finmap.lookup_insert_of_ne _ hm] at hu
    exact h u b hu

theorem minValidBucket_eq (d : SlidingDistinct) (now : ℕ) :
    d.minValidBucket now = windowStart d.windowBucketNum now := by
  have := d.window_pos
  unfold minValidBucket windowStart
  split_ifs <;> omega

theorem rolledBack_view (d : SlidingDistinct) (now : ℕ) :
    d.view.rolledBack now = d.rolledBack now := by
  unfold view DistinctView.rolledBack rolledBack
  cases d.clockInitialized <;> simp

theorem Indexed.readClock (h : Indexed d) (now : ℕ) : (d.readClock now).Indexed := h

theorem Indexed.expire (h : Indexed d) (nowMs : ℕ) : (d.expire nowMs).Indexed :=
  ((h.rollBack _).readClock _).dropBefore _

/-- **The queue finds the members that left the window.** -/
theorem view_expire (h : Indexed d) (nowMs : ℕ) :
    (d.expire nowMs).view = d.view.expire d.windowBucketNum (d.bucketOf nowMs) := by
  ext1
  · rfl
  · rw [view_seen, SlidingDistinct.expire, ((h.rollBack _).readClock _).dropBefore_seen,
      minValidBucket_eq, DistinctView.expire, rolledBack_view]
    unfold rollBack
    split_ifs
    · refine Finmap.ext_lookup fun u => ?_
      simp [readClock]
    · rfl

theorem Indexed.record (h : Indexed d) (member : Bytes) (bucket : ℕ) :
    (d.record member bucket).2.Indexed := by
  unfold SlidingDistinct.record
  split
  · split_ifs
    · exact h
    · exact h.moveTo member bucket
  · split_ifs
    · exact h
    · exact h.moveTo member bucket

theorem view_record (d : SlidingDistinct) (member : Bytes) (bucket : ℕ) :
    (d.record member bucket).2.view = d.view.record d.maxMembers member bucket := by
  unfold SlidingDistinct.record DistinctView.record
  rw [view_seen]
  cases hseen : d.lastSeenBucket.lookup member with
  | none =>
    simp only
    split_ifs <;> rfl
  | some last =>
    simp only
    split_ifs with hle
    · -- the member stays where it is
      refine DistinctView.ext rfl (Finmap.ext_lookup fun u => ?_)
      rw [max_eq_right hle]
      by_cases hu : u = member
      · subst hu
        simp [hseen]
      · simp [Finmap.lookup_insert_of_ne _ hu]
    · rw [max_eq_left (le_of_not_ge hle)]
      rfl

/-- The configurations agree. -/
structure SameConfig (d d' : SlidingDistinct) : Prop where
  windowBucketNum : d'.windowBucketNum = d.windowBucketNum
  bucketMs : d'.bucketMs = d.bucketMs
  maxMembers : d'.maxMembers = d.maxMembers

theorem SameConfig.trans {d d' d'' : SlidingDistinct} (h : SameConfig d d')
    (h' : SameConfig d' d'') : SameConfig d d'' :=
  ⟨h'.1.trans h.1, h'.2.trans h.2, h'.3.trans h.3⟩

theorem expire_sameConfig (d : SlidingDistinct) (nowMs : ℕ) : SameConfig d (d.expire nowMs) := by
  unfold expire rollBack
  split_ifs <;> exact ⟨rfl, rfl, rfl⟩

theorem record_sameConfig (d : SlidingDistinct) (member : Bytes) (bucket : ℕ) :
    SameConfig d (d.record member bucket).2 := by
  unfold record
  split
  · split_ifs <;> exact ⟨rfl, rfl, rfl⟩
  · split_ifs <;> exact ⟨rfl, rfl, rfl⟩

theorem Indexed.add (h : Indexed d) (member : Bytes) (ts nowMs : ℕ) :
    (d.add member ts nowMs).2.Indexed := by
  unfold SlidingDistinct.add
  split_ifs
  · exact h.expire nowMs
  · exact (h.expire nowMs).record member _

theorem view_add (h : Indexed d) (member : Bytes) (ts nowMs : ℕ) :
    (d.add member ts nowMs).2.view = d.view.add d.windowBucketNum d.maxMembers member
      (d.bucketOf ts) (d.bucketOf nowMs) := by
  have hiff : (d.bucketOf nowMs < d.bucketOf ts ∨
      d.bucketOf ts < d.minValidBucket (d.bucketOf nowMs)) ↔
      ¬ InWindow d.windowBucketNum (d.bucketOf nowMs) (d.bucketOf ts) := by
    rw [inWindow_iff, minValidBucket_eq]
    omega
  unfold SlidingDistinct.add DistinctView.add
  by_cases hin : InWindow d.windowBucketNum (d.bucketOf nowMs) (d.bucketOf ts)
  · rw [if_neg (by rw [hiff]; exact not_not_intro hin), if_pos hin, view_record, view_expire h,
      (d.expire_sameConfig nowMs).maxMembers]
  · rw [if_pos (hiff.mpr hin), if_neg hin, view_expire h]

theorem add_sameConfig (d : SlidingDistinct) (member : Bytes) (ts nowMs : ℕ) :
    SameConfig d (d.add member ts nowMs).2 := by
  unfold add
  split_ifs
  · exact d.expire_sameConfig nowMs
  · exact (d.expire_sameConfig nowMs).trans
      ((d.expire nowMs).record_sameConfig member (d.bucketOf ts))

theorem count_eq (h : Indexed d) (nowMs : ℕ) :
    (d.count nowMs).1 = d.view.count d.windowBucketNum (d.bucketOf nowMs) % 2 ^ 32 := by
  rw [count, DistinctView.count, ← view_expire h, view_seen]

end SlidingDistinct

namespace DistinctView

/-! ### Readings that do not go back -/

/-- The view represents the log of the members added to it with their buckets, at the bucket of
the last reading. -/
structure Tracks (w : ℕ) (v : DistinctView) (log : List (Bytes × ℕ)) (now : ℕ) : Prop where
  clock : ∀ last ∈ v.clock, last ≤ now
  le_now : ∀ e ∈ log, e.2 ≤ now
  /-- Every member was added in its last bucket, inside the window. -/
  sound : ∀ {u b}, v.seen.lookup u = some b → (u, b) ∈ log ∧ InWindow w now b
  /-- Everyone added inside the window is a member. -/
  latest : ∀ {u b}, (u, b) ∈ log → InWindow w now b → ∃ b', v.seen.lookup u = some b' ∧ b ≤ b'

/-- Everyone the log names. -/
def everyone (log : List (Bytes × ℕ)) : Finset Bytes := (log.map Prod.fst).toFinset

/-- Everyone the log names inside the window. -/
def members (w : ℕ) (log : List (Bytes × ℕ)) (now : ℕ) : Finset Bytes :=
  everyone (log.filter fun e => decide (InWindow w now e.2))

theorem mem_everyone {log : List (Bytes × ℕ)} {u : Bytes} :
    u ∈ everyone log ↔ ∃ b, (u, b) ∈ log := by
  simp [everyone]

namespace Tracks

variable {w : ℕ} {v : DistinctView} {log : List (Bytes × ℕ)} {now now' : ℕ}

theorem new (hle : ∀ e ∈ log, e.2 ≤ now) (hout : ∀ e ∈ log, ¬ InWindow w now e.2) :
    Tracks w DistinctView.new log now where
  clock last h := absurd h (Option.not_mem_none last)
  le_now := hle
  sound h := by simp [DistinctView.new] at h
  latest hmem hin := absurd hin (hout _ hmem)

section

variable (h : Tracks w v log now)
include h

theorem lookup_expire (hle : now ≤ now') {u : Bytes} {b : ℕ} :
    (v.expire w now').seen.lookup u = some b ↔
      v.seen.lookup u = some b ∧ windowStart w now' ≤ b := by
  have hback : v.rolledBack now' = false := by
    rw [rolledBack, Option.any_eq_false]
    intro last hlast
    have := h.clock last hlast
    simpa using this.trans hle
  rw [lookup_expire_iff, and_iff_right hback]

theorem expire (hle : now ≤ now') :
    Tracks w (v.expire w now') log now' where
  clock last hlast := (Option.some.inj hlast).ge
  le_now e he := (h.le_now e he).trans hle
  sound hu := by
    obtain ⟨hseen, hstart⟩ := (h.lookup_expire hle).mp hu
    obtain ⟨hmem, hin⟩ := h.sound hseen
    exact ⟨hmem, inWindow_iff.mpr ⟨hstart, hin.1.trans hle⟩⟩
  latest hmem hin := by
    obtain ⟨b', hseen, hb⟩ := h.latest hmem (hin.of_later (h.le_now _ hmem) hle)
    exact ⟨b', (h.lookup_expire hle).mpr ⟨hseen, (inWindow_iff.mp hin).1.trans hb⟩, hb⟩

theorem keys_eq : v.seen.keys = members w log now := by
  ext u
  rw [Finmap.mem_keys, Finmap.mem_iff, members, mem_everyone]
  constructor
  · rintro ⟨b, hb⟩
    exact ⟨b, by simpa using h.sound hb⟩
  · rintro ⟨b, hb⟩
    obtain ⟨hmem, hin⟩ : (u, b) ∈ log ∧ InWindow w now b := by simpa using hb
    obtain ⟨b', hb', -⟩ := h.latest hmem hin
    exact ⟨b', hb'⟩

/-- A log with few names leaves room for the next one. -/
theorem room {limit : ℕ} {u : Bytes} {b : ℕ} (hlimit : (everyone (log ++ [(u, b)])).card ≤ limit)
    (hnew : v.seen.lookup u = none) : v.seen.keys.card < limit := by
  have hu : u ∉ v.seen.keys := by
    rw [Finmap.mem_keys]
    exact Finmap.lookup_eq_none.mp hnew
  have hsub : insert u v.seen.keys ⊆ everyone (log ++ [(u, b)]) := by
    intro x hx
    rw [mem_everyone]
    obtain rfl | hx := Finset.mem_insert.mp hx
    · exact ⟨b, by simp⟩
    · obtain ⟨b', hb'⟩ := Finmap.mem_iff.mp (Finmap.mem_keys.mp hx)
      exact ⟨b', List.mem_append_left _ (h.sound hb').1⟩
  have hcard := Finset.card_le_card hsub
  rw [Finset.card_insert_of_notMem hu] at hcard
  omega

theorem record {limit : ℕ} {u : Bytes} {b : ℕ} (hin : InWindow w now b)
    (hlimit : (everyone (log ++ [(u, b)])).card ≤ limit) :
    Tracks w (v.record limit u b) (log ++ [(u, b)]) now := by
  have hseen := record_seen (h.room hlimit) b
  -- the bucket the member ends up in is one of those it was added in
  have hmax : (u, max b ((v.seen.lookup u).getD 0)) ∈ log ++ [(u, b)] ∧
      InWindow w now (max b ((v.seen.lookup u).getD 0)) := by
    cases hu : v.seen.lookup u with
    | none => simpa using hin
    | some last =>
      obtain ⟨hmem, hlast⟩ := h.sound hu
      obtain hle | hle := le_total b last
      · simpa [hle] using ⟨Or.inl hmem, hlast⟩
      · simpa [hle] using hin
  refine ⟨by simpa using h.clock, ?_, ?_, ?_⟩
  · intro e he
    obtain he | he := List.mem_append.mp he
    · exact h.le_now e he
    · obtain rfl := List.mem_singleton.mp he
      exact hin.1
  · intro x bx hx
    rw [hseen] at hx
    by_cases hxu : x = u
    · subst hxu
      rw [Finmap.lookup_insert, Option.some.injEq] at hx
      exact hx ▸ hmax
    · rw [Finmap.lookup_insert_of_ne _ hxu] at hx
      exact ⟨List.mem_append_left _ (h.sound hx).1, (h.sound hx).2⟩
  · intro x bx hx hbx
    rw [hseen]
    by_cases hxu : x = u
    · subst hxu
      refine ⟨_, Finmap.lookup_insert _, ?_⟩
      obtain hx | hx := List.mem_append.mp hx
      · obtain ⟨b', hb', hle⟩ := h.latest hx hbx
        rw [hb']
        exact le_max_of_le_right hle
      · obtain rfl : bx = b := by simpa using hx
        exact le_max_left _ _
    · obtain hx | hx := List.mem_append.mp hx
      · rw [Finmap.lookup_insert_of_ne _ hxu]
        exact h.latest hx hbx
      · exact absurd (by simpa using hx : x = u ∧ bx = b).1 hxu

/-- **Adding keeps the representation.**  What is refused has left the window. -/
theorem add (hle : now ≤ now') {limit : ℕ} {u : Bytes} {b : ℕ} (hb : b ≤ now')
    (hlimit : (everyone (log ++ [(u, b)])).card ≤ limit) :
    Tracks w (v.add w limit u b now') (log ++ [(u, b)]) now' := by
  have he := h.expire hle
  unfold DistinctView.add
  split_ifs with hin
  · exact he.record hin hlimit
  · refine ⟨he.clock, ?_, ?_, ?_⟩
    · intro e hmem
      obtain hmem | hmem := List.mem_append.mp hmem
      · exact he.le_now e hmem
      · obtain rfl := List.mem_singleton.mp hmem
        exact hb
    · intro x bx hx
      exact ⟨List.mem_append_left _ (he.sound hx).1, (he.sound hx).2⟩
    · intro x bx hx hbx
      obtain hx | hx := List.mem_append.mp hx
      · exact he.latest hx hbx
      · obtain ⟨rfl, rfl⟩ : x = u ∧ bx = b := by simpa using hx
        exact absurd hbx hin

/-- **What is read** is the number of names in the log inside the window. -/
theorem count_eq (hle : now ≤ now') : v.count w now' = (members w log now').card := by
  rw [count, (h.expire hle).keys_eq]

end

end Tracks

/-! ### Two additions in either order -/

/-- The view has just expired at the bucket `now`. -/
structure Settled (w : ℕ) (v : DistinctView) (now : ℕ) : Prop where
  clock : v.clock = some now
  inside : ∀ {u b}, v.seen.lookup u = some b → windowStart w now ≤ b

/-- The member was last added in a bucket that has not left the window at `now`. -/
def Alive (w : ℕ) (v : DistinctView) (now : ℕ) (u : Bytes) : Prop :=
  ∃ b, v.seen.lookup u = some b ∧ windowStart w now ≤ b

section

variable {w limit : ℕ} {v : DistinctView} {now now' : ℕ} {u u' : Bytes} {b b' : ℕ}

theorem settled_expire : Settled w (v.expire w now) now where
  clock := rfl
  inside h := (lookup_expire_iff.mp h).2.2

theorem Settled.rolledBack (h : Settled w v now) (hle : now ≤ now') :
    v.rolledBack now' = false := by
  simpa [DistinctView.rolledBack, h.clock] using hle

theorem Settled.expire_eq (h : Settled w v now) : v.expire w now = v := by
  refine DistinctView.ext h.clock.symm (Finmap.ext_lookup fun u => Option.ext fun b => ?_)
  rw [lookup_expire_iff, and_iff_right (h.rolledBack le_rfl), and_iff_left_iff_imp]
  exact h.inside

theorem card_expire_le : (v.expire w now).seen.keys.card ≤ v.seen.keys.card := by
  refine Finset.card_le_card fun u hu => ?_
  rw [Finmap.mem_keys, Finmap.mem_iff] at hu ⊢
  obtain ⟨b, hb⟩ := hu
  exact ⟨b, (lookup_expire_iff.mp hb).2.1⟩

/-- Without a member, the map is not full when there is room for it. -/
theorem card_lt_of_insert (hroom : (insert u v.seen.keys).card ≤ limit)
    (hnew : v.seen.lookup u = none) : v.seen.keys.card < limit := by
  have hu : u ∉ v.seen.keys := by
    rw [Finmap.mem_keys, ← Finmap.lookup_eq_none]
    exact hnew
  rw [Finset.card_insert_of_notMem hu] at hroom
  exact hroom

theorem keys_record (hroom : (insert u v.seen.keys).card ≤ limit) :
    (v.record limit u b).seen.keys = insert u v.seen.keys := by
  rw [record_seen (card_lt_of_insert hroom), Finmap.keys_insert]

/-- A full map stays as it is. -/
theorem record_full (hfull : limit < (insert u v.seen.keys).card) (hle : v.seen.keys.card ≤ limit) :
    v.record limit u b = v := by
  have hu : u ∉ v.seen.keys := by
    intro hu
    rw [Finset.insert_eq_of_mem hu] at hfull
    omega
  rw [Finset.card_insert_of_notMem hu] at hfull
  rw [Finmap.mem_keys, ← Finmap.lookup_eq_none] at hu
  rw [record, hu]
  exact if_pos (by omega)

/-- **How many members there are** after one more was added. -/
theorem card_record (hle : v.seen.keys.card ≤ limit) :
    (v.record limit u b).seen.keys.card = min limit (insert u v.seen.keys).card := by
  obtain hroom | hfull := le_or_gt (insert u v.seen.keys).card limit
  · rw [keys_record hroom, min_eq_right hroom]
  · have hadded := Finset.card_insert_le u v.seen.keys
    rw [record_full hfull hle, min_eq_left hfull.le]
    omega

/-- There are never more members than the limit. -/
theorem card_add_le (h : v.seen.keys.card ≤ limit) :
    (v.add w limit u b now).seen.keys.card ≤ limit := by
  unfold add
  split_ifs
  · rw [card_record (card_expire_le.trans h)]
    exact min_le_left _ _
  · exact card_expire_le.trans h

theorem Settled.record (h : Settled w v now) (hb : InWindow w now b) :
    Settled w (v.record limit u b) now where
  clock := by rw [record_clock, h.clock]
  inside {x bx} hx := by
    by_cases hroom : v.seen.lookup u = none → v.seen.keys.card < limit
    · rw [record_seen hroom] at hx
      by_cases hxu : x = u
      · subst hxu
        rw [Finmap.lookup_insert, Option.some.injEq] at hx
        exact hx ▸ le_max_of_le_left (inWindow_iff.mp hb).1
      · rw [Finmap.lookup_insert_of_ne _ hxu] at hx
        exact h.inside hx
    · -- a full set stays as it is
      obtain ⟨hnew, hfull⟩ := Classical.not_imp.mp hroom
      rw [DistinctView.record, hnew] at hx
      simp only [if_pos (not_lt.mp hfull)] at hx
      exact h.inside hx

theorem settled_add : Settled w (v.add w limit u b now) now := by
  unfold add
  split_ifs with hb
  · exact settled_expire.record hb
  · exact settled_expire

/-- An addition sees what its expiry left. -/
theorem add_congr {v' : DistinctView} (h : v.expire w now = v'.expire w now) :
    v.add w limit u b now = v'.add w limit u b now := by
  unfold add
  rw [h]

theorem record_comm (hroom : (insert u (insert u' v.seen.keys)).card ≤ limit) :
    (v.record limit u b).record limit u' b' = (v.record limit u' b').record limit u b := by
  have hu : (insert u v.seen.keys).card ≤ limit :=
    (Finset.card_le_card (Finset.insert_subset_insert u (Finset.subset_insert _ _))).trans hroom
  have hu' : (insert u' v.seen.keys).card ≤ limit :=
    (Finset.card_le_card (Finset.subset_insert _ _)).trans hroom
  have hthen : (insert u' (v.record limit u b).seen.keys).card ≤ limit := by
    rwa [keys_record hu, Finset.insert_comm]
  have hthen' : (insert u (v.record limit u' b').seen.keys).card ≤ limit := by
    rwa [keys_record hu']
  refine DistinctView.ext (by simp) ?_
  rw [record_seen (card_lt_of_insert hthen) b', record_seen (card_lt_of_insert hthen') b,
    record_seen (card_lt_of_insert hu) b, record_seen (card_lt_of_insert hu') b']
  by_cases hne : u = u'
  · subst hne
    simp only [Finmap.lookup_insert, Finmap.insert_insert, Option.getD_some]
    rw [max_left_comm]
  · rw [Finmap.lookup_insert_of_ne _ (Ne.symm hne), Finmap.lookup_insert_of_ne _ hne,
      Finmap.insert_insert_of_ne _ hne]

/-- **Two additions within one bucket of time** commute if there is room for both. -/
theorem add_comm (hroom : (insert u (insert u' (v.expire w now).seen.keys)).card ≤ limit) :
    (v.add w limit u b now).add w limit u' b' now =
      (v.add w limit u' b' now).add w limit u b now := by
  have hsettled : Settled w (v.expire w now) now := settled_expire
  unfold add
  by_cases hb : InWindow w now b <;> by_cases hb' : InWindow w now b'
  · simp only [if_pos hb, if_pos hb']
    rw [(hsettled.record hb).expire_eq, (hsettled.record hb').expire_eq, record_comm hroom]
  · simp only [if_pos hb, if_neg hb', hsettled.expire_eq]
    rw [(hsettled.record hb).expire_eq]
  · simp only [if_neg hb, if_pos hb', hsettled.expire_eq]
    rw [(hsettled.record hb').expire_eq]
  · simp only [if_neg hb, if_neg hb']

theorem mem_keys_expire : u ∈ (v.expire w now).seen.keys ↔
    v.rolledBack now = false ∧ v.Alive w now u := by
  rw [Finmap.mem_keys, Finmap.mem_iff]
  simp only [lookup_expire_iff, Alive, exists_and_left]

theorem alive_expire (hback : v.rolledBack now = false) (hle : now ≤ now') :
    (v.expire w now).Alive w now' u ↔ v.Alive w now' u := by
  have hmono : windowStart w now ≤ windowStart w now' := by
    unfold windowStart
    omega
  refine exists_congr fun b => ?_
  rw [lookup_expire_iff]
  exact ⟨fun ⟨⟨_, hb, _⟩, hb'⟩ => ⟨hb, hb'⟩, fun ⟨hb, hb'⟩ => ⟨⟨hback, hb, hmono.trans hb'⟩, hb'⟩⟩

theorem alive_record (hroom : (insert u' v.seen.keys).card ≤ limit) :
    (v.record limit u' b).Alive w now u ↔
      v.Alive w now u ∨ u = u' ∧ windowStart w now ≤ b := by
  unfold Alive
  rw [record_seen (card_lt_of_insert hroom)]
  by_cases hu : u = u'
  · subst hu
    rw [Finmap.lookup_insert]
    cases v.seen.lookup u <;> simp [or_comm]
  · rw [Finmap.lookup_insert_of_ne _ hu]
    simp [hu]

/-- Who is alive later, after an addition whose reading does not go back. -/
theorem alive_add (hback : v.rolledBack now = false)
    (hroom : (insert u' (v.expire w now).seen.keys).card ≤ limit) (hb : b ≤ now)
    (hle : now ≤ now') :
    (v.add w limit u' b now).Alive w now' u ↔
      v.Alive w now' u ∨ u = u' ∧ windowStart w now' ≤ b := by
  unfold add
  split_ifs with hin
  · rw [alive_record hroom, alive_expire hback hle]
  · have hout : ¬ windowStart w now' ≤ b := by
      intro hstart
      refine hin (inWindow_iff.mpr ⟨le_trans ?_ hstart, hb⟩)
      unfold windowStart
      omega
    rw [alive_expire hback hle, or_iff_left fun h => hout h.2]

end

section

variable {w limit : ℕ} {v : DistinctView} {b₁ b₂ b t₁ t₂ : ℕ} {u₁ u₂ m : Bytes}

/-- The members after two additions in the order of their readings. -/
theorem mem_keys_forward (h₁₂ : b₁ ≤ b₂) (h₂ : b₂ ≤ b) (ht₁ : t₁ ≤ b₁) (ht₂ : t₂ ≤ b₂)
    (hroom : (insert u₁ (insert u₂ (v.expire w b₁).seen.keys)).card ≤ limit) :
    m ∈ (((v.add w limit u₁ t₁ b₁).add w limit u₂ t₂ b₂).expire w b).seen.keys ↔
      (v.expire w b₁).Alive w b m ∨ m = u₁ ∧ windowStart w b ≤ t₁ ∨
        m = u₂ ∧ windowStart w b ≤ t₂ := by
  have hfirst : Settled w (v.expire w b₁) b₁ := settled_expire
  have hadd : v.add w limit u₁ t₁ b₁ = (v.expire w b₁).add w limit u₁ t₁ b₁ :=
    add_congr hfirst.expire_eq.symm
  have hsettled : Settled w (v.add w limit u₁ t₁ b₁) b₁ := settled_add
  have hroom₁ : (insert u₁ ((v.expire w b₁).expire w b₁).seen.keys).card ≤ limit := by
    rw [hfirst.expire_eq]
    exact (Finset.card_le_card
      (Finset.insert_subset_insert u₁ (Finset.subset_insert _ _))).trans hroom
  have hkeys : ((v.add w limit u₁ t₁ b₁).expire w b₂).seen.keys ⊆
      insert u₁ (v.expire w b₁).seen.keys := by
    intro x hx
    obtain ⟨-, hx⟩ := mem_keys_expire.mp hx
    rw [hadd, alive_add (hfirst.rolledBack le_rfl) hroom₁ ht₁ h₁₂] at hx
    rw [Finset.mem_insert]
    obtain ⟨c, hc, -⟩ | ⟨hx, -⟩ := hx
    · exact .inr (Finmap.mem_keys.mpr (Finmap.mem_iff.mpr ⟨c, hc⟩))
    · exact .inl hx
  have hroom₂ : (insert u₂ ((v.add w limit u₁ t₁ b₁).expire w b₂).seen.keys).card ≤ limit := by
    refine (Finset.card_le_card (Finset.insert_subset_insert u₂ hkeys)).trans ?_
    rwa [Finset.insert_comm]
  have hboth : Settled w ((v.add w limit u₁ t₁ b₁).add w limit u₂ t₂ b₂) b₂ := settled_add
  rw [mem_keys_expire, and_iff_right (hboth.rolledBack h₂),
    alive_add (hsettled.rolledBack h₁₂) hroom₂ ht₂ h₂, hadd,
    alive_add (hfirst.rolledBack le_rfl) hroom₁ ht₁ (h₁₂.trans h₂), or_assoc]

/-- The members after two additions in the other order: the earlier reading clears the map. -/
theorem mem_keys_backward (h₁₂ : b₁ < b₂) (h₂ : b₂ ≤ b) (ht₁ : t₁ ≤ b₁) (hlimit : 0 < limit) :
    m ∈ (((v.add w limit u₂ t₂ b₂).add w limit u₁ t₁ b₁).expire w b).seen.keys ↔
      m = u₁ ∧ windowStart w b ≤ t₁ := by
  have hsecond : Settled w (v.add w limit u₂ t₂ b₂) b₂ := settled_add
  have hclear : (v.add w limit u₂ t₂ b₂).expire w b₁ = ⟨some b₁, ∅⟩ := by
    unfold expire
    rw [show (v.add w limit u₂ t₂ b₂).rolledBack b₁ = true by
      simpa [DistinctView.rolledBack, hsecond.clock] using h₁₂]
    rfl
  have hnew : Settled w ⟨some b₁, ∅⟩ b₁ := ⟨rfl, fun h => by simp at h⟩
  have hadd : (v.add w limit u₂ t₂ b₂).add w limit u₁ t₁ b₁ =
      (⟨some b₁, ∅⟩ : DistinctView).add w limit u₁ t₁ b₁ :=
    add_congr (hclear.trans hnew.expire_eq.symm)
  have hroom : (insert u₁ ((⟨some b₁, ∅⟩ : DistinctView).expire w b₁).seen.keys).card ≤ limit := by
    rw [hnew.expire_eq]
    simpa using Nat.succ_le_of_lt hlimit
  have hboth : Settled w ((v.add w limit u₂ t₂ b₂).add w limit u₁ t₁ b₁) b₁ := settled_add
  rw [mem_keys_expire, and_iff_right (hboth.rolledBack (h₁₂.le.trans h₂)), hadd,
    alive_add (hnew.rolledBack le_rfl) hroom ht₁ (h₁₂.le.trans h₂)]
  simp [Alive]

end

end DistinctView

end AegisFlow
