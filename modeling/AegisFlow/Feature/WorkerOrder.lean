import AegisFlow.Feature.FeatureStore

/-!
# Two workers on one key

A business worker reads the clock before it takes the lock of a shard.  Two workers with the
readings `n₁ ≤ n₂` may therefore update one key in either order.

* `SlidingCounter.Holds.read_orders_iff` : a later reading of a counter is the same in both orders
  exactly when the event handled second is not dated after the bucket of the first reading;
* `DistinctView.card_orders_iff` : for a set of distinct users, when everyone whom the first
  reading clears is accounted for by what comes after it;
* `updates_commute_iff` : **the same for the snapshots of the store**, for every store, all
  attempts and every later reading in the window;
* `updates_order_lost` : two failures of one user, a millisecond apart, of which one is lost.

For the set of distinct users there must be room for both users: a full set keeps the one that
came first.
-/

namespace AegisFlow

open LoginFeatureStore

/-! ### One map -/

namespace Feature

variable {n : ℕ} [NeZero n] {σ ρ : Type} {F : Feature σ ρ} {hash : Bytes → ℕ}
  {shards shards' : Shards n σ} {attempt a₁ a₂ : LoginAttempt} {nowMs n₁ n₂ : ℕ}

/-- All states of the map have the property. -/
def All (P : σ → Prop) (hash : Bytes → ℕ) (shards : Shards n σ) : Prop :=
  ∀ key st, shards.find hash key = some st → P st

/-- The property survives updates and reads. -/
structure Stable (F : Feature σ ρ) (P : σ → Prop) : Prop where
  fresh : P F.fresh
  update : ∀ {st} a now, P st → P (F.update a now st)
  read : ∀ {st} now, P st → P (F.read now st).2

namespace Stable

variable {P : σ → Prop} (S : F.Stable P)

include S

theorem serve {st : σ} (h : P st) (a : LoginAttempt) (now : ℕ) : P (F.serve st a now).2 := by
  unfold Feature.serve
  split_ifs
  · exact S.read now (S.update a now h)
  · exact S.read now h

theorem getD (h : All P hash shards) (key : Bytes) : P ((shards.find hash key).getD F.fresh) := by
  cases hfind : shards.find hash key with
  | none => exact S.fresh
  | some st => exact h key st hfind

theorem visit (h : All P hash shards) : All P hash (F.visit hash shards attempt nowMs).2 := by
  intro key st hst
  rw [find_visit] at hst
  split_ifs at hst with hkey
  · obtain ⟨st', hst', rfl⟩ := Option.map_eq_some_iff.mp hst
    rw [← (created_eq hst').1]
    exact S.serve (S.getD h _) attempt nowMs
  · exact h key st hst

omit S in
theorem reclaim (h : All P hash shards) (ttlMs : ℕ) :
    All P hash (F.reclaim shards nowMs ttlMs) := by
  intro key st hst
  rw [find_reclaim, Option.filter_eq_some_iff] at hst
  exact h key st hst.1

omit S in
theorem empty : All P hash (fun _ : Fin n => (∅ : Finmap fun _ : Bytes => σ)) := by
  intro key st hst
  simp [Shards.find] at hst

end Stable

theorem find_visit_update (hcan : F.canUpdate attempt nowMs = true) :
    (F.visit hash shards attempt nowMs).2.find hash (F.key attempt) =
      some (F.serve ((shards.find hash (F.key attempt)).getD F.fresh) attempt nowMs).2 := by
  rw [find_visit, if_pos rfl]
  unfold created
  cases shards.find hash (F.key attempt) with
  | none => simp [hcan]
  | some st => rfl

theorem find_visit_other {key : Bytes} (hkey : key ≠ F.key attempt) :
    (F.visit hash shards attempt nowMs).2.find hash key = shards.find hash key := by
  rw [find_visit, if_neg hkey]

/-- What a visit reads depends on the state of its key only. -/
theorem visit_fst_congr (h : shards.find hash (F.key attempt) = shards'.find hash (F.key attempt)) :
    (F.visit hash shards attempt nowMs).1 = (F.visit hash shards' attempt nowMs).1 := by
  have hcreated : F.created hash shards attempt nowMs = F.created hash shards' attempt nowMs := by
    unfold created
    rw [h]
  unfold visit
  rw [hcreated]
  cases F.created hash shards' attempt nowMs <;> rfl

theorem visit_fst_of_find {st : σ} (h : shards.find hash (F.key attempt) = some st) :
    (F.visit hash shards attempt nowMs).1 = (F.serve st attempt nowMs).1 := by
  unfold visit created
  rw [h]

/-- The state of a key after two updates. -/
def served (F : Feature σ ρ) (st : σ) (a₁ a₂ : LoginAttempt) (n₁ n₂ : ℕ) : σ :=
  (F.serve (F.serve st a₁ n₁).2 a₂ n₂).2

theorem find_visit_visit (hash : Bytes → ℕ) (shards : Shards n σ)
    (h₁ : F.canUpdate a₁ n₁ = true) (h₂ : F.canUpdate a₂ n₂ = true) (hkey : F.key a₁ = F.key a₂) :
    (F.visit hash (F.visit hash shards a₁ n₁).2 a₂ n₂).2.find hash (F.key a₁) =
      some (F.served ((shards.find hash (F.key a₁)).getD F.fresh) a₁ a₂ n₁ n₂) := by
  rw [hkey, find_visit_update h₂, ← hkey, find_visit_update h₁]
  rfl

theorem visit_fst_after (h₁ : F.canUpdate a₁ n₁ = true) (h₂ : F.canUpdate a₂ n₂ = true)
    (hkey : F.key a₁ = F.key a₂) (hown : F.key attempt = F.key a₁) :
    (F.visit hash (F.visit hash (F.visit hash shards a₁ n₁).2 a₂ n₂).2 attempt nowMs).1 =
      (F.serve (F.served ((shards.find hash (F.key a₁)).getD F.fresh) a₁ a₂ n₁ n₂)
        attempt nowMs).1 := by
  refine visit_fst_of_find ?_
  rw [hown]
  exact find_visit_visit hash shards h₁ h₂ hkey

/-- **Two updates in either order**, compared by what any visit reads afterwards: other keys do not
notice, and for the key itself the states are compared. -/
theorem visit_orders_iff {β : Type} (value : ρ → β) (h₁ : F.canUpdate a₁ n₁ = true)
    (h₂ : F.canUpdate a₂ n₂ = true) (hkey : F.key a₁ = F.key a₂) :
    value (F.visit hash (F.visit hash (F.visit hash shards a₁ n₁).2 a₂ n₂).2 attempt nowMs).1 =
        value (F.visit hash (F.visit hash (F.visit hash shards a₂ n₂).2 a₁ n₁).2 attempt nowMs).1 ↔
      F.key attempt ≠ F.key a₁ ∨
        value (F.serve (F.served ((shards.find hash (F.key a₁)).getD F.fresh) a₁ a₂ n₁ n₂)
            attempt nowMs).1 =
          value (F.serve (F.served ((shards.find hash (F.key a₁)).getD F.fresh) a₂ a₁ n₂ n₁)
            attempt nowMs).1 := by
  by_cases hown : F.key attempt = F.key a₁
  · rw [visit_fst_after h₁ h₂ hkey hown, visit_fst_after h₂ h₁ hkey.symm (hown.trans hkey), ← hkey,
      or_iff_right (not_not_intro hown)]
  · have hother : F.key attempt ≠ F.key a₂ := hkey ▸ hown
    refine iff_of_true (congrArg value (visit_fst_congr ?_)) (.inl hown)
    rw [find_visit_other hother, find_visit_other hown, find_visit_other hown,
      find_visit_other hother]

end Feature

/-! ### Counters -/

section Counters

variable {n b₁ b₂ b t₁ t₂ : ℕ}

theorem keptAt_append (now : ℕ) (additions additions' : List Addition) :
    keptAt n now (additions ++ additions') = keptAt n now additions ++ keptAt n now additions' :=
  List.filter_append _ _

theorem keptAt_comm (now now' : ℕ) (additions : List Addition) :
    keptAt n now (keptAt n now' additions) = keptAt n now' (keptAt n now additions) := by
  unfold keptAt
  rw [List.filter_filter, List.filter_filter]
  simp only [Bool.and_comm]

theorem amount_keptAt_addedAt (now now' b delta : ℕ) :
    amount (keptAt n now' (addedAt n now b delta)) =
      if InWindow n now b ∧ InWindow n now' b then delta else 0 := by
  by_cases hin : InWindow n now b <;> by_cases hin' : InWindow n now' b <;>
    simp [amount, keptAt, addedAt, hin, hin']

theorem amount_keptAt_keptAt_addedAt (now now' now'' b delta : ℕ) :
    amount (keptAt n now'' (keptAt n now' (addedAt n now b delta))) =
      if InWindow n now b ∧ InWindow n now' b ∧ InWindow n now'' b then delta else 0 := by
  by_cases hin : InWindow n now b <;> by_cases hin' : InWindow n now' b <;>
    by_cases hin'' : InWindow n now'' b <;> simp [amount, keptAt, addedAt, hin, hin', hin'']

/-- **What two additions of one event leave**, in the order of their readings and in the other one.
The event handled second is dropped by the first reading if it lies after it. -/
theorem amount_orders (h₁₂ : b₁ ≤ b₂) (h₂ : b₂ ≤ b) (hnear : b ≤ b₁ + n) (ht₁ : t₁ ≤ b₁)
    (ht₂ : t₂ ≤ b₂) (additions : List Addition) :
    amount (keptAt n b (keptAt n b₂ (keptAt n b₁ additions ++ addedAt n b₁ t₁ 1) ++
        addedAt n b₂ t₂ 1)) =
      amount (keptAt n b (keptAt n b₁ (keptAt n b₂ additions ++ addedAt n b₂ t₂ 1) ++
        addedAt n b₁ t₁ 1)) + if b₁ < t₂ then 1 else 0 := by
  simp only [keptAt_append, amount_append, keptAt_comm b₂ b₁ additions,
    amount_keptAt_addedAt, amount_keptAt_keptAt_addedAt]
  have hfirst : InWindow n b₁ t₁ ∧ InWindow n b₂ t₁ ∧ InWindow n b t₁ ↔
      InWindow n b₁ t₁ ∧ InWindow n b t₁ := by
    unfold InWindow
    omega
  have hsecond : (if InWindow n b₂ t₂ ∧ InWindow n b t₂ then 1 else 0) =
      (if InWindow n b₂ t₂ ∧ InWindow n b₁ t₂ ∧ InWindow n b t₂ then 1 else 0) +
        if b₁ < t₂ then 1 else 0 := by
    unfold InWindow
    split_ifs <;> omega
  rw [hsecond]
  simp only [hfirst]
  omega

end Counters

namespace SlidingCounter.Holds

variable {n : ℕ} [NeZero n] {c : SlidingCounter n} {additions : List Addition} {now nowMs : ℕ}

/-- What is read, after the reader's own event if it counts. -/
theorem read_eq (h : Holds c additions now) (own : Bool) (ts : ℕ) :
    ((if own then (c.add ts nowMs 1).2 else c).sum nowMs).1 =
      (amount (keptAt n (c.bucketOf nowMs) additions) +
        if own then amount (addedAt n (c.bucketOf nowMs) (c.bucketOf ts) 1) else 0) % 2 ^ 32 := by
  cases own with
  | false => exact h.sum_eq nowMs
  | true =>
    have hadd := h.add ts nowMs 1
    have hsum : (c.add ts nowMs 1).2.total % 2 ^ 32 = _ := hadd.total
    rw [amount_append] at hsum
    simp only [if_true, SlidingCounter.sum, hadd.expire_eq (add_bucketOf _ _ _ _ _), hsum]

/-- **Two events in either order.**  A later reading in the window sees the same exactly when the
event handled second is not dated after the bucket of the first reading. -/
theorem read_orders_iff (h : Holds c additions now) {n₁ n₂ ts₁ ts₂ : ℕ} (h₁₂ : n₁ ≤ n₂)
    (h₂ : n₂ ≤ nowMs) (hnear : nowMs < n₁ + n * c.bucketMs) (hts₁ : ts₁ ≤ n₁) (hts₂ : ts₂ ≤ n₂)
    (own : Bool) (ts : ℕ) :
    ((if own then ((((c.add ts₁ n₁ 1).2.add ts₂ n₂ 1).2).add ts nowMs 1).2
        else ((c.add ts₁ n₁ 1).2.add ts₂ n₂ 1).2).sum nowMs).1 =
      ((if own then ((((c.add ts₂ n₂ 1).2.add ts₁ n₁ 1).2).add ts nowMs 1).2
        else ((c.add ts₂ n₂ 1).2.add ts₁ n₁ 1).2).sum nowMs).1 ↔
      ts₂ / c.bucketMs ≤ n₁ / c.bucketMs := by
  have hwindow : c.bucketOf nowMs ≤ c.bucketOf n₁ + n := by
    have hle : nowMs / c.bucketMs ≤ (n₁ + n * c.bucketMs) / c.bucketMs :=
      Nat.div_le_div_right hnear.le
    rwa [Nat.add_mul_div_right _ _ c.bucketMs_pos] at hle
  have hamount := amount_orders (Nat.div_le_div_right h₁₂) (Nat.div_le_div_right h₂) hwindow
    (Nat.div_le_div_right hts₁) (Nat.div_le_div_right hts₂) additions
  have hforward := (h.add ts₁ n₁ 1).add ts₂ n₂ 1
  have hbackward := (h.add ts₂ n₂ 1).add ts₁ n₁ 1
  rw [hforward.read_eq, hbackward.read_eq]
  simp only [add_bucketOf]
  unfold bucketOf at hamount ⊢
  rw [hamount]
  split_ifs <;> omega

end SlidingCounter.Holds

/-! ### Sets of distinct users -/

namespace DistinctView

variable {w limit : ℕ} {v : DistinctView} {b₁ b₂ b t₁ t₂ t : ℕ} {u₁ u₂ u : Bytes}

/-- The reader's own user, if the attempt counts. -/
def ownUser (w : ℕ) (own : Bool) (u : Bytes) (t b : ℕ) : Finset Bytes :=
  if own = true ∧ InWindow w b t then {u} else ∅

/-- The number of users a reader sees. -/
theorem card_read (hle : (v.expire w b).seen.keys.card ≤ limit) (own : Bool) :
    (if own then v.add w limit u t b else v.expire w b).seen.keys.card =
      min limit ((v.expire w b).seen.keys ∪ ownUser w own u t b).card := by
  unfold ownUser add
  cases own with
  | false => simpa using hle
  | true =>
    by_cases hin : InWindow w b t
    · simp only [if_true, true_and, if_pos hin, card_record hle]
      rw [Finset.union_comm, ← Finset.insert_eq]
    · simpa [hin] using hle

/-- Of two sets, one part of the other, with one user added to both. -/
theorem min_card_union_eq_iff {k k' o : Finset Bytes} (hsub : k' ⊆ k)
    (hsmall : (k' ∪ o).card < limit) :
    min limit (k ∪ o).card = min limit (k' ∪ o).card ↔ k ⊆ k' ∪ o := by
  have hunion : k' ∪ o ⊆ k ∪ o := Finset.union_subset_union_left hsub
  rw [min_eq_right hsmall.le]
  constructor
  · intro heq
    have hle : (k ∪ o).card ≤ (k' ∪ o).card := by omega
    rw [Finset.eq_of_subset_of_card_le hunion hle]
    exact Finset.subset_union_left
  · intro hall
    have heq : k ∪ o = k' ∪ o :=
      (Finset.union_subset hall Finset.subset_union_right).antisymm hunion
    rw [heq, min_eq_right hsmall.le]

/-- **Two users in either order.**  If the readings are in different buckets of time, the earlier
one, handled last, clears the set.  The number read later is the same exactly when everyone still in
the window is the user handled last or the reader's own. -/
theorem card_orders_iff (h₁₂ : b₁ < b₂) (h₂ : b₂ ≤ b) (ht₁ : t₁ ≤ b₁) (ht₂ : t₂ ≤ b₂)
    (hlimit : 2 < limit) (hroom : (insert u₁ (insert u₂ (v.expire w b₁).seen.keys)).card ≤ limit)
    (own : Bool) :
    (if own then ((v.add w limit u₁ t₁ b₁).add w limit u₂ t₂ b₂).add w limit u t b
        else ((v.add w limit u₁ t₁ b₁).add w limit u₂ t₂ b₂).expire w b).seen.keys.card =
      (if own then ((v.add w limit u₂ t₂ b₂).add w limit u₁ t₁ b₁).add w limit u t b
        else ((v.add w limit u₂ t₂ b₂).add w limit u₁ t₁ b₁).expire w b).seen.keys.card ↔
      ∀ m, (v.expire w b₁).Alive w b m ∨ m = u₂ ∧ windowStart w b ≤ t₂ →
        m = u₁ ∧ windowStart w b ≤ t₁ ∨ m = u ∧ own = true ∧ InWindow w b t := by
  have hforward : ∀ {m}, m ∈ (((v.add w limit u₁ t₁ b₁).add w limit u₂ t₂ b₂).expire
      w b).seen.keys ↔ _ := mem_keys_forward h₁₂.le h₂ ht₁ ht₂ hroom
  have hbackward : ∀ {m}, m ∈ (((v.add w limit u₂ t₂ b₂).add w limit u₁ t₁ b₁).expire
      w b).seen.keys ↔ _ := mem_keys_backward h₁₂ h₂ ht₁ (by omega)
  have hown : ∀ {m}, m ∈ ownUser w own u t b ↔ m = u ∧ own = true ∧ InWindow w b t := by
    intro m
    unfold ownUser
    split_ifs with h <;> simp [h]
  have hcard : (((v.add w limit u₁ t₁ b₁).add w limit u₂ t₂ b₂).expire w b).seen.keys.card ≤
      limit := by
    refine (Finset.card_le_card fun m hm => ?_).trans hroom
    rw [Finset.mem_insert, Finset.mem_insert]
    obtain ⟨c, hc, -⟩ | ⟨hm, -⟩ | ⟨hm, -⟩ := hforward.mp hm
    · exact .inr (.inr (Finmap.mem_keys.mpr (Finmap.mem_iff.mpr ⟨c, hc⟩)))
    · exact .inl hm
    · exact .inr (.inl hm)
  have hone : (((v.add w limit u₂ t₂ b₂).add w limit u₁ t₁ b₁).expire w b).seen.keys ⊆ {u₁} :=
    fun m hm => Finset.mem_singleton.mpr (hbackward.mp hm).1
  have hone' : ownUser w own u t b ⊆ {u} := fun m hm => Finset.mem_singleton.mpr (hown.mp hm).1
  have hsmall := Finset.card_le_card (Finset.union_subset_union hone hone')
  have htwo : ({u₁} ∪ {u} : Finset Bytes).card ≤ 2 := Finset.card_le_two
  rw [card_read hcard, card_read ((Finset.card_le_card hone).trans (by simp; omega)),
    min_card_union_eq_iff (fun m hm => hforward.mpr (.inr (.inl (hbackward.mp hm)))) (by omega)]
  refine forall_congr' fun m => ?_
  rw [hforward, Finset.mem_union, hbackward, hown]
  constructor
  · exact fun h hm => h (hm.imp_right .inr)
  · rintro h (hm | hm | hm)
    · exact h (.inl hm)
    · exact .inl hm
    · exact h (.inr hm)

end DistinctView

/-! ### Users -/

/-- A counter that represents some additions, with buckets of the given width. -/
structure Counting (widthMs : ℕ) (c : SlidingCounter 60) : Prop where
  holds : ∃ additions now, c.Holds additions now
  width : c.bucketMs = widthMs

namespace Counting

variable {widthMs : ℕ} {c : SlidingCounter 60}

theorem add (h : Counting widthMs c) (ts nowMs : ℕ) : Counting widthMs (c.add ts nowMs 1).2 := by
  obtain ⟨_, _, hholds⟩ := h.holds
  exact ⟨⟨_, _, hholds.add ts nowMs 1⟩, (SlidingCounter.add_bucketMs _ _ _ _).trans h.width⟩

theorem expire (h : Counting widthMs c) (nowMs : ℕ) : Counting widthMs (c.expire nowMs) := by
  obtain ⟨_, _, hholds⟩ := h.holds
  exact ⟨⟨_, _, hholds.expire nowMs⟩, h.width⟩

/-- Reading right after an addition expires nothing more. -/
theorem add_expire (h : Counting widthMs c) (ts nowMs : ℕ) :
    (c.add ts nowMs 1).2.expire nowMs = (c.add ts nowMs 1).2 := by
  obtain ⟨_, _, hholds⟩ := h.holds
  exact (hholds.add ts nowMs 1).expire_eq (SlidingCounter.add_bucketOf _ _ _ _ _)

end Counting

/-- A feature that counts failures: an update adds one, dated by the attempt, and a read gives their
sum. -/
structure Feature.Counts {σ ρ : Type} (F : Feature σ ρ) (widthMs : ℕ) (P : σ → Prop)
    (counter : σ → SlidingCounter 60) (value : ρ → ℕ) : Prop where
  stable : F.Stable P
  counting : ∀ {st}, P st → Counting widthMs (counter st)
  update : ∀ a now st, counter (F.update a now st) = ((counter st).add a.timestampMs now 1).2
  read : ∀ now st, counter (F.read now st).2 = (counter st).expire now
  sum : ∀ now st, value (F.read now st).1 = ((counter st).sum now).1

namespace Feature.Counts

variable {σ ρ : Type} {F : Feature σ ρ} {widthMs : ℕ} {P : σ → Prop}
  {counter : σ → SlidingCounter 60} {value : ρ → ℕ} (K : F.Counts widthMs P counter value)
  {st : σ} (hst : P st) {a a₁ a₂ : LoginAttempt} {n n₁ n₂ : ℕ}

include K hst

theorem serve_counter (hcan : F.canUpdate a n = true) :
    counter (F.serve st a n).2 = ((counter st).add a.timestampMs n 1).2 := by
  rw [Feature.serve, if_pos hcan, K.read, K.update, (K.counting hst).add_expire]

theorem served_counter (h₁ : F.canUpdate a₁ n₁ = true) (h₂ : F.canUpdate a₂ n₂ = true) :
    counter (F.served st a₁ a₂ n₁ n₂) =
      (((counter st).add a₁.timestampMs n₁ 1).2.add a₂.timestampMs n₂ 1).2 := by
  rw [Feature.served, K.serve_counter (K.stable.serve hst a₁ n₁) h₂, K.serve_counter hst h₁]

/-- The failures read after two updates in either order. -/
theorem orders_iff (h₁₂ : n₁ ≤ n₂) (h₂n : n₂ ≤ n) (hnear : n < n₁ + 60 * widthMs)
    (h₁ : F.canUpdate a₁ n₁ = true) (h₂ : F.canUpdate a₂ n₂ = true)
    (hts₁ : a₁.timestampMs ≤ n₁) (hts₂ : a₂.timestampMs ≤ n₂) :
    value (F.serve (F.served st a₁ a₂ n₁ n₂) a n).1 =
        value (F.serve (F.served st a₂ a₁ n₂ n₁) a n).1 ↔
      a₂.timestampMs / widthMs ≤ n₁ / widthMs := by
  have hserve (st : σ) : value (F.serve st a n).1 =
      ((if F.canUpdate a n then ((counter st).add a.timestampMs n 1).2
        else counter st).sum n).1 := by
    rw [Feature.serve, K.sum]
    split_ifs
    · rw [K.update]
    · rfl
  obtain ⟨_, _, hholds⟩ := (K.counting hst).holds
  rw [← (K.counting hst).width] at hnear ⊢
  rw [hserve, hserve, K.served_counter hst h₁ h₂, K.served_counter hst h₂ h₁]
  exact hholds.read_orders_iff h₁₂ h₂n hnear hts₁ hts₂ _ _

end Feature.Counts

/-- A well-formed state of a user. -/
def UserPlaced (st : LoginUserState) : Prop := Counting kUserBucketMs st.loginFail5m

theorem userPlaced_stable : userFeature.Stable UserPlaced where
  fresh := ⟨⟨_, 0, .new⟩, rfl⟩
  update a now h := Counting.add h a.timestampMs now
  read now h := Counting.expire h now

theorem userFeature_counts :
    userFeature.Counts kUserBucketMs UserPlaced LoginUserState.loginFail5m id :=
  ⟨userPlaced_stable, id, fun _ _ _ => rfl, fun _ _ => rfl, fun _ _ => rfl⟩

/-! ### Addresses -/

/-- A well-formed state of an address. -/
structure IpPlaced (st : IpFeatureState) : Prop where
  counting : Counting kIpFailureBucketMs st.failures10m
  indexed : st.distinct.Indexed
  config : SlidingDistinct.SameConfig newDistinct st.distinct
  members : st.distinct.view.seen.keys.card ≤ kDistinctMaxMembers

namespace IpPlaced

variable {st : IpFeatureState} {a a₁ a₂ : LoginAttempt} {now n₁ n₂ : ℕ}

theorem new_indexed : newDistinct.Indexed := SlidingDistinct.indexed_new

theorem bucketOf_eq (h : IpPlaced st) (ms : ℕ) : st.distinct.bucketOf ms = ms / 10000 := by
  rw [SlidingDistinct.bucketOf, h.config.bucketMs]
  rfl

theorem view_add (h : IpPlaced st) (u : Bytes) (ts now : ℕ) :
    (st.distinct.add u ts now).2.view =
      st.distinct.view.add 60 kDistinctMaxMembers u (ts / 10000) (now / 10000) := by
  rw [SlidingDistinct.view_add h.indexed, h.bucketOf_eq, h.bucketOf_eq, h.config.1, h.config.3]
  rfl

theorem view_expire (h : IpPlaced st) (now : ℕ) :
    (st.distinct.expire now).view = st.distinct.view.expire 60 (now / 10000) := by
  rw [SlidingDistinct.view_expire h.indexed, h.bucketOf_eq, h.config.1]
  rfl

theorem stable : ipFeature.Stable IpPlaced where
  fresh := ⟨⟨⟨_, 0, .new⟩, rfl⟩, new_indexed, ⟨rfl, rfl, rfl⟩, Nat.zero_le _⟩
  update a now h := ⟨h.counting.add _ _, h.indexed.add _ _ _,
    h.config.trans (SlidingDistinct.add_sameConfig _ _ _ _),
    (congrArg (·.seen.keys.card) (h.view_add a.userId a.timestampMs now)).trans_le
      (DistinctView.card_add_le h.members)⟩
  read now h := ⟨h.counting.expire _, h.indexed.expire _,
    h.config.trans (SlidingDistinct.expire_sameConfig _ _),
    (congrArg (·.seen.keys.card) (h.view_expire now)).trans_le
      (DistinctView.card_expire_le.trans h.members)⟩

theorem counts : ipFeature.Counts kIpFailureBucketMs IpPlaced IpFeatureState.failures10m Prod.snd :=
  ⟨stable, counting, fun _ _ _ => rfl, fun _ _ => rfl, fun _ _ => rfl⟩

/-- The set as a visit leaves it. -/
theorem serve_view (h : IpPlaced st) (a : LoginAttempt) (now : ℕ) :
    (ipFeature.serve st a now).2.distinct.view =
      if ipFeature.canUpdate a now then
        st.distinct.view.add 60 kDistinctMaxMembers a.userId (a.timestampMs / 10000) (now / 10000)
      else st.distinct.view.expire 60 (now / 10000) := by
  unfold Feature.serve
  split_ifs with hcan
  · refine Eq.trans ((stable.update a now h).view_expire now) ?_
    show (st.distinct.add a.userId a.timestampMs now).2.view.expire 60 (now / 10000) = _
    rw [h.view_add, DistinctView.settled_add.expire_eq]
  · exact h.view_expire now

theorem serve_users (h : IpPlaced st) (a : LoginAttempt) (now : ℕ) :
    (ipFeature.serve st a now).1.1 =
      (if ipFeature.canUpdate a now then
        st.distinct.view.add 60 kDistinctMaxMembers a.userId (a.timestampMs / 10000) (now / 10000)
      else st.distinct.view.expire 60 (now / 10000)).seen.keys.card := by
  have hmembers := (stable.serve h a now).members
  rw [← h.serve_view]
  refine Nat.mod_eq_of_lt (lt_of_le_of_lt hmembers ?_)
  decide

theorem served_view (h : IpPlaced st) (h₁ : ipFeature.canUpdate a₁ n₁ = true)
    (h₂ : ipFeature.canUpdate a₂ n₂ = true) :
    (ipFeature.served st a₁ a₂ n₁ n₂).distinct.view =
      (st.distinct.view.add 60 kDistinctMaxMembers a₁.userId (a₁.timestampMs / 10000)
        (n₁ / 10000)).add 60 kDistinctMaxMembers a₂.userId (a₂.timestampMs / 10000)
        (n₂ / 10000) := by
  rw [Feature.served, (stable.serve h a₁ n₁).serve_view, if_pos h₂, h.serve_view, if_pos h₁]

end IpPlaced

namespace LoginFeatureStore

variable {hash : Bytes → ℕ} {store : LoginFeatureStore} {a₁ a₂ a : LoginAttempt} {n₁ n₂ n : ℕ}

/-- Every state is well formed. -/
structure Placed (hash : Bytes → ℕ) (store : LoginFeatureStore) : Prop where
  users : Feature.All UserPlaced hash store.userShards
  ips : Feature.All IpPlaced hash store.ipShards

/-- The states of every store are well formed, whatever the readings were. -/
theorem placed_run (hash : Bytes → ℕ) {config : FeatureStateReclamationConfig}
    (hvalid : isValidReclamationConfig config = true) (calls : List FeatureCall) :
    Placed hash ((new config hvalid).run hash calls) := by
  induction calls using List.reverseRecOn with
  | nil => exact ⟨Feature.Stable.empty, Feature.Stable.empty⟩
  | append_singleton calls c ih =>
    rw [run, List.foldl_append]
    cases c with
    | update attempt nowMs =>
      exact ⟨userPlaced_stable.visit ih.users, IpPlaced.stable.visit ih.ips⟩
    | reclaim nowMs =>
      exact ⟨Feature.Stable.reclaim ih.users _, Feature.Stable.reclaim ih.ips _⟩

/-- The store after two updates. -/
def afterBoth (hash : Bytes → ℕ) (store : LoginFeatureStore) (a₁ : LoginAttempt) (n₁ : ℕ)
    (a₂ : LoginAttempt) (n₂ : ℕ) : LoginFeatureStore :=
  ((store.updateAndGet hash a₁ n₁).2.updateAndGet hash a₂ n₂).2

/-- What is kept for the address of an attempt. -/
def ipState (hash : Bytes → ℕ) (store : LoginFeatureStore) (a : LoginAttempt) : IpFeatureState :=
  (store.ipShards.find hash a.ip).getD .new

/-- The set of the address has room for the users of both attempts at the reading `n₁`. -/
def HasRoom (hash : Bytes → ℕ) (store : LoginFeatureStore) (a₁ a₂ : LoginAttempt) (n₁ : ℕ) : Prop :=
  (insert a₁.userId (insert a₂.userId
    ((store.ipState hash a₁).distinct.expire n₁).lastSeenBucket.keys)).card ≤ kDistinctMaxMembers

/-- At the reading `n`, nobody is missed although the reading `n₁` cleared the set of the address:
the users of it that would still be counted, and the user of `a₂`, are the user of `a₁` or the
reader's own. -/
def NobodyMissed (hash : Bytes → ℕ) (store : LoginFeatureStore) (a₁ a₂ a : LoginAttempt)
    (n₁ n : ℕ) : Prop :=
  ∀ u, (∃ b, ((store.ipState hash a₁).distinct.expire n₁).lastSeenBucket.lookup u = some b ∧
        windowStart 60 (n / 10000) ≤ b) ∨
      u = a₂.userId ∧ windowStart 60 (n / 10000) ≤ a₂.timestampMs / 10000 →
    u = a₁.userId ∧ windowStart 60 (n / 10000) ≤ a₁.timestampMs / 10000 ∨
      u = a.userId ∧ failedWithin kDistinctWindowMs a n = true ∧
        InWindow 60 (n / 10000) (a.timestampMs / 10000)

theorem timestamp_le_of_failedWithin {windowMs : ℕ} (h : failedWithin windowMs a n = true) :
    a.timestampMs ≤ n := by
  simp only [failedWithin, isWithinWindow, Bool.and_eq_true, decide_eq_true_eq] at h
  exact h.2.1

section

variable (hstore : Placed hash store) (h₁₂ : n₁ ≤ n₂) (h₂n : n₂ ≤ n)

include hstore h₁₂ h₂n

theorem user_failures_iff (huser : a₁.userId = a₂.userId)
    (h₁ : failedWithin kUserWindowMs a₁ n₁ = true) (h₂ : failedWithin kUserWindowMs a₂ n₂ = true)
    (hnear : n < n₁ + kUserWindowMs) :
    ((store.afterBoth hash a₁ n₁ a₂ n₂).updateAndGet hash a n).1.userLoginFail5m =
        ((store.afterBoth hash a₂ n₂ a₁ n₁).updateAndGet hash a n).1.userLoginFail5m ↔
      a.userId ≠ a₁.userId ∨ a₂.timestampMs / 5000 ≤ n₁ / 5000 := by
  refine (Feature.visit_orders_iff (F := userFeature) id h₁ h₂ huser).trans (or_congr_right ?_)
  exact userFeature_counts.orders_iff (userPlaced_stable.getD hstore.users a₁.userId) h₁₂ h₂n hnear
    h₁ h₂ (timestamp_le_of_failedWithin h₁) (timestamp_le_of_failedWithin h₂)

theorem ip_failures_iff (hip : a₁.ip = a₂.ip)
    (h₁ : failedWithin kDistinctWindowMs a₁ n₁ = true)
    (h₂ : failedWithin kDistinctWindowMs a₂ n₂ = true) (hnear : n < n₁ + kDistinctWindowMs) :
    ((store.afterBoth hash a₁ n₁ a₂ n₂).updateAndGet hash a n).1.ipLoginFailures10m =
        ((store.afterBoth hash a₂ n₂ a₁ n₁).updateAndGet hash a n).1.ipLoginFailures10m ↔
      a.ip ≠ a₁.ip ∨ a₂.timestampMs / 10000 ≤ n₁ / 10000 := by
  refine (Feature.visit_orders_iff (F := ipFeature) Prod.snd h₁ h₂ hip).trans (or_congr_right ?_)
  exact IpPlaced.counts.orders_iff (IpPlaced.stable.getD hstore.ips a₁.ip) h₁₂ h₂n hnear
    h₁ h₂ (timestamp_le_of_failedWithin h₁) (timestamp_le_of_failedWithin h₂)

theorem ip_users_iff (hip : a₁.ip = a₂.ip)
    (h₁ : failedWithin kDistinctWindowMs a₁ n₁ = true)
    (h₂ : failedWithin kDistinctWindowMs a₂ n₂ = true) (hroom : HasRoom hash store a₁ a₂ n₁) :
    ((store.afterBoth hash a₁ n₁ a₂ n₂).updateAndGet hash a n).1.ipDistinctFailedUser10m =
        ((store.afterBoth hash a₂ n₂ a₁ n₁).updateAndGet hash a n).1.ipDistinctFailedUser10m ↔
      a.ip ≠ a₁.ip ∨ n₁ / 10000 = n₂ / 10000 ∨ NobodyMissed hash store a₁ a₂ a n₁ n := by
  have hst : IpPlaced (store.ipState hash a₁) := IpPlaced.stable.getD hstore.ips a₁.ip
  have hview := hst.view_expire n₁
  have hroom' : (insert a₁.userId (insert a₂.userId ((store.ipState hash a₁).distinct.view.expire
      60 (n₁ / 10000)).seen.keys)).card ≤ kDistinctMaxMembers := by
    rw [← hview]
    exact hroom
  refine (Feature.visit_orders_iff (F := ipFeature) Prod.fst h₁ h₂ hip).trans (or_congr_right ?_)
  change (ipFeature.serve (ipFeature.served (store.ipState hash a₁) a₁ a₂ n₁ n₂) a n).1.1 =
    (ipFeature.serve (ipFeature.served (store.ipState hash a₁) a₂ a₁ n₂ n₁) a n).1.1 ↔ _
  have hforward : IpPlaced (ipFeature.served (store.ipState hash a₁) a₁ a₂ n₁ n₂) :=
    IpPlaced.stable.serve (IpPlaced.stable.serve hst a₁ n₁) a₂ n₂
  have hbackward : IpPlaced (ipFeature.served (store.ipState hash a₁) a₂ a₁ n₂ n₁) :=
    IpPlaced.stable.serve (IpPlaced.stable.serve hst a₂ n₂) a₁ n₁
  rw [hforward.serve_users, hbackward.serve_users, hst.served_view h₁ h₂, hst.served_view h₂ h₁]
  obtain hbucket | hbucket := (Nat.div_le_div_right h₁₂ : n₁ / 10000 ≤ n₂ / 10000).eq_or_lt
  · rw [← hbucket, DistinctView.add_comm hroom']
    simp
  · rw [or_iff_right hbucket.ne, DistinctView.card_orders_iff hbucket (Nat.div_le_div_right h₂n)
      (Nat.div_le_div_right (timestamp_le_of_failedWithin h₁))
      (Nat.div_le_div_right (timestamp_le_of_failedWithin h₂)) (by decide) hroom', ← hview]
    rfl

end

/-- **When two workers can be applied in either order.**  For any store, two failures with the
readings `n₁ ≤ n₂`, and any later reading in the window: the failures read are the same exactly when
the reader has another key, or the second failure is not dated after the bucket of the first
reading.  The distinct users read are the same exactly when the reader has another address, both
readings are in one bucket, or nobody is missed. -/
theorem updates_commute_iff (hash : Bytes → ℕ) (config : FeatureStateReclamationConfig)
    (hvalid : isValidReclamationConfig config = true) (calls : List FeatureCall)
    (a₁ a₂ a : LoginAttempt) (n₁ n₂ n : ℕ) (h₁₂ : n₁ ≤ n₂) (h₂n : n₂ ≤ n) :
    let store := (new config hvalid).run hash calls
    let s := ((store.afterBoth hash a₁ n₁ a₂ n₂).updateAndGet hash a n).1
    let s' := ((store.afterBoth hash a₂ n₂ a₁ n₁).updateAndGet hash a n).1
    (a₁.userId = a₂.userId → failedWithin kUserWindowMs a₁ n₁ = true →
      failedWithin kUserWindowMs a₂ n₂ = true → n < n₁ + kUserWindowMs →
      (s.userLoginFail5m = s'.userLoginFail5m ↔
        a.userId ≠ a₁.userId ∨ a₂.timestampMs / 5000 ≤ n₁ / 5000)) ∧
    (a₁.ip = a₂.ip → failedWithin kDistinctWindowMs a₁ n₁ = true →
      failedWithin kDistinctWindowMs a₂ n₂ = true → n < n₁ + kDistinctWindowMs →
      (s.ipLoginFailures10m = s'.ipLoginFailures10m ↔
        a.ip ≠ a₁.ip ∨ a₂.timestampMs / 10000 ≤ n₁ / 10000) ∧
      (HasRoom hash store a₁ a₂ n₁ →
        (s.ipDistinctFailedUser10m = s'.ipDistinctFailedUser10m ↔
          a.ip ≠ a₁.ip ∨ n₁ / 10000 = n₂ / 10000 ∨ NobodyMissed hash store a₁ a₂ a n₁ n))) := by
  have hplaced := placed_run hash hvalid calls
  exact ⟨fun huser h₁ h₂ hnear => user_failures_iff hplaced h₁₂ h₂n huser h₁ h₂ hnear,
    fun hip h₁ h₂ hnear => ⟨ip_failures_iff hplaced h₁₂ h₂n hip h₁ h₂ hnear,
      fun hroom => ip_users_iff hplaced h₁₂ h₂n hip h₁ h₂ hroom⟩⟩

/-- A failure of the first user from the first address and device. -/
def failureAt (timestampMs : ℕ) : LoginAttempt := ⟨timestampMs, [1], [1], [1], .fail⟩

/-- A successful login from the same place. -/
def successAt (timestampMs : ℕ) : LoginAttempt := ⟨timestampMs, [1], [1], [1], .success⟩

/-- Another user fails from the address. -/
def otherFailed : List FeatureCall := [.update ⟨4000, [2], [1], [1], .fail⟩ 4000]

/-- Readings in different buckets, but both failures dated before the later one: no failure is lost,
while the other user is. -/
theorem updates_commute_iff_dated :
    let store := (new ⟨300000, 600000, 600000⟩ (by decide)).run (fun _ => 0) otherFailed
    let s := ((store.afterBoth (fun _ => 0) (failureAt 9000) 9999 (failureAt 9500)
      10000).updateAndGet (fun _ => 0) (successAt 10000) 10000).1
    let s' := ((store.afterBoth (fun _ => 0) (failureAt 9500) 10000 (failureAt 9000)
      9999).updateAndGet (fun _ => 0) (successAt 10000) 10000).1
    s.userLoginFail5m = s'.userLoginFail5m ∧ s.ipLoginFailures10m = s'.ipLoginFailures10m ∧
      s.ipDistinctFailedUser10m ≠ s'.ipDistinctFailedUser10m := by
  intro store s s'
  obtain ⟨huser, hip⟩ := updates_commute_iff (fun _ => 0) ⟨300000, 600000, 600000⟩ (by decide)
    otherFailed (failureAt 9000) (failureAt 9500) (successAt 10000) 9999 10000 10000
    (by decide) (by decide)
  obtain ⟨hfailures, husers⟩ := hip rfl (by decide) (by decide) (by decide)
  have hroom : HasRoom (fun _ => 0) store (failureAt 9000) (failureAt 9500) 9999 := by
    unfold HasRoom
    decide +kernel
  have hother : ((store.ipState (fun _ => 0) (failureAt 9000)).distinct.expire
      9999).lastSeenBucket.lookup [2] = some 0 := by
    decide +kernel
  refine ⟨(huser rfl (by decide) (by decide) (by decide)).mpr (.inr (by decide)),
    hfailures.mpr (.inr (by decide)), fun hsame => ?_⟩
  obtain hne | hbucket | hnobody := (husers hroom).mp hsame
  · exact hne rfl
  · exact absurd hbucket (by decide)
  · obtain ⟨hfirst, -⟩ | ⟨hreader, -⟩ := hnobody [2] (.inl ⟨0, hother, by decide⟩)
    · exact absurd hfirst (by decide)
    · exact absurd hreader (by decide)

/-- **A failure is lost.**  Two failures of one user from one address, a millisecond apart: if
the later reading is applied first, a snapshot at the later reading counts one of them only. -/
theorem updates_order_lost :
    ∃ hvalid : isValidReclamationConfig ⟨300000, 600000, 600000⟩ = true,
      (((new _ hvalid).afterBoth (fun _ => 0) (failureAt 9999) 9999 (failureAt 10000)
        10000).updateAndGet (fun _ => 0) (successAt 10000) 10000).1 = ⟨2, 1, 1, 2⟩ ∧
      (((new _ hvalid).afterBoth (fun _ => 0) (failureAt 10000) 10000 (failureAt 9999)
        9999).updateAndGet (fun _ => 0) (successAt 10000) 10000).1 = ⟨1, 1, 1, 1⟩ := by
  exact ⟨by decide, by decide +kernel, by decide +kernel⟩

end LoginFeatureStore

end AegisFlow
