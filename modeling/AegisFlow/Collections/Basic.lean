import Mathlib.Data.Finmap
import Mathlib.Data.List.Sort

/-!
# Finite maps and priority queues

Containers that the models of programs need.

* `Finmap.retain` keeps the entries of a finite map that pass a test;
* `TreeMap.lookup_insert`, `TreeMap.lookup_erase` : reading a table after a change;
* `List.filterMap_update_perm` : the values of a family when one member gets a value;
* `List.lookup_eq_some_iff_mem` : looking up a key that is there once;
* `MinQueue` is a priority queue that yields the element with the smallest key first, and
  `MinQueue.popBelow` takes everything below a bound out of it.
-/

namespace Finmap

variable {α : Type*} {β : α → Type*}

theorem nodupKeys_filter (s : Finmap β) (p : Sigma β → Bool) :
    (s.entries.filter fun e => p e = true).NodupKeys := by
  obtain ⟨entries, hnodup⟩ := s
  induction entries using Quotient.inductionOn with
  | h l => exact List.Nodup.sublist (List.Sublist.map _ List.filter_sublist) hnodup

/-- The entries of `s` that pass the test. -/
def retain (p : ∀ a, β a → Bool) (s : Finmap β) : Finmap β :=
  ⟨s.entries.filter fun e => p e.1 e.2 = true, nodupKeys_filter s fun e => p e.1 e.2⟩

@[simp] theorem lookup_retain [DecidableEq α] (p : ∀ a, β a → Bool) (s : Finmap β) (a : α) :
    (s.retain p).lookup a = (s.lookup a).filter (p a) := by
  ext b
  rw [Option.filter_eq_some_iff, lookup_eq_some_iff, lookup_eq_some_iff]
  simp [retain]

theorem keys_insert [DecidableEq α] (s : Finmap β) (a : α) (b : β a) :
    (s.insert a b).keys = Insert.insert a s.keys := by
  ext a'
  rw [mem_keys, mem_insert, Finset.mem_insert, mem_keys]

end Finmap

namespace TreeMap

variable {κ β : Type*} [Ord κ] [Std.TransOrd κ] [Std.LawfulEqOrd κ] [DecidableEq κ]

theorem lookup_insert (m : Std.TreeMap κ β) (k k' : κ) (b : β) :
    (m.insert k b)[k']? = if k = k' then some b else m[k']? := by
  rw [Std.TreeMap.getElem?_insert]
  simp only [Std.LawfulEqCmp.compare_eq_iff_eq]

theorem lookup_erase (m : Std.TreeMap κ β) (k k' : κ) :
    (m.erase k)[k']? = if k = k' then none else m[k']? := by
  rw [Std.TreeMap.getElem?_erase]
  simp only [Std.LawfulEqCmp.compare_eq_iff_eq]

end TreeMap

namespace List

variable {α ι : Type*} [DecidableEq ι]

/-- One more index with a value adds that value to the values. -/
theorem filterMap_update_perm {l : List ι} (hl : l.Nodup) {f : ι → Option α} {i : ι} (hi : i ∈ l)
    (hf : f i = none) (a : α) :
    (l.filterMap (Function.update f i (some a))).Perm (a :: l.filterMap f) := by
  induction l with
  | nil => exact absurd hi not_mem_nil
  | cons j l ih =>
    obtain ⟨hj, hl⟩ := nodup_cons.1 hl
    by_cases hij : j = i
    · subst hij
      have hrest : l.filterMap (Function.update f j (some a)) = l.filterMap f :=
        filterMap_congr fun k hk => Function.update_of_ne (ne_of_mem_of_not_mem hk hj) _ _
      rw [filterMap_cons_some (Function.update_self _ _ _), hrest, filterMap_cons_none hf]
    · have ih := ih hl ((mem_cons.1 hi).resolve_left (Ne.symm hij))
      cases hfj : f j with
      | none =>
        rw [filterMap_cons_none (by rw [Function.update_of_ne hij, hfj]), filterMap_cons_none hfj]
        exact ih
      | some b =>
        rw [filterMap_cons_some (by rw [Function.update_of_ne hij, hfj]), filterMap_cons_some hfj]
        exact (ih.cons b).trans (.swap _ _ _)

variable {β : Type*} [BEq α] [LawfulBEq α] {l l' : List (α × β)} (h : (l.map Prod.fst).Nodup)
include h

theorem lookup_eq_some_iff_mem {a : α} {b : β} : l.lookup a = some b ↔ (a, b) ∈ l := by
  rw [lookup_eq_some_iff]
  constructor
  · rintro ⟨l₁, l₂, rfl, -⟩
    exact mem_append_right _ mem_cons_self
  · intro hmem
    obtain ⟨l₁, l₂, rfl⟩ := append_of_mem hmem
    rw [map_append, map_cons, nodup_append] at h
    exact ⟨l₁, l₂, rfl, fun p hp =>
      bne_iff_ne.2 (h.2.2 p.1 (mem_map_of_mem hp) a mem_cons_self).symm⟩

theorem Perm.lookup_eq (hperm : l'.Perm l) (a : α) : l'.lookup a = l.lookup a := by
  refine Option.ext fun b => ?_
  rw [lookup_eq_some_iff_mem ((hperm.map Prod.fst).nodup_iff.2 h), lookup_eq_some_iff_mem h,
    hperm.mem_iff]

/-- As many entries as there are keys to look up are all the entries. -/
theorem perm_of_lookup (l' : List (α × β)) (hl' : (l'.map Prod.fst).Nodup)
    (hlength : l.length = l'.length) (hlookup : ∀ p ∈ l', l.lookup p.1 = some p.2) :
    l.Perm l' := by
  have hsub : l' ⊆ l := fun p hp => (lookup_eq_some_iff_mem h).1 (hlookup p hp)
  exact (((Nodup.of_map Prod.fst hl').subperm hsub).perm_of_length_le hlength.le).symm

end List

namespace AegisFlow

/-- A priority queue, smallest key first. -/
structure MinQueue {α K : Type*} [LinearOrder K] (key : α → K) where
  /-- The elements, in the order in which they come out. -/
  entries : List α
  sorted : entries.Pairwise fun a b => key a ≤ key b

namespace MinQueue

variable {α K : Type*} [LinearOrder K] {key : α → K} {q : MinQueue key} {a : α}

instance : Std.Total fun a b : α => key a ≤ key b := ⟨fun a b => le_total (key a) (key b)⟩

instance : IsTrans α fun a b => key a ≤ key b := ⟨fun _ _ _ => le_trans⟩

instance : Membership α (MinQueue key) := ⟨fun q a => a ∈ q.entries⟩

/-- The queue without elements. -/
def empty : MinQueue key := ⟨[], .nil⟩

/-- Put an element in. -/
def push (q : MinQueue key) (a : α) : MinQueue key :=
  ⟨q.entries.orderedInsert (fun a b => key a ≤ key b) a, q.sorted.orderedInsert a _⟩

/-- The elements that come out while the smallest key is below the bound. -/
def below (q : MinQueue key) (bound : K) : List α :=
  q.entries.takeWhile fun a => key a < bound

/-- Take them out. -/
def popBelow (q : MinQueue key) (bound : K) : MinQueue key :=
  ⟨q.entries.dropWhile fun a => key a < bound, q.sorted.sublist (List.dropWhile_sublist _)⟩

/-- The element that comes out next. -/
def top? (q : MinQueue key) : Option α := q.entries.head?

/-- Take it out. -/
def pop (q : MinQueue key) : MinQueue key := ⟨q.entries.tail, q.sorted.tail⟩

theorem mem_def : a ∈ q ↔ a ∈ q.entries := Iff.rfl

@[simp] theorem notMem_empty (a : α) : a ∉ (empty : MinQueue key) := List.not_mem_nil

@[simp] theorem mem_push {b : α} : b ∈ q.push a ↔ b = a ∨ b ∈ q :=
  List.mem_orderedInsert _

theorem takeWhile_eq_filter {l : List α} (hl : l.Pairwise fun a b => key a ≤ key b)
    (bound : K) : l.takeWhile (fun a => key a < bound) = l.filter fun a => key a < bound := by
  induction l with
  | nil => rfl
  | cons a l ih =>
    rw [List.pairwise_cons] at hl
    by_cases ha : key a < bound
    · simp [ha, ih hl.2]
    · -- nothing after the first element that stays is below the bound either
      have hrest : l.filter (fun b => key b < bound) = [] := by
        simp only [List.filter_eq_nil_iff, decide_eq_true_eq]
        exact fun b hb => not_lt.mpr ((not_lt.mp ha).trans (hl.1 b hb))
      simp [ha, hrest]

theorem dropWhile_eq_filter {l : List α} (hl : l.Pairwise fun a b => key a ≤ key b)
    (bound : K) : l.dropWhile (fun a => key a < bound) = l.filter fun a => bound ≤ key a := by
  induction l with
  | nil => rfl
  | cons a l ih =>
    rw [List.pairwise_cons] at hl
    by_cases ha : key a < bound
    · simp [ha, ih hl.2]
    · have hrest : l.filter (fun b => bound ≤ key b) = l := by
        simp only [List.filter_eq_self, decide_eq_true_eq]
        exact fun b hb => (not_lt.mp ha).trans (hl.1 b hb)
      simp [ha, hrest, not_lt.mp ha]

@[simp] theorem mem_below {bound : K} : a ∈ q.below bound ↔ a ∈ q ∧ key a < bound := by
  simp [below, takeWhile_eq_filter q.sorted, mem_def]

@[simp] theorem mem_popBelow {bound : K} : a ∈ q.popBelow bound ↔ a ∈ q ∧ bound ≤ key a := by
  simp [popBelow, dropWhile_eq_filter q.sorted, mem_def]

theorem mem_of_mem_pop (h : a ∈ q.pop) : a ∈ q :=
  List.mem_of_mem_tail h

theorem mem_of_top? (h : q.top? = some a) : a ∈ q :=
  List.mem_of_mem_head? h

/-- **What comes out next has the smallest key.** -/
theorem key_le_of_top? {b : α} (h : q.top? = some a) (hb : b ∈ q) : key a ≤ key b := by
  obtain ⟨entries, hsorted⟩ := q
  cases entries with
  | nil => cases hb
  | cons c entries =>
    cases h
    rcases List.mem_cons.mp hb with rfl | hb
    · exact le_rfl
    · exact (List.pairwise_cons.mp hsorted).1 b hb

/-- What is in the queue is what comes out next, or is left after it. -/
theorem eq_or_mem_pop {b : α} (h : q.top? = some a) (hb : b ∈ q) : b = a ∨ b ∈ q.pop := by
  obtain ⟨entries, hsorted⟩ := q
  cases entries with
  | nil => cases hb
  | cons c entries =>
    cases h
    exact List.mem_cons.mp hb

end MinQueue

end AegisFlow
