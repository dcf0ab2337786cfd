import AegisFlow.Window.Basic
import Mathlib.Tactic.SplitIfs

/-!
# Ring buffers

A ring of `n` slots with a head, a tail and the number of slots in use.  `Ring.Represents r items`
says that the slots from the head on hold the `items`, oldest first.

* `Represents.push`, `Represents.pop` : a ring is a queue, first in, first out;
* `Represents.drain` : all items are moved out at once, in their order;
* `unpush_push` : taking back the item just pushed restores the ring, if its free slots are
  `Vacant`.
-/

namespace AegisFlow

/-- A ring of `n` slots; a slot not in use holds nothing. -/
structure Ring (α : Type*) (n : ℕ) where
  slots : Fin n → Option α
  /-- The slot of the oldest item. -/
  head : Fin n
  /-- The slot of the next item. -/
  tail : Fin n
  /-- Slots in use. -/
  size : ℕ

namespace Ring

variable {α : Type*} {n : ℕ} [NeZero n]

/-- A ring with no slot in use. -/
def empty : Ring α n := ⟨fun _ => none, slotOf n 0, slotOf n 0, 0⟩

/-- The slot `i` steps behind the head. -/
def slot (r : Ring α n) (i : ℕ) : Fin n := slotOf n (r.head + i)

/-- Put an item into the slot at the tail. -/
def push (r : Ring α n) (a : α) : Ring α n :=
  { r with
    slots := Function.update r.slots r.tail (some a)
    tail := slotOf n (r.tail + 1)
    size := r.size + 1 }

/-- Take back the item that was put into the given slot last. -/
def unpush (r : Ring α n) (index : Fin n) : Ring α n :=
  { r with
    slots := Function.update r.slots index none
    tail := index
    size := r.size - 1 }

/-- Move the item out of the slot at the head. -/
def advance (r : Ring α n) : Option α × Ring α n :=
  (r.slots r.head,
    { r with slots := Function.update r.slots r.head none, head := slotOf n (r.head + 1) })

/-- Take the oldest item. -/
def pop (r : Ring α n) : Option α × Ring α n :=
  (r.advance.1, { r.advance.2 with size := r.size - 1 })

/-- Move `count` items out, one after the other. -/
def moveOut : (count : ℕ) → Ring α n → List (Option α) × Ring α n
  | 0, r => ([], r)
  | count + 1, r => (r.advance.1 :: (moveOut count r.advance.2).1, (moveOut count r.advance.2).2)

/-- Move all items out. -/
def drain (r : Ring α n) : List (Option α) × Ring α n :=
  ((moveOut r.size r).1,
    { (moveOut r.size r).2 with size := 0, tail := (moveOut r.size r).2.head })

/-! ### Slots -/

theorem slotOf_add (b i : ℕ) : slotOf n ((slotOf n b : ℕ) + i) = slotOf n (b + i) := by
  apply Fin.ext
  simp [slotOf]

theorem slotOf_val (i : Fin n) : slotOf n (i : ℕ) = i := by
  apply Fin.ext
  simp [slotOf]

@[simp] theorem slot_zero (r : Ring α n) : r.slot 0 = r.head := slotOf_val r.head

/-- Two steps within one round lead to different slots. -/
theorem slot_injective (r : Ring α n) {i j : ℕ} (hi : i < n) (hj : j < n)
    (h : r.slot i = r.slot j) : i = j := by
  have hmod : (r.head + i) % n = (r.head + j) % n := congrArg Fin.val h
  obtain hle | hle := le_total i j
  · have := InWindow.eq_of_mod_of_le (n := n) (Nat.add_le_add_left hle r.head) (by omega) hmod
    omega
  · have := InWindow.eq_of_mod_of_le (n := n) (Nat.add_le_add_left hle r.head) (by omega) hmod.symm
    omega

theorem advance_slot (r : Ring α n) (i : ℕ) : r.advance.2.slot i = r.slot (i + 1) := by
  simp only [slot, advance]
  rw [slotOf_add, Nat.add_right_comm, Nat.add_assoc]

/-! ### What a ring holds -/

/-- The slots from the head on hold the items, oldest first. -/
def Holds (r : Ring α n) (items : List α) : Prop :=
  ∀ i < items.length, r.slots (r.slot i) = items[i]?

/-- The ring holds the items and nothing else. -/
structure Represents (r : Ring α n) (items : List α) : Prop where
  size : r.size = items.length
  size_le : r.size ≤ n
  tail : r.tail = r.slot r.size
  slots : r.Holds items

variable {r : Ring α n} {items : List α} {a : α}

theorem represents_empty : (empty : Ring α n).Represents [] :=
  ⟨rfl, Nat.zero_le n, by simp [empty], fun i hi => absurd hi (Nat.not_lt_zero i)⟩

theorem represents_nil (h : r.size = 0) : ({ r with tail := r.head } : Ring α n).Represents [] where
  size := h
  size_le := h ▸ Nat.zero_le n
  tail := by
    rw [show ({ r with tail := r.head } : Ring α n).size = 0 from h]
    exact (slot_zero _).symm
  slots i hi := absurd hi (Nat.not_lt_zero i)

/-- A new item comes last. -/
theorem Represents.push (h : r.Represents items) (hroom : r.size < n) :
    (r.push a).Represents (items ++ [a]) where
  size := by simp [Ring.push, h.size]
  size_le := hroom
  tail := by
    show slotOf n (r.tail + 1) = slotOf n (r.head + (r.size + 1))
    rw [h.tail, slot, slotOf_add, Nat.add_assoc]
  slots i hi := by
    show Function.update r.slots r.tail (some a) (r.slot i) = _
    rw [List.length_append, List.length_singleton] at hi
    have hsize := h.size
    rw [h.tail]
    by_cases hlast : i = r.size
    · rw [hlast, Function.update_self, h.size]
      simp
    · have hne : r.slot i ≠ r.slot r.size := fun heq =>
        hlast (r.slot_injective (by omega) hroom heq)
      rw [Function.update_of_ne hne, h.slots i (by omega), List.getElem?_append_left (by omega)]

/-- The item at the head comes out, and the other slots keep theirs. -/
theorem Holds.advance (h : r.Holds (a :: items)) (hlength : (a :: items).length ≤ n) :
    r.advance.1 = some a ∧ r.advance.2.Holds items := by
  rw [List.length_cons] at hlength
  constructor
  · have hhead := h 0 (by simp)
    rw [slot_zero] at hhead
    exact hhead
  · intro i hi
    have hne : r.slot (i + 1) ≠ r.head := fun heq => by
      have hzero := r.slot_injective (i := i + 1) (j := 0) (by omega) (by omega)
        (heq.trans r.slot_zero.symm)
      omega
    rw [advance_slot]
    show Function.update r.slots r.head none (r.slot (i + 1)) = _
    rw [Function.update_of_ne hne, h (i + 1) (by simpa using hi), List.getElem?_cons_succ]

/-- The oldest item comes first. -/
theorem Represents.pop (h : r.Represents (a :: items)) :
    r.pop.1 = some a ∧ r.pop.2.Represents items := by
  have hsize := h.size
  have hle := h.size_le
  obtain ⟨hfirst, hslots⟩ := h.slots.advance (by omega)
  rw [List.length_cons] at hsize
  refine ⟨hfirst, ⟨?_, ?_, ?_, hslots⟩⟩
  · show r.size - 1 = items.length
    omega
  · show r.size - 1 ≤ n
    omega
  · show r.tail = r.advance.2.slot (r.size - 1)
    rw [advance_slot, h.tail, Nat.sub_add_cancel (by omega)]

theorem Holds.moveOut (h : r.Holds items) (hlength : items.length ≤ n) :
    (moveOut items.length r).1 = items.map some := by
  induction items generalizing r with
  | nil => rfl
  | cons a items ih =>
    obtain ⟨hfirst, hrest⟩ := h.advance hlength
    rw [List.length_cons] at hlength
    rw [List.length_cons, Ring.moveOut, List.map_cons, hfirst, ih hrest (by omega)]

/-- All items come out in their order, and the ring is empty. -/
theorem Represents.drain (h : r.Represents items) :
    r.drain.1 = items.map some ∧ r.drain.2.Represents [] := by
  constructor
  · rw [Ring.drain, h.size]
    exact h.slots.moveOut (h.size ▸ h.size_le)
  · refine ⟨rfl, Nat.zero_le n, ?_, fun i hi => absurd hi (Nat.not_lt_zero i)⟩
    exact (slot_zero _).symm

/-! ### Free slots -/

/-- The slots not in use hold nothing. -/
def Vacant (r : Ring α n) : Prop := ∀ i, r.size ≤ i → i < n → r.slots (r.slot i) = none

theorem vacant_empty : (empty : Ring α n).Vacant := fun _ _ _ => rfl

theorem Vacant.push (hvacant : r.Vacant) (h : r.Represents items) (hroom : r.size < n) :
    (r.push a).Vacant := by
  intro i hi hin
  change r.size + 1 ≤ i at hi
  change Function.update r.slots r.tail (some a) (r.slot i) = none
  have hne : r.slot i ≠ r.tail := by
    intro heq
    have := r.slot_injective hin hroom (heq.trans h.tail)
    omega
  rw [Function.update_of_ne hne]
  exact hvacant i (by omega) hin

theorem Vacant.pop (hvacant : r.Vacant) : r.pop.2.Vacant := by
  intro i hi hin
  change r.size - 1 ≤ i at hi
  change Function.update r.slots r.head none (r.advance.2.slot i) = none
  rw [advance_slot]
  -- One round behind the head is the head itself, which has just been emptied.
  by_cases hround : i + 1 = n
  · have hhead : r.slot (i + 1) = r.head := by
      apply Fin.ext
      change (r.head + (i + 1)) % n = r.head
      rw [hround, Nat.add_mod_right, Nat.mod_eq_of_lt r.head.isLt]
    rw [hhead, Function.update_self]
  · by_cases hhead : r.slot (i + 1) = r.head
    · rw [hhead, Function.update_self]
    · rw [Function.update_of_ne hhead]
      exact hvacant (i + 1) (by omega) (by omega)

/-- **Taking back the item just pushed restores the ring.** -/
theorem unpush_push (h : r.Represents items) (hvacant : r.Vacant) (hroom : r.size < n) :
    (r.push a).unpush r.tail = r := by
  have hfree : r.slots r.tail = none := by
    rw [h.tail]
    exact hvacant r.size le_rfl hroom
  have hslots : Function.update (Function.update r.slots r.tail (some a)) r.tail none =
      r.slots := by
    rw [Function.update_idem, ← hfree, Function.update_eq_self]
  change (⟨Function.update (Function.update r.slots r.tail (some a)) r.tail none, r.head, r.tail,
    r.size⟩ : Ring α n) = r
  rw [hslots]

end Ring

end AegisFlow
