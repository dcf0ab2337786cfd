import Mathlib.Data.Nat.Digits.Lemmas

/-!
# Byte strings and decimal numbers

Identifiers, reasons and the values kept in a remote store are byte strings: nothing below
assumes that they are valid text in some encoding.

* `ascii` : the bytes of an ASCII literal;
* `toText` : a natural number in decimal, without leading zeros;
* `parseUnsigned` : the inverse, which accepts canonical decimal text only.

`parseUnsigned_toText` says that a number in range is read back as it was written.
-/

namespace AegisFlow

/-- Byte strings. -/
abbrev Bytes := List UInt8

/-- The largest `std::size_t`. -/
def sizeMax : ℕ := 2 ^ 64 - 1

/-- The bytes of an ASCII literal. -/
def ascii (s : String) : Bytes := s.toList.map fun c => UInt8.ofNat c.toNat

/-- The byte of a decimal digit. -/
def digit (d : ℕ) : UInt8 := UInt8.ofNat (48 + d)

/-- A natural number in decimal. -/
def toText (n : ℕ) : Bytes :=
  if n = 0 then [digit 0] else ((Nat.digits 10 n).map digit).reverse

/-- The bytes `0` to `9`. -/
def isDigit (b : UInt8) : Bool := decide (48 ≤ b.toNat) && decide (b.toNat ≤ 57)

/-- The number a text of digits denotes. -/
def digitsValue (text : Bytes) : ℕ := text.foldl (fun n b => 10 * n + (b.toNat - 48)) 0

/-- Strict decimal parser: no sign, no leading zero, no overflow of 64 bits, at most
`maximum`. -/
def parseUnsigned (text : Bytes) (maximum : ℕ) : Option ℕ :=
  if text = [] ∨ (1 < text.length ∧ text.head? = some (digit 0)) then none
  else if text.all isDigit && decide (digitsValue text < 2 ^ 64) &&
      decide (digitsValue text ≤ maximum) then some (digitsValue text)
  else none

/-! ### Digits -/

theorem digit_toNat {d : ℕ} (h : d < 10) : (digit d).toNat = 48 + d := by
  simp only [digit, UInt8.toNat_ofNat']
  omega

theorem isDigit_digit {d : ℕ} (h : d < 10) : isDigit (digit d) = true := by
  simp only [isDigit, digit_toNat h, Bool.and_eq_true, decide_eq_true_eq]
  omega

theorem digit_eq_zero {d : ℕ} (h : d < 10) (h0 : digit d = digit 0) : d = 0 := by
  have := congrArg UInt8.toNat h0
  rw [digit_toNat h, digit_toNat (by omega)] at this
  omega

theorem digitsValue_append (xs : Bytes) (b : UInt8) :
    digitsValue (xs ++ [b]) = 10 * digitsValue xs + (b.toNat - 48) := by
  simp [digitsValue]

theorem digitsValue_reverse_digits {ds : List ℕ} (h : ∀ d ∈ ds, d < 10) :
    digitsValue ((ds.map digit).reverse) = Nat.ofDigits 10 ds := by
  induction ds with
  | nil => rfl
  | cons d ds ih =>
    have hd := h d List.mem_cons_self
    rw [List.map_cons, List.reverse_cons, digitsValue_append,
      ih fun e he => h e (List.mem_cons_of_mem _ he), digit_toNat hd, Nat.ofDigits_cons]
    omega

theorem toText_ne_nil (n : ℕ) : toText n ≠ [] := by
  unfold toText
  split_ifs with h
  · simp
  · simpa using Nat.digits_ne_nil_iff_ne_zero.2 h

theorem digitsValue_toText (n : ℕ) : digitsValue (toText n) = n := by
  unfold toText
  split_ifs with h
  · subst h; rfl
  · rw [digitsValue_reverse_digits fun d hd => Nat.digits_lt_base (by omega) hd,
      Nat.ofDigits_digits]

theorem all_isDigit_toText (n : ℕ) : (toText n).all isDigit = true := by
  unfold toText
  split_ifs with h
  · rfl
  · simp only [List.all_reverse, List.all_map, List.all_eq_true, Function.comp_apply]
    exact fun d hd => isDigit_digit (Nat.digits_lt_base (by omega) hd)

/-- Only zero is written with a leading zero. -/
theorem toText_head {n : ℕ} (hlen : 1 < (toText n).length) :
    (toText n).head? ≠ some (digit 0) := by
  unfold toText at hlen ⊢
  split_ifs at hlen ⊢ with h
  · simp at hlen
  · intro hz
    have hne : Nat.digits 10 n ≠ [] := Nat.digits_ne_nil_iff_ne_zero.2 h
    rw [List.head?_reverse, List.getLast?_map, List.getLast?_eq_some_getLast hne] at hz
    simp only [Option.map_some, Option.some.injEq] at hz
    have hlt : (Nat.digits 10 n).getLast hne < 10 :=
      Nat.digits_lt_base (by omega) (List.getLast_mem hne)
    exact Nat.getLast_digit_ne_zero 10 h (digit_eq_zero hlt hz)

/-- A number in range is read back as it was written. -/
theorem parseUnsigned_toText {n maximum : ℕ} (h64 : n < 2 ^ 64) (hmax : n ≤ maximum) :
    parseUnsigned (toText n) maximum = some n := by
  unfold parseUnsigned
  rw [if_neg, if_pos, digitsValue_toText]
  · simp only [all_isDigit_toText, digitsValue_toText, h64, hmax, decide_true, Bool.and_self]
  · rintro (hnil | ⟨hlen, hz⟩)
    · exact toText_ne_nil n hnil
    · exact toText_head hlen hz

theorem parseUnsigned_le {text : Bytes} {maximum n : ℕ}
    (h : parseUnsigned text maximum = some n) : n ≤ maximum ∧ digitsValue text = n := by
  unfold parseUnsigned at h
  split_ifs at h with h1 h2
  simp only [Bool.and_eq_true, decide_eq_true_eq] at h2
  obtain rfl : digitsValue text = n := by simpa using h
  exact ⟨h2.2, rfl⟩

/-- The bound matters only to numbers beyond it. -/
theorem parseUnsigned_of_le {text : Bytes} {maximum bound n : ℕ}
    (h : parseUnsigned text maximum = some n) (hn : n ≤ bound) :
    parseUnsigned text bound = some n := by
  unfold parseUnsigned at h ⊢
  split_ifs at h with h1 h2
  simp only [Bool.and_eq_true, decide_eq_true_eq] at h2
  obtain rfl : digitsValue text = n := by simpa using h
  rw [if_neg h1, if_pos]
  simp only [h2.1.1, h2.1.2, hn, decide_true, Bool.and_self]

theorem isDigit_of_parseUnsigned {text : Bytes} {maximum n : ℕ}
    (h : parseUnsigned text maximum = some n) : ∀ b ∈ text, isDigit b = true := by
  unfold parseUnsigned at h
  split_ifs at h with h1 h2
  simp only [Bool.and_eq_true] at h2
  exact List.all_eq_true.1 h2.1.1

end AegisFlow
