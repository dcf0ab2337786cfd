import AegisFlow.Interaction.Prog
import Mathlib.Tactic.SplitIfs

/-!
# Procedures with variables and exceptions

`Proc E σ α` is a program over the operations of `E` with mutable variables of type `σ` that
either returns an `α` or is abandoned (`none`): by an exception, or because a bound on its
number of iterations was reached.  Assignments made before it was abandoned stay.

`Proc.Meets` is the contract of `Prog.Meets` for procedures: its postcondition sees the local
state, the variables and the outcome.  The rules `Proc.Meets.bind`, `Proc.Meets.tryCatch` and
the simp lemmas below break a contract down along the text of the procedure.  `Proc.Ensures` is
the contract of a procedure that is never abandoned.
-/

namespace AegisFlow

/-- Procedures with variables `σ`, returning `some` value or abandoned with `none`. -/
structure Proc (E : Sig) (σ α : Type) where
  /-- The program the procedure is, given its variables. -/
  run : σ → Prog E (Option α × σ)

namespace Proc

variable {E : Sig} {σ α β : Type} {m m' : Proc E σ α} {g : σ → σ} {f : α → Proc E σ β} {op : E.Op}
  {p : Prop}

/-- Sequencing: an abandoned procedure abandons what follows it. -/
def bind (m : Proc E σ α) (f : α → Proc E σ β) : Proc E σ β where
  run c := m.run c >>= fun r => match r with
    | (some a, c') => (f a).run c'
    | (none, c') => .ret (none, c')

instance : Monad (Proc E σ) where
  pure a := ⟨fun c => .ret (some a, c)⟩
  bind := bind

/-- Perform one operation. -/
def perform (op : E.Op) : Proc E σ (E.Reply op) := ⟨fun c => .call op fun r => .ret (some r, c)⟩

/-- Read the variables. -/
def get : Proc E σ σ := ⟨fun c => .ret (some c, c)⟩

/-- Update the variables. -/
def modify (f : σ → σ) : Proc E σ Unit := ⟨fun c => .ret (some (), f c)⟩

/-- Abandon the procedure. -/
def throw : Proc E σ α := ⟨fun c => .ret (none, c)⟩

/-- Continue with a value if there is one, otherwise abandon the procedure. -/
def ofOption : Option α → Proc E σ α
  | some a => pure a
  | none => throw

/-- Run `m`; if it was abandoned, run `h` from the variables it left. -/
def tryCatch (m h : Proc E σ α) : Proc E σ α where
  run c := m.run c >>= fun r => match r with
    | (some a, c') => .ret (some a, c')
    | (none, c') => h.run c'

/-- Run a procedure if a condition holds. -/
def when (b : Bool) (m : Proc E σ Unit) : Proc E σ Unit := if b then m else pure ()

/-- Run a procedure for each element of a list. -/
def forEach (f : α → Proc E σ Unit) : List α → Proc E σ Unit
  | [] => pure ()
  | a :: as => f a >>= fun _ => forEach f as

theorem bind_assoc {γ : Type} (m : Proc E σ α) (f : α → Proc E σ β) (g : β → Proc E σ γ) :
    m >>= f >>= g = m >>= fun a => f a >>= g := by
  refine congrArg Proc.mk (funext fun c => ?_)
  refine (Prog.bind_assoc (m.run c) _ _).trans (congrArg _ (funext fun r => ?_))
  rcases r with ⟨_ | a, c'⟩ <;> rfl

theorem bind_pure (m : Proc E σ α) : m >>= pure = m := by
  refine congrArg Proc.mk (funext fun c => ?_)
  refine Eq.trans (congrArg _ (funext fun r => ?_)) (Prog.bind_ret (m.run c))
  rcases r with ⟨_ | a, c'⟩ <;> rfl

instance : LawfulMonad (Proc E σ) :=
  LawfulMonad.mk' _ bind_pure (fun _ _ => rfl) bind_assoc

/-! ### Contracts -/

section Meets

variable {S : Type} (upd : S → (op : E.Op) → E.Reply op → S)

/-- The contract of a procedure: `Q` sees the local state, the variables and the outcome. -/
def Meets (P : S → E.Op → Prop) (Q : S → σ → Option α → Prop) (s : S) (c : σ)
    (m : Proc E σ α) : Prop :=
  Prog.Meets upd P (fun s r => Q s r.2 r.1) s (m.run c)

variable {upd} {P : S → E.Op → Prop} {Q : S → σ → Option α → Prop} {R : S → σ → Option β → Prop}
  {s : S} {c : σ}

@[simp] theorem meets_pure {a : α} : Meets upd P Q s c (pure a) ↔ Q s c (some a) := Iff.rfl

@[simp] theorem meets_get_bind {f : σ → Proc E σ β} :
    Meets upd P R s c (get >>= f) ↔ Meets upd P R s c (f c) := Iff.rfl

@[simp] theorem meets_modify_bind {f : Unit → Proc E σ β} :
    Meets upd P R s c (modify g >>= f) ↔ Meets upd P R s (g c) (f ()) := Iff.rfl

@[simp] theorem meets_modify {Q : S → σ → Option Unit → Prop} :
    Meets upd P Q s c (modify g) ↔ Q s (g c) (some ()) := Iff.rfl

@[simp] theorem meets_perform_bind {f : E.Reply op → Proc E σ β} :
    Meets upd P R s c (@Bind.bind (Proc E σ) _ (no_index _) β (perform op) f) ↔
      P s op ∧ ∀ r, Meets upd P R (upd s op r) c (f r) := Iff.rfl

@[simp] theorem meets_throw_bind :
    Meets upd P R s c (throw >>= f) ↔ R s c none := Iff.rfl

@[simp] theorem meets_ofOption_bind {o : Option α} :
    Meets upd P R s c (ofOption o >>= f) ↔
      (∀ a, o = some a → Meets upd P R s c (f a)) ∧ (o = none → R s c none) := by
  cases o <;> simp [ofOption]

@[simp] theorem meets_ite [Decidable p] :
    Meets upd P Q s c (if p then m else m') ↔
      (p → Meets upd P Q s c m) ∧ (¬ p → Meets upd P Q s c m') := by
  split_ifs <;> simp_all

theorem Meets.bind (hm : Meets upd P Q s c m)
    (hf : ∀ s c a, Q s c (some a) → Meets upd P R s c (f a))
    (hthrow : ∀ s c, Q s c none → R s c none) : Meets upd P R s c (m >>= f) := by
  refine Prog.Meets.bind hm fun s r hr => ?_
  obtain ⟨o, c'⟩ := r
  cases o with
  | some a => exact hf s c' a hr
  | none => exact hthrow s c' hr

theorem Meets.tryCatch {h : Proc E σ α} {Q' : S → σ → Option α → Prop} (hm : Meets upd P Q' s c m)
    (hret : ∀ s c a, Q' s c (some a) → Q s c (some a))
    (hh : ∀ s c, Q' s c none → Meets upd P Q s c h) : Meets upd P Q s c (tryCatch m h) := by
  refine Prog.Meets.bind hm fun s r hr => ?_
  obtain ⟨o, c'⟩ := r
  cases o with
  | some a => exact hret s c' a hr
  | none => exact hh s c' hr

theorem Meets.mono {Q' : S → σ → Option α → Prop} (hm : Meets upd P Q s c m)
    (hQ : ∀ s c o, Q s c o → Q' s c o) : Meets upd P Q' s c m :=
  Prog.Meets.mono hm (fun _ _ h => h) fun s r h => hQ s r.2 r.1 h

end Meets

section Ensures

variable {S : Type} (upd : S → (op : E.Op) → E.Reply op → S)

/-- The procedure keeps to `P`, is not abandoned, and what it returns satisfies `R`. -/
def Ensures (P : S → E.Op → Prop) (R : S → σ → α → Prop) (s : S) (c : σ) (m : Proc E σ α) : Prop :=
  Meets upd P (fun s c a => ∃ b, a = some b ∧ R s c b) s c m

variable {upd} {P : S → E.Op → Prop} {Q : S → σ → α → Prop} {R : S → σ → β → Prop} {s : S} {c : σ}

@[simp] theorem ensures_pure {a : α} : Ensures upd P Q s c (pure a) ↔ Q s c a := by
  simp [Ensures]

@[simp] theorem ensures_get_bind {f : σ → Proc E σ β} :
    Ensures upd P R s c (get >>= f) ↔ Ensures upd P R s c (f c) := Iff.rfl

@[simp] theorem ensures_modify_bind {f : Unit → Proc E σ β} :
    Ensures upd P R s c (modify g >>= f) ↔ Ensures upd P R s (g c) (f ()) := Iff.rfl

@[simp] theorem ensures_modify {Q : S → σ → Unit → Prop} :
    Ensures upd P Q s c (modify g) ↔ Q s (g c) () :=
  ⟨fun ⟨_, _, h⟩ => h, fun h => ⟨(), rfl, h⟩⟩

@[simp] theorem ensures_perform_bind {f : E.Reply op → Proc E σ β} :
    Ensures upd P R s c (@Bind.bind (Proc E σ) _ (no_index _) β (perform op) f) ↔
      P s op ∧ ∀ r, Ensures upd P R (upd s op r) c (f r) := Iff.rfl

theorem Ensures.perform {R : S → σ → E.Reply op → Prop} (h : P s op)
    (hr : ∀ r, R (upd s op r) c r) : Ensures upd P R s c (perform op) :=
  ⟨h, fun r => ⟨r, rfl, hr r⟩⟩

@[simp] theorem ensures_ite [Decidable p] :
    Ensures upd P Q s c (if p then m else m') ↔
      (p → Ensures upd P Q s c m) ∧ (¬ p → Ensures upd P Q s c m') := meets_ite

/-! The same, one rule for each form of a procedure. -/

theorem Ensures.ret {a : α} (h : Q s c a) : Ensures upd P Q s c (pure a) := ensures_pure.mpr h

theorem Ensures.get {f : σ → Proc E σ β} (h : Ensures upd P R s c (f c)) :
    Ensures upd P R s c (Proc.get >>= f) := h

theorem Ensures.set {Q : S → σ → Unit → Prop} (h : Q s (g c) ()) :
    Ensures upd P Q s c (Proc.modify g) := ensures_modify.mpr h

theorem Ensures.modify {f : Unit → Proc E σ β} (h : Ensures upd P R s (g c) (f ())) :
    Ensures upd P R s c (Proc.modify g >>= f) := h

theorem Ensures.call {f : E.Reply op → Proc E σ β} (h : P s op)
    (hf : ∀ r, Ensures upd P R (upd s op r) c (f r)) :
    Ensures upd P R s c (@Bind.bind (Proc E σ) _ (no_index _) β (Proc.perform op) f) := ⟨h, hf⟩

theorem Ensures.ite [Decidable p] (h : p → Ensures upd P Q s c m)
    (h' : ¬ p → Ensures upd P Q s c m') : Ensures upd P Q s c (if p then m else m') :=
  ensures_ite.mpr ⟨h, h'⟩

theorem Ensures.mono {Q' : S → σ → α → Prop} (hm : Ensures upd P Q s c m)
    (hQ : ∀ s c a, Q s c a → Q' s c a) : Ensures upd P Q' s c m :=
  Meets.mono hm fun s c _ ⟨b, hb, h⟩ => ⟨b, hb, hQ s c b h⟩

theorem Ensures.bind (hm : Ensures upd P Q s c m)
    (hf : ∀ s c a, Q s c a → Ensures upd P R s c (f a)) : Ensures upd P R s c (m >>= f) := by
  refine Meets.bind hm ?_ ?_
  · rintro s c a ⟨b, hb, h⟩
    cases hb
    exact hf s c a h
  · rintro s c ⟨b, hb, -⟩
    cases hb

theorem Ensures.when {b : Bool} {m : Proc E σ Unit} {Q : S → σ → Unit → Prop}
    (hm : b = true → Ensures upd P Q s c m) (hskip : b = false → Q s c ()) :
    Ensures upd P Q s c (when b m) := by
  unfold Proc.when
  rw [ensures_ite, ensures_pure, Bool.not_eq_true]
  exact ⟨hm, hskip⟩

/-- The rule for a loop over a list. -/
theorem Ensures.forEach {I : S → σ → Prop} {f : α → Proc E σ Unit}
    (hf : ∀ a s c, I s c → Ensures upd P (fun s c _ => I s c) s c (f a)) (as : List α)
    (h : I s c) : Ensures upd P (fun s c _ => I s c) s c (forEach f as) := by
  induction as generalizing s c with
  | nil => simpa [Proc.forEach] using h
  | cons a as ih => exact (hf a s c h).bind fun s c _ hi => ih hi

/-- The rule for a loop over a list, with an invariant that sees what is left of the list. -/
theorem Ensures.forEach_rest {I : List α → S → σ → Prop} {f : α → Proc E σ Unit}
    (hf : ∀ a as s c, I (a :: as) s c → Ensures upd P (fun s c _ => I as s c) s c (f a))
    (as : List α) (h : I as s c) :
    Ensures upd P (fun s c _ => I [] s c) s c (Proc.forEach f as) := by
  induction as generalizing s c with
  | nil => simpa [Proc.forEach] using h
  | cons a as ih => exact (hf a as s c h).bind fun s c _ hi => ih hi

/-- What every allowed operation preserves still holds at the end. -/
theorem Ensures.invariant {I : S → Prop} (hm : Ensures upd P Q s c m)
    (hI : ∀ s op r, P s op → I s → I (upd s op r)) (hs : I s) :
    Ensures upd P (fun s c a => Q s c a ∧ I s) s c m := by
  refine Prog.Meets.mono (Prog.Meets.invariant hm hI hs) (fun _ _ h => h) ?_
  rintro s r ⟨⟨b, hb, hq⟩, hi⟩
  exact ⟨b, hb, hq, hi⟩

/-- More operations may be allowed. -/
theorem Ensures.allow {P' : S → E.Op → Prop} (hm : Ensures upd P Q s c m)
    (hP : ∀ s op, P s op → P' s op) : Ensures upd P' Q s c m :=
  Prog.Meets.mono hm hP fun _ _ h => h

end Ensures

end Proc

end AegisFlow
