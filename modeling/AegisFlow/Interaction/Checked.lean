import AegisFlow.Interaction.Prog

/-!
# Programs that report an error

`Checked E ε α` is a program over the operations of `E` that returns an `α` or stops with an error
of type `ε`.  `Checked.Yields upd P Q F s x` is its contract: every operation is allowed by `P`, a
value is allowed by `Q` and an error by `F`.
-/

namespace AegisFlow

/-- Programs that return an `α` or an error. -/
abbrev Checked (E : Sig) (ε α : Type) := ExceptT ε (Prog E) α

namespace Checked

variable {E : Sig} {ε α β : Type}

/-- A program without errors. -/
def lift (p : Prog E α) : Checked E ε α := ExceptT.lift p

/-- A value or an error. -/
def check (r : Except ε α) : Checked E ε α := ExceptT.mk (pure r)

/-- The condition on a value or on an error. -/
def Outcome {S : Type} (Q : S → α → Prop) (F : S → ε → Prop) (s : S) : Except ε α → Prop
  | .ok a => Q s a
  | .error e => F s e

section Yields

variable {S : Type} (upd : S → (op : E.Op) → E.Reply op → S)

/-- The contract of a program that may report an error. -/
def Yields (P : S → E.Op → Prop) (Q : S → α → Prop) (F : S → ε → Prop) (s : S)
    (x : Checked E ε α) : Prop :=
  Prog.Meets upd P (Outcome Q F) s x.run

variable {upd} {P : S → E.Op → Prop} {Q : S → α → Prop} {R : S → β → Prop} {F : S → ε → Prop}
  {s : S} {f : α → Checked E ε β} {x : Checked E ε α}

@[simp] theorem yields_pure {a : α} :
    Yields (ε := ε) upd P Q F s (pure a) ↔ Q s a := Iff.rfl

@[simp] theorem yields_check {r : Except ε α} :
    Yields upd P Q F s (check r) ↔ Outcome Q F s r := Iff.rfl

theorem yields_lift_bind {p : Prog E α} :
    Yields upd P R F s (lift p >>= f) ↔
      Prog.Meets upd P (fun s a => Yields upd P R F s (f a)) s p := by
  change Prog.Meets upd P (Outcome R F) s ((p >>= fun a => .ret (.ok a)) >>= ExceptT.bindCont f) ↔ _
  rw [Prog.meets_bind, Prog.meets_bind]
  rfl

theorem yields_bind :
    Yields upd P R F s (x >>= f) ↔
      Yields upd P (fun s a => Yields upd P R F s (f a)) F s x := by
  change Prog.Meets upd P (Outcome R F) s (x.run >>= ExceptT.bindCont f) ↔ _
  rw [Prog.meets_bind]
  unfold Yields
  constructor
  · refine fun h => h.mono (fun _ _ h => h) fun s r hr => ?_
    cases r <;> exact hr
  · refine fun h => h.mono (fun _ _ h => h) fun s r hr => ?_
    cases r <;> exact hr

/-- Sequencing: an error of the first program is an error of the whole. -/
theorem Yields.bind (hx : Yields upd P Q F s x) (hf : ∀ s a, Q s a → Yields upd P R F s (f a)) :
    Yields upd P R F s (x >>= f) := by
  refine yields_bind.2 (Prog.Meets.mono hx (fun _ _ h => h) fun s r hr => ?_)
  cases r with
  | ok a => exact hf s a hr
  | error e => exact hr

/-- A contract may be weakened. -/
theorem Yields.mono {Q' : S → α → Prop} {F' : S → ε → Prop} (hx : Yields upd P Q F s x)
    (hQ : ∀ s a, Q s a → Q' s a) (hF : ∀ s e, F s e → F' s e) : Yields upd P Q' F' s x := by
  refine Prog.Meets.mono hx (fun _ _ h => h) fun s r hr => ?_
  cases r with
  | ok a => exact hQ s a hr
  | error e => exact hF s e hr

/-- A loop over a list keeps what each round keeps. -/
theorem Yields.forM {I : S → Prop} {f : α → Checked E ε PUnit} {as : List α} (hs : I s)
    (hf : ∀ a ∈ as, ∀ s, I s → Yields upd P (fun s _ => I s) F s (f a)) :
    Yields upd P (fun s _ => I s) F s (as.forM f) := by
  induction as generalizing s with
  | nil => exact hs
  | cons a as ih =>
    rw [List.forM_eq_forM, List.forM_cons]
    refine (hf a List.mem_cons_self s hs).bind fun s _ hs => ?_
    exact ih hs fun b hb => hf b (List.mem_cons_of_mem a hb)

end Yields

end Checked

end AegisFlow
