import AegisFlow.Interaction.Checked

/-!
# Programs in a reactive environment

The environment of a program has a state, and reacts to each operation with a reply and a new
state.  It need not be deterministic.

* `Prog.Wp react B x p` : started in the environment `x`, whatever the reactions, `p` ends with a
  result and in an environment allowed by `B`;
* `Prog.Trace react x es x'` : the environment may go from `x` to `x'` by the events `es`;
* `Prog.Wp.of_runs` : **what `Wp` promises holds at the end of every execution**;
* `Checked.Wp` : the same for programs that may report an error.
-/

namespace AegisFlow

variable {E : Sig} {X ε α β : Type} (react : X → (op : E.Op) → E.Reply op → X → Prop)

namespace Prog

/-- Whatever the reactions, the program ends as `B` says. -/
def Wp (B : X → α → Prop) : X → Prog E α → Prop
  | x, ret a => B x a
  | x, call op k => ∀ r x', react x op r x' → Wp B x' (k r)

/-- The environment may go from one state to another by these events. -/
inductive Trace : X → List (Event E) → X → Prop
  | nil {x : X} : Trace x [] x
  | cons {x x' x'' : X} {op : E.Op} {r : E.Reply op} {es : List (Event E)}
      (hreact : react x op r x') (hrest : Trace x' es x'') : Trace x (⟨op, r⟩ :: es) x''

variable {react} {B B' : X → α → Prop} {x x' : X} {p : Prog E α}

theorem Wp.mono (h : Wp react B x p) (hB : ∀ x a, B x a → B' x a) : Wp react B' x p := by
  induction p generalizing x with
  | ret a => exact hB x a h
  | call op k ih => exact fun r x' hr => ih r (h r x' hr)

/-- Sequencing. -/
theorem wp_bind {R : X → β → Prop} {f : α → Prog E β} :
    Wp react R x (p >>= f) ↔ Wp react (fun x a => Wp react R x (f a)) x p := by
  induction p generalizing x with
  | ret a => exact Iff.rfl
  | call op k ih =>
    exact forall_congr' fun r => forall_congr' fun x' => imp_congr_right fun _ => ih r

theorem Wp.bind {R : X → β → Prop} {f : α → Prog E β} (h : Wp react B x p)
    (hf : ∀ x a, B x a → Wp react R x (f a)) : Wp react R x (p >>= f) :=
  wp_bind.2 (h.mono hf)

theorem wp_map {R : X → β → Prop} {f : α → β} :
    Wp react R x (f <$> p) ↔ Wp react (fun x a => R x (f a)) x p := by
  rw [← bind_pure_comp, wp_bind]
  rfl

/-- What `Wp` promises holds at the end of every execution. -/
theorem Wp.of_runs {es : List (Event E)} {a : α} (h : Wp react B x p) (hrun : Runs p es a)
    (htrace : Trace react x es x') : B x' a := by
  induction hrun generalizing x with
  | ret => cases htrace; exact h
  | call _ ih =>
    cases htrace with
    | cons hreact hrest => exact ih (h _ _ hreact) hrest

end Prog

namespace Checked

/-- Whatever the reactions, a value is as `Q` says and an error as `F` says. -/
def Wp (Q : X → α → Prop) (F : X → ε → Prop) (x : X) (c : Checked E ε α) : Prop :=
  Prog.Wp react (Outcome Q F) x c.run

variable {react} {Q Q' : X → α → Prop} {R : X → β → Prop} {F F' : X → ε → Prop} {x : X}

@[simp] theorem wp_check {r : Except ε α} : Wp react Q F x (check r) ↔ Outcome Q F x r := Iff.rfl

/-- Sequencing: an error of the first program is an error of the whole. -/
theorem Wp.bind {c : Checked E ε α} {f : α → Checked E ε β} (h : Wp react Q F x c)
    (hf : ∀ x a, Q x a → Wp react R F x (f a)) : Wp react R F x (c >>= f) := by
  change Prog.Wp react (Outcome R F) x (c.run >>= ExceptT.bindCont f)
  refine Prog.Wp.bind h fun x r hr => ?_
  cases r with
  | ok a => exact hf x a hr
  | error e => exact hr

theorem wp_lift_bind {p : Prog E α} {f : α → Checked E ε β} :
    Wp react R F x (lift p >>= f) ↔ Prog.Wp react (fun x a => Wp react R F x (f a)) x p := by
  change Prog.Wp react (Outcome R F) x ((p >>= fun a => .ret (.ok a)) >>= ExceptT.bindCont f) ↔ _
  rw [Prog.wp_bind, Prog.wp_bind]
  rfl

/-- A loop over a list keeps what each round keeps. -/
theorem Wp.forM {I : X → Prop} {f : α → Checked E ε PUnit} {as : List α} (hx : I x)
    (hf : ∀ a ∈ as, ∀ x, I x → Wp react (fun x _ => I x) F x (f a)) :
    Wp react (fun x _ => I x) F x (as.forM f) := by
  induction as generalizing x with
  | nil => exact hx
  | cons a as ih =>
    rw [List.forM_eq_forM, List.forM_cons]
    refine (hf a List.mem_cons_self x hx).bind fun x _ hx => ?_
    exact ih hx fun b hb => hf b (List.mem_cons_of_mem a hb)

end Checked

end AegisFlow
