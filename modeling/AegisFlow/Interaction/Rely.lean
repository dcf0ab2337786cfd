import AegisFlow.Interaction.Prog

/-!
# Programs among others

A thread is not alone in its world: between two of its operations other threads move the world on.
What they may do is a relation, the *drift*, and all a thread can rely on is what the drift keeps.

* `Scene` : what there is to see from a thread, that is the world, its view and what it did so far;
* `Setting` : the surroundings of a thread, with the drift;
* `Prog.Rely K must B x p` : started in the scene `x`, whatever the others do meanwhile, `p`
  performs an operation only in scenes in which it `must`, and ends in a scene and with a result as
  `B` says;
* `Prog.Rely.of_meets` : a contract in terms of the view alone holds among others, together with
  whatever invariant the drift and the allowed operations keep.
-/

namespace AegisFlow

/-- An operation that a thread performed, and the worlds before and after it. -/
structure Moment (E : Sig) (W : Type) where
  op : E.Op
  reply : E.Reply op
  before : W
  after : W

/-- What there is to see from a thread. -/
structure Scene (E : Sig) (W S : Type) where
  world : W
  view : S
  /-- What the thread did so far, oldest first. -/
  past : List (Moment E W)

/-- The surroundings of a thread. -/
structure Setting (E : Sig) (W S : Type) where
  /-- What others may make of the world. -/
  drift : W → W → Prop
  /-- The operations the thread may perform. -/
  allow : S → E.Op → Prop
  /-- How the world answers the thread. -/
  serve : W → (op : E.Op) → E.Reply op → W → Prop
  upd : S → (op : E.Op) → E.Reply op → S
  /-- What holds in every scene. -/
  holds : W → S → Prop
  drift_refl : ∀ w, drift w w
  drift_trans : ∀ {w₁ w₂ w₃}, drift w₁ w₂ → drift w₂ w₃ → drift w₁ w₃

namespace Setting

variable {E : Sig} {W S : Type} (K : Setting E W S)

/-- The others have moved. -/
structure Drifts (x y : Scene E W S) : Prop where
  view : y.view = x.view
  past : y.past = x.past
  drift : K.drift x.world y.world
  holds : K.holds y.world y.view

/-- The thread has performed an operation. -/
structure Acts (x : Scene E W S) (op : E.Op) (r : E.Reply op) (y : Scene E W S) : Prop where
  allow : K.allow x.view op
  serve : K.serve x.world op r y.world
  view : y.view = K.upd x.view op r
  past : y.past = x.past ++ [⟨op, r, x.world, y.world⟩]
  holds : K.holds y.world y.view

/-- What the others cannot destroy. -/
def Stable (I : Scene E W S → Prop) : Prop := ∀ x y, I x → K.Drifts x y → I y

variable {K} {x y z : Scene E W S}

theorem Drifts.refl (h : K.holds x.world x.view) : K.Drifts x x :=
  ⟨rfl, rfl, K.drift_refl _, h⟩

theorem Drifts.trans (h : K.Drifts x y) (h' : K.Drifts y z) : K.Drifts x z :=
  ⟨h'.view.trans h.view, h'.past.trans h.past, K.drift_trans h.drift h'.drift, h'.holds⟩

/-- Once the others have moved, they may also have stopped. -/
theorem Drifts.self (h : K.Drifts x y) : K.Drifts y y := .refl h.holds

end Setting

namespace Prog

variable {E : Sig} {W S α β : Type} (K : Setting E W S)

/-- Whatever the others do, the program performs an operation only if it `must`, and ends as `B`
says. -/
def Rely (must : Scene E W S → E.Op → Prop) (B : Scene E W S → α → Prop) :
    Scene E W S → Prog E α → Prop
  | x, ret a => ∀ y, K.Drifts x y → B y a
  | x, call op k => ∀ y, K.Drifts x y → must y op ∧
      ∀ r z, K.Acts y op r z → Rely must B z (k r)

variable {K} {must must' : Scene E W S → E.Op → Prop} {B B' : Scene E W S → α → Prop}
  {x y : Scene E W S} {p : Prog E α}

/-- The others may move before the program starts. -/
theorem Rely.drift (h : Rely K must B x p) (hxy : K.Drifts x y) : Rely K must B y p := by
  cases p with
  | ret a => exact fun z hz => h z (hxy.trans hz)
  | call op k => exact fun z hz => h z (hxy.trans hz)

/-- It is enough to start once the others have moved. -/
theorem rely_of_drifts (h : ∀ y, K.Drifts x y → Rely K must B y p) : Rely K must B x p := by
  cases p with
  | ret a => exact fun y hy => h y hy y hy.self
  | call op k => exact fun y hy => h y hy y hy.self

theorem Rely.mono (h : Rely K must B x p) (hmust : ∀ y op, must y op → must' y op)
    (hB : ∀ y a, B y a → B' y a) : Rely K must' B' x p := by
  induction p generalizing x with
  | ret a => exact fun y hy => hB y a (h y hy)
  | call op k ih =>
    exact fun y hy => ⟨hmust y op (h y hy).1, fun r z hz => ih r ((h y hy).2 r z hz)⟩

/-- Sequencing. -/
theorem rely_bind {R : Scene E W S → β → Prop} {f : α → Prog E β} :
    Rely K must R x (p >>= f) ↔ Rely K must (fun y a => Rely K must R y (f a)) x p := by
  induction p generalizing x with
  | ret a => exact ⟨fun h y hy => h.drift hy, rely_of_drifts⟩
  | call op k ih =>
    refine forall_congr' fun y => imp_congr_right fun _ => and_congr_right fun _ => ?_
    exact forall_congr' fun r => forall_congr' fun z => imp_congr_right fun _ => ih r

theorem Rely.bind {R : Scene E W S → β → Prop} {f : α → Prog E β} (h : Rely K must B x p)
    (hf : ∀ y a, B y a → Rely K must R y (f a)) : Rely K must R x (p >>= f) :=
  rely_bind.2 (h.mono (fun _ _ h => h) hf)

theorem rely_map {R : Scene E W S → β → Prop} {f : α → β} :
    Rely K must R x (f <$> p) ↔ Rely K must (fun y a => R y (f a)) x p := by
  induction p generalizing x with
  | ret a => exact Iff.rfl
  | call op k ih =>
    refine forall_congr' fun y => imp_congr_right fun _ => and_congr_right fun _ => ?_
    exact forall_congr' fun r => forall_congr' fun z => imp_congr_right fun _ => ih r

/-- **A contract in terms of the view holds among others.**  An invariant that neither the others
nor the operations of the program destroy holds all along, and may be used for what it `must`. -/
theorem Rely.of_meets {P : S → E.Op → Prop} {Q : S → α → Prop} {I : Scene E W S → Prop}
    (hI : K.Stable I)
    (hmust : ∀ y op, I y → K.holds y.world y.view → P y.view op → must y op)
    (hact : ∀ y op r z, I y → K.holds y.world y.view → P y.view op → K.Acts y op r z → I z)
    (hp : Meets K.upd P Q x.view p) (hx : I x) :
    Rely K must (fun y a => Q y.view a ∧ I y) x p := by
  induction p generalizing x with
  | ret a => exact fun y hy => ⟨hy.view ▸ hp, hI x y hx hy⟩
  | call op k ih =>
    intro y hy
    have hyI := hI x y hx hy
    have hyP : P y.view op := hy.view ▸ hp.1
    refine ⟨hmust y op hyI hy.holds hyP, fun r z hz => ih r ?_ (hact y op r z hyI hy.holds hyP hz)⟩
    rw [hz.view, hy.view]
    exact hp.2 r

end Prog

end AegisFlow
