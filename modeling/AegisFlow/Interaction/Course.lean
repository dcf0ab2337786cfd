import AegisFlow.Interaction.Pool
import AegisFlow.Interaction.Rely

/-!
# Threads of a pool among others

`Prog.Rely` speaks of one thread and a drift of its world.  Here the drift is what the other threads
of a pool do, as far as their contract allows.

* `Pool.Course` : what happens while a thread is in a call, with a record of what it did itself;
* `Contract.setting` : the surroundings of a thread of a pool;
* `Contract.rely_course` : **what a call can rely on when it begins, it can rely on until it ends**.
-/

namespace AegisFlow

variable {E : Sig} {ι C V W S σ α : Type}

/-- The label is one of the thread `i`. -/
def PoolLabel.isOf (i : ι) : PoolLabel E ι C V α → Prop
  | begin j _ => j = i
  | op j _ _ => j = i
  | finish j _ _ => j = i
  | env _ => False

variable [DecidableEq ι]

/-- What happens while the thread `i` is in a call, with a record of what it did itself. -/
inductive Pool.Course (P : Pool E ι C V W S σ α) (i : ι) (s₁ : PoolState E ι C W S σ α) :
    List (Moment E W) → PoolState E ι C W S σ α → Prop
  | start : Course P i s₁ [] s₁
  | other {past : List (Moment E W)} {s s' : PoolState E ι C W S σ α} {l : PoolLabel E ι C V α} :
      Course P i s₁ past s → P.Step s l s' → ¬ l.isOf i → Course P i s₁ past s'
  | op {past : List (Moment E W)} {s s' : PoolState E ι C W S σ α} {o : E.Op} {r : E.Reply o} :
      Course P i s₁ past s → P.Step s (.op i o r) s' →
      Course P i s₁ (past ++ [⟨o, r, s.world, s'.world⟩]) s'

namespace Contract

variable {P : Pool E ι C V W S σ α} (K : Contract P) (I : ι → W → S → Prop) (i : ι)

/-- What another thread, or the world itself, can do. -/
inductive Nudge : W → W → Prop
  | act {j : ι} {w w' : W} {v : S} {o : E.Op} {r : E.Reply o} (hj : j ≠ i) (hI : I j w v)
      (hallow : K.allow v o) (hserve : P.serve j w o r w') : Nudge w w'
  | env {w w' : W} {l : V} (henv : P.env w l w') : Nudge w w'

/-- The surroundings of a thread: `I` is what holds of every thread, its view and the world. -/
def setting : Setting E W S where
  drift := Relation.ReflTransGen (K.Nudge I i)
  allow := K.allow
  serve := P.serve i
  upd := P.upd
  holds := I i
  drift_refl _ := .refl
  drift_trans h h' := h.trans h'

variable {K I i} {s s' s₀ s₁ : PoolState E ι C W S σ α} {c : C} {past : List (Moment E W)}
  {B : Scene E W S → Option α × σ → Prop} {must : Scene E W S → E.Op → Prop}
  {p₀ : Prog E (Option α × σ)}

/-- Steps of others are a drift. -/
theorem drift_of_step {l : PoolLabel E ι C V α} (hI : ∀ j, I j s.world (s.view j))
    (hst : K.Lawful s l s') (hl : ¬ l.isOf i) : (K.setting I i).drift s.world s'.world := by
  cases hst with
  | begin | finish => exact .refl
  | @op j c o k r w hrun hallow hserve => exact .single (.act hl (hI j) hallow hserve)
  | env henv => exact .single (.env henv)

/-- Steps of others leave the thread alone. -/
theorem alone_of_step {l : PoolLabel E ι C V α} (hst : P.Step s l s') (hl : ¬ l.isOf i) :
    s'.view i = s.view i ∧ s'.vars i = s.vars i ∧ s'.run i = s.run i := by
  cases hst with
  | @begin j =>
    have hj : i ≠ j := Ne.symm hl
    simp [hj]
  | @op j =>
    have hj : i ≠ j := Ne.symm hl
    simp [hj]
  | @finish j =>
    have hj : i ≠ j := Ne.symm hl
    simp [hj]
  | env => exact ⟨rfl, rfl, rfl⟩

theorem reachable_course (hr : P.system.Reachable s₁) (hcourse : P.Course i s₁ past s) :
    P.system.Reachable s := by
  induction hcourse with
  | start => exact hr
  | other _ hst _ ih => exact ih.step hst
  | op _ hst ih => exact ih.step hst

/-- The scene of a thread. -/
abbrev sceneOf (i : ι) (s : PoolState E ι C W S σ α) (past : List (Moment E W)) : Scene E W S :=
  ⟨s.world, s.view i, past⟩

section

variable (hI : ∀ s, P.system.Reachable s → ∀ j, I j s.world (s.view j))
  (hr : P.system.Reachable s₁) (hrun : s₁.run i = some (c, p₀))
  (hrely : Prog.Rely (K.setting I i) must B (sceneOf i s₁ []) p₀) (hcourse : P.Course i s₁ past s)
include hI hr hrun hrely hcourse

/-- **What a call can rely on when it begins, it can rely on until it ends.** -/
theorem rely_course : ∃ p, s.run i = some (c, p) ∧ s.vars i = s₁.vars i ∧
    Prog.Rely (K.setting I i) must B (sceneOf i s past) p := by
  induction hcourse with
  | start => exact ⟨p₀, hrun, rfl, hrely⟩
  | @other past s s' l hprev hst hl ih =>
    obtain ⟨p, hp, hvars, hrely⟩ := ih
    have hs := reachable_course hr hprev
    obtain ⟨hview, hvars', hrun'⟩ := alone_of_step hst hl
    refine ⟨p, hrun'.trans hp, hvars'.trans hvars, hrely.drift ⟨hview, rfl, ?_, ?_⟩⟩
    · exact drift_of_step (hI s hs) (K.lawful hs hst) hl
    · exact hI s' (hs.step hst) i
  | @op past s s' o r hprev hst ih =>
    obtain ⟨p, hp, hvars, hrely⟩ := ih
    have hs := reachable_course hr hprev
    have hI' := hI s' (hs.step hst) i
    cases K.lawful hs hst with
    | @op _ c' _ k _ w hrun' hallow hserve =>
      obtain ⟨rfl, rfl⟩ : c = c' ∧ p = .call o k := by
        rw [hp] at hrun'
        simpa using hrun'
      refine ⟨k r, by simp, by simpa using hvars, ?_⟩
      refine (hrely _ (Setting.Drifts.refl (hI s hs i))).2 r _ ⟨hallow, hserve, ?_, rfl, hI'⟩
      simp [setting]

/-- A call ends as promised. -/
theorem ends_course {c' : C} {a : Option α} (hst : P.Step s (.finish i c' a) s') :
    c' = c ∧ s'.world = s.world ∧ B (sceneOf i s past) (a, s'.vars i) := by
  obtain ⟨p, hp, -, hrely⟩ := rely_course hI hr hrun hrely hcourse
  have hs := reachable_course hr hcourse
  cases hst with
  | @finish _ _ _ x hrun' =>
    obtain ⟨rfl, rfl⟩ : c = c' ∧ p = .ret (a, x) := by
      rw [hp] at hrun'
      simpa using hrun'
    refine ⟨rfl, rfl, ?_⟩
    simpa using hrely _ (Setting.Drifts.refl (hI s hs i))

/-- What holds whenever the thread is about to perform an operation and at the end, holds all the
time. -/
theorem always_course {A : Scene E W S → Prop} (hmust : ∀ y op, must y op → A y)
    (hB : ∀ y r, B y r → A y) : A (sceneOf i s past) := by
  obtain ⟨p, -, -, hrely⟩ := rely_course hI hr hrun hrely hcourse
  have hself : (K.setting I i).Drifts (sceneOf i s past) (sceneOf i s past) :=
    Setting.Drifts.refl (hI s (reachable_course hr hcourse) i)
  cases p with
  | ret r => exact hB _ r (hrely _ hself)
  | call op k => exact hmust _ op (hrely _ hself).1

end

end Contract

end AegisFlow
