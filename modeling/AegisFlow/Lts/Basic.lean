import Mathlib.Logic.Relation

/-!
# Transition systems

Every concurrent component of this development (clients of one store, a bounded queue with
its producers and its consumer, an event loop with its workers) is a transition system: a set
of initial states and a labelled step relation.  A safety property of the component is a
statement about `System.Reachable`; a property of what happens *after* some point is a
statement about `System.LeadsBy`.

* `System.Reachable.invariant` : the induction rule for reachable states;
* `System.LeadsBy.invariant` : the induction rule for the states that follow a given one;
* `System.restrict` : the runs all of whose steps meet a condition;
* `System.walk` : a run that is computed from its labels.
-/

namespace AegisFlow

/-- A transition system with states `S` and labels `L`. -/
structure System (S L : Type*) where
  /-- The states a run may start from. -/
  init : S → Prop
  /-- `step s l s'` : the system can move from `s` to `s'` under the label `l`. -/
  step : S → L → S → Prop

namespace System

variable {S L : Type*} (A : System S L)

/-- The states some run of the system goes through. -/
inductive Reachable : S → Prop
  | init {s : S} : A.init s → Reachable s
  | step {s s' : S} {l : L} : Reachable s → A.step s l s' → Reachable s'

/-- `s'` comes at or after `s` in some run, with labels from `P` only in between. -/
def LeadsBy (P : L → Prop) (s s' : S) : Prop :=
  Relation.ReflTransGen (fun a b => ∃ l, P l ∧ A.step a l b) s s'

/-- `s'` comes at or after `s` in some run. -/
abbrev Leads (s s' : S) : Prop := A.LeadsBy (fun _ => True) s s'

variable {A}

/-- An inductive invariant holds in every reachable state.  The step case may use that the
state before the step is itself reachable, so that invariants can be proved in layers. -/
theorem Reachable.invariant {I : S → Prop} {s : S} (h : A.Reachable s)
    (h₀ : ∀ s, A.init s → I s)
    (hstep : ∀ s l s', A.Reachable s → I s → A.step s l s' → I s') : I s := by
  induction h with
  | init hi => exact h₀ _ hi
  | step hr hst ih => exact hstep _ _ _ hr ih hst

theorem Reachable.leads {P : L → Prop} {s s' : S} (h : A.Reachable s) (h' : A.LeadsBy P s s') :
    A.Reachable s' := by
  induction h' with
  | refl => exact h
  | tail _ hst ih => obtain ⟨l, -, hl⟩ := hst; exact .step ih hl

/-- A property that steps preserve from a reachable state on holds in all that follows. -/
theorem LeadsBy.invariant {P : L → Prop} {I : S → Prop} {s s' : S} (h : A.LeadsBy P s s')
    (hr : A.Reachable s) (h₀ : I s)
    (hstep : ∀ s l s', A.Reachable s → I s → P l → A.step s l s' → I s') : I s' := by
  induction h with
  | refl => exact h₀
  | tail hl hst ih =>
    obtain ⟨l, hp, hl'⟩ := hst
    exact hstep _ _ _ (hr.leads hl) ih hp hl'

/-- The system whose steps meet the condition. -/
def restrict (A : System S L) (P : S → L → Prop) : System S L where
  init := A.init
  step s l s' := A.step s l s' ∧ P s l

theorem Reachable.of_restrict {P : S → L → Prop} {s : S} (h : (A.restrict P).Reachable s) :
    A.Reachable s := by
  induction h with
  | init hi => exact .init hi
  | step _ hst ih => exact .step ih hst.1

theorem LeadsBy.of_restrict {P : S → L → Prop} {R : L → Prop} {s s' : S}
    (h : (A.restrict P).LeadsBy R s s') : A.LeadsBy R s s' := by
  induction h with
  | refl => exact .refl
  | tail _ hst ih =>
    obtain ⟨l, hl, hst⟩ := hst
    exact ih.tail ⟨l, hl, hst.1⟩

/-- The state after the labels, as far as they can be taken; `next` computes steps. -/
def walk (next : S → L → Option S) : List L → S → S
  | [], s => s
  | l :: ls, s =>
    match next s l with
    | some s' => walk next ls s'
    | none => s

theorem leads_walk {next : S → L → Option S} (hnext : ∀ s l s', next s l = some s' → A.step s l s')
    (ls : List L) (s : S) : A.Leads s (walk next ls s) := by
  induction ls generalizing s with
  | nil => exact .refl
  | cons l ls ih =>
    unfold walk
    split
    · rename_i s' hs'
      exact .head ⟨l, trivial, hnext s l s' hs'⟩ (ih s')
    · exact .refl

end System

end AegisFlow
