import Mathlib.Data.Nat.Notation
import Mathlib.Logic.Basic

/-!
# Interactive programs

A sequential program that talks to its environment (a server, a clock, a queue shared with
other threads) is a tree: it either returns, or performs an operation and continues with the
reply.  Nothing is said here about which replies the environment gives, so a statement about a
tree holds under every interleaving with other threads and under every failure.

* `Prog E α` : programs over the operations of the signature `E`, a monad;
* `Prog.Meets upd P Q s p` : started in the local state `s`, the program `p` performs only
  operations that `P` allows and returns only values that `Q` allows.  The local state is
  updated by `upd` from each operation and its reply: it is what the thread can know;
* `Prog.Runs p es a` : the events `es` are one complete execution of `p`, returning `a`; what a
  contract promises holds of every execution (`Prog.Meets.of_runs`).
-/

namespace AegisFlow

/-- An effect signature: operations, and the type of the reply to each. -/
structure Sig where
  Op : Type
  Reply : Op → Type

/-- Programs that perform operations of `E` and return a value of type `α`. -/
inductive Prog (E : Sig) (α : Type) : Type where
  | ret (a : α)
  | call (op : E.Op) (k : E.Reply op → Prog E α)

namespace Prog

variable {E F : Sig} {α β γ : Type} {p : Prog E α}

/-- Sequencing. -/
def bind : Prog E α → (α → Prog E β) → Prog E β
  | ret a, f => f a
  | call op k, f => call op fun r => (k r).bind f

instance : Monad (Prog E) where
  pure := ret
  bind := bind

/-- Perform one operation and return its reply. -/
def perform (op : E.Op) : Prog E (E.Reply op) := call op ret

@[simp] theorem pure_eq (a : α) : (pure a : Prog E α) = ret a := rfl

@[simp] theorem ret_bind (a : α) (f : α → Prog E β) : (ret a >>= f) = f a := rfl

@[simp] theorem call_bind (op : E.Op) (k : E.Reply op → Prog E α) (f : α → Prog E β) :
    (call op k >>= f) = call op fun r => k r >>= f := rfl

@[simp] theorem perform_bind (op : E.Op) (f : E.Reply op → Prog E β) :
    (perform op >>= f) = call op f := rfl

theorem bind_assoc (p : Prog E α) (f : α → Prog E β) (g : β → Prog E γ) :
    p >>= f >>= g = p >>= fun a => f a >>= g := by
  induction p with
  | ret a => rfl
  | call op k ih => exact congrArg (call op) (funext ih)

theorem bind_ret (p : Prog E α) : p >>= ret = p := by
  induction p with
  | ret a => rfl
  | call op k ih => exact congrArg (call op) (funext ih)

instance : LawfulMonad (Prog E) :=
  LawfulMonad.mk' _ bind_ret (fun _ _ => rfl) bind_assoc

/-! ### Contracts -/

section Meets

variable {S : Type} (upd : S → (op : E.Op) → E.Reply op → S)

/-- The program performs only operations allowed by `P` and returns only values allowed by
`Q`, whatever the replies; `upd` keeps track of what the thread has seen. -/
def Meets (P : S → E.Op → Prop) (Q : S → α → Prop) : S → Prog E α → Prop
  | s, ret a => Q s a
  | s, call op k => P s op ∧ ∀ r, Meets P Q (upd s op r) (k r)

variable {upd} {P P' : S → E.Op → Prop} {Q Q' : S → α → Prop} {s : S} {R : S → β → Prop}

@[simp] theorem meets_ret {a : α} : Meets upd P Q s (ret a) ↔ Q s a := Iff.rfl

/-- A contract may be weakened. -/
theorem Meets.mono (hp : Meets upd P Q s p) (hP : ∀ s op, P s op → P' s op)
    (hQ : ∀ s a, Q s a → Q' s a) : Meets upd P' Q' s p := by
  induction p generalizing s with
  | ret a => exact hQ s a hp
  | call op k ih => exact ⟨hP s op hp.1, fun r => ih r (hp.2 r)⟩

/-- Sequencing: the first program must end where the second may start. -/
theorem meets_bind {f : α → Prog E β} :
    Meets upd P R s (p >>= f) ↔ Meets upd P (fun s a => Meets upd P R s (f a)) s p := by
  induction p generalizing s with
  | ret a => exact Iff.rfl
  | call op k ih => exact and_congr_right fun _ => forall_congr' fun r => ih r

theorem Meets.bind {f : α → Prog E β} (hp : Meets upd P Q s p)
    (hf : ∀ s a, Q s a → Meets upd P R s (f a)) : Meets upd P R s (p >>= f) :=
  meets_bind.mpr (hp.mono (fun _ _ h => h) hf)

theorem meets_map {f : α → β} :
    Meets upd P R s (f <$> p) ↔ Meets upd P (fun s a => R s (f a)) s p := by
  rw [← bind_pure_comp, meets_bind]
  rfl

/-- What every allowed operation preserves still holds at the end. -/
theorem Meets.invariant {I : S → Prop} (hp : Meets upd P Q s p)
    (hI : ∀ s op r, P s op → I s → I (upd s op r)) (hs : I s) :
    Meets upd P (fun s a => Q s a ∧ I s) s p := by
  induction p generalizing s with
  | ret a => exact ⟨hp, hs⟩
  | call op k ih => exact ⟨hp.1, fun r => ih r (hp.2 r) (hI s op r hp.1 hs)⟩

end Meets

/-! ### Executions -/

/-- An operation and the reply to it. -/
abbrev Event (E : Sig) := (op : E.Op) × E.Reply op

/-- The program performs the operations of the list, gets the replies there and returns. -/
inductive Runs : Prog E α → List (Event E) → α → Prop
  | ret {a : α} : Runs (ret a) [] a
  | call {op : E.Op} {k : E.Reply op → Prog E α} {r : E.Reply op} {es : List (Event E)} {a : α} :
      Runs (k r) es a → Runs (call op k) (⟨op, r⟩ :: es) a

/-- Run a program against an environment that answers some operations, depending on how many were
performed before; nothing is returned if the program performs another one. -/
def replay (answer : ℕ → (op : E.Op) → Option (E.Reply op)) :
    ℕ → Prog E α → Option (List (Event E) × α)
  | _, ret a => some ([], a)
  | n, call op k =>
    match answer n op with
    | none => none
    | some r => (replay answer (n + 1) (k r)).map fun (es, a) => (⟨op, r⟩ :: es, a)

theorem runs_of_replay {answer : ℕ → (op : E.Op) → Option (E.Reply op)} {n : ℕ}
    {es : List (Event E)} {a : α} (h : replay answer n p = some (es, a)) : Runs p es a := by
  induction p generalizing es n with
  | ret b =>
    cases h
    exact .ret
  | call op k ih =>
    unfold replay at h
    split at h
    · cases h
    · rename_i r hr
      obtain ⟨⟨es', a'⟩, hrun, heq⟩ := Option.map_eq_some_iff.mp h
      cases heq
      exact .call (ih r hrun)

/-- What a contract promises holds at the end of every execution. -/
theorem Meets.of_runs {S : Type} {upd : S → (op : E.Op) → E.Reply op → S} {P : S → E.Op → Prop}
    {Q : S → α → Prop} {s : S} {es : List (Event E)} {a : α} (hp : Meets upd P Q s p)
    (h : Runs p es a) : Q (es.foldl (fun s e => upd s e.1 e.2) s) a := by
  induction h generalizing s with
  | ret => exact hp
  | call _ ih => exact ih (hp.2 _)

end Prog

end AegisFlow
