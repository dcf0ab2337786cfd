import AegisFlow.Interaction.Proc
import AegisFlow.Lts.Basic
import Mathlib.Logic.Function.Basic
import Mathlib.Tactic.Simps.Basic

/-!
# Threads that share a world

A *pool* is a family of threads, each running one call after another against a shared world,
in any interleaving at the granularity of single operations.  How the world answers an
operation is a relation, so that failures and lost replies are further possible answers; the
world may also move on its own.

Each thread has a *view*: a value computed from the operations it performed and the replies it
got (`Pool.upd`).  A `Contract` says, in terms of the view only, which operations a thread may
perform and what holds when a call ends; it is proved for each call in isolation with
`Proc.Meets`.

* `Pool.system` : the transition system of the pool;
* `Contract.meets_running` : **every running call still keeps its contract**, in every
  reachable state and whatever the other threads did;
* `Contract.lawful` : every step of a reachable state is one the contract allows.  Invariants
  of the world are proved by cases on `Contract.Lawful`, so no proof looks at the code of a
  call again.
-/

namespace AegisFlow

/-- A family of threads `ι` that make calls `C` of procedures over `E` with variables `σ` and
results `α`; `W` is the shared world, `V` labels the moves of the world, `S` are the views. -/
structure Pool (E : Sig) (ι C V W S σ α : Type) where
  /-- The states of world, views and variables a run may start from. -/
  init : W → (ι → S) → (ι → σ) → Prop
  may : ι → C → Prop
  code : C → Proc E σ α
  /-- `serve i w op r w'` : the world `w` can answer the operation `op` of thread `i` with `r`
  and become `w'`. -/
  serve : ι → W → (op : E.Op) → E.Reply op → W → Prop
  /-- The moves of the world itself. -/
  env : W → V → W → Prop
  /-- The view when a call begins. -/
  enter : C → S → S
  upd : S → (op : E.Op) → E.Reply op → S

/-- A state of a pool. -/
structure PoolState (E : Sig) (ι C W S σ α : Type) where
  world : W
  /-- The threads' views. -/
  view : ι → S
  /-- The variables that threads keep between calls. -/
  vars : ι → σ
  /-- The call a thread is running, and what is left of it. -/
  run : ι → Option (C × Prog E (Option α × σ))
  /-- The calls that ended, with their results, oldest first. -/
  ended : List (ι × C × Option α)

/-- What can happen in a pool. -/
inductive PoolLabel (E : Sig) (ι C V α : Type)
  | begin (i : ι) (c : C)
  | op (i : ι) (o : E.Op) (r : E.Reply o)
  | finish (i : ι) (c : C) (a : Option α)
  | env (v : V)

variable {E : Sig} {ι C V W S σ α : Type}

namespace PoolState

variable [DecidableEq ι]

/-- The state after a call began. -/
@[simps] def begin (s : PoolState E ι C W S σ α) (i : ι) (c : C) (v : S)
    (p : Prog E (Option α × σ)) : PoolState E ι C W S σ α where
  world := s.world
  view := Function.update s.view i v
  vars := s.vars
  run := Function.update s.run i (some (c, p))
  ended := s.ended

/-- The state after an operation was answered. -/
@[simps] def answer (s : PoolState E ι C W S σ α) (i : ι) (c : C) (w : W) (v : S)
    (p : Prog E (Option α × σ)) : PoolState E ι C W S σ α where
  world := w
  view := Function.update s.view i v
  vars := s.vars
  run := Function.update s.run i (some (c, p))
  ended := s.ended

/-- The state after a call ended. -/
@[simps] def finish (s : PoolState E ι C W S σ α) (i : ι) (c : C) (a : Option α) (x : σ) :
    PoolState E ι C W S σ α where
  world := s.world
  view := s.view
  vars := Function.update s.vars i x
  run := Function.update s.run i none
  ended := s.ended ++ [(i, c, a)]

/-- The state after the world moved. -/
@[simps] def move (s : PoolState E ι C W S σ α) (w : W) : PoolState E ι C W S σ α where
  world := w
  view := s.view
  vars := s.vars
  run := s.run
  ended := s.ended

end PoolState

namespace Pool

variable [DecidableEq ι] (P : Pool E ι C V W S σ α)

/-- The steps of a pool. -/
inductive Step : PoolState E ι C W S σ α → PoolLabel E ι C V α → PoolState E ι C W S σ α → Prop
  | begin {s : PoolState E ι C W S σ α} {i : ι} {c : C} (hidle : s.run i = none)
      (hmay : P.may i c) :
      Step s (.begin i c) (s.begin i c (P.enter c (s.view i)) ((P.code c).run (s.vars i)))
  | op {s : PoolState E ι C W S σ α} {i : ι} {c : C} {o : E.Op}
      {k : E.Reply o → Prog E (Option α × σ)} {r : E.Reply o} {w : W}
      (hrun : s.run i = some (c, .call o k)) (hserve : P.serve i s.world o r w) :
      Step s (.op i o r) (s.answer i c w (P.upd (s.view i) o r) (k r))
  | finish {s : PoolState E ι C W S σ α} {i : ι} {c : C} {a : Option α} {x : σ}
      (hrun : s.run i = some (c, .ret (a, x))) : Step s (.finish i c a) (s.finish i c a x)
  | env {s : PoolState E ι C W S σ α} {v : V} {w : W} (henv : P.env s.world v w) :
      Step s (.env v) (s.move w)

/-- The transition system of a pool: no call is running at the start. -/
def system : System (PoolState E ι C W S σ α) (PoolLabel E ι C V α) where
  init s := P.init s.world s.view s.vars ∧ (∀ i, s.run i = none) ∧ s.ended = []
  step := P.Step

end Pool

/-- What the threads of a pool promise, in terms of their views. -/
structure Contract (P : Pool E ι C V W S σ α) where
  /-- What holds of a thread between two calls. -/
  idle : S → σ → Prop
  /-- The operations a thread may perform. -/
  allow : S → E.Op → Prop
  /-- What holds, in addition, when a call ends. -/
  post : C → S → σ → Option α → Prop
  init_idle : ∀ {w v x}, P.init w v x → ∀ i, idle (v i) (x i)
  meets : ∀ {i c s x}, P.may i c → idle s x →
    Proc.Meets P.upd allow (fun s x a => idle s x ∧ post c s x a) (P.enter c s) x (P.code c)

namespace Contract

variable {P : Pool E ι C V W S σ α} (K : Contract P)

/-- A thread between calls is idle; a running call still keeps its contract. -/
def Holds (s : PoolState E ι C W S σ α) (i : ι) : Prop :=
  match s.run i with
  | none => K.idle (s.view i) (s.vars i)
  | some (c, p) =>
    Prog.Meets P.upd K.allow (fun s r => K.idle s r.2 ∧ K.post c s r.2 r.1) (s.view i) p

variable {K} {s s' : PoolState E ι C W S σ α}

theorem Holds.idle {i : ι} (h : K.Holds s i) (hrun : s.run i = none) :
    K.idle (s.view i) (s.vars i) := by
  simpa only [Holds, hrun] using h

theorem Holds.meets {i : ι} {c : C} {p : Prog E (Option α × σ)} (h : K.Holds s i)
    (hrun : s.run i = some (c, p)) :
    Prog.Meets P.upd K.allow (fun s r => K.idle s r.2 ∧ K.post c s r.2 r.1) (s.view i) p := by
  simpa only [Holds, hrun] using h

/-- A thread that a step does not touch keeps its contract. -/
theorem Holds.congr {i : ι} (h : K.Holds s i) (hview : s'.view i = s.view i)
    (hvars : s'.vars i = s.vars i) (hrun : s'.run i = s.run i) : K.Holds s' i := by
  simpa only [Holds, hview, hvars, hrun] using h

variable [DecidableEq ι]

theorem holds_step {l : PoolLabel E ι C V α} (h : ∀ i, K.Holds s i) (hst : P.Step s l s') (j : ι) :
    K.Holds s' j := by
  cases hst with
  | @begin i c hidle hmay =>
    by_cases hj : j = i
    · subst hj
      simpa [Holds, Proc.Meets] using K.meets hmay ((h j).idle hidle)
    · exact (h j).congr (by simp [hj]) rfl (by simp [hj])
  | @op i c o k r w hrun hserve =>
    by_cases hj : j = i
    · subst hj
      simpa [Holds] using ((h j).meets hrun).2 r
    · exact (h j).congr (by simp [hj]) rfl (by simp [hj])
  | @finish i c a x hrun =>
    by_cases hj : j = i
    · subst hj
      simpa [Holds] using ((h j).meets hrun).1
    · exact (h j).congr rfl (by simp [hj]) (by simp [hj])
  | env henv => exact (h j).congr rfl rfl rfl

variable (K) in
/-- **Every running call still keeps its contract.** -/
theorem meets_running (h : P.system.Reachable s) (i : ι) : K.Holds s i := by
  refine h.invariant (I := fun s => ∀ i, K.Holds s i) ?_
    (fun s l s' _ hi hst => holds_step hi hst) i
  rintro s ⟨hinit, hrun, -⟩ i
  simpa only [Holds, hrun i] using K.init_idle hinit i

variable (K) in
/-- The steps of the pool, with what the contract says about each. -/
inductive Lawful : PoolState E ι C W S σ α → PoolLabel E ι C V α → PoolState E ι C W S σ α → Prop
  | begin {s : PoolState E ι C W S σ α} {i : ι} {c : C} (hrun : s.run i = none)
      (hmay : P.may i c) (hidle : K.idle (s.view i) (s.vars i)) :
      Lawful s (.begin i c) (s.begin i c (P.enter c (s.view i)) ((P.code c).run (s.vars i)))
  | op {s : PoolState E ι C W S σ α} {i : ι} {c : C} {o : E.Op}
      {k : E.Reply o → Prog E (Option α × σ)} {r : E.Reply o} {w : W}
      (hrun : s.run i = some (c, .call o k)) (hallow : K.allow (s.view i) o)
      (hserve : P.serve i s.world o r w) :
      Lawful s (.op i o r) (s.answer i c w (P.upd (s.view i) o r) (k r))
  | finish {s : PoolState E ι C W S σ α} {i : ι} {c : C} {a : Option α} {x : σ}
      (hrun : s.run i = some (c, .ret (a, x))) (hidle : K.idle (s.view i) x)
      (hpost : K.post c (s.view i) x a) : Lawful s (.finish i c a) (s.finish i c a x)
  | env {s : PoolState E ι C W S σ α} {v : V} {w : W} (henv : P.env s.world v w) :
      Lawful s (.env v) (s.move w)

variable (K) in
/-- **Every step of a reachable state is lawful.** -/
theorem lawful {l : PoolLabel E ι C V α} (h : P.system.Reachable s) (hst : P.Step s l s') :
    K.Lawful s l s' := by
  cases hst with
  | @begin i c hidle hmay => exact .begin hidle hmay ((K.meets_running h i).idle hidle)
  | @op i c o k r w hrun hserve => exact .op hrun ((K.meets_running h i).meets hrun).1 hserve
  | @finish i c a x hrun =>
    obtain ⟨hidle, hpost⟩ := (K.meets_running h i).meets hrun
    exact .finish hrun hidle hpost
  | env henv => exact .env henv

variable (K) in
/-- The invariant rule: a property that lawful steps preserve holds in every reachable state. -/
theorem invariant {I : PoolState E ι C W S σ α → Prop} (h : P.system.Reachable s)
    (h₀ : ∀ s, P.system.init s → I s)
    (hstep : ∀ s l s', P.system.Reachable s → I s → K.Lawful s l s' → I s') : I s :=
  h.invariant h₀ fun s l s' hr hi hst => hstep s l s' hr hi (K.lawful hr hst)

end Contract

end AegisFlow
