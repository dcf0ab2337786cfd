import AegisFlow.Interaction.Pool
import Mathlib.Data.Nat.Notation

/-!
# Runs that can be computed

How a world answers is a relation.  Where it is enough to know *one* run of a pool, the answers can
be chosen by a function, and the run is then computed: each thread is told when to begin a call, how
many operations to perform, and when to end.

* `Pool.launch`, `Pool.drive`, `Pool.conclude`, `Pool.stir` : one thread begins, goes on or ends, or
  the world moves.  What cannot happen leaves the state as it is;
* `Pool.drive_induct` : what the operations of a thread keep, a drive keeps;
* `Pool.play` : a run given by a script, and `Pool.leads_play`.
-/

namespace AegisFlow

variable {E : Sig} {ι C V W S σ α : Type}

/-- The call that thread `i` is in, and its next operation. -/
def PoolState.upcoming (s : PoolState E ι C W S σ α) (i : ι) : Option (C × E.Op) :=
  match s.run i with
  | some (c, .call o _) => some (c, o)
  | _ => none

theorem PoolState.run_of_upcoming {s : PoolState E ι C W S σ α} {i : ι} {c : C} {o : E.Op}
    (h : s.upcoming i = some (c, o)) : ∃ k, s.run i = some (c, .call o k) := by
  unfold upcoming at h
  split at h
  · rename_i k hrun
    cases h
    exact ⟨k, hrun⟩
  · cases h

/-- The call of thread `i` and its result, if nothing is left of it. -/
def PoolState.result (s : PoolState E ι C W S σ α) (i : ι) : Option (C × Option α) :=
  match s.run i with
  | some (c, .ret (a, _)) => some (c, a)
  | _ => none

variable [DecidableEq ι]

namespace Pool

/-- Thread `i` begins a call if it is between two calls. -/
def launch (P : Pool E ι C V W S σ α) (i : ι) (c : C) (s : PoolState E ι C W S σ α) :
    PoolState E ι C W S σ α :=
  match s.run i with
  | none => s.begin i c (P.enter c (s.view i)) ((P.code c).run (s.vars i))
  | some _ => s

/-- Thread `i` performs its next `n` operations, as long as they are answered. -/
def drive (P : Pool E ι C V W S σ α) (answer : (op : E.Op) → W → Option (E.Reply op × W)) (i : ι) :
    ℕ → PoolState E ι C W S σ α → PoolState E ι C W S σ α
  | 0, s => s
  | n + 1, s =>
    match s.run i with
    | some (c, .call o k) =>
      match answer o s.world with
      | some (r, w) => P.drive answer i n (s.answer i c w (P.upd (s.view i) o r) (k r))
      | none => s
    | _ => s

/-- Thread `i` ends its call if nothing is left of it. -/
def conclude (i : ι) (s : PoolState E ι C W S σ α) : PoolState E ι C W S σ α :=
  match s.run i with
  | some (c, .ret (a, x)) => s.finish i c a x
  | _ => s

/-- The world makes the moves of the list, as far as it can. -/
def stir (f : W → V → Option W) : List V → PoolState E ι C W S σ α → PoolState E ι C W S σ α
  | [], s => s
  | v :: vs, s =>
    match f s.world v with
    | some w => stir f vs (s.move w)
    | none => s

variable {P : Pool E ι C V W S σ α} {s : PoolState E ι C W S σ α} {i : ι}
  {J : PoolState E ι C W S σ α → Prop} {answer : (op : E.Op) → W → Option (E.Reply op × W)}

theorem launch_induct {c : C} (hJ : ∀ s s', J s → P.Step s (.begin i c) s' → J s')
    (hmay : P.may i c) (h : J s) : J (P.launch i c s) := by
  unfold launch
  split
  · rename_i hidle
    exact hJ s _ h (.begin hidle hmay)
  · exact h

/-- What the operations of a thread keep, a drive keeps. -/
theorem drive_induct (hsound : ∀ w o r w', answer o w = some (r, w') → P.serve i w o r w')
    (hJ : ∀ s o r s', J s → P.Step s (.op i o r) s' → J s') (n : ℕ) (h : J s) :
    J (P.drive answer i n s) := by
  induction n generalizing s with
  | zero => exact h
  | succ n ih =>
    unfold drive
    split
    · rename_i c o k hrun
      split
      · rename_i r w hanswer
        exact ih (hJ s o r _ h (.op hrun (hsound _ _ _ _ hanswer)))
      · exact h
    · exact h

/-- The next operation of a thread, with a property of its reply that can be computed. -/
theorem step_drive (hsound : ∀ w o r w', answer o w = some (r, w') → P.serve i w o r w') {c : C}
    {o : E.Op} (h : s.upcoming i = some (c, o)) {p : E.Reply o → Bool}
    (hp : (answer o s.world).any (p ·.1) = true) :
    ∃ q r, s.run i = some (c, q) ∧ P.Step s (.op i o r) (P.drive answer i 1 s) ∧ p r = true := by
  obtain ⟨k, hrun⟩ := PoolState.run_of_upcoming h
  obtain ⟨⟨r, w⟩, hanswer, hr⟩ := Option.any_eq_true _ _ |>.mp hp
  refine ⟨_, r, hrun, ?_, hr⟩
  have hdrive : P.drive answer i 1 s = s.answer i c w (P.upd (s.view i) o r) (k r) := by
    unfold drive
    rw [hrun]
    dsimp only
    rw [hanswer]
    rfl
  rw [hdrive]
  exact .op hrun (hsound _ _ _ _ hanswer)

/-- The end of a call. -/
theorem step_conclude {c : C} {a : Option α} (h : s.result i = some (c, a)) :
    P.Step s (.finish i c a) (conclude i s) := by
  unfold PoolState.result at h
  unfold conclude
  split at h
  · rename_i x hrun
    cases h
    exact .finish hrun
  · cases h

theorem conclude_induct (hJ : ∀ s c a s', J s → P.Step s (.finish i c a) s' → J s') (h : J s) :
    J (conclude i s) := by
  unfold conclude
  split
  · rename_i hrun
    exact hJ s _ _ _ h (.finish hrun)
  · exact h

theorem stir_induct {f : W → V → Option W} (hsound : ∀ w v w', f w v = some w' → P.env w v w')
    {vs : List V} (hJ : ∀ s v s', v ∈ vs → J s → P.Step s (.env v) s' → J s') (h : J s) :
    J (stir f vs s) := by
  induction vs generalizing s with
  | nil => exact h
  | cons v vs ih =>
    unfold stir
    split
    · rename_i w hw
      exact ih (fun s v s' hv => hJ s v s' (List.mem_cons_of_mem _ hv))
        (hJ s v _ List.mem_cons_self h (.env (hsound _ _ _ hw)))
    · exact h

theorem leads_launch {c : C} (hmay : P.may i c) (s : PoolState E ι C W S σ α) :
    P.system.Leads s (P.launch i c s) :=
  launch_induct (fun _ _ h hst => h.tail ⟨_, trivial, hst⟩) hmay .refl

theorem leads_drive (hsound : ∀ w o r w', answer o w = some (r, w') → P.serve i w o r w') (n : ℕ)
    (s : PoolState E ι C W S σ α) : P.system.Leads s (P.drive answer i n s) :=
  drive_induct hsound (fun _ _ _ _ h hst => h.tail ⟨_, trivial, hst⟩) n .refl

theorem leads_conclude (i : ι) (s : PoolState E ι C W S σ α) : P.system.Leads s (conclude i s) :=
  conclude_induct (fun _ _ _ _ h hst => h.tail ⟨_, trivial, hst⟩) .refl

theorem leads_stir {f : W → V → Option W} (hsound : ∀ w v w', f w v = some w' → P.env w v w')
    (vs : List V) (s : PoolState E ι C W S σ α) : P.system.Leads s (stir f vs s) :=
  stir_induct hsound (fun _ _ _ _ h hst => h.tail ⟨_, trivial, hst⟩) .refl

end Pool

/-! ### Scripts -/

/-- A line of a script: a thread begins a call, performs operations that are answered as `r` says,
or ends its call; or the world moves. -/
inductive Cue (ι C V R : Type)
  | begin (i : ι) (c : C)
  | ops (i : ι) (n : ℕ) (r : R)
  | finish (i : ι)
  | env (v : V)

namespace Pool

variable {R : Type} {P : Pool E ι C V W S σ α}
  {answer : R → ι → (op : E.Op) → W → Option (E.Reply op × W)} {next : W → V → Option W}

/-- The run of a script. -/
def play (P : Pool E ι C V W S σ α) (answer : R → ι → (op : E.Op) → W → Option (E.Reply op × W))
    (next : W → V → Option W) :
    List (Cue ι C V R) → PoolState E ι C W S σ α → PoolState E ι C W S σ α
  | [], s => s
  | .begin i c :: cues, s => P.play answer next cues (P.launch i c s)
  | .ops i n r :: cues, s => P.play answer next cues (P.drive (answer r i) i n s)
  | .finish i :: cues, s => P.play answer next cues (conclude i s)
  | .env v :: cues, s => P.play answer next cues (stir next [v] s)

/-- A script is a run, if every call is permitted and the answers and moves are those of the
world. -/
theorem leads_play (hmay : ∀ i c, P.may i c)
    (hanswer : ∀ x i w o r w', answer x i o w = some (r, w') → P.serve i w o r w')
    (hnext : ∀ w v w', next w v = some w' → P.env w v w') (cues : List (Cue ι C V R))
    (s : PoolState E ι C W S σ α) : P.system.Leads s (P.play answer next cues s) := by
  induction cues generalizing s with
  | nil => exact .refl
  | cons cue cues ih =>
    cases cue with
    | begin i c => exact (leads_launch (hmay i c) s).trans (ih _)
    | ops i n r => exact (leads_drive (hanswer r i) n s).trans (ih _)
    | finish i => exact (leads_conclude i s).trans (ih _)
    | env v => exact (leads_stir hnext [v] s).trans (ih _)

end Pool

end AegisFlow
