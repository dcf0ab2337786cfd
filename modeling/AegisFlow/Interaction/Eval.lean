import AegisFlow.Interaction.Proc

/-!
# Programs in a world that always answers

`Prog.Meets` is about every reply the environment may give.  Here the environment is one world
that answers an operation in one way, or not at all: what a program does there can be computed.

* `Prog.evalIn answer p w` : the result of `p` in the world `w` and the world afterwards, or
  nothing if `p` performs an operation that is not answered;
* `Proc.evalIn` : the same for procedures with variables.
-/

namespace AegisFlow

variable {E : Sig} {σ α β W : Type} {answer : (op : E.Op) → W → Option (E.Reply op × W)}

/-- Run a program in a world. -/
def Prog.evalIn (answer : (op : E.Op) → W → Option (E.Reply op × W)) :
    Prog E α → W → Option (α × W)
  | ret a, w => some (a, w)
  | call op k, w => (answer op w).bind fun x => evalIn answer (k x.1) x.2

/-- Run a procedure in a world. -/
def Proc.evalIn (answer : (op : E.Op) → W → Option (E.Reply op × W)) (m : Proc E σ α) (c : σ)
    (w : W) : Option ((Option α × σ) × W) := Prog.evalIn answer (m.run c) w

namespace Proc

variable {c : σ} {w w' : W}

/-- An operation that is answered. -/
theorem evalIn_perform_bind {op : E.Op} {r : E.Reply op} (h : answer op w = some (r, w'))
    (f : E.Reply op → Proc E σ β) :
    evalIn answer (perform op >>= f) c w = evalIn answer (f r) c w' := by
  change (answer op w).bind (fun x => Prog.evalIn answer ((f x.1).run c) x.2) = _
  rw [h]
  rfl

theorem evalIn_ofOption_bind (a : α) (f : α → Proc E σ β) :
    evalIn answer (ofOption (some a) >>= f) c w = evalIn answer (f a) c w := rfl

end Proc

end AegisFlow
