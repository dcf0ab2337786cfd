import AegisFlow.Interaction.Prog

/-!
# Operations that are programs

The operations of one signature may be programs over another: what is one call for a caller is a
sequence of commands below, and others may act between them.

* `Prog.interp h p` : the program `p` with each of its operations replaced by the program `h` gives;
* `Prog.meets_interp` : what every `h op` keeps, the whole keeps.
-/

namespace AegisFlow

namespace Prog

variable {E F : Sig} {S α β : Type}

/-- Replace the operations by programs. -/
def interp (h : (op : E.Op) → Prog F (E.Reply op)) : Prog E α → Prog F α
  | ret a => ret a
  | call op k => h op >>= fun r => interp h (k r)

/-- What the program of every operation keeps, the whole keeps. -/
theorem meets_interp {h : (op : E.Op) → Prog F (E.Reply op)}
    {upd : S → (op : F.Op) → F.Reply op → S} {P : S → F.Op → Prop} {J : S → Prop}
    (hh : ∀ op s, J s → Meets upd P (fun s _ => J s) s (h op)) {s : S} (hs : J s) (p : Prog E α) :
    Meets upd P (fun s _ => J s) s (p.interp h) := by
  induction p generalizing s with
  | ret a => exact hs
  | call op k ih => exact (hh op s hs).bind fun s r hs => ih r hs

end Prog

end AegisFlow
