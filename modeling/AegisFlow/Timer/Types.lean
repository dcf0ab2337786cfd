import Mathlib.Data.Int.Notation
import Mathlib.Data.Nat.Notation

/-!
# Timer identifiers and events

What the timer thread and its clients exchange.  A timer is named by a value and a generation;
an event says which connection it is for and carries the sequence number the connection had when
the timer was scheduled.
-/

namespace AegisFlow

/-- The name of a timer; the default names none. -/
structure TimerId where
  value : ℕ := 0
  generation : ℕ := 0
  deriving DecidableEq, Repr, Inhabited

/-- Whether it names a timer. -/
def TimerId.valid (id : TimerId) : Bool := id.value != 0 && id.generation != 0

/-- What a timer is for. -/
inductive TimerEventKind
  | idleTimeout
  | readTimeout
  | writeTimeout
  | businessTimeout
  | cleanupTick
  | blacklistMaintenanceTick
  deriving DecidableEq, Repr, Inhabited

/-- What a timer posts when it is due. -/
structure TimerEvent where
  kind : TimerEventKind := .idleTimeout
  targetId : ℕ := 0
  targetLoopId : ℕ := 0
  targetFd : ℤ := -1
  targetGeneration : ℕ := 0
  targetSequence : ℕ := 0
  deriving DecidableEq, Repr, Inhabited

end AegisFlow
