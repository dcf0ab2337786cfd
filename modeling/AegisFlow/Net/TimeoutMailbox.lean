import AegisFlow.Timer.Types
import Mathlib.Data.List.Basic

/-!
# The timeout mailbox

The timer thread posts due timers of a loop into a bounded mailbox.  A timer that finds the mailbox
full is dropped, and the loop is asked to look at the deadlines of all of its sessions instead.

* `TimeoutMailbox.tryPost`, `tryPop`, `takeRescanRequest`, `close` : each runs under the mutex of
  the mailbox.
-/

namespace AegisFlow

/-- Whether an event can be for a connection. -/
def connectionTimeoutEvent (event : TimerEvent) : Bool :=
  (event.kind == .idleTimeout || event.kind == .readTimeout || event.kind == .writeTimeout ||
      event.kind == .businessTimeout) &&
    decide (0 ≤ event.targetFd) && event.targetGeneration != 0 && event.targetSequence != 0

/-- A bounded queue of timer events. -/
structure TimeoutMailbox where
  capacity : ℕ
  /-- Events, oldest first. -/
  queue : List TimerEvent := []
  accepting : Bool := true
  rescanRequired : Bool := false
  deriving DecidableEq, Repr

namespace TimeoutMailbox

/-- Post an event; `signalled` says that the loop could be woken. -/
def tryPost (mailbox : TimeoutMailbox) (event : TimerEvent) (signalled : Bool) :
    Bool × TimeoutMailbox :=
  if !connectionTimeoutEvent event then (false, mailbox)
  else if !mailbox.accepting then (false, mailbox)
  else if mailbox.queue.length = mailbox.capacity then
    (signalled, { mailbox with rescanRequired := true })
  else if signalled then (true, { mailbox with queue := mailbox.queue ++ [event] })
  else (false, mailbox)

/-- Take the oldest event. -/
def tryPop (mailbox : TimeoutMailbox) : Option TimerEvent × TimeoutMailbox :=
  match mailbox.queue with
  | [] => (none, mailbox)
  | event :: rest => (some event, { mailbox with queue := rest })

/-- Whether a scan of the deadlines was asked for since the last time. -/
def takeRescanRequest (mailbox : TimeoutMailbox) : Bool × TimeoutMailbox :=
  (mailbox.rescanRequired, { mailbox with rescanRequired := false })

/-- Accept nothing any more. -/
def close (mailbox : TimeoutMailbox) : TimeoutMailbox :=
  { mailbox with accepting := false, rescanRequired := false, queue := [] }

/-- An open mailbox takes an event of a connection, or asks for a scan. -/
theorem tryPost_accepted {mailbox : TimeoutMailbox} {event : TimerEvent}
    (hevent : connectionTimeoutEvent event = true) (haccepting : mailbox.accepting = true) :
    (mailbox.tryPost event true).2 =
      if mailbox.queue.length = mailbox.capacity then { mailbox with rescanRequired := true }
      else { mailbox with queue := mailbox.queue ++ [event] } := by
  unfold tryPost
  rw [if_neg (by simp [hevent]), if_neg (by simp [haccepting]), if_pos rfl]
  split <;> rfl

end TimeoutMailbox

end AegisFlow
