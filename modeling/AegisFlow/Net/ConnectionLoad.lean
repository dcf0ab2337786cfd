import AegisFlow.Net.EventLoopGroup
import Mathlib.Algebra.Order.BigOperators.Group.Finset

/-!
# The load of a group is exact

The counter of a loop is compared with the places in which the connections of the loop can be:
being posted, waiting in the registration mailbox, taken out and not yet adopted, held by a
session, or dropped and about to be released.

* `Ledger` : counters that agree with a number of connections per loop, with reservations and
  releases half done;
* `Accounts` : the counters of the group agree with the places;
* `connection_load_exact` : **the loads are exact in every reachable state of the group, no
  release finds a counter too low, and the limits are kept.**
-/

namespace AegisFlow

open Finset

variable {n : ℕ} {config : EventLoopGroupConfig}

/-- One summand is replaced. -/
theorem sum_replace (f : Fin n → ℕ) (i : Fin n) (x : ℕ) :
    ∑ j, Function.update f i x j + f i = ∑ j, f j + x := by
  have hupdate := sum_update_of_mem (mem_univ i) f x
  have hsplit := add_sum_erase univ f (mem_univ i)
  rw [sdiff_singleton_eq_erase] at hupdate
  omega

/-! ### Counters -/

/-- The counters agree with `place i` connections at loop `i`, `half` reservations the group does
not count yet and `unsettled` releases the group still counts. -/
structure Ledger (config : EventLoopGroupConfig) (c : LoadCounters n) (place : Fin n → ℕ)
    (half unsettled : ℕ) : Prop where
  places : ∀ i, c.connectionLoad i = place i
  history : ∀ i, c.connectionLoad i + c.released i = c.reserved i
  total : c.globalLoad + half = ∑ i, c.connectionLoad i + unsettled
  shortfall : c.shortfall = 0
  perLoop : ∀ i, c.connectionLoad i ≤ config.maxConnectionsPerLoop
  global : c.globalLoad ≤ config.maxConnections

namespace Ledger

variable {c : LoadCounters n} {place : Fin n → ℕ} {half unsettled count : ℕ} {i : Fin n}

/-- A release at a loop that has so many connections takes all of them off. -/
theorem releasedAt (h : Ledger config c place half unsettled) (hcount : count ≤ place i) :
    c.releasedAt i count = count := by
  unfold LoadCounters.releasedAt
  rw [ConnectionLoadCounter.release_of_le ((h.places i).symm ▸ hcount)]

theorem releaseAt (h : Ledger config c place half unsettled) (hcount : count ≤ place i) :
    Ledger config (c.releaseAt i count) (Function.update place i (place i - count)) half
      (unsettled + count) := by
  have hload : count ≤ c.connectionLoad i := (h.places i).symm ▸ hcount
  have hreleased := h.releasedAt hcount
  have hsum := sum_replace c.connectionLoad i (c.connectionLoad i - count)
  have hglobal := h.total
  constructor <;>
    simp only [LoadCounters.releaseAt, hreleased, ConnectionLoadCounter.release_of_le hload]
  · intro j
    rcases eq_or_ne j i with rfl | hj
    · simp [h.places j]
    · simp [hj, h.places j]
  · intro j
    have := h.history j
    rcases eq_or_ne j i with rfl | hj
    · simp only [Function.update_self]
      omega
    · simpa [hj] using this
  · omega
  · have := h.shortfall
    omega
  · intro j
    have := h.perLoop j
    rcases eq_or_ne j i with rfl | hj
    · simp only [Function.update_self]
      omega
    · simpa [hj] using this
  · exact h.global

theorem releaseGlobal (h : Ledger config c place half (unsettled + count))
    (hhalf : half ≤ ∑ i, place i) :
    Ledger config (c.releaseGlobal count) place half unsettled := by
  have htotal := h.total
  have hsum : ∑ i, c.connectionLoad i = ∑ i, place i := sum_congr rfl fun i _ => h.places i
  have hload : count ≤ c.globalLoad := by omega
  unfold LoadCounters.releaseGlobal
  split_ifs with hcount
  · rw [ConnectionLoadCounter.release_of_le hload]
    exact ⟨h.places, h.history, by simp only; omega, by simp [h.shortfall], h.perLoop,
      (Nat.sub_le _ _).trans h.global⟩
  · obtain rfl : count = 0 := by simpa using hcount
    exact h

theorem reserveAt (h : Ledger config c place 0 unsettled)
    (hlimit : c.connectionLoad i < config.maxConnectionsPerLoop)
    (hmax : config.maxConnectionsPerLoop ≤ sizeMax) :
    Ledger config (c.reserveAt i) (Function.update place i (place i + 1)) 1 unsettled := by
  have hsum := sum_replace c.connectionLoad i (c.connectionLoad i + 1)
  have hglobal := h.total
  constructor <;>
    simp only [LoadCounters.reserveAt, ConnectionLoadCounter.reserve_of_lt hlimit hmax]
  · intro j
    rcases eq_or_ne j i with rfl | hj
    · simp [h.places j]
    · simp [hj, h.places j]
  · intro j
    have := h.history j
    rcases eq_or_ne j i with rfl | hj
    · simp only [Function.update_self]
      omega
    · simpa [hj] using this
  · omega
  · exact h.shortfall
  · intro j
    rcases eq_or_ne j i with rfl | hj
    · simpa using hlimit
    · simpa [hj] using h.perLoop j
  · exact h.global

theorem reserveGlobal (h : Ledger config c place 1 unsettled)
    (hlimit : c.globalLoad < config.maxConnections) (hmax : config.maxConnections ≤ sizeMax) :
    Ledger config c.reserveGlobal place 0 unsettled := by
  have hreserve := ConnectionLoadCounter.reserve_of_lt hlimit hmax
  have htotal := h.total
  refine ⟨h.places, h.history, ?_, h.shortfall, h.perLoop, ?_⟩
  · simp only [LoadCounters.reserveGlobal, hreserve]
    omega
  · simp only [LoadCounters.reserveGlobal, hreserve]
    omega

/-- The same connections, counted in another way. -/
theorem congr (h : Ledger config c place half unsettled) {place' : Fin n → ℕ}
    {half' unsettled' : ℕ} (hplace : ∀ i, place' i = place i) (hhalf : half' = half)
    (hunsettled : unsettled' = unsettled) : Ledger config c place' half' unsettled' := by
  obtain rfl : place' = place := funext hplace
  subst hhalf hunsettled
  exact h

end Ledger

/-! ### Places -/

namespace Dispatch

/-- Whether a connection of loop `i` is being posted. -/
@[simp] def posting (i : Fin n) : Dispatch n → ℕ
  | .half _ target | .reserved _ target => if target = i then 1 else 0
  | _ => 0

/-- Whether a connection of loop `i` was refused and is about to be released. -/
@[simp] def discarded (i : Fin n) : Dispatch n → ℕ
  | .refused target => if target = i then 1 else 0
  | _ => 0

/-- Whether a reservation is half done. -/
@[simp] def halfDone : Dispatch n → ℕ
  | .half _ _ => 1
  | _ => 0

/-- What is still to be taken off the counter of the group. -/
@[simp] def unsettled : Dispatch n → ℕ
  | .returning count => count
  | _ => 0

/-- What the thread has seen of the counters; only it makes them larger. -/
def Admits (config : EventLoopGroupConfig) (c : LoadCounters n) : Dispatch n → Prop
  | .chosen _ _ => c.globalLoad < config.maxConnections
  | .admitted _ target => c.globalLoad < config.maxConnections ∧
    c.connectionLoad target < config.maxConnectionsPerLoop
  | .half _ _ => c.globalLoad < config.maxConnections
  | _ => True

theorem Admits.mono {c c' : LoadCounters n} {d : Dispatch n} (h : d.Admits config c)
    (hglobal : c'.globalLoad ≤ c.globalLoad)
    (hload : ∀ i, c'.connectionLoad i ≤ c.connectionLoad i) : d.Admits config c' := by
  cases d with
  | chosen => exact hglobal.trans_lt h
  | admitted socket target => exact ⟨hglobal.trans_lt h.1, (hload target).trans_lt h.2⟩
  | half => exact hglobal.trans_lt h
  | _ => trivial

end Dispatch

namespace Closer

/-- The connections of loop `i` that the thread dropped and is about to release. -/
def discarded (i : Fin n) : Closer n → ℕ
  | .discarding loop count _ => if loop = i then count else 0
  | _ => 0

/-- What is still to be taken off the counter of the group. -/
def unsettled : Closer n → ℕ
  | .returning count _ => count
  | _ => 0

variable {i loop : Fin n} {count : ℕ} {rest : List (Fin n)}

@[simp] theorem discarded_closing : discarded i (.closing rest) = 0 := rfl

@[simp] theorem discarded_discarding :
    discarded i (.discarding loop count rest) = if loop = i then count else 0 := rfl

@[simp] theorem discarded_returning : discarded i (.returning count rest) = 0 := rfl

@[simp] theorem unsettled_closing : unsettled (.closing rest : Closer n) = 0 := rfl

@[simp] theorem unsettled_discarding : unsettled (.discarding loop count rest) = 0 := rfl

@[simp] theorem unsettled_returning : unsettled (.returning count rest : Closer n) = count := rfl

end Closer

namespace GroupWorld

/-- The connections that wait in the mailbox of loop `i`. -/
def waiting (w : GroupWorld n) (i : Fin n) : ℕ := (w.registrations i).queue.length

/-- The connections of loop `i` that threads of the group dropped and are about to release. -/
def discarded (w : GroupWorld n) (i : Fin n) : ℕ :=
  w.dispatch.discarded i + (w.closers.map (Closer.discarded i)).sum

/-- What threads are still to take off the counter of the group. -/
def unsettled (w : GroupWorld n) : ℕ :=
  w.dispatch.unsettled + (w.closers.map Closer.unsettled).sum + ∑ i, w.returning i

/-- The connections of loop `i`, by where they are. -/
def placed (w : GroupWorld n) (view : Fin n → QuotaView) (i : Fin n) : ℕ :=
  w.dispatch.posting i + w.waiting i + (view i).total + w.discarded i

end GroupWorld

/-- The counters agree with the places of the connections. -/
structure Accounts (config : EventLoopGroupConfig) (w : GroupWorld n) (view : Fin n → QuotaView) :
    Prop where
  ledger : Ledger config w.toLoadCounters (w.placed view) w.dispatch.halfDone w.unsettled
  admits : w.dispatch.Admits config w.toLoadCounters

namespace Accounts

variable {w w' : GroupWorld n} {view view' : Fin n → QuotaView} {i : Fin n} {count : ℕ}

theorem placed_eq (w : GroupWorld n) (view : Fin n → QuotaView) (i : Fin n) : w.placed view i =
    w.dispatch.posting i + (w.registrations i).queue.length + (view i).total +
      (w.dispatch.discarded i + (w.closers.map (Closer.discarded i)).sum) := rfl

/-- The connections are where they were, or have moved on without a counter. -/
theorem congr (h : Accounts config w view) (hcounters : w'.toLoadCounters = w.toLoadCounters)
    (hplaced : ∀ i, w'.placed view' i = w.placed view i)
    (hhalf : w'.dispatch.halfDone = w.dispatch.halfDone) (hunsettled : w'.unsettled = w.unsettled)
    (hadmits : w'.dispatch.Admits config w.toLoadCounters) : Accounts config w' view' where
  ledger := hcounters ▸ h.ledger.congr hplaced hhalf hunsettled
  admits := hcounters ▸ hadmits

/-- The reservation that is half done is one of a connection that is being posted. -/
theorem halfDone_le (w : GroupWorld n) (view : Fin n → QuotaView) :
    w.dispatch.halfDone ≤ ∑ i, w.placed view i := by
  cases hd : w.dispatch with
  | half socket target =>
    have hplaced : 1 ≤ w.placed view target := by
      simp only [GroupWorld.placed, hd, Dispatch.posting, if_pos]
      omega
    exact hplaced.trans (single_le_sum (fun _ _ => Nat.zero_le _) (mem_univ target))
  | _ => exact Nat.zero_le _

/-- **Dropped connections are taken off the counter of their loop.** -/
theorem releaseAt (h : Accounts config w view) (hcount : count ≤ w.placed view i)
    (hcounters : w'.toLoadCounters = w.releaseAt i count)
    (hplaced : ∀ j, w'.placed view' j = if j = i then w.placed view j - count else w.placed view j)
    (hhalf : w'.dispatch.halfDone = w.dispatch.halfDone)
    (hunsettled : w'.unsettled = w.unsettled + count)
    (hadmits : w.dispatch.Admits config w.toLoadCounters →
      w'.dispatch.Admits config w.toLoadCounters) :
    Accounts config w' view' where
  ledger := by
    rw [hcounters]
    refine (h.ledger.releaseAt hcount).congr (fun j => ?_) hhalf hunsettled
    rw [hplaced j, Function.update_apply]
    split_ifs with hj
    · rw [hj]
    · rfl
  admits := by
    rw [hcounters]
    refine (hadmits h.admits).mono le_rfl fun j => ?_
    simp only [LoadCounters.releaseAt, Function.update_apply]
    split_ifs with hj
    · subst hj
      rw [ConnectionLoadCounter.release_of_le (h.ledger.places j ▸ hcount)]
      exact Nat.sub_le _ _
    · exact le_rfl

/-- **What a loop does not count any more is taken off the counter of the group.** -/
theorem releaseGlobal (h : Accounts config w view)
    (hcounters : w'.toLoadCounters = w.releaseGlobal count)
    (hplaced : ∀ j, w'.placed view j = w.placed view j)
    (hhalf : w'.dispatch.halfDone = w.dispatch.halfDone)
    (hunsettled : w.unsettled = w'.unsettled + count)
    (hadmits : w.dispatch.Admits config w.toLoadCounters →
      w'.dispatch.Admits config w.toLoadCounters) :
    Accounts config w' view where
  ledger := by
    rw [hcounters]
    refine Ledger.congr (Ledger.releaseGlobal (hunsettled ▸ h.ledger) (halfDone_le w view))
      hplaced hhalf rfl
  admits := by
    rw [hcounters]
    refine (hadmits h.admits).mono ?_ fun j => ?_
    all_goals unfold LoadCounters.releaseGlobal
    · split_ifs
      · simp only [ConnectionLoadCounter.release]
        split_ifs <;> omega
      · exact le_rfl
    · split_ifs <;> exact le_rfl

end Accounts

/-! ### Steps -/

namespace Accounts

variable {w w' : GroupWorld n} {view view' : Fin n → QuotaView} {i : Fin n} {count : ℕ}

section

variable (h : Accounts config w view)
include h

/-- The thread in `tryDispatch` goes on without a counter or a mailbox. -/
theorem rephase (d : Dispatch n) (next : Fin n) (hposting : ∀ j, d.posting j = w.dispatch.posting j)
    (hdiscarded : ∀ j, d.discarded j = w.dispatch.discarded j)
    (hhalf : d.halfDone = w.dispatch.halfDone) (hunsettled : d.unsettled = w.dispatch.unsettled)
    (hadmits : d.Admits config w.toLoadCounters) :
    Accounts config { w with dispatch := d, nextLoopIndex := next } view := by
  refine h.congr rfl (fun j => ?_) hhalf ?_ hadmits
  · simp only [placed_eq, hposting, hdiscarded]
  · simp only [GroupWorld.unsettled, hunsettled]

/-- The connection is posted, or refused and about to be released. -/
theorem post {socket : ℤ} {target : Fin n} (hd : w.dispatch = .reserved socket target)
    (signalled : Bool) :
    Accounts config
      { w.setRegistrations target ((w.registrations target).tryPost socket signalled).2 with
        dispatch := if ((w.registrations target).tryPost socket signalled).1 then .idle
          else .refused target } view := by
  have hlength := (w.registrations target).tryPost_length socket signalled
  generalize (w.registrations target).tryPost socket signalled = posted at hlength
  obtain ⟨posted, mailbox⟩ := posted
  dsimp only at hlength
  refine h.congr rfl (fun j => ?_) ?_ ?_ ?_
  · cases posted <;> rcases eq_or_ne j target with rfl | hj
    · simp [placed_eq, GroupWorld.setRegistrations, hd, hlength]
      omega
    · simp [placed_eq, GroupWorld.setRegistrations, hd, hj, Ne.symm hj]
    · simp [placed_eq, GroupWorld.setRegistrations, hd, hlength]
      omega
    · simp [placed_eq, GroupWorld.setRegistrations, hd, hj, Ne.symm hj]
  · cases posted <;> simp [hd]
  · cases posted <;> simp [GroupWorld.unsettled, GroupWorld.setRegistrations, hd]
  · cases posted <;> trivial

/-- A step of `tryDispatch` keeps the accounts. -/
theorem dispatchStep (hglobal : config.maxConnections ≤ sizeMax)
    (hloop : config.maxConnectionsPerLoop ≤ sizeMax) (signalled : Bool) :
    Accounts config (w.dispatchStep config signalled) view := by
  have hadmits := h.admits
  have hledger := h.ledger
  unfold GroupWorld.dispatchStep
  split <;> rename_i hd
  · exact h
  · split_ifs with hlimit
    · exact h.rephase _ _ (by simp [hd]) (by simp [hd]) (by simp [hd]) (by simp [hd]) trivial
    · exact h.rephase _ _ (by simp [hd]) (by simp [hd]) (by simp [hd]) (by simp [hd])
        (not_le.mp hlimit)
  · rw [hd] at hadmits
    split_ifs with hlimit
    · exact h.rephase _ _ (by simp [hd]) (by simp [hd]) (by simp [hd]) (by simp [hd]) trivial
    · exact h.rephase _ _ (by simp [hd]) (by simp [hd]) (by simp [hd]) (by simp [hd])
        ⟨hadmits, not_le.mp hlimit⟩
  · rename_i target
    rw [hd] at hadmits hledger
    refine ⟨(hledger.reserveAt hadmits.2 hloop).congr (fun j => ?_) rfl ?_, hadmits.1⟩
    · rw [Function.update_apply]
      split_ifs with hj
      · simp [placed_eq, hd, hj]
        omega
      · simp [placed_eq, hd, Ne.symm hj]
    · simp [GroupWorld.unsettled, hd]
  · rw [hd] at hadmits hledger
    refine ⟨(hledger.reserveGlobal hadmits hglobal).congr (fun j => ?_) rfl ?_, trivial⟩
    · simp [placed_eq, hd]
    · simp [GroupWorld.unsettled, hd]
  · exact h.post hd signalled
  · rename_i target
    have hplaced : 1 ≤ w.placed view target := by
      simp [placed_eq, hd]
      omega
    have hreleased := h.ledger.releasedAt hplaced
    rw [hreleased]
    refine h.releaseAt hplaced rfl (fun j => ?_) (by simp [hd]) ?_ fun _ => trivial
    · split_ifs with hj
      · simp [placed_eq, hd, hj]
        omega
      · simp [placed_eq, hd, Ne.symm hj]
    · simp [GroupWorld.unsettled, hd]
      omega
  · rename_i count
    refine h.releaseGlobal rfl (fun j => ?_) (by simp [hd]) ?_ fun _ => trivial
    · simp [placed_eq, hd]
    · simp [GroupWorld.unsettled, hd]
      omega

/-- A step of `closeRegistrationMailboxes` keeps the accounts. -/
theorem closerStep {before after : List (Closer n)} {closer : Closer n}
    (hclosers : w.closers = before ++ closer :: after) :
    Accounts config { (w.closerStep closer).1 with
      closers := before ++ (w.closerStep closer).2 :: after } view := by
  unfold GroupWorld.closerStep
  split
  · rw [← hclosers]
    exact h
  · rename_i i rest
    dsimp only
    have hdiscarded (j : Fin n) : Closer.discarded j (if (w.registrations i).close.1 ≠ 0 then
        .discarding i (w.registrations i).close.1 rest else .closing rest) =
        if i = j then w.waiting i else 0 := by
      by_cases hempty : (w.registrations i).queue.length = 0
      · simp [ConnectionMailbox.close, GroupWorld.waiting, hempty]
      · simp only [ConnectionMailbox.close, ne_eq, hempty, not_false_eq_true, if_true]
        rfl
    have hunsettled : Closer.unsettled (if (w.registrations i).close.1 ≠ 0 then
        .discarding i (w.registrations i).close.1 rest else .closing rest) = 0 := by
      split_ifs <;> rfl
    generalize (if (w.registrations i).close.1 ≠ 0 then
      Closer.discarding i (w.registrations i).close.1 rest else .closing rest) = closer
      at hdiscarded hunsettled
    refine h.congr rfl (fun j => ?_) rfl ?_ h.admits
    · rcases eq_or_ne j i with rfl | hj
      · simp [placed_eq, GroupWorld.waiting, GroupWorld.setRegistrations, ConnectionMailbox.close,
          hdiscarded, hclosers]
        omega
      · simp [placed_eq, GroupWorld.setRegistrations, hdiscarded, hclosers, hj, Ne.symm hj]
    · simp [GroupWorld.unsettled, GroupWorld.setRegistrations, hclosers, hunsettled]
  · rename_i i count rest
    have hplaced : count ≤ w.placed view i := by
      simp [placed_eq, hclosers]
      omega
    have hreleased := h.ledger.releasedAt hplaced
    rw [hreleased]
    refine h.releaseAt hplaced rfl (fun j => ?_) rfl ?_ id
    · split_ifs with hj
      · simp [placed_eq, hclosers, hj]
        omega
      · simp [placed_eq, hclosers, Ne.symm hj]
    · simp [GroupWorld.unsettled, hclosers]
      omega
  · rename_i count rest
    refine h.releaseGlobal rfl (fun j => ?_) rfl ?_ id
    · simp [placed_eq, hclosers]
    · simp [GroupWorld.unsettled, hclosers]
      omega

/-- The thread of a loop goes on with the counter of the group. -/
theorem returnGlobal (i : Fin n) :
    Accounts config { w with
      toLoadCounters := w.releaseGlobal (w.returning i)
      returning := Function.update w.returning i 0 } view := by
  have hsum := sum_replace w.returning i 0
  refine h.releaseGlobal rfl (fun _ => rfl) rfl ?_ id
  simp only [GroupWorld.unsettled]
  omega

theorem restate (state : EventLoopGroupState) (stopRequested : Bool) :
    Accounts config { w with state, stopRequested } view := ⟨h.ledger, h.admits⟩

theorem closeRegistrationMailboxes : Accounts config w.closeRegistrationMailboxes view := by
  refine h.congr rfl (fun j => ?_) rfl ?_ h.admits
  · simp [placed_eq, GroupWorld.closeRegistrationMailboxes]
  · simp [GroupWorld.unsettled, GroupWorld.closeRegistrationMailboxes]

/-- **Every step of a thread other than the loops keeps the accounts.** -/
theorem move (hglobal : config.maxConnections ≤ sizeMax)
    (hloop : config.maxConnectionsPerLoop ≤ sizeMax) {m : GroupMove n}
    (hmove : w.move config m w') : Accounts config w' view := by
  cases m with
  | start =>
    obtain ⟨-, -, rfl⟩ := hmove
    exact h.restate _ _
  | started =>
    obtain ⟨-, -, -, rfl⟩ := hmove
    exact h.restate _ _
  | startFailed =>
    obtain ⟨-, -, rfl⟩ := hmove
    exact (h.restate _ _).closeRegistrationMailboxes
  | startFailedJoined =>
    obtain ⟨-, -, rfl⟩ := hmove
    exact h.restate _ _
  | stop =>
    obtain ⟨-, rfl⟩ := hmove
    unfold GroupWorld.stop
    split
    all_goals first
      | exact h
      | exact (h.restate _ _).closeRegistrationMailboxes
  | beginDrain =>
    obtain ⟨-, rfl⟩ := hmove
    unfold GroupWorld.beginDrain
    split_ifs
    · exact (h.restate _ _).closeRegistrationMailboxes
    · exact h
  | loopFailed =>
    obtain ⟨-, -, -, rfl⟩ := hmove
    exact (h.restate _ _).closeRegistrationMailboxes
  | joined =>
    obtain ⟨-, -, rfl⟩ := hmove
    exact h.restate _ _
  | tryDispatch socket =>
    obtain ⟨hidle, rfl⟩ := hmove
    unfold GroupWorld.tryDispatch
    split_ifs
    · exact h
    · exact h
    · exact h.rephase _ _ (by simp [hidle]) (by simp [hidle]) (by simp [hidle]) (by simp [hidle])
        trivial
  | dispatchStep signalled =>
    obtain rfl := hmove
    exact h.dispatchStep hglobal hloop signalled
  | closerStep before closer after =>
    obtain ⟨hclosers, rfl⟩ := hmove
    exact h.closerStep hclosers
  | returnGlobal i =>
    obtain rfl := hmove
    exact h.returnGlobal i

/-- The connections that loop `i` answers for are as many as before. -/
theorem keep {v : QuotaView} (hv : v.total = (view i).total) :
    Accounts config w (Function.update view i v) := by
  refine h.congr rfl (fun j => ?_) rfl rfl h.admits
  rcases eq_or_ne j i with rfl | hj
  · simp only [GroupWorld.placed, Function.update_self, hv]
  · simp only [GroupWorld.placed, Function.update_of_ne hj]

/-- Connections go from the mailbox of loop `i` to the loop. -/
theorem take {v : QuotaView} {mailbox : ConnectionMailbox}
    (hv : v.total + mailbox.queue.length = (view i).total + w.waiting i) :
    Accounts config (w.setRegistrations i mailbox) (Function.update view i v) := by
  refine h.congr rfl (fun j => ?_) rfl rfl h.admits
  rcases eq_or_ne j i with rfl | hj
  · simp [placed_eq, GroupWorld.waiting, GroupWorld.setRegistrations] at hv ⊢
    omega
  · simp [placed_eq, GroupWorld.setRegistrations, hj]

/-- **Every operation of a loop keeps the accounts.** -/
theorem serve {op : LoopOp} {r : op.Reply} (hallow : (view i).allow op)
    (hserve : w.serve i op r w') :
    Accounts config w' (Function.update view i ((view i).upd op r)) := by
  obtain ⟨hidle, hserve⟩ := hserve
  cases op with
  | popConnection =>
    obtain ⟨rfl, rfl⟩ := hserve
    refine h.take ?_
    have hpop := (w.registrations i).tryPop_length
    rw [QuotaView.total_pop]
    unfold GroupWorld.waiting
    omega
  | closeMailboxes =>
    obtain ⟨rfl, rfl⟩ := hserve
    refine h.take ?_
    rw [QuotaView.total_closeMailboxes]
    rfl
  | epollAdd fd events generation =>
    obtain rfl := hserve
    exact h.keep (QuotaView.total_epollAdd hallow r)
  | closeSocket fd =>
    obtain rfl := hserve
    exact h.keep (QuotaView.total_closeSocket hallow)
  | releaseConnection =>
    obtain rfl := hserve
    have htotal := QuotaView.total_release hallow r
    have hplaced : 1 ≤ w.placed view i := by
      unfold GroupWorld.placed
      omega
    rw [h.ledger.releasedAt hplaced]
    refine h.releaseAt hplaced rfl (fun j => ?_) rfl ?_ id
    · split_ifs with hj
      · subst hj
        simp only [placed_eq, Function.update_self]
        omega
      · simp [placed_eq, hj]
    · have hsum := sum_replace w.returning i 1
      simp only [GroupWorld.unsettled]
      omega
  | _ =>
    obtain rfl := hserve
    exact h.keep rfl

end

end Accounts

/-! ### The group -/

/-- A state of a group. -/
abbrev GroupSystemState (config : CheckedGroupConfig) :=
  PoolState LoopSig (Fin config.loopCount) (GroupCall config.loopCount)
    (GroupWorld config.loopCount) QuotaView LoopState EventLoopStatus

/-- The contract of the loops' threads. -/
def groupContract (config : CheckedGroupConfig) : Contract (groupPool config) where
  idle := Balance 0 0
  allow := QuotaView.allow
  post _ _ _ _ := True
  init_idle := by
    rintro w v x ⟨-, -, -, -, -, -, -, -, rfl, rfl⟩ i
    exact ⟨rfl, fun fd e he => by simp at he⟩
  meets := by
    rintro i ⟨loop, call⟩ v st ⟨-, hcall⟩ hidle
    have hstays : EventLoop.Stays QuotaView.upd QuotaView.allow (Balance 0 0)
        (call.code (config.loopConfig loop)) := by
      cases call with
      | adopt fd => exact absurd rfl (hcall fd)
      | pollOnce fuel timeoutMs => exact EventLoop.stays_pollOnce fuel timeoutMs
      | shutdown => exact EventLoop.stays_forceShutdown.bind fun _ => EventLoop.stays_pure _
    refine Proc.Meets.mono (hstays v st hidle) ?_
    rintro v st a ⟨b, -, h⟩
    exact ⟨h, trivial⟩

/-- The counters agree with the places in every reachable state. -/
theorem accounts_of_reachable {config : CheckedGroupConfig} {s : GroupSystemState config}
    (h : (groupPool config).system.Reachable s) :
    Accounts config.toEventLoopGroupConfig s.world s.view := by
  refine (groupContract config).invariant (I := fun s =>
    Accounts config.toEventLoopGroupConfig s.world s.view) h ?_ ?_
  · rintro s ⟨⟨-, -, -, hregistrations, hcounters, hdispatch, hclosers, hreturning, hview, -⟩, -, -⟩
    have hwaiting (i : Fin config.loopCount) : s.world.waiting i = 0 := by
      simp [GroupWorld.waiting, hregistrations]
    have hunsettled : s.world.unsettled = 0 := by
      simp [GroupWorld.unsettled, hdispatch, hclosers, hreturning]
    refine ⟨?_, by rw [hdispatch]; trivial⟩
    rw [hcounters, hdispatch, hunsettled]
    refine ⟨fun i => ?_, fun _ => rfl, by simp, rfl, fun _ => Nat.zero_le _, Nat.zero_le _⟩
    simp [GroupWorld.placed, GroupWorld.discarded, hdispatch, hclosers, hwaiting, hview,
      QuotaView.total]
  · intro s l s' hr hi hlawful
    cases hlawful with
    | @begin i c hrun hmay hidle =>
      change Accounts _ s.world (Function.update s.view i (s.view i))
      rwa [Function.update_eq_self]
    | @op i c o k r w hrun hallow hserve => exact hi.serve hallow hserve
    | finish => exact hi
    | env henv => exact hi.move config.maxConnections_le config.maxConnectionsPerLoop_le henv

/-- **Connection quota accounting is exact.**  In every reachable state of a group, whatever was
dispatched, drained, stopped and shut down and however the kernel, the timers and the workers
answered the loops:

* the load of a loop is the number of its connections that are being posted, wait in the mailbox,
  were taken out and not yet adopted, are held by a session, or were dropped and are about to be
  released; between two calls a loop answers for its sessions only;
* it is the number of reservations that were not released, and no release ever found a counter
  lower than what it was to take off;
* the load of the group is the sum of the loads of the loops, unless a reservation or a release is
  half done;
* the loads are within the limits. -/
theorem connection_load_exact (config : CheckedGroupConfig) {s : GroupSystemState config}
    (h : (groupPool config).system.Reachable s) :
    (∀ i, s.world.connectionLoad i = s.world.dispatch.posting i + s.world.waiting i +
      (s.view i).popped + (s.view i).live + ((s.view i).dropped + s.world.discarded i)) ∧
    (∀ i, s.run i = none → (s.view i).popped = 0 ∧ (s.view i).dropped = 0 ∧
      (s.view i).live = (s.vars i).sessions.size) ∧
    (∀ i, s.world.connectionLoad i + s.world.released i = s.world.reserved i) ∧
    s.world.shortfall = 0 ∧
    (s.world.dispatch.halfDone = 0 → s.world.unsettled = 0 →
      s.world.globalLoad = ∑ i, s.world.connectionLoad i) ∧
    (∀ i, s.world.connectionLoad i ≤ config.maxConnectionsPerLoop) ∧
    s.world.globalLoad ≤ config.maxConnections := by
  have hledger := (accounts_of_reachable h).ledger
  refine ⟨fun i => ?_, fun i hrun => ?_, hledger.history, hledger.shortfall,
    fun hhalf hsettled => ?_, hledger.perLoop, hledger.global⟩
  · rw [hledger.places i]
    simp only [GroupWorld.placed, QuotaView.total]
    omega
  · have hidle : Balance 0 0 (s.view i) (s.vars i) :=
      ((groupContract config).meets_running h i).idle hrun
    rw [hidle.view]
    exact ⟨rfl, rfl, rfl⟩
  · have htotal := hledger.total
    rwa [hhalf, hsettled] at htotal

/-! ### A run -/

/-- A group of one loop. -/
def singleLoop : CheckedGroupConfig where
  maxConnections := 2
  maxConnectionsPerLoop := 2
  connectionQueueCapacity := 1
  accepted := rfl
  maxConnections_le := by decide
  maxConnectionsPerLoop_le := by decide

/-- Its loop. -/
def onlyLoop : Fin singleLoop.loopCount := (0 : Fin 1)

/-- A group that was just made. -/
def newGroup : GroupSystemState singleLoop where
  world := {
    state := .constructed
    stopRequested := false
    nextLoopIndex := onlyLoop
    registrations := fun _ => { capacity := 1 }
    dispatch := .idle
    closers := []
    returning := fun _ => 0 }
  view _ := {}
  vars _ := {}
  run _ := none
  ended := []

theorem reachable_newGroup : (groupPool singleLoop).system.Reachable newGroup :=
  .init ⟨⟨rfl, rfl, rfl, fun _ => rfl, rfl, rfl, rfl, rfl, rfl, rfl⟩, fun _ => rfl, rfl⟩

theorem group_env {s : GroupSystemState singleLoop}
    (h : (groupPool singleLoop).system.Reachable s) (m : GroupMove 1) {w : GroupWorld 1}
    (henv : s.world.move singleLoop.toEventLoopGroupConfig m w) :
    (groupPool singleLoop).system.Reachable (s.move w) := h.step (.env henv)

theorem group_op {s : GroupSystemState singleLoop}
    (h : (groupPool singleLoop).system.Reachable s) {c : GroupCall 1} (op : LoopOp) (r : op.Reply)
    {k : op.Reply → Prog LoopSig (Option EventLoopStatus × LoopState)} {w : GroupWorld 1}
    (hrun : s.run onlyLoop = some (c, .call op k)) (hserve : s.world.serve onlyLoop op r w) :
    (groupPool singleLoop).system.Reachable
      (s.answer onlyLoop c w (QuotaView.upd (s.view onlyLoop) op r) (k r)) :=
        h.step (.op hrun hserve)

theorem connection_load_exact_adopted : ∃ s : GroupSystemState singleLoop,
    (groupPool singleLoop).system.Reachable s ∧ (s.view onlyLoop).live = 1 ∧
      s.world.connectionLoad onlyLoop = 1 ∧ s.world.globalLoad ≤ 2 := by
  have h := reachable_newGroup
  have h := group_env h .start ⟨rfl, rfl, rfl⟩
  have h := group_env h .started ⟨rfl, rfl, rfl, rfl⟩
  -- a connection is dispatched
  have h := group_env h (.tryDispatch 5) ⟨rfl, rfl⟩
  have h := group_env h (.dispatchStep true) rfl
  have h := group_env h (.dispatchStep true) rfl
  have h := group_env h (.dispatchStep true) rfl
  have h := group_env h (.dispatchStep true) rfl
  have h := group_env h (.dispatchStep true) rfl
  -- and the loop adopts it
  have h := h.step (.begin (i := onlyLoop) (c := ⟨onlyLoop, .pollOnce 2 0⟩) rfl
    ⟨rfl, fun _ => by simp⟩)
  have h := group_op h .epollWait (some [(0, {})]) rfl ⟨rfl, rfl⟩
  have h := group_op h (.drainWakeSignal .completion) true rfl ⟨rfl, rfl⟩
  have h := group_op h .popCompletion none rfl ⟨rfl, rfl⟩
  have h := group_op h (.drainWakeSignal .connection) true rfl ⟨rfl, rfl⟩
  have h := group_op h .popConnection (some 5) rfl ⟨rfl, rfl, rfl⟩
  have h := group_op h .outOfMemory false rfl ⟨rfl, rfl⟩
  have h := group_op h (.epollAdd 5 _ 1) true rfl ⟨rfl, rfl⟩
  refine ⟨_, h, rfl, ?_, (connection_load_exact singleLoop h).2.2.2.2.2.2⟩
  rfl

end AegisFlow
