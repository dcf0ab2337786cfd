import Mathlib.Data.List.Basic
import Mathlib.Tactic.SplitIfs

/-!
# The bounded worker pool

A fixed number of worker threads takes tasks from a bounded queue.  `BoundedWorkerPool` models
what happens under the pool's lock; a task is `queued` until a worker takes it and `running`
until the worker has returned from it.  The counter `inflight` goes up when a task is accepted
and comes down after it ran or was cancelled, so it counts exactly the queued and the running
tasks: this is the field `inflight_eq`.
-/

namespace AegisFlow

/-- How a submission ended. -/
inductive WorkerSubmitStatus
  | accepted
  | rejected
  | closed
  deriving DecidableEq, Repr

/-- A pool for tasks of type `τ`. -/
structure BoundedWorkerPool (τ : Type) where
  threadCount : ℕ
  /-- How many tasks may wait. -/
  queueCapacity : ℕ
  /-- Waiting tasks, oldest first. -/
  queue : List τ
  /-- The tasks the workers are in. -/
  running : List τ
  /-- Tasks accepted and not finished yet. -/
  inflight : ℕ
  accepting : Bool
  queue_le : queue.length ≤ queueCapacity
  running_le : running.length ≤ threadCount
  inflight_eq : inflight = queue.length + running.length

namespace BoundedWorkerPool

variable {τ : Type} {pool pool' : BoundedWorkerPool τ} {t : τ}

theorem inflight_nil : 0 = ([] : List τ).length + ([] : List τ).length := rfl

/-- An open pool without tasks. -/
def empty (threadCount queueCapacity : ℕ) : BoundedWorkerPool τ :=
  ⟨threadCount, queueCapacity, [], [], 0, true, Nat.zero_le queueCapacity,
    Nat.zero_le threadCount, inflight_nil⟩

/-- A new pool; the configuration must not be zero. -/
def create (threadCount queueCapacity : ℕ) : Option (BoundedWorkerPool τ) :=
  if 0 < threadCount ∧ 0 < queueCapacity then some (empty threadCount queueCapacity) else none

variable (pool : BoundedWorkerPool τ)

/-- Submit a task; `none` is a null pointer. -/
def trySubmit (task : Option τ) : WorkerSubmitStatus × BoundedWorkerPool τ :=
  if !pool.accepting then (.closed, pool)
  else match task with
    | none => (.rejected, pool)
    | some t =>
      if h : pool.queueCapacity ≤ pool.queue.length then (.rejected, pool)
      else (.accepted, { pool with
        queue := pool.queue ++ [t]
        inflight := pool.inflight + 1
        queue_le := by simp only [List.length_append, List.length_singleton]; omega
        inflight_eq := by
          have := pool.inflight_eq
          simp only [List.length_append, List.length_singleton]; omega })

/-- The number of tasks accepted and not finished yet. -/
def inflightCount : ℕ := pool.inflight

/-- Accept no further tasks. -/
def close : BoundedWorkerPool τ := { pool with accepting := false }

/-- An idle worker takes the oldest waiting task. -/
def take : Option (BoundedWorkerPool τ) :=
  match hq : pool.queue with
  | [] => none
  | t :: rest =>
    if h : pool.running.length < pool.threadCount then
      some { pool with
        queue := rest
        running := t :: pool.running
        queue_le := by have := pool.queue_le; simp only [hq, List.length_cons] at this; omega
        running_le := h
        inflight_eq := by
          have := pool.inflight_eq
          simp only [hq, List.length_cons] at this ⊢; omega }
    else none

/-- A worker returned from its task, normally or by an exception. -/
def finish [DecidableEq τ] (t : τ) : Option (BoundedWorkerPool τ) :=
  if h : t ∈ pool.running then
    some { pool with
      running := pool.running.erase t
      inflight := pool.inflight - 1
      running_le := Nat.le_trans List.length_erase_le pool.running_le
      inflight_eq := by
        have := pool.inflight_eq
        have hpos := List.length_pos_of_mem h
        rw [List.length_erase_of_mem h]; omega }
  else none

/-- The deadline of a drain passed: cancel the waiting tasks. -/
def cancelQueued : BoundedWorkerPool τ :=
  { pool with
    queue := []
    inflight := pool.inflight - pool.queue.length
    accepting := false
    queue_le := Nat.zero_le _
    inflight_eq := by have := pool.inflight_eq; simp only [List.length_nil]; omega }

/-! ### Which tasks are under way -/

/-- The task is waiting or running. -/
def Inflight (t : τ) : Prop := t ∈ pool.queue ∨ t ∈ pool.running

variable {pool}

/-- **A count of zero means that no task is under way.** -/
theorem not_inflight_of_inflightCount_eq_zero (h : pool.inflightCount = 0) (t : τ) :
    ¬ pool.Inflight t := by
  have heq := pool.inflight_eq
  rw [inflightCount] at h
  have hq : pool.queue = [] := List.length_eq_zero_iff.mp (by omega)
  have hr : pool.running = [] := List.length_eq_zero_iff.mp (by omega)
  simp [Inflight, hq, hr]

theorem trySubmit_cases (pool : BoundedWorkerPool τ) (task : Option τ) :
    ((pool.trySubmit task).1 ≠ .accepted ∧ (pool.trySubmit task).2 = pool) ∨
    (∃ t, task = some t ∧ (pool.trySubmit task).1 = .accepted ∧
      (pool.trySubmit task).2.queue = pool.queue ++ [t] ∧
      (pool.trySubmit task).2.running = pool.running) := by
  unfold trySubmit
  cases task with
  | none => left; split_ifs <;> simp
  | some t =>
    by_cases hacc : pool.accepting = true
    · by_cases hfull : pool.queueCapacity ≤ pool.queue.length
      · left; simp [hacc, hfull]
      · right; exact ⟨t, rfl, by simp [hacc, hfull]⟩
    · left; simp [hacc]

theorem inflight_trySubmit {task : Option τ} (h : (pool.trySubmit task).2.Inflight t) :
    pool.Inflight t ∨ ((pool.trySubmit task).1 = .accepted ∧ task = some t) := by
  rcases pool.trySubmit_cases task with ⟨-, heq⟩ | ⟨u, hu, hacc, hqueue, hrunning⟩
  · exact .inl (heq ▸ h)
  · simp only [Inflight, hqueue, hrunning, List.mem_append, List.mem_singleton] at h
    rcases h with (h | rfl) | h
    · exact .inl (.inl h)
    · exact .inr ⟨hacc, hu⟩
    · exact .inl (.inr h)

theorem inflight_take (h : pool.take = some pool') (ht : pool'.Inflight t) : pool.Inflight t := by
  unfold take at h
  split at h
  · cases h
  · rename_i u rest hq
    split_ifs at h with hlt
    cases h
    simp only [Inflight, List.mem_cons] at ht
    rcases ht with ht | rfl | ht
    · exact .inl (hq ▸ List.mem_cons_of_mem _ ht)
    · exact .inl (hq ▸ List.mem_cons_self)
    · exact .inr ht

/-- Taking a task moves it, finishing and cancelling remove some. -/
theorem take_perm (h : pool.take = some pool') :
    (pool'.queue ++ pool'.running).Perm (pool.queue ++ pool.running) := by
  unfold take at h
  split at h
  · cases h
  · rename_i t rest hq
    split_ifs at h with hlt
    cases h
    dsimp only
    rw [hq]
    exact List.perm_middle

theorem finish_sublist [DecidableEq τ] (h : pool.finish t = some pool') :
    (pool'.queue ++ pool'.running).Sublist (pool.queue ++ pool.running) := by
  unfold finish at h
  split_ifs at h with hmem
  cases h
  exact (List.Sublist.refl _).append List.erase_sublist

/-- The pools have as many threads and as large a queue. -/
def SameSize (pool' pool : BoundedWorkerPool τ) : Prop :=
  pool'.queueCapacity = pool.queueCapacity ∧ pool'.threadCount = pool.threadCount

theorem sameSize_trySubmit (pool : BoundedWorkerPool τ) (task : Option τ) :
    (pool.trySubmit task).2.SameSize pool := by
  unfold trySubmit
  split
  · exact ⟨rfl, rfl⟩
  · split
    · exact ⟨rfl, rfl⟩
    · split_ifs <;> exact ⟨rfl, rfl⟩

theorem sameSize_take (h : pool.take = some pool') : pool'.SameSize pool := by
  unfold take at h
  split at h
  · cases h
  · split_ifs at h
    cases h
    exact ⟨rfl, rfl⟩

theorem sameSize_finish [DecidableEq τ] (h : pool.finish t = some pool') : pool'.SameSize pool := by
  unfold finish at h
  split_ifs at h
  cases h
  exact ⟨rfl, rfl⟩

theorem inflight_finish [DecidableEq τ] {u : τ} (h : pool.finish u = some pool')
    (ht : pool'.Inflight t) : pool.Inflight t := by
  unfold finish at h
  split_ifs at h with hmem
  cases h
  exact ht.imp id List.mem_of_mem_erase

theorem inflight_cancelQueued (h : pool.cancelQueued.Inflight t) : pool.Inflight t := by
  simp only [Inflight, cancelQueued, List.not_mem_nil, false_or] at h
  exact .inr h

end BoundedWorkerPool

end AegisFlow
