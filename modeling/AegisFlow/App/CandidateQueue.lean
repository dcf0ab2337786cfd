import AegisFlow.Risk.Mutation

/-!
# The candidate queue

Business workers hand the entities they want blacklisted to one bounded queue; the
maintenance worker takes them out in batches.  A batch that was taken out stays *reserved*
inside the queue until it is acknowledged, and is handed out again until then.

`CandidateQueue` carries its invariants: what is queued and what is reserved together fit the
capacity, and everything inside is an upsert of some entity.

* `CandidateQueue.trySubmit`, `reserveBatch`, `acknowledgeReserved`, … : the operations;
* `Covers` : one upsert makes another one superfluous, being about the same entity and
  expiring at least as late;
* `mergeAll_covers` : **merging a segment of the queue into a batch loses nothing**.
-/

namespace AegisFlow

/-- Largest value of an unsigned 64-bit counter. -/
def kUint64Max : ℕ := 2 ^ 64 - 1

/-- How a submission ended. -/
inductive CandidateSubmitStatus
  | accepted
  | full
  | closed
  | invalid
  deriving DecidableEq, Repr

/-! ### Expiries -/

/-- An expiry of `0` is later than any other. -/
def expiresLater (candidateExpireAtMs currentExpireAtMs : ℕ) : Bool :=
  candidateExpireAtMs == 0 ||
    (currentExpireAtMs != 0 && decide (currentExpireAtMs < candidateExpireAtMs))

/-- An entry with the first expiry outlives, or dies together with, one with the second. -/
def LastsAsLong (a b : ℕ) : Prop := a = 0 ∨ b ≠ 0 ∧ b ≤ a

instance (a b : ℕ) : Decidable (LastsAsLong a b) := inferInstanceAs (Decidable (_ ∨ _))

theorem LastsAsLong.refl (a : ℕ) : LastsAsLong a a := by
  unfold LastsAsLong; omega

theorem LastsAsLong.trans {a b c : ℕ} (h : LastsAsLong a b) (h' : LastsAsLong b c) :
    LastsAsLong a c := by
  unfold LastsAsLong at *; omega

/-- Of two expiries, the one that `expiresLater` chooses lasts as long as the other. -/
theorem lastsAsLong_of_expiresLater {a b : ℕ} (h : expiresLater a b = true) :
    LastsAsLong a b := by
  simp only [expiresLater, Bool.or_eq_true, beq_iff_eq, Bool.and_eq_true, bne_iff_ne,
    decide_eq_true_eq] at h
  unfold LastsAsLong; omega

theorem lastsAsLong_of_not_expiresLater {a b : ℕ} (h : expiresLater a b = false) :
    LastsAsLong b a := by
  simp only [expiresLater, Bool.or_eq_false_iff, beq_eq_false_iff_ne, Bool.and_eq_false_iff,
    bne_eq_false_iff_eq, decide_eq_false_iff_not] at h
  unfold LastsAsLong; omega

/-! ### Batches -/

variable [Inet]

/-- A candidate is an upsert of an entity. -/
def isCandidate (mutation : BlacklistMutation) : Bool :=
  mutation.operation == .upsert && mutation.entityType.isSome

/-- Add a mutation to a batch; the first item about the same entity is replaced if the new
one expires later and kept otherwise. -/
def mergeIntoReserved : List BlacklistMutation → BlacklistMutation → List BlacklistMutation
  | [], mutation => [mutation]
  | existing :: batch, mutation =>
    if existing.sameEntity mutation then
      if expiresLater mutation.expireAtMs existing.expireAtMs then mutation :: batch
      else existing :: batch
    else existing :: mergeIntoReserved batch mutation

/-- A segment of the queue merged into a batch, first item first. -/
def mergeAll (batch segment : List BlacklistMutation) : List BlacklistMutation :=
  segment.foldl mergeIntoReserved batch

theorem length_mergeIntoReserved_le (batch : List BlacklistMutation) (m : BlacklistMutation) :
    (mergeIntoReserved batch m).length ≤ batch.length + 1 := by
  induction batch with
  | nil => simp [mergeIntoReserved]
  | cons x xs ih =>
    simp only [mergeIntoReserved]
    split_ifs <;> simp_all

variable {batch segment : List BlacklistMutation} {m c : BlacklistMutation}

theorem mem_mergeIntoReserved {y : BlacklistMutation} (h : y ∈ mergeIntoReserved batch m) :
    y ∈ batch ∨ y = m := by
  induction batch with
  | nil => simpa [mergeIntoReserved] using h
  | cons x xs ih =>
    simp only [mergeIntoReserved] at h
    split_ifs at h <;> simp only [List.mem_cons] at h ⊢ <;> tauto

theorem length_mergeAll_le (segment batch : List BlacklistMutation) :
    (mergeAll batch segment).length ≤ batch.length + segment.length := by
  induction segment generalizing batch with
  | nil => simp [mergeAll]
  | cons m segment ih =>
    have h := ih (mergeIntoReserved batch m)
    have h' := length_mergeIntoReserved_le batch m
    simp only [mergeAll, List.foldl_cons, List.length_cons] at h ⊢
    omega

/-- Moving the oldest `n` queued candidates into the batch needs no further room. -/
theorem length_drop_add_mergeAll_le {queued : List BlacklistMutation} {capacity : ℕ} (n : ℕ)
    (h : queued.length + batch.length ≤ capacity) :
    (queued.drop n).length + (mergeAll batch (queued.take n)).length ≤ capacity := by
  have hl := length_mergeAll_le (queued.take n) batch
  simp only [List.length_take, List.length_drop] at hl ⊢
  omega

theorem mem_mergeAll {y : BlacklistMutation} (h : y ∈ mergeAll batch segment) :
    y ∈ batch ∨ y ∈ segment := by
  induction segment generalizing batch with
  | nil => exact .inl h
  | cons m segment ih =>
    rcases ih h with h | h
    · rcases mem_mergeIntoReserved h with h | rfl
      · exact .inl h
      · exact .inr List.mem_cons_self
    · exact .inr (List.mem_cons_of_mem _ h)

theorem mergeIntoReserved_ne_nil (batch : List BlacklistMutation) (m : BlacklistMutation) :
    mergeIntoReserved batch m ≠ [] := by
  cases batch with
  | nil => simp [mergeIntoReserved]
  | cons x xs =>
    simp only [mergeIntoReserved]
    split_ifs <;> simp

theorem mergeAll_eq_nil (h : mergeAll batch segment = []) : batch = [] ∧ segment = [] := by
  induction segment generalizing batch with
  | nil => exact ⟨h, rfl⟩
  | cons m segment ih =>
    have hnil := (ih h).1
    exact absurd hnil (mergeIntoReserved_ne_nil batch m)

/-! ### Coverage -/

/-- Writing `m` makes writing `c` superfluous. -/
structure Covers (m c : BlacklistMutation) : Prop where
  upsert : m.operation = .upsert
  entityType : m.entityType = c.entityType
  id : m.id = c.id
  lasts : LastsAsLong m.expireAtMs c.expireAtMs

theorem Covers.refl (h : isCandidate m = true) : Covers m m := by
  simp only [isCandidate, Bool.and_eq_true, beq_iff_eq] at h
  exact ⟨h.1, rfl, rfl, .refl _⟩

theorem Covers.trans {a b : BlacklistMutation} (h : Covers a b) (h' : Covers b c) : Covers a c :=
  ⟨h.upsert, h.entityType.trans h'.entityType, h.id.trans h'.id, h.lasts.trans h'.lasts⟩

/-- Some item of the batch covers `c`. -/
def Covered (batch : List BlacklistMutation) (c : BlacklistMutation) : Prop :=
  ∃ m ∈ batch, Covers m c

theorem sameEntity_iff {a b : BlacklistMutation} :
    a.sameEntity b = true ↔ a.entityType = b.entityType ∧ a.id = b.id := by
  simp [BlacklistMutation.sameEntity]

/-- Merging one candidate into a batch of upserts keeps what was covered and covers the
candidate itself. -/
theorem mergeIntoReserved_covers (hbatch : ∀ x ∈ batch, isCandidate x = true)
    (hm : isCandidate m = true) (h : Covered batch c ∨ Covers m c) :
    Covered (mergeIntoReserved batch m) c := by
  induction batch with
  | nil =>
    rcases h with ⟨x, hx, -⟩ | h
    · cases hx
    · exact ⟨m, by simp [mergeIntoReserved], h⟩
  | cons x xs ih =>
    have hx := hbatch x List.mem_cons_self
    have ih := ih fun y hy => hbatch y (List.mem_cons_of_mem _ hy)
    simp only [mergeIntoReserved]
    split_ifs with hsame hlater
    · obtain ⟨ht, hi⟩ := sameEntity_iff.mp hsame
      have hmx : Covers m x :=
        ⟨(Covers.refl hm).upsert, ht.symm, hi.symm, lastsAsLong_of_expiresLater hlater⟩
      rcases h with ⟨y, hy, hyc⟩ | h
      · rcases List.mem_cons.mp hy with rfl | hy
        · exact ⟨m, List.mem_cons_self, hmx.trans hyc⟩
        · exact ⟨y, List.mem_cons_of_mem _ hy, hyc⟩
      · exact ⟨m, List.mem_cons_self, h⟩
    · obtain ⟨ht, hi⟩ := sameEntity_iff.mp hsame
      have hxm : Covers x m := ⟨(Covers.refl hx).upsert, ht, hi,
        lastsAsLong_of_not_expiresLater (Bool.eq_false_iff.mpr hlater)⟩
      rcases h with ⟨y, hy, hyc⟩ | h
      · exact ⟨y, hy, hyc⟩
      · exact ⟨x, List.mem_cons_self, hxm.trans h⟩
    · rcases h with ⟨y, hy, hyc⟩ | h
      · rcases List.mem_cons.mp hy with rfl | hy
        · exact ⟨y, List.mem_cons_self, hyc⟩
        · obtain ⟨z, hz, hzc⟩ := ih (.inl ⟨y, hy, hyc⟩)
          exact ⟨z, List.mem_cons_of_mem _ hz, hzc⟩
      · obtain ⟨z, hz, hzc⟩ := ih (.inr h)
        exact ⟨z, List.mem_cons_of_mem _ hz, hzc⟩

/-- **Merging loses nothing**: what the batch covered and what the segment contained is
covered by the merged batch. -/
theorem mergeAll_covers (hbatch : ∀ x ∈ batch, isCandidate x = true)
    (hseg : ∀ x ∈ segment, isCandidate x = true) (h : Covered batch c ∨ c ∈ segment) :
    Covered (mergeAll batch segment) c := by
  induction segment generalizing batch with
  | nil =>
    rcases h with h | h
    · exact h
    · cases h
  | cons m segment ih =>
    have hm := hseg m List.mem_cons_self
    have hmerged : ∀ x ∈ mergeIntoReserved batch m, isCandidate x = true := by
      intro x hx
      rcases mem_mergeIntoReserved hx with hx | rfl
      · exact hbatch x hx
      · exact hm
    refine ih hmerged
      (fun x hx => hseg x (List.mem_cons_of_mem _ hx)) ?_
    rcases h with h | h
    · exact .inl (mergeIntoReserved_covers hbatch hm (.inl h))
    · rcases List.mem_cons.mp h with rfl | h
      · exact .inl (mergeIntoReserved_covers hbatch hm (.inr (.refl hm)))
      · exact .inr h

/-! ### The queue -/

/-- The queue with its reserved batch and its counters. -/
structure CandidateQueue where
  /-- How many candidates the queue holds at most, the reserved batch included. -/
  capacity : ℕ
  /-- Waiting candidates, oldest first. -/
  queued : List BlacklistMutation
  /-- The batch that was taken out and is not acknowledged yet. -/
  reservedBatch : List BlacklistMutation
  /-- Submissions refused because the queue was full. -/
  droppedCount : ℕ
  /-- The part of `droppedCount` already reported. -/
  reportedDroppedCount : ℕ
  /-- Candidates thrown away on shutdown. -/
  droppedOnShutdownCount : ℕ
  /-- No further submissions are accepted. -/
  closed : Bool
  capacity_pos : 0 < capacity
  bounded : queued.length + reservedBatch.length ≤ capacity
  candidates : ∀ m ∈ queued ++ reservedBatch, isCandidate m = true
  reported_le : reportedDroppedCount ≤ droppedCount
  dropped_le : droppedCount ≤ kUint64Max
  shutdown_le : droppedOnShutdownCount ≤ kUint64Max

namespace CandidateQueue

/-- A queue without candidates. -/
def fresh (capacity : ℕ) (h : 0 < capacity) : CandidateQueue :=
  ⟨capacity, [], [], 0, 0, 0, false, h, by simp, by simp, le_rfl, by simp, by simp⟩

/-- A new queue; a capacity of zero is refused. -/
def create (capacity : ℕ) : Option CandidateQueue :=
  if h : 0 < capacity then some (fresh capacity h) else none

variable (q : CandidateQueue)

/-- Submit a candidate. -/
def trySubmit (candidate : BlacklistMutation) : CandidateSubmitStatus × CandidateQueue :=
  if hc : isCandidate candidate = true then
    if q.closed then (.closed, q)
    -- the capacity counts the batch that is out for writing as well
    else if hfull : q.capacity ≤ q.queued.length + q.reservedBatch.length then
      if hmax : q.droppedCount ≠ kUint64Max then
        (.full, { q with
          droppedCount := q.droppedCount + 1
          reported_le := Nat.le_succ_of_le q.reported_le
          dropped_le := Nat.lt_of_le_of_ne q.dropped_le hmax })
      else (.full, q)
    else (.accepted, { q with
      queued := q.queued ++ [candidate]
      bounded := by simp only [List.length_append, List.length_singleton]; omega
      candidates := by
        intro m hm
        simp only [List.mem_append, List.mem_singleton] at hm
        rcases hm with (hm | rfl) | hm
        · exact q.candidates m (List.mem_append_left _ hm)
        · exact hc
        · exact q.candidates m (List.mem_append_right _ hm) })
  else (.invalid, q)

/-- Take a batch out.  A batch that is not acknowledged yet is handed out again. -/
def reserveBatch (maxBatchSize : ℕ) : List BlacklistMutation × CandidateQueue :=
  if h : q.reservedBatch ≠ [] then (q.reservedBatch, q)
  else if maxBatchSize = 0 then ([], q)
  else
    let takeCount := min maxBatchSize q.queued.length
    let batch := mergeAll q.reservedBatch (q.queued.take takeCount)
    (batch, { q with
      queued := q.queued.drop takeCount
      reservedBatch := batch
      bounded := length_drop_add_mergeAll_le takeCount q.bounded
      candidates := by
        intro m hm
        rcases List.mem_append.mp hm with hm | hm
        · exact q.candidates m (List.mem_append_left _ (List.mem_of_mem_drop hm))
        · rcases mem_mergeAll hm with hm | hm
          · exact q.candidates m (List.mem_append_right _ hm)
          · exact q.candidates m (List.mem_append_left _ (List.mem_of_mem_take hm)) })

/-- The reserved batch was written: give its room back. -/
def acknowledgeReserved : CandidateQueue :=
  { q with
    reservedBatch := []
    bounded := (Nat.le_add_right _ _).trans q.bounded
    candidates := fun m hm => q.candidates m (List.mem_append_left _ (by simpa using hm)) }

/-- Refuse further submissions. -/
def close : CandidateQueue := { q with closed := true }

/-- Throw away what is left, and report how much was. -/
def discardRemainingOnShutdown : ℕ × CandidateQueue :=
  let remaining := q.queued.length + q.reservedBatch.length
  let available := kUint64Max - q.droppedOnShutdownCount
  let added := min remaining available
  (added, { q with
    queued := []
    reservedBatch := []
    droppedOnShutdownCount := q.droppedOnShutdownCount + added
    bounded := Nat.zero_le _
    candidates := by simp
    shutdown_le := by have := q.shutdown_le; omega })

/-- How many submissions were dropped since the last report. -/
def takeDroppedSinceLastReport : ℕ × CandidateQueue :=
  (q.droppedCount - q.reportedDroppedCount,
    { q with reportedDroppedCount := q.droppedCount, reported_le := le_rfl })

/-- Neither queued nor reserved candidates. -/
def empty : Bool := q.queued.isEmpty && q.reservedBatch.isEmpty

/-! ### What the operations do to the contents -/

theorem trySubmit_cases (m : BlacklistMutation) :
    ((q.trySubmit m).1 = .accepted ∧ isCandidate m = true ∧
      (q.trySubmit m).2.queued = q.queued ++ [m] ∧
      (q.trySubmit m).2.reservedBatch = q.reservedBatch ∧
      (q.trySubmit m).2.capacity = q.capacity) ∨
    ((q.trySubmit m).1 ≠ .accepted ∧ (q.trySubmit m).2.queued = q.queued ∧
      (q.trySubmit m).2.reservedBatch = q.reservedBatch ∧
      (q.trySubmit m).2.capacity = q.capacity) := by
  unfold trySubmit
  split_ifs with hc hclosed hfull hmax
  · simp
  · simp
  · simp
  · simp [hc]
  · simp

/-- A batch is either handed out again, or merged from the oldest queued candidates. -/
theorem reserveBatch_cases (n : ℕ) :
    ((q.reserveBatch n).1 = q.reservedBatch ∧ (q.reserveBatch n).2 = q) ∨
    (q.reservedBatch = [] ∧ ∃ segment rest, q.queued = segment ++ rest ∧
      (q.reserveBatch n).1 = mergeAll [] segment ∧
      (q.reserveBatch n).2.reservedBatch = mergeAll [] segment ∧
      (q.reserveBatch n).2.queued = rest ∧ (q.reserveBatch n).2.capacity = q.capacity) := by
  by_cases h : q.reservedBatch = []
  · by_cases hn : n = 0
    · exact .inl (by simp [reserveBatch, h, hn])
    · refine .inr ⟨h, q.queued.take (min n q.queued.length),
        q.queued.drop (min n q.queued.length), (List.take_append_drop _ _).symm, ?_⟩
      simp only [reserveBatch, h, hn, ne_eq, not_true_eq_false, dite_false, if_false, and_self]
  · exact .inl (by simp [reserveBatch, h])

/-- **An unacknowledged batch is handed out again**, whatever size is asked for. -/
theorem reserveBatch_reserved (h : q.reservedBatch ≠ []) (n : ℕ) :
    q.reserveBatch n = (q.reservedBatch, q) := by
  simp [reserveBatch, h]

theorem empty_iff : q.empty = true ↔ q.queued = [] ∧ q.reservedBatch = [] := by
  simp [empty]

end CandidateQueue

end AegisFlow
