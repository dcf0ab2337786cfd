import AegisFlow.Net.Session

/-!
# Business tasks and their completions

A request becomes a task of the worker pool.  The worker runs the business handler on the payload
and posts a completion, which carries the token of the connection, to the mailbox of the event
loop that owns the connection.

* `BusinessTask.run` : the completion of a task, given what the handler did;
* `LoopMailbox` : the bounded queue of completions, a structure that carries its accounting;
* `CompletionRouter.tryRoute` : how a completion reaches the mailbox of its loop.
-/

namespace AegisFlow

/-! ### Tasks -/

/-- How the handler judged a request. -/
inductive FrameBusinessStatus
  | response
  | invalidRequest
  | failed
  | cancelled
  deriving DecidableEq, Repr

/-- What the handler returns. -/
structure FrameBusinessResult where
  status : FrameBusinessStatus := .failed
  responsePayload : Bytes := []
  deriving DecidableEq, Repr

/-- A request and the connection it came from. -/
structure BusinessRequest where
  token : ConnectionToken
  requestPayload : Bytes
  deriving DecidableEq, Repr

/-- How a task ended. -/
inductive BusinessCompletionStatus
  | response
  | invalidRequest
  | outputLimitExceeded
  | failed
  | cancelled
  deriving DecidableEq, Repr

/-- What a task posts. -/
structure BusinessCompletion where
  token : ConnectionToken
  status : BusinessCompletionStatus := .failed
  responseFrame : Bytes := []
  deriving DecidableEq, Repr

/-- A response has a frame and nothing else has. -/
def BusinessCompletion.valid (completion : BusinessCompletion) : Bool :=
  completion.token.valid &&
    (if completion.status = .response then completion.responseFrame != []
      else completion.responseFrame == [])

/-- The status of a completion for the status of a result. -/
def completionStatusFor : FrameBusinessStatus → BusinessCompletionStatus
  | .response => .response
  | .invalidRequest => .invalidRequest
  | .cancelled => .cancelled
  | .failed => .failed

/-- The completion of a task whose handler returned `result`, or threw. -/
def BusinessTask.run (request : BusinessRequest) (maxPayload : ℕ)
    (result : Option FrameBusinessResult) : BusinessCompletion :=
  match result with
  | none => { token := request.token, status := .failed }
  | some result =>
    if result.status = .response then
      if result.responsePayload = [] then { token := request.token, status := .failed }
      else if maxPayload < result.responsePayload.length then
        { token := request.token, status := .outputLimitExceeded }
      else
        { token := request.token, status := .response,
          responseFrame := encodeFrame result.responsePayload }
    else { token := request.token, status := completionStatusFor result.status }

@[simp] theorem BusinessTask.run_token (request : BusinessRequest) (maxPayload : ℕ)
    (result : Option FrameBusinessResult) :
    (BusinessTask.run request maxPayload result).token = request.token := by
  unfold BusinessTask.run
  split
  · rfl
  · split_ifs <;> rfl

/-- A frame that is sent is the encoding of the handler's response. -/
theorem BusinessTask.run_response {request : BusinessRequest} {maxPayload : ℕ}
    {result : Option FrameBusinessResult}
    (h : (BusinessTask.run request maxPayload result).status = .response) :
    ∃ r, result = some r ∧ r.status = .response ∧
      (BusinessTask.run request maxPayload result).responseFrame =
      encodeFrame r.responsePayload := by
  cases result with
  | none => simp [BusinessTask.run] at h
  | some r =>
    refine ⟨r, rfl, ?_⟩
    simp only [BusinessTask.run] at h ⊢
    split_ifs at h ⊢ with hresp
    · exact ⟨hresp, rfl⟩
    · cases hs : r.status <;> simp_all [completionStatusFor]

/-! ### The mailbox -/

/-- A bounded queue of completions. -/
structure LoopMailbox where
  capacity : ℕ
  byteCapacity : ℕ
  maxCompletionBytes : ℕ
  /-- Completions, oldest first. -/
  queue : List BusinessCompletion
  /-- Bytes of the response frames in the queue. -/
  bufferedBytes : ℕ
  accepting : Bool
  length_le : queue.length ≤ capacity
  bytes_eq : bufferedBytes = (queue.map fun c => c.responseFrame.length).sum
  bytes_le : bufferedBytes ≤ byteCapacity

namespace LoopMailbox

theorem bytes_nil : 0 = (([] : List BusinessCompletion).map fun c => c.responseFrame.length).sum :=
  rfl

/-- An open mailbox without completions. -/
def empty (capacity byteCapacity maxCompletionBytes : ℕ) : LoopMailbox :=
  ⟨capacity, byteCapacity, maxCompletionBytes, [], 0, true, Nat.zero_le capacity, bytes_nil,
    Nat.zero_le byteCapacity⟩

/-- A new mailbox; the bounds must make sense. -/
def create (capacity byteCapacity maxCompletionBytes : ℕ) : Option LoopMailbox :=
  if capacity = 0 ∨ byteCapacity = 0 ∨ maxCompletionBytes = 0 ∨
      byteCapacity < maxCompletionBytes then none
  else some (empty capacity byteCapacity maxCompletionBytes)

/-- Post a completion; `wake` says whether the event descriptor could be signalled, and if not
the post is undone. -/
def tryPost (mailbox : LoopMailbox) (completion : BusinessCompletion) (wake : Bool) :
    Bool × LoopMailbox :=
  if !completion.valid then (false, mailbox)
  else if mailbox.maxCompletionBytes < completion.responseFrame.length then (false, mailbox)
  else if !mailbox.accepting then (false, mailbox)
  else if hfull : mailbox.queue.length = mailbox.capacity then (false, mailbox)
  else if hbytes : mailbox.byteCapacity - mailbox.bufferedBytes <
      completion.responseFrame.length then (false, mailbox)
  else if !wake then (false, mailbox)
  else (true, { mailbox with
    queue := mailbox.queue ++ [completion]
    bufferedBytes := mailbox.bufferedBytes + completion.responseFrame.length
    length_le := by
      have := mailbox.length_le
      simp only [List.length_append, List.length_singleton]
      omega
    bytes_eq := by
      have := mailbox.bytes_eq
      simp only [List.map_append, List.sum_append, List.map_cons, List.map_nil, List.sum_cons,
        List.sum_nil]
      omega
    bytes_le := by
      have := mailbox.bytes_le
      omega })

/-- Take the oldest completion. -/
def tryPop (mailbox : LoopMailbox) : Option (BusinessCompletion × LoopMailbox) :=
  match hq : mailbox.queue with
  | [] => none
  | completion :: rest => some (completion, { mailbox with
      queue := rest
      bufferedBytes := mailbox.bufferedBytes - completion.responseFrame.length
      length_le := by
        have := mailbox.length_le
        rw [hq, List.length_cons] at this
        omega
      bytes_eq := by
        have := mailbox.bytes_eq
        rw [hq, List.map_cons, List.sum_cons] at this
        omega
      bytes_le := by
        have := mailbox.bytes_le
        omega })

/-- Refuse further completions and drop those that wait. -/
def close (mailbox : LoopMailbox) : LoopMailbox :=
  { mailbox with
    queue := []
    bufferedBytes := 0
    accepting := false
    length_le := Nat.zero_le _
    bytes_eq := bytes_nil
    bytes_le := Nat.zero_le _ }

/-- A post appends the completion or changes nothing. -/
theorem tryPost_cases (mailbox : LoopMailbox) (completion : BusinessCompletion) (wake : Bool) :
    (mailbox.tryPost completion wake).2.queue = mailbox.queue ∨
    (mailbox.tryPost completion wake).2.queue = mailbox.queue ++ [completion] := by
  unfold tryPost
  split_ifs
  · exact .inl rfl
  · exact .inl rfl
  · exact .inl rfl
  · exact .inl rfl
  · exact .inl rfl
  · exact .inl rfl
  · exact .inr rfl

theorem queue_of_tryPop_none {mailbox : LoopMailbox} (h : mailbox.tryPop = none) :
    mailbox.queue = [] := by
  unfold tryPop at h
  split at h
  · assumption
  · cases h

theorem queue_of_tryPop {mailbox mailbox' : LoopMailbox} {completion : BusinessCompletion}
    (h : mailbox.tryPop = some (completion, mailbox')) :
    mailbox.queue = completion :: mailbox'.queue := by
  unfold tryPop at h
  split at h
  · cases h
  · rename_i c rest hq
    cases h
    exact hq

end LoopMailbox

/-! ### The router -/

/-- The loops a completion can be for: `bound` says whether the loop has a mailbox. -/
structure CompletionRouter where
  firstLoopId : ℕ
  loopCount : ℕ
  bound : ℕ → Bool
  accepting : Bool

/-- Deliver a completion to the mailbox of its loop, whose number is `loopId`; a completion for a
loop that is not there any more is dropped. -/
def CompletionRouter.tryRoute (router : CompletionRouter) (loopId : ℕ) (mailbox : LoopMailbox)
    (completion : BusinessCompletion) (wake : Bool) : LoopMailbox :=
  if !completion.valid || !router.accepting then mailbox
  else if completion.token.loopId < router.firstLoopId ∨
      router.loopCount ≤ completion.token.loopId - router.firstLoopId then mailbox
  else if !router.bound completion.token.loopId then mailbox
  else if completion.token.loopId ≠ loopId then mailbox
  else (mailbox.tryPost completion wake).2

theorem CompletionRouter.tryRoute_cases (router : CompletionRouter) (loopId : ℕ)
    (mailbox : LoopMailbox) (completion : BusinessCompletion) (wake : Bool) :
    (router.tryRoute loopId mailbox completion wake).queue = mailbox.queue ∨
    (completion.token.loopId = loopId ∧
      (router.tryRoute loopId mailbox completion wake).queue = mailbox.queue ++ [completion]) := by
  unfold tryRoute
  split_ifs with hvalid hrange hbound hloop
  · exact .inl rfl
  · exact .inl rfl
  · exact .inl rfl
  · exact .inl rfl
  · rw [not_not] at hloop
    rcases mailbox.tryPost_cases completion wake with h | h
    · exact .inl h
    · exact .inr ⟨hloop, h⟩

end AegisFlow
