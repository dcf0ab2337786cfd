import AegisFlow.Net.EventLoopSpec
import AegisFlow.Net.SessionStream
import Mathlib.Logic.Function.Basic

/-!
# What an event loop has received, sent and handed out

The *view* of an event loop is what can be read off its operations and their replies: for each
connection the bytes received and sent, the request that is with the worker pool, and the
completions that came back.  `LoopInv` relates a view to the state of the loop.

* `LoopView`, `LoopView.next` : the view and how an operation changes it.  A completion for a
  connection that has no request with the pool is not a possible reply;
* `Exchange` : the bytes sent are responses to the first requests of the bytes received, in
  order;
* `LoopView.allow` : what the loop may do: submit a request only if none of the connection is with
  the pool, and send only bytes that continue an `Exchange`;
* `LoopInv` : the invariant of the loop's state.
-/

namespace AegisFlow

/-- What the operations of a loop show. -/
structure LoopView where
  /-- The generation of the connection on a descriptor. -/
  generationOf : ℤ → ℕ := fun _ => 0
  /-- The generations of all connections, in the order they were adopted. -/
  adopted : List ℕ := []
  /-- The bytes received on a connection. -/
  received : ℕ → Bytes := fun _ => []
  /-- The bytes sent on a connection. -/
  sent : ℕ → Bytes := fun _ => []
  /-- The number of submissions made for a connection. -/
  attempts : ℕ → ℕ := fun _ => 0
  /-- The request of a connection that is with the worker pool, and its number. -/
  outstanding : ℕ → Option (ℕ × Bytes) := fun _ => none
  /-- The requests of a connection whose completions came back, by number, with the response
  frames. -/
  results : ℕ → List (ℕ × Bytes × Bytes) := fun _ => []

namespace LoopView

/-- The view after a request was submitted. -/
def submit (v : LoopView) (request : BusinessRequest) (accepted : Bool) : LoopView := { v with
  attempts := Function.update v.attempts request.token.generation
    (v.attempts request.token.generation + 1)
  outstanding := if accepted then Function.update v.outstanding request.token.generation
      (some (v.attempts request.token.generation, request.requestPayload))
    else v.outstanding }

/-- The view after a completion for the request was taken. -/
def complete (v : LoopView) (completion : BusinessCompletion) (request : ℕ × Bytes) :
    LoopView := { v with
  outstanding := Function.update v.outstanding completion.token.generation none
  results := Function.update v.results completion.token.generation
    (v.results completion.token.generation ++
      if completion.status = .response then [(request.1, request.2, completion.responseFrame)]
      else []) }

/-- The view after an operation; nothing if the reply is not possible. -/
def next (v : LoopView) : (op : LoopOp) → op.Reply → Option LoopView
  | .epollAdd fd _ generation, _ => some { v with
      generationOf := Function.update v.generationOf fd generation
      adopted := v.adopted ++ [generation] }
  | .recv fd _, .data bytes => some { v with
      received := Function.update v.received (v.generationOf fd)
        (v.received (v.generationOf fd) ++ bytes) }
  | .send fd bytes, .sent count => some { v with
      sent := Function.update v.sent (v.generationOf fd)
        (v.sent (v.generationOf fd) ++ bytes.take count) }
  | .trySubmit request, reply => some (v.submit request (reply = some .accepted))
  | .popCompletion, some completion =>
    (v.outstanding completion.token.generation).map (v.complete completion)
  | _, _ => some v

/-- The view after an operation, once the replies were possible. -/
def upd (v : Option LoopView) (op : LoopOp) (r : op.Reply) : Option LoopView :=
  v.bind fun v => v.next op r

end LoopView

/-! ### Requests and responses on the wire -/

/-- The bytes sent are responses to the first requests received, in order: `answers i` relates
the `i`-th request and the `i`-th response. -/
def Exchange (answers : ℕ → Bytes → Bytes → Prop) (received sent : Bytes) : Prop :=
  ∃ (asked given : List Bytes) (rest : Bytes), received = (asked.map encodeFrame).flatten ++ rest ∧
    (∀ f ∈ asked, validatePayloadLength f.length = .none) ∧ given.length = asked.length ∧
    (∀ i request response, asked[i]? = some request → given[i]? = some response →
      answers i request response) ∧
    sent <+: given.flatten

namespace Exchange

variable {answers answers' : ℕ → Bytes → Bytes → Prop} {received sent : Bytes}

theorem nil : Exchange answers [] [] := ⟨[], [], [], rfl, by simp, rfl, by simp, List.prefix_refl _⟩

theorem receive (h : Exchange answers received sent) (bytes : Bytes) :
    Exchange answers (received ++ bytes) sent := by
  obtain ⟨asked, given, rest, hrec, hvalid, hlen, hans, hsent⟩ := h
  exact ⟨asked, given, rest ++ bytes, by rw [hrec, List.append_assoc], hvalid, hlen, hans, hsent⟩

theorem of_prefix {sent' : Bytes} (h : Exchange answers received sent') (hp : sent <+: sent') :
    Exchange answers received sent := by
  obtain ⟨asked, given, rest, hrec, hvalid, hlen, hans, hsent⟩ := h
  exact ⟨asked, given, rest, hrec, hvalid, hlen, hans, hp.trans hsent⟩

theorem mono (h : Exchange answers received sent) (ha : ∀ i q r, answers i q r → answers' i q r) :
    Exchange answers' received sent := by
  obtain ⟨asked, given, rest, hrec, hvalid, hlen, hans, hsent⟩ := h
  exact ⟨asked, given, rest, hrec, hvalid, hlen, fun i q r hq hr => ha i q r (hans i q r hq hr),
    hsent⟩

end Exchange

variable (config : EventLoopConfig)

/-- A response that may be sent for the `i`-th request: the overload or the timeout frame, or the
response frame of the request's completion. -/
def Answers (v : LoopView) (generation i : ℕ) (request response : Bytes) : Prop :=
  response ≠ [] ∧ (response = config.overloadResponseFrame ∨
    response = config.businessTimeoutResponseFrame ∨ (i, request, response) ∈ v.results generation)

/-- What a loop may do, given its view. -/
def LoopView.allow : Option LoopView → LoopOp → Prop
  | some v, .trySubmit request => v.outstanding request.token.generation = none
  | some v, .send fd bytes =>
    Exchange (Answers config v (v.generationOf fd)) (v.received (v.generationOf fd))
      (v.sent (v.generationOf fd) ++ bytes)
  | _, _ => True

/-! ### The invariant -/

/-- What the view says about an open session with the events `events`. -/
structure EntryInv (v : LoopView) (generation : ℕ) (e : SessionEntry)
    (events : List SessionEvent) : Prop where
  tracks : e.session.Tracks events
  received : receivedBytes events = v.received generation
  /-- What was sent and what is still to be written are the responses. -/
  sent : v.sent generation ++ (if e.session.state = .writing then e.session.pendingOutput else []) =
    (responses events).flatten
  answers : ∀ i request response, (requests events)[i]? = some request →
    (responses events)[i]? = some response → Answers config v generation i request response
  /-- A request that took too long may still be with the pool, but then its connection is closed
  after the response. -/
  expired : e.businessExpired = true →
    e.session.state = .writing ∧ e.session.closeAfterWriteFlag = true
  reading : e.session.state = .reading →
    v.outstanding generation = none ∧ v.attempts generation = (requests events).length
  processing : e.session.state = .processing →
    (v.attempts generation = (requests events).length ∨
      v.outstanding generation = none ∧ v.attempts generation + 1 = (requests events).length) ∧
    ∀ i request, v.outstanding generation = some (i, request) →
      i + 1 = (requests events).length ∧ (requests events)[i]? = some request
  writing : e.session.state = .writing →
    v.outstanding generation = none ∧ v.attempts generation = (requests events).length ∨
      e.businessExpired = true

/-- The view and the state of a loop belong together. -/
structure ViewInv (v : LoopView) (st : LoopState) : Prop where
  token : ∀ (fd : ℤ) e, st.sessions[fd]? = some e →
    e.session.token = ⟨config.loopId, fd, v.generationOf fd⟩
  entry : ∀ (fd : ℤ) e, st.sessions[fd]? = some e → e.session.isOpen →
    ∃ events, EntryInv config v (v.generationOf fd) e events
  distinct : ∀ (fd fd' : ℤ) e e', st.sessions[fd]? = some e → st.sessions[fd']? = some e' →
    v.generationOf fd = v.generationOf fd' → fd = fd'
  known : ∀ (fd : ℤ) e, st.sessions[fd]? = some e → v.generationOf fd ∈ v.adopted
  increasing : v.adopted.Pairwise (· < ·)
  bounded : ∀ g ∈ v.adopted, st.nextGeneration = 0 ∨ g < st.nextGeneration
  blank : ∀ g, g ∉ v.adopted → v.received g = [] ∧ v.sent g = [] ∧ v.attempts g = 0 ∧
    v.outstanding g = none ∧ v.results g = []

/-- The invariant of a loop, if the replies so far were possible. -/
def LoopInv (v : Option LoopView) (st : LoopState) : Prop := ∀ v' ∈ v, ViewInv config v' st

/-! ### Views that differ for one connection -/

/-- The views agree about a connection. -/
structure AgreeAt (g : ℕ) (v v' : LoopView) : Prop where
  received : v'.received g = v.received g
  sent : v'.sent g = v.sent g
  attempts : v'.attempts g = v.attempts g
  outstanding : v'.outstanding g = v.outstanding g
  results : v'.results g = v.results g

/-- The views differ about one connection at most. -/
structure SameBut (g : ℕ) (v v' : LoopView) : Prop where
  generationOf : v'.generationOf = v.generationOf
  adopted : v'.adopted = v.adopted
  others : ∀ g', g' ≠ g → AgreeAt g' v v'

theorem SameBut.refl (g : ℕ) (v : LoopView) : SameBut g v v :=
  ⟨rfl, rfl, fun _ _ => ⟨rfl, rfl, rfl, rfl, rfl⟩⟩

variable {config} {v v' : LoopView} {st st' : LoopState} {fd : ℤ} {g : ℕ} {e e' : SessionEntry}
  {events : List SessionEvent}

theorem EntryInv.agree (h : EntryInv config v g e events) (ha : AgreeAt g v v') :
    EntryInv config v' g e events where
  tracks := h.tracks
  received := by rw [ha.received]; exact h.received
  sent := by rw [ha.sent]; exact h.sent
  answers i q r hq hr := by
    have hans := h.answers i q r hq hr
    unfold Answers at hans ⊢
    rwa [ha.results]
  expired := h.expired
  reading := by rw [ha.outstanding, ha.attempts]; exact h.reading
  processing := by rw [ha.outstanding, ha.attempts]; exact h.processing
  writing := by rw [ha.outstanding, ha.attempts]; exact h.writing

theorem AgreeAt.refl (g : ℕ) (v : LoopView) : AgreeAt g v v := ⟨rfl, rfl, rfl, rfl, rfl⟩

/-- **An action that concerns one connection only**, the one on `fd`. -/
theorem ViewInv.step (h : ViewInv config v st) (hst : Elsewhere fd st st')
    (hv : SameBut (v.generationOf fd) v v') (hown : v' = v ∨ ∃ e, st.sessions[fd]? = some e)
    (hentry : ∀ e', st'.sessions[fd]? = some e' → ∃ e, st.sessions[fd]? = some e ∧
      e'.session.token = e.session.token ∧
      (e'.session.isOpen → ∃ events, EntryInv config v' (v.generationOf fd) e' events)) :
    ViewInv config v' st' := by
  have hlive (fd' : ℤ) (x : SessionEntry) (hx : st'.sessions[fd']? = some x) :
      ∃ y, st.sessions[fd']? = some y ∧ x.session.token = y.session.token := by
    by_cases hfd : fd' = fd
    · subst hfd
      obtain ⟨e, he, htoken, -⟩ := hentry x hx
      exact ⟨e, he, htoken⟩
    · rw [hst.others fd' hfd] at hx
      exact ⟨x, hx, rfl⟩
  have hunknown (g : ℕ) (hg : g ∉ v.adopted) : AgreeAt g v v' := by
    rcases hown with rfl | ⟨e, he⟩
    · exact .refl g _
    · exact hv.others g fun heq => hg (heq ▸ h.known fd e he)
  have hother (fd' : ℤ) (x : SessionEntry) (hne : fd' ≠ fd) (hx : st.sessions[fd']? = some x) :
      AgreeAt (v.generationOf fd') v v' := by
    rcases hown with rfl | ⟨e, he⟩
    · exact .refl _ _
    · exact hv.others _ fun heq => hne (h.distinct fd' fd x e hx he heq)
  refine ⟨?_, ?_, ?_, ?_, ?_, ?_, ?_⟩
  · intro fd' x hx
    obtain ⟨y, hy, htoken⟩ := hlive fd' x hx
    rw [htoken, hv.generationOf]
    exact h.token fd' y hy
  · intro fd' x hx hopen
    rw [hv.generationOf]
    by_cases hfd : fd' = fd
    · subst hfd
      obtain ⟨e, -, -, hev⟩ := hentry x hx
      exact hev hopen
    · rw [hst.others fd' hfd] at hx
      obtain ⟨events, hev⟩ := h.entry fd' x hx hopen
      exact ⟨events, hev.agree (hother fd' x hfd hx)⟩
  · intro fd₁ fd₂ x₁ x₂ hx₁ hx₂ heq
    rw [hv.generationOf] at heq
    obtain ⟨y₁, hy₁, -⟩ := hlive fd₁ x₁ hx₁
    obtain ⟨y₂, hy₂, -⟩ := hlive fd₂ x₂ hx₂
    exact h.distinct fd₁ fd₂ y₁ y₂ hy₁ hy₂ heq
  · intro fd' x hx
    obtain ⟨y, hy, -⟩ := hlive fd' x hx
    rw [hv.generationOf, hv.adopted]
    exact h.known fd' y hy
  · rw [hv.adopted]; exact h.increasing
  · rw [hv.adopted, hst.generation]; exact h.bounded
  · intro g hg
    rw [hv.adopted] at hg
    have ha := hunknown g hg
    rw [ha.received, ha.sent, ha.attempts, ha.outstanding, ha.results]
    exact h.blank g hg

/-- The action sets the entry of the connection. -/
theorem ViewInv.put (h : ViewInv config v st) (he : st.sessions[fd]? = some e)
    (hv : SameBut (v.generationOf fd) v v') (htoken : e'.session.token = e.session.token)
    (hentry : e'.session.isOpen → ∃ events, EntryInv config v' (v.generationOf fd) e' events) :
    ViewInv config v' (st.put fd e') := by
  refine h.step ((Elsewhere.refl st).put e') hv (.inr ⟨e, he⟩) fun x hx => ?_
  rw [TreeMap.lookup_insert, if_pos rfl] at hx
  cases hx
  exact ⟨e, he, htoken, hentry⟩

/-- The connection that an action concerns is closed in the end. -/
theorem ViewInv.without (h : ViewInv config v st) (he : st.sessions[fd]? = some e)
    (hv : SameBut (v.generationOf fd) v v') (hw : Without fd st st') : ViewInv config v' st' := by
  refine h.step hw.toElsewhere hv (.inr ⟨e, he⟩) fun e' he' => ?_
  rw [hw.gone] at he'
  cases he'

/-! ### Sessions and their events -/

/-- The sessions agree up to timers, the reason for closing and the mark that the peer has closed,
and a mark for closing after the response stays. -/
structure Session.Marked (s s' : Session) : Prop where
  rest : ∃ timers reason peer flag, s' = { s with
    timers := timers, closeReason := reason, peerReadClosed := peer, closeAfterWriteFlag := flag }
  flag : s.closeAfterWriteFlag = true → s'.closeAfterWriteFlag = true

section

variable (h : EntryInv config v g e events)
include h

theorem EntryInv.marked (hmarked : e.session.Marked e'.session)
    (hexpired : e'.businessExpired = e.businessExpired) : EntryInv config v g e' events := by
  have hflag := hmarked.flag
  obtain ⟨timers, reason, peer, flag, hsession⟩ := hmarked.rest
  rw [hsession] at hflag
  refine ⟨?_, h.received, ?_, h.answers, ?_, ?_, ?_, ?_⟩
  · exact h.tracks.congr (by rw [hsession]) (by rw [hsession]) (by rw [hsession])
      (by rw [hsession]) (by rw [hsession]) (by rw [hsession])
  · rw [hsession]; exact h.sent
  · rw [hsession, hexpired]
    exact fun hexp => ⟨(h.expired hexp).1, hflag (h.expired hexp).2⟩
  · rw [hsession]; exact h.reading
  · rw [hsession]; exact h.processing
  · rw [hsession, hexpired]; exact h.writing

theorem EntryInv.timers (ht : EntryTimers e e') : EntryInv config v g e' events := by
  obtain ⟨timers, hsession⟩ := ht.session
  refine h.marked ⟨⟨timers, _, _, _, hsession⟩, ?_⟩ ht.expired
  rw [hsession]
  exact id

/-- The requests that are answered are answered. -/
theorem EntryInv.length_le (hopen : e.session.isOpen) :
    (responses events).length ≤ (requests events).length := by
  cases hs : e.session.state with
  | reading => exact (h.tracks.reading hs).2.1.ge
  | processing => rw [(h.tracks.processing hs).2.1]; exact Nat.le_succ _
  | writing => exact (h.tracks.writing hs).2.1.ge
  | closing => exact absurd hs hopen.1
  | closed => exact absurd hs hopen.2

/-- Bytes received. -/
theorem EntryInv.onInput (hopen : e.session.isOpen) (bytes : Bytes)
    (hopen' : (e.session.onInput bytes).2.isOpen) :
    EntryInv config { v with received := Function.update v.received g (v.received g ++ bytes) } g
      { e with session := (e.session.onInput bytes).2 }
      (events ++ .received bytes ::
        Session.decodedEvents (e.session.onInput bytes).1.request) := by
  have hfed := h.tracks.fed_onInput hopen'
  have htracks := h.tracks.onInput hopen'
  have hlen := h.length_le hopen
  generalize (e.session.onInput bytes).2 = s' at *
  generalize (e.session.onInput bytes).1.request = request at *
  have hwriting : s'.state = .writing ↔ e.session.state = .writing := by
    rcases hfed.state with ⟨hs, -⟩ | ⟨hs, hs', -⟩
    · rw [hs]
    · simp [hs, hs']
  have hresponses : responses (events ++ .received bytes :: Session.decodedEvents request) =
      responses events := by simp
  have hrequests : requests (events ++ .received bytes :: Session.decodedEvents request) =
      requests events ++ request.toList := by simp
  refine ⟨htracks, by simp [h.received], ?_, ?_, ?_, ?_, ?_, ?_⟩
  · have hout : s'.pendingOutput = e.session.pendingOutput := by
      rw [Session.pendingOutput, hfed.output, hfed.offset]
      rfl
    simpa [hwriting, hout] using h.sent
  · intro i q r hq hr
    rw [hresponses] at hr
    have hi := (List.getElem?_eq_some_iff.mp hr).1
    rw [hrequests, List.getElem?_append_left (by omega)] at hq
    exact h.answers i q r hq hr
  · intro hexp
    obtain ⟨hs, hflag⟩ := h.expired hexp
    exact ⟨hwriting.mpr hs, hfed.flag.trans hflag⟩
  · intro hs
    rcases hfed.state with ⟨heq, hnone⟩ | ⟨-, hs', -⟩
    · rw [hrequests, hnone, Option.toList_none, List.append_nil]
      exact h.reading (heq ▸ hs)
    · rw [hs'] at hs; cases hs
  · intro hs
    rcases hfed.state with ⟨heq, hnone⟩ | ⟨hread, -, hsome⟩
    · rw [hrequests, hnone, Option.toList_none, List.append_nil]
      exact h.processing (heq ▸ hs)
    · -- a new request, which is not dispatched yet
      obtain ⟨q, rfl⟩ := Option.isSome_iff_exists.mp hsome
      obtain ⟨hnone, hattempts⟩ := h.reading hread
      refine ⟨.inr ⟨hnone, ?_⟩, fun i q hq => ?_⟩
      · rw [hrequests, hattempts]; simp
      · dsimp only at hq
        rw [hnone] at hq
        cases hq
  · intro hs
    rcases hfed.state with ⟨-, hnone⟩ | ⟨hread, hs', -⟩
    · rw [hrequests, hnone, Option.toList_none, List.append_nil]
      exact h.writing (hwriting.mp hs)
    · rw [hs'] at hs; cases hs

/-- Bytes of the response sent. -/
theorem EntryInv.onBytesWritten (hstate : e.session.state = .writing) (n : ℕ)
    (hopen' : (e.session.onBytesWritten n).2.isOpen) :
    EntryInv config
      { v with sent := Function.update v.sent g (v.sent g ++ e.session.pendingOutput.take n) } g
      { e with session := (e.session.onBytesWritten n).2 }
      (events ++ e.session.writtenEvents n) := by
  obtain ⟨hle, hcase⟩ := h.tracks.written hstate hopen'
  have htracks := h.tracks.onBytesWritten hopen'
  have hlen := (h.tracks.writing hstate).2.1
  have hsent := h.sent
  rw [if_pos hstate] at hsent
  have hevents : e.session.writtenEvents n =
      [.written n] ++ Session.decodedEvents (e.session.onBytesWritten n).1.request := by
    rw [Session.writtenEvents, if_pos hstate, List.singleton_append]
  have hresponses : responses (events ++ e.session.writtenEvents n) = responses events := by
    rw [hevents]; simp
  have hrequests : requests (events ++ e.session.writtenEvents n) =
      requests events ++ (e.session.onBytesWritten n).1.request.toList := by
    rw [hevents]; simp
  have hanswers : ∀ i q r, (requests (events ++ e.session.writtenEvents n))[i]? = some q →
      (responses (events ++ e.session.writtenEvents n))[i]? = some r →
      Answers config v g i q r := by
    intro i q r hq hr
    rw [hresponses] at hr
    have hi := (List.getElem?_eq_some_iff.mp hr).1
    rw [hrequests, List.getElem?_append_left (by omega)] at hq
    exact h.answers i q r hq hr
  have hreceived : receivedBytes (events ++ e.session.writtenEvents n) = v.received g := by
    rw [hevents, ← h.received]; simp
  cases hcase with
  | short heq =>
    have hsame : requests (events ++ e.session.writtenEvents n) = requests events := by
      rw [hrequests, heq]; simp
    rw [heq]
    refine ⟨heq ▸ htracks, hreceived, ?_, hanswers, h.expired, by simp [hstate],
      by simp [hstate], by rw [hsame]; exact h.writing⟩
    have hpending : ({ e.session with outputOffset := e.session.outputOffset + n } :
        Session).pendingOutput = e.session.pendingOutput.drop n := by
      rw [Session.pendingOutput, Session.pendingOutput, List.drop_drop]
    dsimp only
    rw [if_pos hstate, Function.update_self, hpending, List.append_assoc, List.take_append_drop,
      hresponses]
    exact hsent
  | held hdone heq =>
    have hsame : requests (events ++ e.session.writtenEvents n) = requests events := by
      rw [hrequests, heq]; simp
    rw [heq]
    refine ⟨heq ▸ htracks, hreceived, ?_, hanswers, h.expired, by simp [hstate],
      by simp [hstate], by rw [hsame]; exact h.writing⟩
    dsimp only
    rw [Function.update_self, hresponses, ← hdone, List.take_length, ← hsent]
    simp [Session.pendingOutput]
  | read hdone hflag hfed =>
    -- An expired business deadline closes after the write, so nothing is outstanding here.
    have hexp : e.businessExpired = false := by
      by_contra hne
      rw [Bool.not_eq_false] at hne
      rw [(h.expired hne).2] at hflag
      cases hflag
    obtain ⟨hnone, hattempts⟩ := (h.writing hstate).resolve_right (by simp [hexp])
    have hnotWriting : (e.session.onBytesWritten n).2.state ≠ .writing := by
      rcases hfed.state with ⟨hs, -⟩ | ⟨-, hs, -⟩
      · rw [hs]; simp
      · rw [hs]; simp
    refine ⟨htracks, hreceived, ?_, hanswers, by simp [hexp], fun hs => ?_, fun hs => ?_,
      fun hs => absurd hs hnotWriting⟩
    · dsimp only
      rw [if_neg hnotWriting, Function.update_self, hresponses, List.append_nil, ← hdone,
        List.take_length]
      exact hsent
    · rcases hfed.state with ⟨-, hreq⟩ | ⟨-, hproc, -⟩
      · rw [hrequests, hreq, Option.toList_none, List.append_nil]
        exact ⟨hnone, hattempts⟩
      · rw [hproc] at hs; cases hs
    · refine ⟨.inr ⟨hnone, ?_⟩, by simp [hnone]⟩
      rcases hfed.state with ⟨hread, -⟩ | ⟨-, -, hsome⟩
      · rw [hread] at hs; cases hs
      · obtain ⟨q, hq⟩ := Option.isSome_iff_exists.mp hsome
        rw [hrequests, hq, hattempts]
        simp

/-- A response is queued for the outstanding request, which was dispatched unless it took too
long. -/
theorem EntryInv.queueResponse (hstate : e.session.state = .processing) {response : Bytes}
    {expired : Bool} {session : Session}
    (hsession : session.Tracks (events ++ [.response response]))
    (hwriting : session.state = .writing) (hpending : session.pendingOutput = response)
    (hanswer : ∀ i request, i + 1 = (requests events).length →
      (requests events)[i]? = some request → Answers config v g i request response)
    (hflag : expired = true → session.closeAfterWriteFlag = true)
    (hout : (v.outstanding g = none ∧ v.attempts g = (requests events).length) ∨
      expired = true) :
    EntryInv config v g { e with session := session, businessExpired := expired }
      (events ++ [.response response]) := by
  obtain ⟨-, hlen, -⟩ := h.tracks.processing hstate
  have hsent := h.sent
  rw [if_neg (by simp [hstate]), List.append_nil] at hsent
  have hresponses : responses (events ++ [.response response]) =
      responses events ++ [response] := by simp
  have hrequests : requests (events ++ [.response response]) = requests events := by simp
  refine ⟨hsession, by simpa using h.received, ?_, ?_, fun hexp => ⟨hwriting, hflag hexp⟩,
    by simp [hwriting], by simp [hwriting], fun _ => by rw [hrequests]; exact hout⟩
  · simp [hwriting, hpending, hsent]
  · intro i q r hq hr
    rw [hrequests] at hq
    rw [hresponses] at hr
    by_cases hi : i < (responses events).length
    · rw [List.getElem?_append_left hi] at hr
      exact h.answers i q r hq hr
    · -- the last request is answered now
      have hlast : i = (responses events).length := by
        have := (List.getElem?_eq_some_iff.mp hq).1
        omega
      subst hlast
      rw [List.getElem?_append_right (Nat.le_refl _), Nat.sub_self] at hr
      cases hr
      exact hanswer _ q hlen.symm hq

end

end AegisFlow
