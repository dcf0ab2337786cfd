import AegisFlow.Redis.Connection
import AegisFlow.Storage.BlacklistRedisStore

/-!
# Connections are never reused dirty

The store gives its connection back after every call, and the next call uses it.  Whatever the
server answers and whichever command fails, a call leaves the connection dropped, or with a
session that watches nothing and has no open `MULTI` (`call_leaves_clean`).

The argument follows the frame of a transaction: no `MULTI` is open until the precondition holds
(`NoMulti`), one is open while commands are queued (`InMulti`), and the three ways out clean up
after either.
-/

namespace AegisFlow

open Redis Redis.Connection

namespace Store

/-- No transaction is open. -/
def NoMulti (x : Connection) : Prop := x.linked = true → x.multi = false

/-- A transaction is open. -/
def InMulti (x : Connection) : Prop := x.linked = true → x.multi = true

/-- Code that leaves a clean connection behind. -/
abbrev Cleanly {α : Type} (x : Connection) (p : Store α) : Prop :=
  Prog.Wp Reacts (fun x _ => x.Clean) x p

/-- Code that sends only commands which do not control transactions. -/
def Quiet {α : Type} (p : StoreCheck α) : Prop :=
  ∀ ⦃A : Connection → Prop⦄ ⦃x : Connection⦄, A .dropped → A x →
    Checked.Wp Reacts (fun x _ => A x) (fun x _ => A x) x p

section

variable {α β : Type} {c : Command RedisKey} {x : Connection} {p : StoreCheck α}
  {original : StoreStatus} {keys : List RedisKey}

theorem clean_dropped : Clean .dropped := fun h => absurd h (by decide)

theorem noMulti_dropped : NoMulti .dropped := fun h => absurd h (by decide)

theorem inMulti_dropped : InMulti .dropped := fun h => absurd h (by decide)

/-! ### Single commands -/

theorem wp_run {B : Connection → CommandResult → Prop} (hlate : B x .deadlineExceeded)
    (hoversized : maxArguments < c.argc → B x .ioError)
    (hlost : ∀ failure, failure = .ioError ∨ failure = .protocolError → B .dropped failure)
    (hanswered : ∀ r x', x.linked = true → Follows x c r x' → B x' (.reply r)) :
    Prog.Wp Reacts B x (run c) := by
  intro r x' h
  cases h with
  | late => exact hlate
  | oversized hargc => exact hoversized hargc
  | lost hfailure => exact hlost _ hfailure
  | answered hlinked hfollows => exact hanswered _ _ hlinked hfollows

theorem wp_invalidate {B : Connection → Unit → Prop} (h : B .dropped ()) :
    Prog.Wp Reacts B x invalidate := by
  rintro r x' ⟨⟩
  exact h

theorem wp_run_quiet (hc : c.isQuiet = true) {A : Connection → Prop} (hdropped : A .dropped)
    (hx : A x) : Prog.Wp Reacts (fun x _ => A x) x (run c) := by
  refine wp_run hx (fun _ => hx) (fun _ _ => hdropped) fun r x' _ hfollows => ?_
  cases hfollows with
  | quiet => exact hx
  | _ => cases hc

theorem quiet_ask (hc : c.isQuiet = true) (judge : Reply → Except StoreStatus α) :
    Quiet (ask c judge) := by
  intro A x hdropped hx
  refine Checked.wp_lift_bind.2 ((wp_run_quiet hc hdropped hx).mono fun x result hx => ?_)
  rw [Checked.wp_check]
  cases replyOf result >>= judge <;> exact hx

theorem Quiet.pure (a : α) : Quiet (Pure.pure a) := fun _ _ _ hx => hx

theorem Quiet.check (r : Except StoreStatus α) : Quiet (Checked.check r) := by
  intro A x _ hx
  rw [Checked.wp_check]
  cases r <;> exact hx

theorem Quiet.bind {f : α → StoreCheck β} (hp : Quiet p) (hf : ∀ a, Quiet (f a)) :
    Quiet (p >>= f) := fun _ _ hdropped hx =>
  (hp hdropped hx).bind fun _ a hx => hf a hdropped hx

theorem Quiet.forM {as : List α} {f : α → StoreCheck PUnit} (hf : ∀ a ∈ as, Quiet (f a)) :
    Quiet (as.forM f) := fun _ _ hdropped hx =>
  Checked.Wp.forM hx fun a ha _ hx => hf a ha hdropped hx

/-! ### The ways out -/

theorem wp_leave {clean : Store StoreStatus}
    (h : Prog.Wp Reacts (fun x status => status = .ok → x.Clean) x clean) :
    Cleanly x (leave clean original) := by
  refine h.bind fun x cleaned hclean => ?_
  split_ifs with hok
  · exact Prog.wp_bind.2 (wp_invalidate clean_dropped)
  · exact hclean (not_not.1 hok)

/-- The command that leaves has to be confirmed. -/
theorem wp_leave_run
    (h : ∀ x', x.linked = true → Follows x c (.status "OK") x' → x'.Clean) :
    Cleanly x (leave (do return confirmed "OK" (← run c)) original) := by
  refine wp_leave (Prog.wp_bind.2 (wp_run ?_ ?_ ?_ ?_))
  · exact fun h => absurd (confirmed_eq_ok.1 h) (by simp)
  · exact fun _ h => absurd (confirmed_eq_ok.1 h) (by simp)
  · exact fun _ _ _ => clean_dropped
  · intro r x' hlinked hfollows hok
    obtain rfl : r = .status "OK" := by simpa using confirmed_eq_ok.1 hok
    exact h x' hlinked hfollows

theorem wp_leaveWatch (hx : NoMulti x) : Cleanly x (leaveWatch original) := by
  refine wp_leave_run fun x' hlinked hfollows => ?_
  cases hfollows with
  | quiet hc => cases hc
  | unwatched => exact fun _ => ⟨rfl, hx hlinked⟩
  | notUnwatched hr => exact absurd rfl hr

theorem wp_leaveTransaction : Cleanly x (leaveTransaction original) := by
  refine wp_leave_run fun x' hlinked hfollows => ?_
  cases hfollows with
  | quiet hc => cases hc
  | discarded => exact fun _ => ⟨rfl, rfl⟩
  | notDiscarded hr => exact absurd rfl hr

theorem wp_checkedExecStatus {result : CommandResult} (hx : commandStatus result = .ok → x.Clean) :
    Checked.Wp Reacts (fun x _ => x.Clean) (fun x _ => x.Clean) x (checkedExecStatus result) := by
  unfold checkedExecStatus
  split_ifs with hok
  · refine Checked.wp_lift_bind.2 (wp_invalidate ?_)
    rw [Checked.wp_check]
    cases execBaseStatus result <;> exact clean_dropped
  · have hclean := hx (not_not.1 hok)
    rw [Checked.wp_check]
    cases execBaseStatus result <;> exact hclean

theorem wp_exec (hx : InMulti x) :
    Checked.Wp Reacts (fun x _ => x.Clean) (fun x _ => x.Clean) x exec := by
  refine Checked.wp_lift_bind.2 (wp_run ?_ ?_ ?_ ?_)
  · exact wp_checkedExecStatus fun h => absurd h (by simp [commandStatus])
  · exact fun _ => wp_checkedExecStatus fun h => absurd h (by simp [commandStatus])
  · exact fun _ _ => wp_checkedExecStatus fun _ => clean_dropped
  · intro r x' hlinked hfollows
    refine wp_checkedExecStatus fun _ => ?_
    cases hfollows with
    | quiet hc => cases hc
    | executed => exact fun _ => ⟨rfl, rfl⟩
    | notExecuted hmulti => exact absurd (hx hlinked) (by simp [hmulti])

/-! ### The frame of a transaction -/

theorem wp_watch (hkeys : keys.length < 8) (hx : x.Clean) :
    Checked.Wp Reacts (fun x _ => NoMulti x) (fun x _ => x.Clean) x (watch keys) := by
  refine Checked.wp_lift_bind.2 (wp_run ?_ ?_ ?_ ?_)
  · exact hx
  · intro hargc
    simp only [Command.argc, maxArguments] at hargc
    omega
  · rintro failure (rfl | rfl) <;> exact clean_dropped
  · intro r x' hlinked hfollows
    simp only [commandStatus, ne_eq, not_true_eq_false, if_false]
    split_ifs
    · cases hfollows with
      | quiet hc => cases hc
      | watch => exact fun _ => (hx hlinked).2
    · exact Checked.wp_lift_bind.2 (wp_invalidate clean_dropped)

theorem wp_underWatch (hp : Quiet p) (hx : NoMulti x) :
    Checked.Wp Reacts (fun x _ => NoMulti x) (fun x _ => x.Clean) x (underWatch p) := by
  refine Checked.wp_lift_bind.2 (Prog.Wp.mono (hp noMulti_dropped hx) fun x r hr => ?_)
  cases r with
  | ok a => exact hr
  | error status => exact Checked.wp_lift_bind.2 (wp_leaveWatch hr)

theorem wp_orDiscard {status : StoreStatus} (hx : status = .ok → InMulti x) :
    Checked.Wp Reacts (fun x _ => InMulti x) (fun x _ => x.Clean) x (orDiscard status) := by
  unfold orDiscard
  split_ifs with hok
  · exact hx hok
  · exact Checked.wp_lift_bind.2 wp_leaveTransaction

theorem wp_multi : Checked.Wp Reacts (fun x _ => InMulti x) (fun x _ => x.Clean) x multi := by
  refine Checked.wp_lift_bind.2 (wp_run ?_ ?_ ?_ ?_)
  · exact wp_orDiscard fun h => absurd (confirmed_eq_ok.1 h) (by simp)
  · exact fun _ => wp_orDiscard fun h => absurd (confirmed_eq_ok.1 h) (by simp)
  · exact fun _ _ => wp_orDiscard fun _ => inMulti_dropped
  · intro r x' hlinked hfollows
    refine wp_orDiscard fun hok => ?_
    obtain rfl : r = .status "OK" := by simpa using confirmed_eq_ok.1 hok
    cases hfollows with
    | quiet hc => cases hc
    | opened => exact fun _ => rfl
    | notOpened hr => exact absurd rfl hr

theorem wp_queueOrDiscard (hc : c.isQuiet = true) (hx : InMulti x) :
    Checked.Wp Reacts (fun x _ => InMulti x) (fun x _ => x.Clean) x (queueOrDiscard c) := by
  refine Checked.wp_lift_bind.2 (Prog.wp_bind.2 ?_)
  exact (wp_run_quiet hc inMulti_dropped hx).mono fun x _ hx => wp_orDiscard fun _ => hx

/-- A transaction leaves a clean connection behind. -/
theorem wp_watchedTransaction {commands : α → List (Command RedisKey)} (hkeys : keys.length < 8)
    (hp : Quiet p) (hcommands : ∀ a, ∀ c ∈ commands a, c.isQuiet = true) (hx : x.Clean) :
    Checked.Wp Reacts (fun x _ => x.Clean) (fun x _ => x.Clean) x
      (watchedTransaction keys p commands) := by
  refine (wp_watch hkeys hx).bind fun x _ hx => ?_
  refine (wp_underWatch hp hx).bind fun x a _ => ?_
  refine wp_multi.bind fun x _ hx => ?_
  refine (Checked.Wp.forM hx fun c hc x hx => wp_queueOrDiscard (hcommands a c hc) hx).bind
    fun x _ hx => ?_
  exact (wp_exec hx).bind fun x _ hx => hx

/-! ### The calls -/

theorem clean_of_checked (h : Checked.Wp Reacts (fun x _ => x.Clean) (fun x _ => x.Clean) x p)
    (f : Except StoreStatus α → β) : Cleanly x (f <$> p.run) := by
  refine Prog.wp_map.2 (Prog.Wp.mono h fun x r hr => ?_)
  cases r <;> exact hr

theorem Quiet.clean (hp : Quiet p) (hx : x.Clean) (f : Except StoreStatus α → β) :
    Cleanly x (f <$> p.run) :=
  clean_of_checked (hp clean_dropped hx) f

theorem quiet_expect (accepted : Bool) : Quiet (expect accepted) := by
  intro A x _ hx
  unfold expect
  split_ifs <;> exact hx

theorem quiet_ensureType (key : RedisKey) (expected : String) (allowNone : Bool) :
    Quiet (ensureType key expected allowNone) := quiet_ask rfl _

theorem quiet_readWatchedReadyRevision (keys : List RedisKey) :
    Quiet (readWatchedReadyRevision keys) := by
  refine (quiet_ensureType _ _ _).bind fun _ => (quiet_ask rfl _).bind fun _ => ?_
  refine (quiet_ensureType _ _ _).bind fun _ => (quiet_ensureType _ _ _).bind fun _ => ?_
  exact (Quiet.forM fun key _ => quiet_ensureType _ _ _).bind fun _ => quiet_ask rfl _

theorem quiet_barrierState : Quiet barrierState := quiet_ask rfl _

theorem quiet_currentRevision : Quiet currentRevision := quiet_ask rfl _

/-- A transaction whose replies are judged afterwards. -/
theorem clean_transaction {γ : Type} {commands : α → List (Command RedisKey)}
    {f : α × List Reply → StoreCheck β} (hkeys : keys.length < 8) (hp : Quiet p)
    (hcommands : ∀ a, ∀ c ∈ commands a, c.isQuiet = true) (hf : ∀ r, Quiet (f r)) (hx : x.Clean)
    (g : Except StoreStatus β → γ) :
    Cleanly x
      (g <$> (watchedTransaction keys p commands >>= f).run) :=
  clean_of_checked ((wp_watchedTransaction hkeys hp hcommands hx).bind fun _ r hx =>
    hf r clean_dropped hx) g

section

variable [Inet]

omit [Inet] in
theorem quiet_stillExpired (entries : List BlacklistEntry) (expectedRevision nowMs : ℕ) :
    Quiet (stillExpired entries expectedRevision nowMs) := by
  refine (quiet_ensureType _ _ _).bind fun _ => ?_
  refine (Quiet.forM fun type _ => quiet_ensureType _ _ _).bind fun _ => ?_
  refine (quiet_ask rfl _).bind fun _ => ?_
  exact Quiet.forM fun type _ => Quiet.forM fun entry _ => quiet_ask rfl _

theorem quiet_readNotReadyRevision (entries : List BlacklistEntry) :
    Quiet (readNotReadyRevision entries) := by
  refine (quiet_ensureType _ _ _).bind fun _ => (quiet_ensureType _ _ _).bind fun _ => ?_
  refine (quiet_ensureType _ _ _).bind fun _ => (quiet_ensureType _ _ _).bind fun _ => ?_
  refine (quiet_ensureType _ _ _).bind fun _ => (quiet_ask rfl _).bind fun _ => ?_
  refine (quiet_ask rfl _).bind fun previous => (quiet_expect _).bind fun _ => ?_
  exact Quiet.pure previous

theorem quiet_scanHash (type : EntityType) (scanCount fuel : ℕ) (cursor : Bytes) :
    Quiet (scanHash type scanCount fuel cursor) := by
  induction fuel generalizing cursor with
  | zero => exact fun _ _ _ hx => hx
  | succ fuel ih =>
    refine Quiet.bind (quiet_ask rfl _) fun ⟨next, page⟩ => ?_
    change Quiet (if next = zeroCursor then _ else _)
    split_ifs
    · exact Quiet.pure _
    · exact (ih _).bind fun rest => Quiet.pure _

theorem quiet_stableSnapshot (scanCount fuel : ℕ) : Quiet (stableSnapshot scanCount fuel) := by
  refine quiet_currentRevision.bind fun _ => (quiet_scanHash _ _ _ _).bind fun _ => ?_
  refine (quiet_scanHash _ _ _ _).bind fun _ => (quiet_scanHash _ _ _ _).bind fun _ => ?_
  exact quiet_currentRevision.bind fun _ => Quiet.check _

theorem length_touchedKeys (mutations : List BlacklistMutation) :
    (touchedKeys mutations).length ≤ 3 := List.length_filter_le _ _

theorem clean_applyMutations (mutations : List BlacklistMutation) (hx : x.Clean) :
    Cleanly x (applyMutations mutations) := by
  unfold applyMutations
  split_ifs
  · exact hx
  · refine clean_transaction ?_ (quiet_readWatchedReadyRevision _)
      (fun _ => isQuiet_batchCommands mutations) (fun r => ?_) hx _
    · have := length_touchedKeys mutations
      simp only [List.length_append, List.length_cons, List.length_nil]
      omega
    · exact (quiet_expect _).bind fun _ => Quiet.pure _

theorem clean_removeExpiredFields (entries : List BlacklistEntry) (expectedRevision nowMs : ℕ)
    (hx : x.Clean) : Cleanly x
      (removeExpiredFields entries expectedRevision nowMs) := by
  unfold removeExpiredFields
  split_ifs
  · exact hx
  · refine clean_transaction ?_ (quiet_stillExpired _ _ _)
      (fun _ => isQuiet_removeCommands entries) (fun r => ?_) hx _
    · have : (kinds entries).length ≤ 3 := List.length_filter_le _ _
      simp only [List.length_cons, List.length_map]
      omega
    · exact (quiet_expect _).bind fun _ => Quiet.pure _

theorem clean_rebuildFromMysql (entries : List BlacklistEntry) (hx : x.Clean) :
    Cleanly x (rebuildFromMysql entries) :=
  clean_transaction (by simp) (quiet_readNotReadyRevision _)
    (fun _ => isQuiet_rebuildCommands entries)
    (fun r => (quiet_expect _).bind fun _ => Quiet.pure _) hx _

theorem clean_readPending (count : ℕ) (hx : x.Clean) :
    Cleanly x (readPending count) := by
  unfold readPending
  split_ifs
  · exact hx
  · refine Prog.Wp.bind (quiet_ask rfl _ clean_dropped hx) fun x r hr => ?_
    cases r <;> exact hr

theorem clean_loadStableSnapshot (scanCount fuel : ℕ) (hx : x.Clean) :
    Cleanly x (loadStableSnapshot scanCount fuel) := by
  unfold loadStableSnapshot
  split_ifs
  · exact hx
  · refine Prog.Wp.bind (quiet_stableSnapshot _ _ clean_dropped hx) fun x r hr => ?_
    cases r <;> exact hr

end

theorem clean_deletePending (streamIds : List Bytes) (hx : x.Clean) :
    Cleanly x (deletePending streamIds) := by
  unfold deletePending
  split_ifs
  · exact hx
  · exact hx
  · exact ((quiet_ask rfl _).bind fun _ => Quiet.pure _).clean hx _

theorem clean_setPublishedRevision (revision : ℕ) (hx : x.Clean) :
    Cleanly x (setPublishedRevision revision) := by
  unfold setPublishedRevision
  split_ifs
  · exact hx
  · exact clean_transaction (by simp) (quiet_ensureType _ _ _)
      (fun _ c hc => by rw [List.mem_singleton.1 hc]; rfl) (fun _ => quiet_expect _) hx _

theorem clean_readResetBarrier (hx : x.Clean) :
    Cleanly x readResetBarrier := by
  refine Prog.Wp.bind (quiet_barrierState clean_dropped hx) fun x r hr => ?_
  cases r <;> exact hr

theorem clean_completeResetBarrier (token : ℕ) (hx : x.Clean) :
    Cleanly x (completeResetBarrier token) := by
  unfold completeResetBarrier
  split_ifs
  · exact hx
  · exact clean_transaction (by simp) (quiet_barrierState.bind fun _ => Quiet.check _)
      (fun _ c hc => by rw [List.mem_singleton.1 hc]; rfl) (fun _ => quiet_expect _) hx _

theorem clean_orStop {output : ResetConvergence} {step : StoreCheck α}
    {next : α → Store ResetConvergence} (hstep : Quiet step)
    (hnext : ∀ a x, x.Clean → Cleanly x (next a)) (hx : x.Clean) :
    Cleanly x (orStop output step next) := by
  refine Prog.Wp.bind (hstep clean_dropped hx) fun x r hr => ?_
  cases r with
  | ok a => exact hnext a x hr
  | error status => exact hr

theorem clean_readResetConvergence (hx : x.Clean) :
    Cleanly x readResetConvergence := by
  refine clean_orStop (quiet_ask rfl _) (fun _ x hx => ?_) hx
  refine clean_orStop (quiet_ask rfl _) (fun _ x hx => ?_) hx
  refine clean_orStop (quiet_ask rfl _) (fun _ x hx => ?_) hx
  refine clean_orStop (quiet_ask rfl _) (fun _ x hx => ?_) hx
  refine clean_orStop (quiet_ask rfl _) (fun _ x hx => ?_) hx
  exact clean_orStop (quiet_ask rfl _) (fun _ x hx => hx) hx

end

end Store

section

variable [Inet]

/-- Every call keeps a connection clean. -/
theorem StoreCall.clean (call : StoreCall) {x : Connection} (hx : x.Clean) :
    Store.Cleanly x call.code := by
  cases call with
  | applyMutations mutations => exact Prog.wp_map.2 (Store.clean_applyMutations mutations hx)
  | readPending count => exact Prog.wp_map.2 (Store.clean_readPending count hx)
  | deletePending ids => exact Prog.wp_map.2 (Store.clean_deletePending ids hx)
  | rebuildFromMysql entries => exact Prog.wp_map.2 (Store.clean_rebuildFromMysql entries hx)
  | readReadyRevision =>
    exact Prog.wp_map.2 ((Store.quiet_readWatchedReadyRevision _).clean hx _)
  | readRevision => exact Prog.wp_map.2 (Store.quiet_currentRevision.clean hx _)
  | loadStableSnapshot scanCount fuel =>
    exact Prog.wp_map.2 (Store.clean_loadStableSnapshot scanCount fuel hx)
  | removeExpiredFields entries revision nowMs =>
    exact Prog.wp_map.2 (Store.clean_removeExpiredFields entries revision nowMs hx)
  | setPublishedRevision revision =>
    exact Prog.wp_map.2 (Store.clean_setPublishedRevision revision hx)
  | requestResetBarrier => exact Prog.wp_map.2 ((Store.quiet_ask rfl _).clean hx _)
  | readResetBarrier => exact Prog.wp_map.2 (Store.clean_readResetBarrier hx)
  | completeResetBarrier token => exact Prog.wp_map.2 (Store.clean_completeResetBarrier token hx)
  | readResetConvergence => exact Prog.wp_map.2 (Store.clean_readResetConvergence hx)

/-- **Connections are never reused dirty.**  When a call of the store that started on a clean
connection returns, whatever the replies and failures were, the connection was dropped or its
session neither watches a key nor has an open `MULTI`. -/
theorem call_leaves_clean (call : StoreCall) {es : List (Prog.Event (ConnectionSig RedisKey))}
    {reply : StoreReply} {x x' : Connection} (hrun : call.code.Runs es reply) (hx : x.Clean)
    (htrace : Prog.Trace Reacts x es x') : x'.Clean :=
  (call.clean hx).of_runs hrun htrace

end

section Witness

local instance hygieneInet : Inet := Inet.sample

/-- An execution in which `EXEC` is refused. -/
def refusedEvents : List (Prog.Event (ConnectionSig RedisKey)) :=
  [⟨.command (.watch [.publishedRevision]), .reply (.status "OK")⟩,
    ⟨.command (.type .publishedRevision), .reply (.status "none")⟩,
    ⟨.command .multi, .reply (.status "OK")⟩,
    ⟨.command (.set .publishedRevision (toText 5)), .reply (.status "QUEUED")⟩,
    ⟨.command .exec, .reply (.error "EXECABORT")⟩]

/-- The theorem for a transaction that is refused after it was opened. -/
theorem call_leaves_clean_refused :
    (StoreCall.setPublishedRevision 5).code.Runs refusedEvents (.status .transactionError) ∧
      Connection.Clean ⟨true, false, false⟩ := by
  have hrun : (StoreCall.setPublishedRevision 5).code.Runs refusedEvents
      (.status .transactionError) := .call (.call (.call (.call (.call .ret))))
  refine ⟨hrun, call_leaves_clean _ hrun (x := ⟨true, false, false⟩) (fun _ => ⟨rfl, rfl⟩) ?_⟩
  exact .cons (.answered rfl (.watch true)) (.cons (.answered rfl (.quiet rfl))
    (.cons (.answered rfl .opened) (.cons (.answered rfl (.quiet rfl))
      (.cons (.answered rfl .executed) .nil))))

end Witness

end AegisFlow
