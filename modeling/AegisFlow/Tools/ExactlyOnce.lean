import AegisFlow.App.StoreEffects

/-!
# One mutation, once

`manage_blacklist add` and `disable` try again as long as their transaction meets a conflict, on the
same connection.  Whatever the clock says, whatever becomes of the commands and whatever others
write meanwhile, the mutation is committed once at most, and what is printed tells whether it was.

* `rely_applyWithRetry` : the result of the loop tells what all its attempts did together;
* `manage_exactly_once` : **exit code zero means committed once**, at the revision that is printed,
  and the failures that promise it mean not at all.
-/

namespace AegisFlow

open Tool

section

variable [Inet] {ι : Type} [DecidableEq ι] {config : BlacklistMaintenanceConfig} {roles : ι → Role}
  {i : ι} {x : ProcessScene ι} {m : BlacklistMutation}

/-- The mutation was committed once at most. -/
def OnceAtMost (m : BlacklistMutation) (deeds : List (Deed ι)) : Prop :=
  NoEffect deeds ∨ OneEffect deeds (Applied [m])

/-- At no moment the mutation was committed more than once. -/
abbrev MustOnce (m : BlacklistMutation) (y : ProcessScene ι) (_ : DeployOp) : Prop :=
  OnceAtMost m y.past

/-- A tool that has done nothing yet. -/
structure Unspent (x : ProcessScene ι) : Prop where
  rest : AtRest .tool x.view
  noEffect : NoEffect x.past

omit [DecidableEq ι] in
theorem Unspent.quietly {x y : ProcessScene ι} (h : Unspent x) (hxy : Quietly x y) : Unspent y := by
  obtain ⟨deeds, hpast, hnone⟩ := hxy.past
  exact ⟨hxy.view ▸ h.rest, hpast ▸ h.noEffect.append hnone⟩

omit [DecidableEq ι] in
theorem Unspent.must {y : ProcessScene ι} (h : Unspent x) (hpast : y.past = x.past)
    (op : DeployOp) : MustOnce m y op := .inl (hpast ▸ h.noEffect)

/-- The clock and other things that concern nobody else. -/
theorem rely_unspent {op : DeployOp} (hupd : ∀ v r, DeployView.upd v op r = v)
    (hsame : ∀ w r w', DeployAnswers i w op r w' → w'.db = w.db) (hx : Unspent x) :
    Prog.Rely (surroundings config roles i) (MustOnce m) (fun y _ => Unspent y) x (Deploy.ask op) :=
  (rely_ask (fun _ hy => hx.must hy.past op) hupd hsame).mono (fun _ _ h => h)
    fun _ _ h => hx.quietly h

theorem rely_clockNow (hx : Unspent x) :
    Prog.Rely (surroundings config roles i) (MustOnce m) (fun y _ => Unspent y) x clockNow :=
  rely_unspent (fun _ _ => rfl) (fun _ _ _ h => by cases h; rfl) hx

theorem Unspent.drift {y : ProcessScene ι} (h : Unspent x)
    (hxy : (surroundings config roles i).Drifts x y) : Unspent y :=
  ⟨hxy.view ▸ h.rest, hxy.past ▸ h.noEffect⟩

theorem rely_sleepForPoll (deadline : ℕ) (hx : Unspent x) :
    Prog.Rely (surroundings config roles i) (MustOnce m) (fun y _ => Unspent y) x
      (sleepForPoll deadline) := by
  refine (rely_clockNow hx).bind fun y now hy => ?_
  split_ifs
  · exact fun z hz => hy.drift hz
  · have hsleep (time : ℕ) : Prog.Rely (surroundings config roles i) (MustOnce m)
        (fun y _ => Unspent y) y (Deploy.ask (.sleepUntil time)) :=
      rely_unspent (fun _ _ => rfl) (fun _ _ _ h => by cases h; rfl) hy
    exact (hsleep _).bind fun z _ hz => (rely_clockNow hz).bind fun z' _ hz' =>
      fun _ hdrift => hz'.drift hdrift

/-- How the tool ends an attempt. -/
structure Attempted (m : BlacklistMutation) (y : ProcessScene ι) (result : StoreResult) : Prop where
  rest : AtRest .tool y.view
  told : Told (.applyMutations [m]) result y.past

theorem Attempted.drift {y : ProcessScene ι} {result : StoreResult} (h : Attempted m x result)
    (hxy : (surroundings config roles i).Drifts x y) : Attempted m y result :=
  ⟨hxy.view ▸ h.rest, hxy.past ▸ h.told⟩

omit [DecidableEq ι] in
/-- A tool that gives up. -/
theorem Unspent.attempted {status : StoreStatus} (h : Unspent x) (hstatus : status ≠ .ok) :
    Attempted m x ⟨status, none⟩ :=
  ⟨h.rest, .inl h.noEffect, fun hok => absurd hok hstatus, fun _ => h.noEffect⟩

theorem rely_applyMutation (hx : Unspent x) :
    Prog.Rely (surroundings config roles i) (MustOnce m) (Attempted m) x (applyMutation m) := by
  have hdirect (c) : ¬ DirectWrite (.applyMutations [m]) c := id
  refine (rely_runStore (f := .result) rfl hdirect hx.rest (fun y hy => hx.must hy.past _)
    fun y op htally _ => ?_).mono (fun _ _ h => h) ?_
  · obtain ⟨deeds, hpast, hdid⟩ := htally.did
    rw [MustOnce, hpast]
    exact hdid.once.imp hx.noEffect.append hx.noEffect.append_one
  · rintro y result ⟨⟨hrest, -, hpost⟩, htally⟩
    obtain ⟨deeds, hpast, hdid⟩ := htally.did
    exact ⟨hrest, hpast ▸ (hdid.told hpost rfl).prepend hx.noEffect⟩

/-- **The result of the loop tells what all its attempts did together.** -/
theorem rely_applyWithRetry (deadline fuel : ℕ) (hx : Unspent x) :
    Prog.Rely (surroundings config roles i) (MustOnce m) (Attempted m) x
      (applyWithRetry m deadline fuel) := by
  induction fuel generalizing x with
  | zero => exact fun y hy => (hx.drift hy).attempted (by simp)
  | succ fuel ih =>
    refine (rely_clockNow hx).bind fun y now hy => ?_
    split_ifs
    · refine (rely_applyMutation hy).bind fun z result hz => ?_
      split_ifs with hconflict
      · exact fun _ hdrift => hz.drift hdrift
      · -- a conflict promises that nothing was written, so the next attempt is the first again
        have hclean : Store.clean result.status = true := by rw [not_not.1 hconflict]; rfl
        have hagain : Unspent z := ⟨hz.rest, hz.told.clean hclean⟩
        refine (rely_sleepForPoll deadline hagain).bind fun z' more hz' => ?_
        split_ifs
        · exact ih hz'
        · exact fun _ hdrift => (hz'.drift hdrift).attempted (by simp)
    · exact fun z hz => (hy.drift hz).attempted (by simp)

/-- The status that a failure reports. -/
def CommandOutcome.reports : CommandOutcome → Option StoreStatus
  | .applyFailed _ status => some status
  | .openedTooLate => some .deadlineExceeded
  | _ => none

/-- What the outcome of `add` or `disable` tells. -/
structure Concluded (command : ManageBlacklistCommand) (outcome : CommandOutcome)
    (deeds : List (Deed ι)) : Prop where
  /-- Exit code zero: committed once, at the revision that is printed. -/
  ok : outcome.exitCode = 0 → ∃ n, outcome = .applied command.action n ∧
    OneEffect deeds fun db db' => Applied [command.mutation] db db' ∧ db'.revision = some n
  /-- A failure that promises it: not committed. -/
  clean : ∀ status, outcome.reports = some status → Store.clean status = true → NoEffect deeds

theorem rely_runMutation {command : ManageBlacklistCommand} (deadline fuel : ℕ) (hx : Unspent x) :
    Prog.Rely (surroundings config roles i) (MustOnce command.mutation)
      (fun y outcome => OnceAtMost command.mutation y.past ∧ Concluded command outcome y.past) x
      (runMutation command deadline fuel) := by
  refine (rely_applyWithRetry deadline fuel hx).bind fun y result hy => ?_
  have honce : OnceAtMost command.mutation y.past := hy.told.once
  split
  · rename_i revision hstatus hrevision
    intro z hz
    rw [hz.past]
    refine ⟨honce, fun _ => ⟨revision, rfl, ?_⟩, fun status hreports => by cases hreports⟩
    obtain ⟨n, hn, hone⟩ := hy.told.ok hstatus
    obtain rfl : revision = n := Option.some.inj (hrevision.symm.trans hn)
    exact hone
  · rename_i hnot
    intro z hz
    rw [hz.past]
    refine ⟨honce, fun hcode => (by cases hcode), fun status hreports hclean => ?_⟩
    obtain rfl : reported result = status := Option.some.inj hreports
    -- an `Ok` without revision does not occur
    have hfailed : result.status ≠ .ok := fun hok => by
      obtain ⟨n, hn, -⟩ := hy.told.ok hok
      exact hnot n hok hn
    rw [reported, if_neg hfailed] at hclean
    exact hy.told.clean hclean

theorem rely_runManageBlacklistCommand {command : ManageBlacklistCommand}
    (haction : command.action ≠ .clearAll) (fuel : ℕ) (hx : Unspent x) :
    Prog.Rely (surroundings config roles i) (MustOnce command.mutation)
      (fun y outcome => OnceAtMost command.mutation y.past ∧ Concluded command outcome y.past) x
      (runManageBlacklistCommand command fuel) := by
  have hopen (y : ProcessScene ι) (hy : Unspent y) : Prog.Rely (surroundings config roles i)
      (MustOnce command.mutation) (fun y _ => Unspent y) y (Deploy.ask .openBackend) :=
    rely_unspent (fun _ _ => rfl) (fun _ _ _ h => by cases h; rfl) hy
  -- every failure before the first attempt is one without effect
  have hfail (y : ProcessScene ι) (hy : Unspent y) (outcome : CommandOutcome)
      (hcode : outcome.exitCode ≠ 0) : Prog.Rely (surroundings config roles i)
      (MustOnce command.mutation) (fun y outcome => OnceAtMost command.mutation y.past ∧
        Concluded command outcome y.past) y (pure outcome) := fun z hz =>
    ⟨.inl (hy.drift hz).noEffect, fun h => absurd h hcode, fun _ _ _ => (hy.drift hz).noEffect⟩
  refine (rely_clockNow hx).bind fun y startedAt hy => (hopen y hy).bind fun z opened hz => ?_
  split_ifs
  · exact hfail z hz _ (by simp [CommandOutcome.exitCode])
  · refine (rely_clockNow hz).bind fun z' now hz' => ?_
    split_ifs
    · exact hfail z' hz' _ (by simp [CommandOutcome.exitCode])
    · exact rely_runMutation _ fuel hz'

/-- **`add` and `disable` commit their mutation exactly once when they say so.**  At every moment of
an invocation it was committed once at most.  Exit code zero means that it was committed once, and
that the printed revision is the one that this commit produced.  A failure reported as
`watch_conflict`, `not_ready`, `invalid_remote_state`, `deadline_exceeded` or `io_error` means that
it was not committed. -/
theorem manage_exactly_once {s₀ s₁ s : ProcessState ι} {command : ManageBlacklistCommand} {fuel : ℕ}
    (hr : (processes config roles).system.Reachable s₀)
    (hbegin : (processes config roles).system.step s₀ (.begin i (.manage command fuel)) s₁)
    (haction : command.action ≠ .clearAll) {past : List (Deed ι)}
    (hcourse : (processes config roles).Course i s₁ past s) :
    OnceAtMost command.mutation past ∧
      ∀ job result s', (processes config roles).system.step s (.finish i job result) s' →
        ∃ outcome, result = some (.managed outcome) ∧ Concluded command outcome past := by
  have hbegun := begun hr hbegin
  have hrely : Prog.Rely (surroundings config roles i) (MustOnce command.mutation)
      (fun y r => OnceAtMost command.mutation y.past ∧ ∃ outcome, r.1 = some (.managed outcome) ∧
        Concluded command outcome y.past) (Contract.sceneOf i s₁ [])
      (((Job.manage command fuel).code config).run (s₀.vars i)) := by
    have hx : Unspent (Contract.sceneOf i s₁ []) := ⟨hbegun.rest, by simp [NoEffect]⟩
    refine Prog.rely_map.2 ((rely_runManageBlacklistCommand haction fuel hx).mono (fun _ _ h => h)
      fun y outcome hy => ?_)
    exact ⟨hy.1, outcome, rfl, hy.2⟩
  refine ⟨?_, fun job result s' hst => ?_⟩
  · exact Contract.always_course attuned hbegun.reachable hbegun.run hrely hcourse
      (A := fun y => OnceAtMost command.mutation y.past) (fun _ _ h => h) fun _ _ h => h.1
  · exact (Contract.ends_course attuned hbegun.reachable hbegun.run hrely hcourse hst).2.2.2

end

section Example

local instance toolInet : Inet := Inet.sample

theorem toolUser_normal : NormalId .user (ascii "mallory") := ⟨ascii "mallory", by decide⟩

theorem toolReason_valid : validText (ascii "abuse") 256 = true := by decide

/-- `manage_blacklist add --type user --id mallory --reason abuse`. -/
def addMallory : ManageBlacklistCommand :=
  ⟨.add, .mkUpsert .user (ascii "mallory") (ascii "abuse") 0 toolUser_normal toolReason_valid
    (Nat.zero_le _), false, rfl⟩

/-- A tool and nothing else. -/
abbrev toolPool := processes ⟨1, 1, 1, 1, 1⟩ fun _ : Unit => .tool

/-- A store that is ready, at revision 6. -/
def readyTool : ProcessState Unit :=
  ⟨⟨⟨⟨Function.update (Function.update (fun _ => none) .cacheReady (some (.string (ascii "1"))))
      .revision (some (.string (ascii "6"))), fun _ => {}⟩, fun _ => true⟩, .empty,
      fun _ => .empty⟩, fun _ => ⟨.tool, StoreView.initial⟩, fun _ => ⟨false, 0, false, 0, 0⟩,
    fun _ => none, []⟩

/-- A deployment that answers the tool, at a time that does not pass. -/
def toolAnswer : (op : DeployOp) → Deployment Unit → Option (op.Reply × Deployment Unit)
  | .enter _, w => some ((), w)
  | .redis op, w => (Redis.World.answer 0 () op w.redis).map fun x => (x.1, { w with redis := x.2 })
  | .now, w => some (0, w)
  | .openBackend, w => some (⟨true, 1000, ""⟩, w)
  | _, _ => none

theorem toolAnswer_sound (w : Deployment Unit) (op : DeployOp) (r : op.Reply) (w' : Deployment Unit)
    (h : toolAnswer op w = some (r, w')) : DeployAnswers () w op r w' := by
  cases op with
  | redis op =>
    obtain ⟨x, hx, heq⟩ := Option.map_eq_some_iff.mp h
    cases heq
    exact .redis (Redis.World.serves_of_answer hx)
  | enter | now | openBackend =>
    cases h
    constructor
  | _ => cases h

/-- The tool adds the user at its first attempt. -/
def addedTool : ProcessState Unit :=
  toolPool.drive toolAnswer () 17 (toolPool.launch () (.manage addMallory 1) readyTool)

theorem addedTool_course : ∃ past,
    toolPool.Course () (toolPool.launch () (.manage addMallory 1) readyTool) past addedTool :=
  Pool.drive_induct (J := fun s => ∃ past,
      toolPool.Course () (toolPool.launch () (.manage addMallory 1) readyTool) past s)
    toolAnswer_sound (fun _ _ _ _ ⟨_, h⟩ hst => ⟨_, h.op hst⟩) 17 ⟨[], .start⟩

/-- The theorem for that run: the user is added once, at revision 7. -/
theorem manage_exactly_once_added :
    ∃ past : List (Deed Unit), OneEffect past fun db db' =>
      Applied [addMallory.mutation] db db' ∧ db'.revision = some 7 := by
  have hstart : toolPool.system.Reachable readyTool :=
    .init ⟨⟨fun _ => rfl, fun _ => rfl⟩, fun _ => rfl, rfl⟩
  obtain ⟨past, hcourse⟩ := addedTool_course
  obtain ⟨outcome, hresult, hconcluded⟩ := (manage_exactly_once hstart (.begin rfl rfl) (by decide)
    hcourse).2 _ _ _ (Pool.step_conclude rfl)
  cases hresult
  obtain ⟨n, hn, hone⟩ := hconcluded.ok rfl
  cases hn
  exact ⟨past, hone⟩

end Example

end AegisFlow
