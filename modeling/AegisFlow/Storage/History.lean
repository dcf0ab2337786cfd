import AegisFlow.Storage.StorePool
import Mathlib.Logic.Relation

/-!
# What becomes of a database

Clients of the store change the database one operation at a time.  Whatever they do, the revision
never decreases, and the hashes are what they were as long as the revision is.

* `Change`, `Later` : what an operation, or any number of operations, of calls of some kind can make
  of the database;
* `Later.hash_eq`, `Later.pending` : at the same revision the hashes are the same, and without
  deletions the stream only grows at its end;
* `revision_determines_hashes`, `pending_appendOnly` : **the same for every run of any number of
  clients**, whatever they call and however their commands interleave.
-/

namespace AegisFlow

open Redis

section

variable [Inet]

/-- What an operation of a call can make of the database. -/
inductive Change (may : StoreCall → Prop) (db : BlacklistDb) : BlacklistDb → Prop
  | direct {call : StoreCall} {c : Command RedisKey} (now : ℕ) (hmay : may call)
      (hwrite : DirectWrite call c) : Change may db (c.run now db).db
  | commit {call : StoreCall} {db' : BlacklistDb} (hmay : may call)
      (hcommits : Commits call db db') : Change may db db'

/-- What any number of operations can make of the database. -/
abbrev Later (may : StoreCall → Prop) : BlacklistDb → BlacklistDb → Prop :=
  Relation.ReflTransGen (Change may)

variable {may may' : StoreCall → Prop} {db db' db'' : BlacklistDb} {v v' : StoreView}

/-- An operation of a client changes the database as its call may. -/
theorem Evolves.later (h : Evolves v v' db db')
    (hmay : ∀ call, v.call = some call → may call) : Later may db db' := by
  cases h with
  | same hdb => exact hdb ▸ .refl
  | direct now hcall hwrite hdb => exact hdb ▸ .single (.direct now (hmay _ hcall) hwrite)
  | commit now hcall _ _ _ hcommits => exact .single (.commit (hmay _ hcall) hcommits)

omit [Inet] in
theorem hash_congr {t : EntityType} (h : db' (hashKey t) = db (hashKey t)) :
    db'.hash t = db.hash t := by
  simp only [BlacklistDb.hash, h]

/-! ### Revisions -/

/-- A transaction that does not count as a revision leaves the hashes alone. -/
theorem Commits.hash_eq {call : StoreCall} (h : Commits call db db') (hcounts : call.counts = false)
    (t : EntityType) : db'.hash t = db.hash t := by
  cases call with
  | setPublishedRevision revision =>
    obtain rfl := h
    exact hash_congr (Function.update_of_ne (by cases t <;> simp [hashKey]) _ _)
  | completeResetBarrier => exact hash_congr (h.others _ (by cases t <;> simp [hashKey]))
  | applyMutations | rebuildFromMysql | removeExpiredFields => cases hcounts
  | _ => exact h.elim

/-- An operation leaves revision and hashes alone, or counts as a revision. -/
theorem Change.revision (h : Change may db db') :
    db'.revision = db.revision ∧ (∀ t, db'.hash t = db.hash t) ∨
      ∃ n, db.revision = some n ∧ db'.revision = some (n + 1) := by
  cases h with
  | direct now hmay hwrite =>
    refine .inl ⟨revision_congr (hwrite.other now (by simp) (by simp)), fun t => ?_⟩
    exact hash_congr (hwrite.other now (by cases t <;> simp [hashKey])
      (by cases t <;> simp [hashKey]))
  | @commit call db' hmay hcommits =>
    cases hcounts : call.counts with
    | true => exact .inr (hcommits.counts hcounts)
    | false => exact .inl ⟨hcommits.keeps hcounts, hcommits.hash_eq hcounts⟩

/-- The revision never decreases. -/
theorem Later.revision_le (h : Later may db db') {n : ℕ} (hn : db.revision = some n) :
    ∃ m, db'.revision = some m ∧ n ≤ m := by
  induction h with
  | refl => exact ⟨n, hn, le_rfl⟩
  | tail _ hchange ih =>
    obtain ⟨m, hm, hle⟩ := ih
    rcases hchange.revision with ⟨heq, -⟩ | ⟨k, hk, hk'⟩
    · exact ⟨m, heq.trans hm, hle⟩
    · obtain rfl : k = m := Option.some.inj (hk.symm.trans hm)
      exact ⟨k + 1, hk', by omega⟩

/-- **At the same revision the hashes are the same.** -/
theorem Later.hash_eq (h : Later may db db') {n : ℕ} (hn : db.revision = some n)
    (hn' : db'.revision = some n) (t : EntityType) : db'.hash t = db.hash t := by
  induction h with
  | refl => rfl
  | @tail b c hprev hchange ih =>
    obtain ⟨m, hm, hle⟩ := Later.revision_le hprev hn
    rcases hchange.revision with ⟨heq, hhash⟩ | ⟨k, hk, hk'⟩
    · exact (hhash t).trans (ih (heq ▸ hn'))
    · -- a revision was counted: it is above the one at the beginning
      obtain rfl : k = m := Option.some.inj (hk.symm.trans hm)
      have hkn := Option.some.inj (hk'.symm.trans hn')
      omega

/-! ### The stream -/

omit [Inet] in
theorem pending_congr (h : db' .pending = db .pending) : db'.pending = db.pending := by
  simp only [BlacklistDb.pending, h]

/-- The calls that delete nothing from the stream. -/
def StoreCall.KeepsPending : StoreCall → Prop
  | .deletePending _ => False
  | _ => True

theorem Change.pending (h : Change may db db') (hmay : ∀ call, may call → call.KeepsPending) :
    ∃ news, db'.pending = db.pending ++ news := by
  cases h with
  | @direct call c now hcall hwrite =>
    cases call with
    | deletePending => exact (hmay _ hcall).elim
    | requestResetBarrier =>
      obtain rfl := hwrite
      refine ⟨[], ?_⟩
      rw [List.append_nil]
      exact pending_congr (Command.run_of_notMem_keys (by simp [Command.keys]))
    | _ => exact hwrite.elim
  | @commit call db' hcall hcommits =>
    have hsame (h : db' .pending = db .pending) : ∃ news, db'.pending = db.pending ++ news :=
      ⟨[], by rw [List.append_nil, pending_congr h]⟩
    cases call with
    | applyMutations =>
      obtain ⟨news, hnews, -⟩ := hcommits.stream
      exact ⟨news, hnews⟩
    | removeExpiredFields =>
      exact hsame (hcommits.others _ (fun t => (hashKey_ne_pending t).symm) (by simp))
    | rebuildFromMysql =>
      exact hsame (hcommits.others _ (fun t => (hashKey_ne_pending t).symm) (by simp) (by simp))
    | setPublishedRevision =>
      obtain rfl := hcommits
      exact hsame (Function.update_of_ne (by simp) _ _)
    | completeResetBarrier => exact hsame (hcommits.others _ (by simp))
    | _ => exact hcommits.elim

/-- **Without deletions the stream only grows at its end.** -/
theorem Later.pending (h : Later may db db') (hmay : ∀ call, may call → call.KeepsPending) :
    ∃ news, db'.pending = db.pending ++ news := by
  induction h with
  | refl => exact ⟨[], by rw [List.append_nil]⟩
  | tail _ hchange ih =>
    obtain ⟨news, hnews⟩ := ih
    obtain ⟨more, hmore⟩ := hchange.pending hmay
    exact ⟨news ++ more, by rw [hmore, hnews, List.append_assoc]⟩

/-! ### Runs of the clients -/

variable {ι : Type} [DecidableEq ι] {s s' : StorePoolState ι}

/-- All calls that are running are of this kind. -/
def OnlyRunning (may : StoreCall → Prop) (s : StorePoolState ι) : Prop :=
  ∀ i call p, s.run i = some (call, p) → may call

/-- **A run changes the database as the running calls may.** -/
theorem later_of_leads (hr : (storePool ι).system.Reachable s)
    (hl : ((storePool ι).system.restrict fun s _ => OnlyRunning may s).Leads s s') :
    Later may (dbOf s) (dbOf s') := by
  induction hl with
  | refl => exact .refl
  | @tail b c hprev hst ih =>
    obtain ⟨l, -, hst, honly⟩ := hst
    have hb := hr.leads (System.LeadsBy.of_restrict hprev)
    cases (storeContract ι).lawful hb hst with
    | begin | finish => exact ih
    | op hrun hallow hserve =>
      have hevolves := evolves ((storeInv hb).synced.at _) hallow hserve
      refine ih.trans (hevolves.later fun call hcall => ?_)
      -- the view names the call that is running
      obtain rfl := Option.some.inj (hcall.symm.trans ((storeInv hb).call _ _ _ hrun))
      exact honly _ _ _ hrun
    | env henv =>
      obtain ⟨-, rfl⟩ := henv
      exact ih

/-- **The revision determines the hashes.**  Along every run the revision never decreases, and as
long as it is the same, so are the three hashes. -/
theorem revision_determines_hashes (hr : (storePool ι).system.Reachable s)
    (hl : (storePool ι).system.Leads s s') {n : ℕ} (hn : (dbOf s).revision = some n) :
    ∃ m, (dbOf s').revision = some m ∧ n ≤ m ∧
      (m = n → ∀ t, (dbOf s').hash t = (dbOf s).hash t) := by
  have hlater : Later (fun _ => True) (dbOf s) (dbOf s') := by
    refine later_of_leads hr (Relation.ReflTransGen.mono (fun a b hab => ?_) _ _ hl)
    obtain ⟨l, hl, hst⟩ := hab
    exact ⟨l, hl, hst, fun _ _ _ _ => trivial⟩
  obtain ⟨m, hm, hle⟩ := hlater.revision_le hn
  refine ⟨m, hm, hle, ?_⟩
  rintro rfl
  exact hlater.hash_eq hn hm

/-- **Without deletions the stream is a log**: as long as no client is in `deletePending`, its
entries stay as they are and in order, and new ones come at the end. -/
theorem pending_appendOnly (hr : (storePool ι).system.Reachable s)
    (hl : ((storePool ι).system.restrict fun s _ =>
      OnlyRunning StoreCall.KeepsPending s).Leads s s') :
    ∃ news, (dbOf s').pending = (dbOf s).pending ++ news :=
  (later_of_leads hr hl).pending fun _ h => h

/-- A call of the kind that may run. -/
theorem leads_perform_only (i : ι) {call : StoreCall} (hcall : may call) (n : ℕ)
    (hs : OnlyRunning may s) : ((storePool ι).system.restrict fun s _ => OnlyRunning may s).Leads s
      (perform i call n s) := by
  let J (s' : StorePoolState ι) : Prop := OnlyRunning may s' ∧
    ((storePool ι).system.restrict fun s _ => OnlyRunning may s).Leads s s'
  have hbegin (a b : StorePoolState ι) (ha : J a) (hst : (storePool ι).Step a (.begin i call) b) :
      J b := by
    refine ⟨fun j call' p hrun => ?_, ha.2.tail ⟨_, trivial, hst, ha.1⟩⟩
    cases hst with
    | begin hidle hmay =>
      by_cases hj : j = i
      · subst hj
        obtain ⟨rfl, -⟩ : call = call' ∧ _ := by simpa using hrun
        exact hcall
      · exact ha.1 j call' p (by simpa [hj] using hrun)
  have hop (a : StorePoolState ι) (o) (r) (b : StorePoolState ι) (ha : J a)
      (hst : (storePool ι).Step a (.op i o r) b) : J b := by
    refine ⟨fun j call' p hrun => ?_, ha.2.tail ⟨_, trivial, hst, ha.1⟩⟩
    cases hst with
    | @op _ c _ k _ w hrun' hserve =>
      by_cases hj : j = i
      · subst hj
        obtain ⟨rfl, -⟩ : c = call' ∧ _ := by simpa using hrun
        exact ha.1 j c _ hrun'
      · exact ha.1 j call' p (by simpa [hj] using hrun)
  exact (Pool.drive_induct (answer_sound i) hop n
    (Pool.launch_induct hbegin trivial ⟨hs, .refl⟩)).2

end

section Witness

local instance historyInet : Inet := Inet.sample

/-- The first client has banned the user `u`, which is counted as revision 7. -/
def bannedPool : StorePoolState Bool :=
  Pool.conclude false (perform false (.applyMutations [poolBan]) 12 (poolAt readyDb))

/-- Ban the user `v` for ever. -/
def historyBan : BlacklistMutation := .banUser (ascii "v") ⟨ascii "v", by decide⟩

theorem bannedPool_leads : (storePool Bool).system.Leads (poolAt readyDb) bannedPool :=
  (leads_perform ..).trans (Pool.leads_conclude ..)

theorem bannedPool_reachable : (storePool Bool).system.Reachable bannedPool :=
  (poolAt_reachable _).leads bannedPool_leads

/-- The second client asks for a barrier: the revision stays, and so does the hash with its entry.
Before the transaction of the first client the revision was lower. -/
theorem revision_determines_hashes_banned :
    (∃ m, (dbOf bannedPool).revision = some m ∧ 6 ≤ m ∧ m = 7) ∧
    (dbOf (perform true .requestResetBarrier 1 bannedPool)).revision = some 7 ∧
    ((dbOf bannedPool).hash .user).lookup (ascii "u") = some (ascii "0") ∧
    (dbOf (perform true .requestResetBarrier 1 bannedPool)).hash .user =
      (dbOf bannedPool).hash .user := by
  obtain ⟨m, hm, hle, -⟩ := revision_determines_hashes (poolAt_reachable readyDb) bannedPool_leads
    (n := 6) rfl
  obtain ⟨k, hk, -, hsame⟩ := revision_determines_hashes bannedPool_reachable
    (leads_perform true .requestResetBarrier 1 _) (n := 7) rfl
  have hrevision : (dbOf bannedPool).revision = some 7 := by rfl
  have hlater : (dbOf (perform true .requestResetBarrier 1 bannedPool)).revision = some 7 := by rfl
  refine ⟨⟨m, hm, hle, Option.some.inj (hm.symm.trans hrevision)⟩, hlater, by rfl, ?_⟩
  exact hsame (Option.some.inj (hk.symm.trans hlater)) .user

/-- The second client bans another user: its entry comes after that of the first. -/
theorem pending_appendOnly_banned : ∃ entry news,
    (dbOf bannedPool).pending = [entry] ∧ news ≠ [] ∧
    (dbOf (perform true (.applyMutations [historyBan]) 12 bannedPool)).pending =
    [entry] ++ news := by
  have honly : OnlyRunning StoreCall.KeepsPending bannedPool := by
    intro i call p hrun
    cases i <;> cases hrun
  obtain ⟨news, hnews⟩ := pending_appendOnly bannedPool_reachable
    (leads_perform_only true
      (show StoreCall.KeepsPending (.applyMutations [historyBan]) from trivial)
      12 honly)
  have hlength : (dbOf bannedPool).pending.length = 1 := by rfl
  have hlonger : (dbOf (perform true (.applyMutations [historyBan]) 12 bannedPool)).pending.length =
      2 := by rfl
  obtain ⟨entry, hentry⟩ := List.length_eq_one_iff.mp hlength
  refine ⟨entry, news, hentry, ?_, hentry ▸ hnews⟩
  rintro rfl
  rw [hnews, List.append_nil, hlength] at hlonger
  cases hlonger

end Witness

end AegisFlow
