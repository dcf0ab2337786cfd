import AegisFlow.App.CandidateCoverage
import AegisFlow.Risk.CandidateGenerator
import AegisFlow.Storage.StorePool

/-!
# Candidates and the bans they meet

The queue of candidates keeps, of two candidates for one entity, the one that expires later.  A
batch of candidates is then written to the hashes with plain `HSET`s, whatever is stored there.

* `writes` : what a batch stores for an entity;
* `KeepsBans db db'` : no stored expiry was moved to an earlier time;
* `CandidateRun` : a run of the clients of the store, with the segments of candidates that were
  committed in it, and `CandidateRun.expiry` : what it leaves for an entity;
* `candidates_keep_bans_iff` : **a batch keeps the bans it meets iff, for every ban, one of its
  candidates lasts as long**, and after a run the latest expiry is stored iff the last batch about
  the entity has it;
* `candidate_weakens_ban` : a permanent ban is turned into one of half an hour.
-/

namespace AegisFlow

open Redis

section

/-! ### Stored expiries -/

/-- The expiry of an identifier in a hash. -/
def expiryIn (fields : Hash) (id : Bytes) : Option ℕ :=
  (fields.lookup id).bind (parseUnsigned · BlacklistMutation.kMaxExpireAtMs)

/-- The expiry that is stored for an entity. -/
def BlacklistDb.expiry (db : BlacklistDb) (t : EntityType) (id : Bytes) : Option ℕ :=
  expiryIn (db.hash t) id

theorem expiryIn_insert_self {fields : Hash} {id : Bytes} {e : ℕ}
    (he : e ≤ BlacklistMutation.kMaxExpireAtMs) :
    expiryIn (fields.insert id (toText e)) id = some e := by
  unfold expiryIn
  rw [Finmap.lookup_insert, Option.bind_some]
  refine parseUnsigned_toText ?_ he
  simp only [BlacklistMutation.kMaxExpireAtMs] at he
  omega

theorem expiryIn_insert_of_ne {fields : Hash} {id id' text : Bytes} (h : id ≠ id') :
    expiryIn (fields.insert id' text) id = expiryIn fields id := by
  unfold expiryIn
  rw [Finmap.lookup_insert_of_ne _ h]

/-- No expiry that was stored was moved to an earlier time, and none was removed. -/
def KeepsBans (db db' : BlacklistDb) : Prop :=
  ∀ t id e, db.expiry t id = some e → ∃ e', db'.expiry t id = some e' ∧ LastsAsLong e' e

variable [Inet] {t : EntityType} {id : Bytes} {ms ns : List BlacklistMutation}
  {m : BlacklistMutation}

/-- A mutation is about an entity. -/
def About (t : EntityType) (id : Bytes) (m : BlacklistMutation) : Prop :=
  m.entityType = some t ∧ m.id = id

instance : Decidable (About t id m) := inferInstanceAs (Decidable (_ ∧ _))

/-- The expiry that a batch of upserts stores for an entity: that of the last one about it. -/
def writes (t : EntityType) (id : Bytes) : List BlacklistMutation → Option ℕ
  | [] => none
  | m :: ms => (writes t id ms).or (if About t id m then some m.expireAtMs else none)

theorem writes_append : writes t id (ms ++ ns) = (writes t id ns).or (writes t id ms) := by
  induction ms with
  | nil => simp [writes]
  | cons m ms ih =>
    rw [List.cons_append, writes, writes, ih, Option.or_assoc]

/-- One candidate, written to a hash. -/
theorem expiryIn_editHash (fields : Hash) (hm : isCandidate m = true) :
    expiryIn (editHash t fields m) id =
      (if About t id m then some m.expireAtMs else none).or (expiryIn fields id) := by
  cases m with
  | mkUpsert t' id' reason e hid hreason he =>
    simp only [editHash, About, BlacklistMutation.entityType, BlacklistMutation.id,
      BlacklistMutation.expireAtMs, Option.some.injEq]
    by_cases ht : t' = t
    · by_cases hid' : id' = id
      · subst hid'
        rw [if_pos ht, expiryIn_insert_self he, if_pos ⟨ht, rfl⟩]
        rfl
      · rw [if_pos ht, expiryIn_insert_of_ne (Ne.symm hid'), if_neg fun h => hid' h.2]
        rfl
    · rw [if_neg ht, if_neg fun h => ht h.1]
      rfl
  | mkDisable => cases hm
  | mkClearAll => cases hm

/-- A batch of candidates, written to a hash. -/
theorem expiryIn_foldl (hms : ∀ m ∈ ms, isCandidate m = true) (fields : Hash) :
    expiryIn (ms.foldl (editHash t) fields) id = (writes t id ms).or (expiryIn fields id) := by
  induction ms generalizing fields with
  | nil => rfl
  | cons m ms ih =>
    rw [List.foldl_cons, ih (fun m' hm' => hms m' (List.mem_cons_of_mem m hm')),
      expiryIn_editHash fields (hms m List.mem_cons_self), writes, Option.or_assoc]

variable {db' db : BlacklistDb} {batch segment : List BlacklistMutation}

theorem Applied.expiry (h : Applied ms db db') (hms : ∀ m ∈ ms, isCandidate m = true) :
    db'.expiry t id = (writes t id ms).or (db.expiry t id) := by
  unfold BlacklistDb.expiry
  rw [h.hashes t, expiryIn_foldl hms]

/-- What a batch of upserts does to the bans it meets. -/
theorem Applied.keepsBans_iff (h : Applied ms db db') (hms : ∀ m ∈ ms, isCandidate m = true) :
    KeepsBans db db' ↔ ∀ t id stored written, db.expiry t id = some stored →
      writes t id ms = some written → LastsAsLong written stored := by
  constructor
  · intro hkeeps t id stored written hstored hwritten
    obtain ⟨e', he', hlasts⟩ := hkeeps t id stored hstored
    rw [h.expiry hms, hwritten] at he'
    cases he'
    exact hlasts
  · intro hlasts t id stored hstored
    cases hwritten : writes t id ms with
    | none => exact ⟨stored, by rw [h.expiry hms, hwritten, hstored]; rfl, .refl _⟩
    | some written =>
      refine ⟨written, ?_, hlasts t id stored written hstored hwritten⟩
      rw [h.expiry hms, hwritten]
      rfl

/-! ### Batches of the queue -/

/-- No two mutations are about one entity. -/
def Distinct (batch : List BlacklistMutation) : Prop :=
  batch.Pairwise fun a b => a.sameEntity b = false

theorem distinct_mergeIntoReserved (h : Distinct batch) (m : BlacklistMutation) :
    Distinct (mergeIntoReserved batch m) := by
  induction batch with
  | nil => exact List.pairwise_singleton _ _
  | cons x xs ih =>
    obtain ⟨hx, hxs⟩ := List.pairwise_cons.1 h
    simp only [mergeIntoReserved]
    split_ifs with hsame hlater
    · -- `m` takes the place of `x`, and is about the same entity
      obtain ⟨htype, hid⟩ := sameEntity_iff.mp hsame
      refine List.pairwise_cons.2 ⟨fun y hy => ?_, hxs⟩
      have hy := hx y hy
      unfold BlacklistMutation.sameEntity at hy ⊢
      rwa [← htype, ← hid]
    · exact h
    · refine List.pairwise_cons.2 ⟨fun y hy => ?_, ih hxs⟩
      rcases mem_mergeIntoReserved hy with hy | rfl
      · exact hx y hy
      · exact Bool.eq_false_iff.mpr hsame

theorem distinct_mergeAll (h : Distinct batch) (segment : List BlacklistMutation) :
    Distinct (mergeAll batch segment) := by
  induction segment generalizing batch with
  | nil => exact h
  | cons m segment ih => exact ih (distinct_mergeIntoReserved h m)

theorem writes_eq_none (h : ∀ m ∈ ms, ¬ About t id m) : writes t id ms = none := by
  induction ms with
  | nil => rfl
  | cons m ms ih =>
    rw [writes, ih fun m' hm' => h m' (List.mem_cons_of_mem m hm'),
      if_neg (h m List.mem_cons_self)]
    rfl

theorem writes_of_mem (hms : Distinct ms) (hm : m ∈ ms) (h : About t id m) :
    writes t id ms = some m.expireAtMs := by
  induction ms with
  | nil => cases hm
  | cons x ms ih =>
    obtain ⟨hx, hms⟩ := List.pairwise_cons.1 hms
    rcases List.mem_cons.mp hm with rfl | hm
    · -- nothing after `m` is about its entity
      have hnone : writes t id ms = none := by
        refine writes_eq_none fun y hy habout => ?_
        have hsame : m.sameEntity y = true :=
          sameEntity_iff.mpr ⟨h.1.trans habout.1.symm, h.2.trans habout.2.symm⟩
        rw [hx y hy] at hsame
        cases hsame
      rw [writes, hnone, if_pos h]
      rfl
    · rw [writes, ih hms hm]
      rfl

/-- **A batch of the queue writes the latest expiry** among the candidates it was merged from. -/
theorem writes_mergeAll (hseg : ∀ m ∈ segment, isCandidate m = true) (hm : m ∈ segment)
    (h : About t id m) :
    ∃ c ∈ segment, About t id c ∧ writes t id (mergeAll [] segment) = some c.expireAtMs ∧
      LastsAsLong c.expireAtMs m.expireAtMs := by
  obtain ⟨c, hc, hcovers⟩ := @mergeAll_covers _ [] segment m (by simp) hseg (.inr hm)
  have habout : About t id c := ⟨hcovers.entityType.trans h.1, hcovers.id.trans h.2⟩
  have hmem : c ∈ segment := (mem_mergeAll hc).resolve_left (List.not_mem_nil)
  exact ⟨c, hmem, habout, writes_of_mem (distinct_mergeAll .nil segment) hc habout, hcovers.lasts⟩

theorem candidate_of_mem_mergeAll (hseg : ∀ m ∈ segment, isCandidate m = true)
    (hm : m ∈ mergeAll [] segment) : isCandidate m = true :=
  hseg m ((mem_mergeAll hm).resolve_left List.not_mem_nil)

/-- **When a batch of the queue keeps the bans it meets**: for every ban it touches, it was merged
from a candidate that lasts as long. -/
theorem Applied.keepsBans_mergeAll_iff (h : Applied (mergeAll [] segment) db db')
    (hseg : ∀ m ∈ segment, isCandidate m = true) :
    KeepsBans db db' ↔ ∀ t id stored, db.expiry t id = some stored →
      (∃ m ∈ segment, About t id m) →
        ∃ c ∈ segment, About t id c ∧ LastsAsLong c.expireAtMs stored := by
  rw [h.keepsBans_iff fun m hm => candidate_of_mem_mergeAll hseg hm]
  constructor
  · rintro hlasts t id stored hstored ⟨m, hm, habout⟩
    obtain ⟨c, hc, hcabout, hwrites, -⟩ := writes_mergeAll hseg hm habout
    exact ⟨c, hc, hcabout, hlasts t id stored _ hstored hwrites⟩
  · intro hcand t id stored written hstored hwritten
    have htouched : ∃ m ∈ segment, About t id m := by
      by_contra hnone
      push Not at hnone
      rw [writes_eq_none fun m hm => hnone m ((mem_mergeAll hm).resolve_left List.not_mem_nil)]
        at hwritten
      cases hwritten
    obtain ⟨m, hm, habout, hlasts⟩ := hcand t id stored hstored htouched
    -- what is written lasts as long as every candidate of the segment
    obtain ⟨c, -, -, hwrites, hlatest⟩ := writes_mergeAll hseg hm habout
    obtain rfl := Option.some.inj (hwrites.symm.trans hwritten)
    exact hlatest.trans hlasts

/-! ### Runs of the clients -/

variable {ι : Type} [DecidableEq ι] {s s' : StorePoolState ι}
  {segments : List (List BlacklistMutation)}

/-- The operation of a client that changes the database applies the batch of its call. -/
theorem applied_of_step (hr : (storePool ι).system.Reachable s) {i : ι}
    {p : Prog (ConnectionSig RedisKey) (Option StoreReply × Unit)}
    (hrun : s.run i = some (.applyMutations batch, p)) {op : ConnectionOp RedisKey} {r : op.Reply}
    (hstep : (storePool ι).system.step s (.op i op r) s') (heffect : dbOf s' ≠ dbOf s) :
    Applied batch (dbOf s) (dbOf s') := by
  have hcall := (storeInv hr).call i _ p hrun
  cases (storeContract ι).lawful hr hstep with
  | op hrun' hallow hserve =>
    rcases (evolves ((storeInv hr).synced.at _) hallow hserve).took hcall rfl exec_of_execs_ne with
      ⟨hsame, -⟩ | ⟨-, htook⟩
    · exact absurd hsame heffect
    · exact htook.commits

/-- A run of the clients, with the segments of the queue that were committed as batches, oldest
first.  What happens in between leaves the entity as it was. -/
inductive CandidateRun (t : EntityType) (id : Bytes) (s : StorePoolState ι) :
    List (List BlacklistMutation) → StorePoolState ι → Prop
  | start : CandidateRun t id s [] s
  | batch {segments : List (List BlacklistMutation)} {segment : List BlacklistMutation}
      {a b : StorePoolState ι} {i : ι}
      {p : Prog (ConnectionSig RedisKey) (Option StoreReply × Unit)} {op : ConnectionOp RedisKey}
      {r : op.Reply} (h : CandidateRun t id s segments a)
      (hrun : a.run i = some (.applyMutations (mergeAll [] segment), p))
      (hseg : ∀ m ∈ segment, isCandidate m = true)
      (hstep : (storePool ι).system.step a (.op i op r) b) (heffect : dbOf b ≠ dbOf a) :
      CandidateRun t id s (segments ++ [segment]) b
  | other {segments : List (List BlacklistMutation)} {a b : StorePoolState ι}
      (h : CandidateRun t id s segments a) (hleads : (storePool ι).system.Leads a b)
      (hsame : (dbOf b).expiry t id = (dbOf a).expiry t id) : CandidateRun t id s segments b

theorem CandidateRun.reachable (hr : (storePool ι).system.Reachable s)
    (h : CandidateRun t id s segments s') : (storePool ι).system.Reachable s' := by
  induction h with
  | start => exact hr
  | batch _ _ _ hstep _ ih => exact ih.step hstep
  | other _ hleads _ ih => exact ih.leads hleads

/-- What the segments of a run leave for the entity. -/
theorem CandidateRun.expiry (hr : (storePool ι).system.Reachable s)
    (h : CandidateRun t id s segments s') :
    (dbOf s').expiry t id =
      (writes t id (segments.flatMap (mergeAll []))).or ((dbOf s).expiry t id) := by
  induction h with
  | start => rfl
  | @batch segments segment a b i p op r hprev hrun hseg hstep heffect ih =>
    have happlied := applied_of_step (hprev.reachable hr) hrun hstep heffect
    rw [happlied.expiry fun m hm => candidate_of_mem_mergeAll hseg hm, ih, List.flatMap_append,
      List.flatMap_singleton, writes_append, Option.or_assoc]
  | other _ _ hsame ih => rw [hsame, ih]

theorem CandidateRun.candidates (h : CandidateRun t id s segments s') :
    ∀ segment ∈ segments, ∀ m ∈ segment, isCandidate m = true := by
  induction h with
  | start => simp
  | batch _ _ hseg _ _ ih =>
    intro segment hmem
    rcases List.mem_append.mp hmem with hmem | hmem
    · exact ih segment hmem
    · rwa [List.mem_singleton.mp hmem]
  | other _ _ _ ih => exact ih

/-- The latest of the expiries that were proposed for an entity. -/
def IsLatest (t : EntityType) (id : Bytes) (candidates : List BlacklistMutation) (e : ℕ) : Prop :=
  (∃ c ∈ candidates, About t id c ∧ c.expireAtMs = e) ∧
    ∀ c ∈ candidates, About t id c → LastsAsLong e c.expireAtMs

/-- Of the batches about an entity the last one counts. -/
theorem CandidateRun.latest_iff {before after : List (List BlacklistMutation)}
    {last : List BlacklistMutation} (hr : (storePool ι).system.Reachable s)
    (h : CandidateRun t id s (before ++ last :: after) s') (hlast : ∃ m ∈ last, About t id m)
    (hafter : ∀ m ∈ after.flatten, ¬ About t id m) :
    (∃ e, (dbOf s').expiry t id = some e ∧ IsLatest t id (before ++ last :: after).flatten e) ↔
      ∀ c ∈ before.flatten, About t id c →
        ∃ m ∈ last, About t id m ∧ LastsAsLong m.expireAtMs c.expireAtMs := by
  obtain ⟨m₀, hm₀, habout₀⟩ := hlast
  have hcand : ∀ m ∈ last, isCandidate m = true := h.candidates last (by simp)
  obtain ⟨f, hf, hfabout, hwrites, -⟩ := writes_mergeAll hcand hm₀ habout₀
  -- what is written is the latest of the last batch
  have hmax (m : BlacklistMutation) (hm : m ∈ last) (habout : About t id m) :
      LastsAsLong f.expireAtMs m.expireAtMs := by
    obtain ⟨c, -, -, hc, hlasts⟩ := writes_mergeAll hcand hm habout
    rw [hwrites] at hc
    rwa [Option.some.inj hc]
  have hrest : writes t id (after.flatMap (mergeAll [])) = none := by
    refine writes_eq_none fun m hm => ?_
    obtain ⟨segment, hsegment, hm⟩ := List.mem_flatMap.1 hm
    refine hafter m (List.mem_flatten.2 ⟨segment, hsegment, ?_⟩)
    exact (mem_mergeAll hm).resolve_left List.not_mem_nil
  have hfinal : (dbOf s').expiry t id = some f.expireAtMs := by
    rw [h.expiry hr, List.flatMap_append, List.flatMap_cons, writes_append, writes_append, hrest,
      hwrites]
    rfl
  have hmem (m : BlacklistMutation) : m ∈ (before ++ last :: after).flatten ↔
      m ∈ before.flatten ∨ m ∈ last ∨ m ∈ after.flatten := by
    rw [List.flatten_append, List.flatten_cons, List.mem_append, List.mem_append]
  constructor
  · rintro ⟨e, he, -, hlatest⟩ c hc habout
    obtain rfl := Option.some.inj (hfinal.symm.trans he)
    exact ⟨f, hf, hfabout, hlatest c ((hmem c).2 (.inl hc)) habout⟩
  · intro hcovered
    refine ⟨f.expireAtMs, hfinal, ⟨f, (hmem f).2 (.inr (.inl hf)), hfabout, rfl⟩, ?_⟩
    intro c hc habout
    rcases (hmem c).1 hc with hc | hc | hc
    · obtain ⟨m, hm, hmabout, hlasts⟩ := hcovered c hc habout
      exact (hmax m hm hmabout).trans hlasts
    · exact hmax c hc habout
    · exact absurd habout (hafter c hc)

/-- **When candidates keep the bans they meet.**  The core writes batches that the queue merged from
segments of the accepted candidates.  Whatever the clients of the store did before: such a batch
keeps all bans iff, for every ban it touches, a candidate of its segment lasts as long.  After a run
of the clients the latest of the expiries that were proposed for an entity is stored iff the last of
the batches about it has a candidate that lasts as long as all those of the batches before. -/
theorem candidates_keep_bans_iff (hr : (storePool ι).system.Reachable s) :
    (∀ config (flow : FlowState) batch, (candidateFlow config).system.Reachable flow →
      flow.world.discarded = false → flow.Performs (.applyCandidates batch) →
        ∃ segment, segment <:+: flow.world.accepted.map Prod.snd ∧ batch = mergeAll [] segment ∧
          ∀ m ∈ segment, isCandidate m = true) ∧
    (∀ i segment p op r s', s.run i = some (.applyMutations (mergeAll [] segment), p) →
      (∀ m ∈ segment, isCandidate m = true) → (storePool ι).system.step s (.op i op r) s' →
      dbOf s' ≠ dbOf s → (KeepsBans (dbOf s) (dbOf s') ↔
        ∀ t id stored, (dbOf s).expiry t id = some stored → (∃ m ∈ segment, About t id m) →
          ∃ c ∈ segment, About t id c ∧ LastsAsLong c.expireAtMs stored)) ∧
    (∀ t id before last after s', CandidateRun t id s (before ++ last :: after) s' →
      (∃ m ∈ last, About t id m) → (∀ m ∈ after.flatten, ¬ About t id m) →
        ((∃ e, (dbOf s').expiry t id = some e ∧
            IsLatest t id (before ++ last :: after).flatten e) ↔
          ∀ c ∈ before.flatten, About t id c →
            ∃ m ∈ last, About t id m ∧ LastsAsLong m.expireAtMs c.expireAtMs)) := by
  refine ⟨fun config flow batch hflow hd hop => ?_,
    fun i segment p op r s' hrun hseg hstep heffect =>
      (applied_of_step hr hrun hstep heffect).keepsBans_mergeAll_iff hseg,
    fun t id before last after s' hrun hlast hafter => hrun.latest_iff hr hlast hafter⟩
  obtain ⟨segment, ⟨before, after, hsplit⟩, rfl, hseg⟩ :=
    batch_of_applyCandidates hflow hd (flowInv_of_reachable hflow hd).split hop
  refine ⟨segment.map Prod.snd, ⟨before.map Prod.snd, after.map Prod.snd, ?_⟩, rfl, fun m hm => ?_⟩
  · rw [← hsplit, List.map_append, List.map_append]
  · obtain ⟨e, he, rfl⟩ := List.mem_map.mp hm
    exact (hseg e he).1

end

section Example

local instance bansInet : Inet := Inet.sample

/-- The address 10.0.0.1. -/
def bansAddress : Bytes := ascii "10.0.0.1"

/-- An operator bans the address. -/
def ban (expireAtMs : ℕ) (h : expireAtMs ≤ BlacklistMutation.kMaxExpireAtMs) : BlacklistMutation :=
  .mkUpsert .ip bansAddress (ascii "abuse") expireAtMs ⟨bansAddress, by decide⟩ (by decide) h

/-- A login from the address that is rejected as credential stuffing, by a server whose snapshot
does not know of a ban. -/
def stuffing (nowMs : ℕ) : List BlacklistMutation :=
  BlacklistCandidateGenerator.generate ⟨0, ascii "u", bansAddress, ascii "d", .fail⟩
    ⟨.reject, [⟨BlacklistCandidateGenerator.kCredentialStuffingReason, .reject⟩]⟩
    (BlacklistSnapshot.empty.loginMatches (ascii "u") bansAddress (ascii "d") nowMs) nowMs

/-- The operator's ban is stored, then a client is about to commit the batch with the candidate. -/
def banned (mutation : BlacklistMutation) : StorePoolState Unit :=
  perform () (.applyMutations (mergeAll [] (stuffing 0))) 11
    (Pool.conclude () (perform () (.applyMutations [mutation]) 12 (poolAt readyDb)))

theorem banned_reachable (mutation : BlacklistMutation) :
    (storePool Unit).system.Reachable (banned mutation) :=
  (poolAt_reachable _).leads (((leads_perform ..).trans (Pool.leads_conclude ..)).trans
    (leads_perform ..))

/-- The batch is committed: the revision tells. -/
theorem commits_exec (s : StorePoolState Unit) (segment : List BlacklistMutation) (n : ℕ)
    (h : s.upcoming () = some (.applyMutations (mergeAll [] segment), .command .exec) ∧
      (World.answer 0 () (.command .exec) s.world).isSome = true ∧ (dbOf s).revision = some n ∧
      (dbOf (proceed () 1 s)).revision = some (n + 1)) :
    ∃ p r, s.run () = some (.applyMutations (mergeAll [] segment), p) ∧
      (storePool Unit).system.step s (.op () (.command .exec) r) (proceed () 1 s) ∧
      dbOf (proceed () 1 s) ≠ dbOf s := by
  obtain ⟨hnext, hanswer, hbefore, hafter⟩ := h
  obtain ⟨p, r, hrun, hstep, -⟩ := Pool.step_drive (answer_sound ()) hnext (p := fun _ => true)
    (by simpa using hanswer)
  refine ⟨p, r, hrun, hstep, fun hsame => ?_⟩
  rw [hsame, hbefore] at hafter
  simp at hafter

/-- **A candidate turns a permanent ban into one of half an hour.**  The operator's transaction is
committed, and then the batch with the candidate. -/
theorem candidate_weakens_ban : ∃ s s' : StorePoolState Unit, ∃ p r,
    (storePool Unit).system.Reachable s ∧
    s.run () = some (.applyMutations (mergeAll [] (stuffing 0)), p) ∧
    (storePool Unit).system.step s (.op () (.command .exec) r) s' ∧
    (dbOf s).expiry .ip bansAddress = some 0 ∧
    (dbOf s').expiry .ip bansAddress = some 1800000 ∧ ¬ KeepsBans (dbOf s) (dbOf s') := by
  obtain ⟨p, r, hrun, hstep, -⟩ := commits_exec (banned (ban 0 (by decide))) (stuffing 0) 7
    (by decide +kernel)
  have hstored : (dbOf (banned (ban 0 (by decide)))).expiry .ip bansAddress =
      some 0 := by decide +kernel
  have hexpiry : (dbOf (proceed () 1 (banned (ban 0 (by decide))))).expiry .ip bansAddress =
      some 1800000 := by decide +kernel
  refine ⟨_, _, p, r, banned_reachable _, hrun, hstep, hstored, hexpiry, fun hkeeps => ?_⟩
  obtain ⟨e, he, hlasts⟩ := hkeeps .ip bansAddress 0 hstored
  obtain rfl := Option.some.inj (hexpiry.symm.trans he)
  exact absurd hlasts (by decide)

/-- Two candidates for the address, a minute apart, each in a batch of its own. -/
def firstBatch : StorePoolState Unit :=
  perform () (.applyMutations (mergeAll [] (stuffing 0))) 11 (poolAt readyDb)

@[inherit_doc firstBatch]
def secondBatch : StorePoolState Unit :=
  perform () (.applyMutations (mergeAll [] (stuffing 60000))) 11
    (Pool.conclude () (proceed () 1 firstBatch))

theorem stuffing_run : CandidateRun .ip bansAddress (poolAt readyDb)
    ([stuffing 0] ++ [stuffing 60000]) (proceed () 1 secondBatch) := by
  obtain ⟨p, r, hrun, hstep, heffect⟩ := commits_exec firstBatch (stuffing 0) 6
    (by decide +kernel)
  obtain ⟨q, t, hrun', hstep', heffect'⟩ := commits_exec secondBatch (stuffing 60000) 7
    (by decide +kernel)
  have hfirst : CandidateRun .ip bansAddress (poolAt readyDb) [stuffing 0]
      (proceed () 1 firstBatch) :=
    .batch (.other .start (leads_perform ..) (by decide +kernel)) hrun (by decide) hstep heffect
  refine .batch (.other hfirst ?_ (by decide +kernel)) hrun' (by decide) hstep' heffect'
  exact (Pool.leads_conclude ..).trans (leads_perform ..)

/-- The theorem for these runs: a permanent ban is not kept, one of a minute is, and of two
candidates the later one stays. -/
theorem candidates_keep_bans_iff_stuffing :
    ¬ KeepsBans (dbOf (banned (ban 0 (by decide))))
        (dbOf (proceed () 1 (banned (ban 0 (by decide))))) ∧
    KeepsBans (dbOf (banned (ban 60000 (by decide))))
      (dbOf (proceed () 1 (banned (ban 60000 (by decide))))) ∧
    ∃ e, (dbOf (proceed () 1 secondBatch)).expiry .ip bansAddress = some e ∧
      IsLatest .ip bansAddress ([stuffing 0] ++ [stuffing 60000]).flatten e := by
  refine ⟨fun hkeeps => ?_, ?_, ?_⟩
  · obtain ⟨p, r, hrun, hstep, heffect⟩ := commits_exec (banned (ban 0 (by decide))) (stuffing 0) 7
      (by decide +kernel)
    obtain ⟨c, hc, -, hlasts⟩ :=
      ((candidates_keep_bans_iff (banned_reachable _)).2.1 () _ p _ r _ hrun
      (by decide) hstep heffect).mp hkeeps .ip bansAddress 0 (by decide +kernel) (by decide)
    exact absurd hlasts ((by decide : ∀ c ∈ stuffing 0, ¬ LastsAsLong c.expireAtMs 0) c hc)
  · obtain ⟨p, r, hrun, hstep, heffect⟩ :=
      commits_exec (banned (ban 60000 (by decide))) (stuffing 0) 7
      (by decide +kernel)
    refine ((candidates_keep_bans_iff (banned_reachable _)).2.1 () _ p _ r _ hrun (by decide) hstep
      heffect).mpr fun t id stored hstored ⟨m, hm, htype, hid⟩ => ?_
    -- the candidate is about the address
    have habout := (by decide : ∀ m ∈ stuffing 0, About .ip bansAddress m) m hm
    obtain rfl := Option.some.inj (htype.symm.trans habout.1)
    obtain rfl := hid.symm.trans habout.2
    have hsixty : (dbOf (banned (ban 60000 (by decide)))).expiry .ip bansAddress =
        some 60000 := by decide +kernel
    obtain rfl := Option.some.inj (hsixty.symm.trans hstored)
    decide
  · exact ((candidates_keep_bans_iff (poolAt_reachable _)).2.2 .ip bansAddress [stuffing 0]
      (stuffing 60000) [] _ stuffing_run (by decide) (by decide)).mpr (by decide)

end Example

end AegisFlow
