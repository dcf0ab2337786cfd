import AegisFlow.App.MaintenanceCore
import AegisFlow.Interaction.Eval
import AegisFlow.Storage.StoreContract
import AegisFlow.Storage.StreamCodec
import AegisFlow.Storage.WriteBack

/-!
# Writing the pending stream back to the tables

The mutations that were applied to the hashes wait in the pending stream, until
`flushOnePendingBatch` has applied them to the tables.  Here the code of the core and of the store
runs against a server and tables that answer every request, and nobody else writes.

* `Stores.answer`, `flush` : the code of a flush, run against hashes, stream and tables;
* `Committed` : mutations were applied to the hashes and appended to the stream, batch by batch;
* `flush_applied`, `flush_refused` : a flush moves the oldest mutations to the tables, if the tables
  take all of them, and **changes nothing otherwise**;
* `flush_all_iff` : when all that was committed reaches the tables.
-/

namespace AegisFlow

open Redis Mysql

/-! ### Hashes, stream and tables -/

/-- How a server answers a single client that opens no transaction. -/
def BlacklistDb.answer (now : ℕ) :
    (op : ConnectionOp RedisKey) → BlacklistDb → Option (op.Reply × BlacklistDb)
  | .command c, db =>
    if c.isData then some (.reply (c.run now db).reply, (c.run now db).db) else none
  | .invalidate, _ => none

/-- A command whose reply is judged. -/
theorem evalIn_ask {α β : Type} {now : ℕ} {db : BlacklistDb} {c : Command RedisKey}
    (hdata : c.isData = true) (judge : Reply → Except StoreStatus α)
    (f : Except StoreStatus α → Store β) :
    Prog.evalIn (BlacklistDb.answer now) ((Store.ask c judge).run >>= f) db =
      Prog.evalIn (BlacklistDb.answer now) (f (judge (c.run now db).reply)) (c.run now db).db := by
  have hanswer : BlacklistDb.answer now (.command c) db =
      some (.reply (c.run now db).reply, (c.run now db).db) := if_pos hdata
  change (BlacklistDb.answer now (.command c) db).bind (fun x =>
    Prog.evalIn (BlacklistDb.answer now) (f (Store.replyOf x.1 >>= judge)) x.2) = _
  rw [hanswer]
  rfl

/-- The stores that a deployment keeps the blacklist in. -/
structure Stores where
  db : BlacklistDb
  tables : Tables

section

variable [Inet]

/-- How the stores answer the core while it writes the stream back: nobody asks it to stop, and
no request fails but by what the tables refuse. -/
def Stores.answer (now : ℕ) : (op : CoreOp) → Stores → Option (op.Reply × Stores)
  | .shouldStop, stores => some (false, stores)
  | .readPending count, stores =>
    (Prog.evalIn (BlacklistDb.answer now) (Store.readPending count) stores.db).map fun x =>
      (some x.1, { stores with db := x.2 })
  | .deletePending streamIds, stores =>
    (Prog.evalIn (BlacklistDb.answer now) (Store.deletePending streamIds) stores.db).map fun x =>
      (some x.1, { stores with db := x.2 })
  | .applyMysqlMutations mutations, stores =>
    match applyBlacklistMutations stores.tables mutations with
    | some tables => some (some true, { stores with tables := tables })
    | none => some (some false, stores)
  | _, _ => none

/-- One run of `flushOnePendingBatch`. -/
def flush (config : BlacklistMaintenanceConfig) (now : ℕ) (core : CoreState) (stores : Stores) :
    Option Stores :=
  (Proc.evalIn (Stores.answer now) (Core.flushOnePendingBatch config) core stores).map (·.2)

/-- Several runs, at the given times. -/
def flushes (config : BlacklistMaintenanceConfig) (core : CoreState) :
    (times : List ℕ) → Stores → Option Stores
  | [], stores => some stores
  | now :: times, stores => (flush config now core stores).bind (flushes config core times)

end

/-! ### The calls of the store -/

section

variable {now : ℕ} {db : BlacklistDb}

theorem mapM_ok {α β γ : Type} {f : β → Except StoreStatus γ} {g : α → β} {h : α → γ}
    {as : List α} (hf : ∀ a ∈ as, f (g a) = .ok (h a)) : (as.map g).mapM f = .ok (as.map h) := by
  induction as with
  | nil => rfl
  | cons a as ih =>
    rw [List.map_cons, List.mapM_cons, hf a List.mem_cons_self,
      ih fun b hb => hf b (List.mem_cons_of_mem a hb)]
    rfl

variable [Inet]

/-- The identifier of an entry, as the store reads it. -/
def idText (p : StreamEntry × BlacklistMutation) : Bytes := StreamId.text p.1.id

/-- An entry, as the store reads it. -/
def entryRead (p : StreamEntry × BlacklistMutation) : PendingBlacklistEntry :=
  ⟨idText p, some p.2, ""⟩

/-- The stream has one entry for each of the mutations, with an identifier the store can read. -/
structure Pending (db : BlacklistDb) (pairs : List (StreamEntry × BlacklistMutation)) : Prop where
  stream : ∃ stream, stream? (db .pending) = some stream ∧ stream.entries = pairs.map Prod.fst
  fields : ∀ p ∈ pairs, p.1.fields = Store.streamFields p.2
  ids : ∀ p ∈ pairs, Store.isStreamId (idText p) = true

variable {pairs : List (StreamEntry × BlacklistMutation)}

theorem Pending.pending_eq (h : Pending db pairs) : db.pending = pairs.map Prod.fst := by
  obtain ⟨stream, hstream, hentries⟩ := h.stream
  rw [BlacklistDb.pending, hstream]
  exact hentries

/-- The oldest mutations are read. -/
theorem readPending_eval [Inet.Lawful] (h : Pending db pairs) {count : ℕ} (hcount : 0 < count) :
    Prog.evalIn (BlacklistDb.answer now) (Store.readPending count) db =
      some (⟨.ok, (pairs.take count).map entryRead⟩, db) := by
  obtain ⟨stream, hstream, hentries⟩ := h.stream
  have hrun : (Command.xrange RedisKey.pending count).run now db =
      Outcome.keep db (.array ((pairs.take count).map fun p => entryReply p.1)) := by
    simp only [Command.run, Outcome.onStream, hstream, hentries]
    rw [← List.map_take, List.map_map]
    rfl
  have hentry (p : StreamEntry × BlacklistMutation) (hp : p ∈ pairs.take count) :
      Store.judgeEntry (entryReply p.1) = .ok (entryRead p) := by
    have hmem := List.mem_of_mem_take hp
    have hid : Store.isStreamId (StreamId.text p.1.id) = true := h.ids p hmem
    simp only [entryReply, Store.judgeEntry]
    rw [if_pos hid, h.fields p hmem, Store.parse_streamFields]
    rfl
  have hjudge : Store.judgeEntries (.array ((pairs.take count).map fun p => entryReply p.1)) =
      .ok ((pairs.take count).map entryRead) := mapM_ok hentry
  unfold Store.readPending
  rw [if_neg (by omega), evalIn_ask rfl, hrun]
  simp only [Outcome.keep, hjudge]
  rfl

/-- Deleting the oldest entries leaves the others. -/
theorem remove_take {stream : Stream} (hentries : stream.entries = pairs.map Prod.fst) (count : ℕ) :
    (stream.remove ((pairs.take count).map idText)).entries =
      (pairs.drop count).map Prod.fst := by
  have hsplit : stream.entries =
      (pairs.take count).map Prod.fst ++ (pairs.drop count).map Prod.fst := by
    rw [← List.map_append, List.take_append_drop, hentries]
  have hsorted := stream.sorted
  rw [hsplit, List.pairwise_append] at hsorted
  simp only [Stream.remove]
  rw [hsplit, List.filter_append]
  have htaken : ((pairs.take count).map Prod.fst).filter (fun e =>
      !((pairs.take count).map idText).contains (StreamId.text e.id)) =
      [] := by
    refine List.filter_eq_nil_iff.mpr fun e he => ?_
    obtain ⟨p, hp, rfl⟩ := List.mem_map.mp he
    have hmem : idText p ∈ (pairs.take count).map idText :=
      List.mem_map_of_mem hp
    rw [List.contains_eq_mem]
    change ¬((!decide (idText p ∈ (pairs.take count).map idText)) = true)
    rw [decide_eq_true hmem]
    exact Bool.false_ne_true
  have hkept : ((pairs.drop count).map Prod.fst).filter (fun e =>
      !((pairs.take count).map idText).contains (StreamId.text e.id)) =
      (pairs.drop count).map Prod.fst := by
    refine List.filter_eq_self.mpr fun e he => ?_
    rw [Bool.not_eq_true', List.contains_eq_mem, decide_eq_false_iff_not]
    intro hmem
    obtain ⟨p, hp, htext⟩ := List.mem_map.mp hmem
    have hlt := hsorted.2.2 p.1 (List.mem_map_of_mem hp) e he
    exact absurd (StreamId.text_injective htext) hlt.ne
  rw [htaken, hkept, List.nil_append]

/-- The oldest mutations are deleted from the stream. -/
theorem deletePending_eval (now : ℕ) (h : Pending db pairs) {count : ℕ}
    (hne : pairs.take count ≠ []) :
    ∃ db', Prog.evalIn (BlacklistDb.answer now)
        (Store.deletePending ((pairs.take count).map idText)) db =
          some (.ok, db') ∧
      Pending db' (pairs.drop count) ∧ ∀ k, k ≠ .pending → db' k = db k := by
  obtain ⟨stream, hstream, hentries⟩ := h.stream
  let ids := (pairs.take count).map idText
  have hremoved : (stream.remove ids).entries = (pairs.drop count).map Prod.fst :=
    remove_take hentries count
  have hids : ids.all Store.isStreamId = true := by
    refine List.all_eq_true.mpr fun id hid => ?_
    obtain ⟨p, hp, rfl⟩ := List.mem_map.mp hid
    exact h.ids p (List.mem_of_mem_take hp)
  have hnonempty : ids.isEmpty = false := by simpa [ids] using hne
  -- the reply is a count, whether or not the stream had the entries
  have hrun : ∃ n : ℕ, ((Command.xdel .pending ids).run now db).reply = .integer n ∧
      (∃ stream', stream? (((Command.xdel .pending ids).run now db).db .pending) = some stream' ∧
        stream'.entries = (pairs.drop count).map Prod.fst) ∧
      ∀ k, k ≠ .pending → ((Command.xdel .pending ids).run now db).db k = db k := by
    simp only [Command.run, Outcome.onStream, hstream]
    split_ifs with hsame
    · exact ⟨0, rfl, ⟨stream, hstream, hsame.symm.trans hremoved⟩, fun _ _ => rfl⟩
    · have hle : (stream.remove ids).entries.length ≤ stream.entries.length :=
        List.length_filter_le _ _
      refine ⟨stream.entries.length - (stream.remove ids).entries.length, ?_, ⟨_, ?_, hremoved⟩,
        fun k hk => Function.update_of_ne hk _ _⟩
      · simp only [Outcome.write]
        rw [Nat.cast_sub hle]
      · simp only [Outcome.write, Function.update_self]
        rfl
  obtain ⟨n, hreply, hstream', hothers⟩ := hrun
  refine ⟨((Command.xdel .pending ids).run now db).db, ?_,
    ⟨hstream', fun p hp => ?_, fun p hp => ?_⟩, hothers⟩
  · change Prog.evalIn _ (Store.deletePending ids) db = _
    unfold Store.deletePending
    rw [hnonempty, hids, if_neg Bool.false_ne_true, Bool.not_true, if_neg Bool.false_ne_true,
      ExceptT.run_bind, map_eq_pure_bind, bind_assoc, evalIn_ask rfl, hreply]
    simp only [Store.judgeCount]
    rw [if_pos (Int.natCast_nonneg n)]
    rfl
  · exact h.fields p (List.mem_of_mem_drop hp)
  · exact h.ids p (List.mem_of_mem_drop hp)

/-! ### A flush -/

variable {config : BlacklistMaintenanceConfig} {core : CoreState} {stores : Stores}

section

variable (batch : List (StreamEntry × BlacklistMutation))

theorem read_invalid : (batch.map entryRead).filter (·.mutation.isNone) = [] := by
  refine List.filter_eq_nil_iff.mpr fun entry hentry => ?_
  obtain ⟨p, -, rfl⟩ := List.mem_map.mp hentry
  exact Bool.false_ne_true

theorem read_valid :
    ((batch.map entryRead).filter (·.mutation.isSome)).map (·.streamId) = batch.map idText := by
  simp [List.filter_map, Function.comp_def, entryRead]

theorem read_mutations : (batch.map entryRead).filterMap (·.mutation) = batch.map Prod.snd := by
  simp [List.filterMap_map, Function.comp_def, entryRead]

end

theorem answer_readPending [Inet.Lawful] (h : Pending stores.db pairs) {count : ℕ}
    (hcount : 0 < count) : Stores.answer now (.readPending count) stores =
      some (some ⟨.ok, (pairs.take count).map entryRead⟩, stores) := by
  simp only [Stores.answer, readPending_eval h hcount]
  rfl

/-- A flush of an empty stream does nothing. -/
theorem flush_empty [Inet.Lawful] (h : Pending stores.db []) (hsize : 0 < config.batchSize) :
    flush config now core stores = some stores := by
  have hstop : Stores.answer now .shouldStop stores = some (false, stores) := rfl
  unfold flush Core.flushOnePendingBatch Core.readPending
  rw [Proc.evalIn_perform_bind hstop, if_neg Bool.false_ne_true, bind_assoc,
    Proc.evalIn_perform_bind (answer_readPending h hsize), Proc.evalIn_ofOption_bind, List.take_nil,
    List.map_nil]
  rfl

/-- What a flush does once it has read a batch. -/
theorem flush_batch [Inet.Lawful] (h : Pending stores.db pairs) (hsize : 0 < config.batchSize)
    (hne : pairs.take config.batchSize ≠ []) :
    Proc.evalIn (Stores.answer now) (Core.flushOnePendingBatch config) core stores =
      Proc.evalIn (Stores.answer now) (do
        if ← Core.applyMysqlMutations ((pairs.take config.batchSize).map Prod.snd) then
          if ← Core.ask .shouldStop then pure ()
          else do
            let _status ← Core.deletePending
              ((pairs.take config.batchSize).map idText)
            pure ()
        else pure ()) core stores := by
  have hstop : Stores.answer now .shouldStop stores = some (false, stores) := rfl
  unfold Core.flushOnePendingBatch Core.readPending
  rw [Proc.evalIn_perform_bind hstop, if_neg Bool.false_ne_true, bind_assoc,
    Proc.evalIn_perform_bind (answer_readPending h hsize), Proc.evalIn_ofOption_bind]
  have hnonempty : ((pairs.take config.batchSize).map entryRead).isEmpty = false := by
    simpa using hne
  have hmutations : ((pairs.take config.batchSize).map Prod.snd).isEmpty = false := by
    simpa using hne
  simp only [read_invalid, read_valid, read_mutations]
  rw [if_neg (fun hor => hor.elim (fun hstatus => hstatus rfl)
      fun hempty => Bool.false_ne_true (hnonempty.symm.trans hempty)), List.map_nil,
    show Core.deleteInvalid [] = pure true from rfl, pure_bind, if_pos rfl, hmutations,
    if_neg Bool.false_ne_true, Proc.evalIn_perform_bind hstop, if_neg Bool.false_ne_true]

/-- **A flush moves the oldest mutations from the stream to the tables**, if the tables take all
of them. -/
theorem flush_applied [Inet.Lawful] (now : ℕ) (core : CoreState) (h : Pending stores.db pairs)
    (hsize : 0 < config.batchSize) {tables : Tables} (happly : applyBlacklistMutations stores.tables
      ((pairs.take config.batchSize).map Prod.snd) = some tables) :
    ∃ db', flush config now core stores = some ⟨db', tables⟩ ∧
      Pending db' (pairs.drop config.batchSize) ∧ ∀ k, k ≠ .pending → db' k = stores.db k := by
  by_cases hne : pairs.take config.batchSize = []
  · obtain rfl : pairs = [] := (List.take_eq_nil_iff.mp hne).resolve_left (by omega)
    rw [List.take_nil, List.map_nil] at happly
    cases happly
    exact ⟨stores.db, flush_empty h hsize, by rwa [List.drop_nil], fun _ _ => rfl⟩
  · obtain ⟨db', hdelete, hpending, hframe⟩ := deletePending_eval now h hne
    refine ⟨db', ?_, hpending, hframe⟩
    have hanswer : Stores.answer now (.applyMysqlMutations
        ((pairs.take config.batchSize).map Prod.snd)) stores =
          some (some true, ⟨stores.db, tables⟩) := by
      simp only [Stores.answer, happly]
    have hstop : Stores.answer now .shouldStop ⟨stores.db, tables⟩ =
        some (false, ⟨stores.db, tables⟩) := rfl
    have hdeleted : Stores.answer now (.deletePending
        ((pairs.take config.batchSize).map idText)) ⟨stores.db, tables⟩ =
          some (some .ok, ⟨db', tables⟩) := by
      simp only [Stores.answer, hdelete]
      rfl
    unfold flush
    rw [flush_batch h hsize hne]
    unfold Core.applyMysqlMutations Core.deletePending
    rw [bind_assoc, Proc.evalIn_perform_bind hanswer, Proc.evalIn_ofOption_bind, if_pos rfl,
      Proc.evalIn_perform_bind hstop, if_neg Bool.false_ne_true, bind_assoc,
      Proc.evalIn_perform_bind hdeleted, Proc.evalIn_ofOption_bind]
    rfl

/-- **A flush changes nothing**, if the tables refuse one of the oldest mutations. -/
theorem flush_refused [Inet.Lawful] (h : Pending stores.db pairs) (hsize : 0 < config.batchSize)
    (happly : applyBlacklistMutations stores.tables
      ((pairs.take config.batchSize).map Prod.snd) = none) :
    flush config now core stores = some stores := by
  have hne : pairs.take config.batchSize ≠ [] := by
    intro hnil
    rw [hnil] at happly
    cases happly
  have hanswer : Stores.answer now (.applyMysqlMutations
      ((pairs.take config.batchSize).map Prod.snd)) stores = some (some false, stores) := by
    simp only [Stores.answer, happly]
  unfold flush
  rw [flush_batch h hsize hne]
  unfold Core.applyMysqlMutations
  rw [bind_assoc, Proc.evalIn_perform_bind hanswer, Proc.evalIn_ofOption_bind,
    if_neg Bool.false_ne_true]
  rfl

/-! ### Several flushes -/

/-- Mutations that the tables take reach them in the order of the stream. -/
theorem flushes_applied [Inet.Lawful] (times : List ℕ) (h : Pending stores.db pairs)
    (hsize : 0 < config.batchSize) (hnormal : stores.tables.Normal)
    (hstorable : (pairs.map Prod.snd).all storable = true) :
    ∃ done, flushes config core times stores = some done ∧
      applyBlacklistMutations stores.tables
        ((pairs.take (times.length * config.batchSize)).map Prod.snd) = some done.tables ∧
      Pending done.db (pairs.drop (times.length * config.batchSize)) ∧
      ∀ k, k ≠ .pending → done.db k = stores.db k := by
  induction times generalizing stores pairs with
  | nil =>
    refine ⟨stores, rfl, ?_, ?_, fun _ _ => rfl⟩
    · rw [List.length_nil, Nat.zero_mul, List.take_zero]
      rfl
    · rwa [List.length_nil, Nat.zero_mul, List.drop_zero]
  | cons now times ih =>
    rw [← List.take_append_drop config.batchSize pairs, List.map_append, List.all_append,
      Bool.and_eq_true] at hstorable
    have hspec := applyBlacklistMutations_spec hnormal
      ((pairs.take config.batchSize).map Prod.snd)
    rw [if_pos hstorable.1] at hspec
    obtain ⟨tables, happly, hexecuted⟩ := hspec
    obtain ⟨db, hflush, hpending, hframe⟩ := flush_applied now core h hsize happly
    obtain ⟨done, hflushes, happly', hpending', hframe'⟩ :=
      @ih _ ⟨db, tables⟩ hpending hexecuted.normal hstorable.2
    have hlength : (now :: times).length * config.batchSize =
        config.batchSize + times.length * config.batchSize := by
      rw [List.length_cons, Nat.succ_mul, Nat.add_comm]
    refine ⟨done, ?_, ?_, ?_, fun k hk => (hframe' k hk).trans (hframe k hk)⟩
    · rw [flushes, hflush, Option.bind_some, hflushes]
    · rw [hlength, List.take_add, List.map_append, applyBlacklistMutations_append, happly,
        Option.bind_some, happly']
    · rwa [hlength, ← List.drop_drop]

/-- A mutation that the tables refuse stays in the stream. -/
theorem flushes_refused [Inet.Lawful] (times : List ℕ) (h : Pending stores.db pairs)
    (hsize : 0 < config.batchSize) (hnormal : stores.tables.Normal)
    (hstorable : (pairs.map Prod.snd).all storable = false) :
    ∃ done, flushes config core times stores = some done ∧ done.db.pending ≠ [] := by
  induction times generalizing stores pairs with
  | nil =>
    refine ⟨stores, rfl, fun hnil => ?_⟩
    rw [h.pending_eq, List.map_eq_nil_iff] at hnil
    subst hnil
    cases hstorable
  | cons now times ih =>
    have hspec := applyBlacklistMutations_spec hnormal
      ((pairs.take config.batchSize).map Prod.snd)
    split_ifs at hspec with hbatch
    · obtain ⟨tables, happly, hexecuted⟩ := hspec
      obtain ⟨db, hflush, hpending, -⟩ := flush_applied now core h hsize happly
      rw [← List.take_append_drop config.batchSize pairs, List.map_append, List.all_append, hbatch,
        Bool.true_and] at hstorable
      obtain ⟨done, hflushes, hne⟩ := @ih _ ⟨db, tables⟩ hpending hexecuted.normal hstorable
      exact ⟨done, by rw [flushes, hflush, Option.bind_some, hflushes], hne⟩
    · obtain ⟨done, hflushes, hne⟩ := ih h hnormal hstorable
      exact ⟨done, by rw [flushes, flush_refused h hsize hspec, Option.bind_some, hflushes], hne⟩

/-! ### What was committed -/

/-- Batches of mutations were applied to the hashes and appended to the stream, and nothing else
was done. -/
inductive Committed (db : BlacklistDb) : List BlacklistMutation → BlacklistDb → Prop
  /-- Nothing happened yet. -/
  | none : Committed db [] db
  /-- A call of `applyMutations` committed. -/
  | batch {ms batch : List BlacklistMutation} {db' db'' : BlacklistDb} (h : Committed db ms db')
    (hvalid : Store.validBatch batch = true) (hcommits : Commits (.applyMutations batch) db' db'') :
    Committed db (ms ++ batch) db''

namespace Committed

variable {db' : BlacklistDb} {ms : List BlacklistMutation}

theorem hashes (h : Committed db ms db') (t : EntityType) :
    db'.hash t = ms.foldl (editHash t) (db.hash t) := by
  induction h with
  | none => rfl
  | batch _ _ hcommits ih => rw [List.foldl_append, ← ih, Applied.hashes hcommits]

theorem entries (h : Committed db ms db') : ∃ news, db'.pending = db.pending ++ news ∧
    news.map StreamEntry.fields = ms.map Store.streamFields := by
  induction h with
  | none => exact ⟨[], (List.append_nil _).symm, rfl⟩
  | batch _ _ hcommits ih =>
    obtain ⟨news, hpending, hfields⟩ := ih
    obtain ⟨news', hpending', hfields'⟩ := Applied.stream hcommits
    refine ⟨news ++ news', ?_, ?_⟩
    · rw [hpending', hpending, List.append_assoc]
    · rw [List.map_append, hfields, hfields', List.map_append]

/-- The key of the stream still holds a stream: it has the entries of the last batch. -/
theorem stream (h : Committed db ms db') (hstart : (stream? (db .pending)).isSome = true) :
    (stream? (db' .pending)).isSome = true := by
  cases h with
  | none => exact hstart
  | @batch ms batch db₁ _ _ hvalid hcommits =>
    obtain ⟨news, hpending, hfields⟩ := Applied.stream hcommits
    have hne : db'.pending ≠ [] := by
      intro hnil
      rw [hnil] at hpending
      obtain ⟨-, rfl⟩ := List.append_eq_nil_iff.mp hpending.symm
      obtain rfl : batch = [] := List.map_eq_nil_iff.mp hfields.symm
      cases hvalid
    cases hstream : stream? (db' .pending) with
    | none =>
      rw [BlacklistDb.pending, hstream] at hne
      exact absurd rfl hne
    | some stream => rfl

/-- All that was committed waits in a stream that was empty before. -/
theorem pending (h : Committed db ms db') (hstart : Pending db [])
    (hids : ∀ e ∈ db'.pending, Store.isStreamId (StreamId.text e.id) = true) :
    ∃ pairs, Pending db' pairs ∧ pairs.map Prod.snd = ms := by
  obtain ⟨stream, hstream, -⟩ := hstart.stream
  obtain ⟨stream', hstream'⟩ := Option.isSome_iff_exists.mp (h.stream (by rw [hstream]; rfl))
  obtain ⟨news, hpending, hfields⟩ := h.entries
  rw [hstart.pending_eq, List.map_nil, List.nil_append] at hpending
  have hentries : stream'.entries = news := by
    rw [← hpending, BlacklistDb.pending, hstream']
    rfl
  have hlength : news.length = ms.length := by
    simpa using congrArg List.length hfields
  have hfst : (news.zip ms).map Prod.fst = news := List.map_fst_zip hlength.le
  have hsnd : (news.zip ms).map Prod.snd = ms := List.map_snd_zip hlength.ge
  refine ⟨news.zip ms, ⟨⟨stream', hstream', hentries.trans hfst.symm⟩,
    fun p hp => ?_, fun p hp => ?_⟩, hsnd⟩
  · obtain ⟨i, hi, rfl⟩ := List.mem_iff_getElem.mp hp
    rw [List.length_zip] at hi
    have hget := congrArg (fun l => l[i]?) hfields
    simp only [List.getElem?_map] at hget
    rw [List.getElem?_eq_getElem (by omega), List.getElem?_eq_getElem (by omega)] at hget
    simpa [List.getElem_zip] using hget
  · exact hids p.1 (by rw [hpending]; exact (List.of_mem_zip hp).1)

end Committed

/-! ### All of it reaches the tables -/

/-- **When all that was committed reaches the tables.**  As many flushes as the mutations make
batches empty the stream and leave the tables with the entities of the hashes iff all texts are
UTF-8 and no two identifiers share a place of the tables. -/
theorem flush_all_iff [Inet.Lawful] {start : Stores} {ms : List BlacklistMutation}
    {times : List ℕ} (hsize : 0 < config.batchSize) (hempty : Pending start.db [])
    (hnormal : start.tables.Normal) (hsync : InSync start.db.hash start.tables)
    (hcommitted : Committed start.db ms db)
    (hids : ∀ e ∈ db.pending, Store.isStreamId (StreamId.text e.id) = true)
    (htimes : times.length = (ms.length + config.batchSize - 1) / config.batchSize) :
    ∃ done, flushes config core times ⟨db, start.tables⟩ = some done ∧
      ((done.db.pending = [] ∧ InSync done.db.hash done.tables) ↔
        ms.all storable = true ∧ Unambiguous start.tables start.db.hash ms) := by
  obtain ⟨pairs, hpending, rfl⟩ := hcommitted.pending hempty hids
  by_cases hstorable : (pairs.map Prod.snd).all storable = true
  · obtain ⟨done, hflushes, happly, hrest, hframe⟩ :=
      @flushes_applied _ _ _ core ⟨db, start.tables⟩ _ times hpending hsize hnormal hstorable
    -- the batches cover all the mutations
    have hcover : pairs.length ≤ times.length * config.batchSize := by
      rw [htimes, List.length_map]
      have hdiv := Nat.div_add_mod (pairs.length + config.batchSize - 1) config.batchSize
      have hmod := Nat.mod_lt (pairs.length + config.batchSize - 1) hsize
      rw [Nat.mul_comm] at hdiv
      omega
    rw [List.take_of_length_le hcover] at happly
    rw [List.drop_of_length_le hcover] at hrest
    have hspec := applyBlacklistMutations_spec hnormal (pairs.map Prod.snd)
    rw [if_pos hstorable] at hspec
    obtain ⟨tables, happly', hexecuted⟩ := hspec
    obtain rfl : tables = done.tables := Option.some.inj (happly'.symm.trans happly)
    have hhash : done.db.hash =
        fun t => (pairs.map Prod.snd).foldl (editHash t) (start.db.hash t) := by
      funext t
      rw [← hcommitted.hashes, BlacklistDb.hash, hframe _ (hashKey_ne_pending t)]
      rfl
    refine ⟨done, hflushes, ?_⟩
    rw [hhash, inSync_iff hnormal hsync hexecuted]
    exact ⟨fun h => ⟨hstorable, h.2⟩, fun h => ⟨hrest.pending_eq, h.2⟩⟩
  · obtain ⟨done, hflushes, hne⟩ := @flushes_refused _ _ _ core ⟨db, start.tables⟩ _ times hpending
      hsize hnormal (Bool.eq_false_iff.mpr hstorable)
    exact ⟨done, hflushes, fun h => absurd h.1 hne, fun h => absurd h.1 hstorable⟩

end

section Example

local instance flushInet : Inet := Inet.sample

local instance flushLawful : Inet.Lawful := Inet.lawful_sample

/-- A cache that is ready, and tables without rows. -/
def readyStores : Stores :=
  ⟨Function.update (fun _ => none) .cacheReady (some (.string (ascii "1"))), .empty⟩

/-- Flush up to two entries at a time. -/
def flushConfig : BlacklistMaintenanceConfig where
  maintenanceInterval := 1
  maintenanceTimeout := 1
  expireCleanupInterval := 1
  batchSize := 2
  candidateBatchSize := 1

/-- A core before its first round. -/
def flushCore : CoreState where
  backend := false
  lastPublishedRevision := 0
  publicationDirty := false
  completedRounds := 0
  nextExpireCleanup := 0

/-- The cache after the mutations were committed. -/
def committedDb (ms : List BlacklistMutation) : BlacklistDb :=
  execDb 0 readyStores.db (Store.batchCommands ms)

theorem readyStores_empty : Pending readyStores.db [] :=
  ⟨⟨.empty, rfl, rfl⟩, fun _ h => absurd h List.not_mem_nil, fun _ h => absurd h List.not_mem_nil⟩

theorem readyStores_normal : readyStores.tables.Normal := fun _ _ _ h => by cases h

theorem readyStores_inSync : InSync readyStores.db.hash readyStores.tables := by
  intro t id value
  constructor
  · intro h
    cases t <;> cases h
  · rintro ⟨expiry, -, k, hid, -⟩
    cases hid

theorem committedDb_committed (ms : List BlacklistMutation) (hvalid : Store.validBatch ms = true) :
    Committed readyStores.db ms (committedDb ms) := by
  have hbatch := @exec_batch _ 0 readyStores.db ms 0 rfl rfl (by decide)
    (fun _ _ t _ => by cases t <;> rfl) rfl
  exact .batch .none hvalid hbatch.1

theorem oddUser_normal : NormalId .user [0xff] := ⟨[0xff], by decide⟩

/-- A user whose name is not UTF-8. -/
def oddUser : BlacklistMutation := .banUser [0xff] oddUser_normal

/-- A mutation that the cache takes and the tables never do. -/
theorem odd_user_stays_pending :
    Committed readyStores.db [oddUser] (committedDb [oddUser]) ∧
    (∀ e ∈ (committedDb [oddUser]).pending, Store.isStreamId (StreamId.text e.id) = true) ∧
    ∃ done, flushes flushConfig flushCore [0] ⟨committedDb [oddUser], readyStores.tables⟩ =
        some done ∧ done.db.pending ≠ [] := by
  refine ⟨committedDb_committed _ (by decide), by decide +kernel, ?_⟩
  have hlength : (flushes flushConfig flushCore [0] ⟨committedDb [oddUser], readyStores.tables⟩).map
      (fun stores => stores.db.pending.length) = some 1 := by decide +kernel
  obtain ⟨done, hflushes, hone⟩ := Option.map_eq_some_iff.mp hlength
  refine ⟨done, hflushes, fun hnil => ?_⟩
  rw [hnil] at hone
  cases hone

theorem plainUser_normal : NormalId .user (ascii "a") := ⟨ascii "a", by decide⟩

theorem otherUser_normal : NormalId .user (ascii "b") := ⟨ascii "b", by decide⟩

/-- Two users are blacklisted, and the first is let off again. -/
def plainUsers : List BlacklistMutation :=
  [.banUser (ascii "a") plainUser_normal, .banUser (ascii "b") otherUser_normal,
    .mkDisable .user (ascii "a") plainUser_normal]

theorem plainUsers_unambiguous :
    Unambiguous readyStores.tables readyStores.db.hash plainUsers := by
  intro t id k hid hk
  cases t with
  | user =>
    obtain ⟨hne, hid⟩ := Finmap.mem_erase.mp hid
    obtain rfl | hid := Finmap.mem_insert.mp hid
    · cases hk
      exact ⟨by decide, by decide⟩
    · obtain rfl | hid := Finmap.mem_insert.mp hid
      · exact absurd rfl hne
      · exact absurd hid Finmap.notMem_empty
  | ip => exact absurd hid Finmap.notMem_empty
  | device => exact absurd hid Finmap.notMem_empty

/-- The theorem for three mutations in two batches: the tables hold what the hashes hold. -/
theorem flush_all_plain_users : ∃ done,
    flushes flushConfig flushCore [0, 5] ⟨committedDb plainUsers, readyStores.tables⟩ = some done ∧
      done.db.pending = [] ∧ InSync done.db.hash done.tables := by
  obtain ⟨done, hflushes, hiff⟩ : ∃ done,
      flushes flushConfig flushCore [0, 5] ⟨committedDb plainUsers, readyStores.tables⟩ =
        some done ∧ ((done.db.pending = [] ∧ InSync done.db.hash done.tables) ↔
          plainUsers.all storable = true ∧
            Unambiguous readyStores.tables readyStores.db.hash plainUsers) :=
    flush_all_iff (by decide) readyStores_empty readyStores_normal readyStores_inSync
      (committedDb_committed _ (by decide)) (by decide +kernel) rfl
  exact ⟨done, hflushes, hiff.mpr ⟨by decide, plainUsers_unambiguous⟩⟩

end Example

end AegisFlow
