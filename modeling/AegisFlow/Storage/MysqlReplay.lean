import AegisFlow.Storage.MysqlDao

/-!
# Applying mutations again

A flusher that does not learn of its commit applies the same batch once more, later perhaps with
others behind it.  The tables must not notice.

* `RowEdit` : what statements make of one row; doing it twice is doing it once;
* `applyBlacklistMutations_uniform` : a batch does the same to the rows of all tables, or fails on
  all of them;
* `applyBlacklistMutations_replay` : **a batch that begins with what was applied already has the
  effect it would have had from the beginning**.
-/

namespace AegisFlow

namespace Mysql

/-! ### Rows -/

/-- What statements make of one row. -/
inductive RowEdit
  | keep
  | disable
  /-- Insert the row; one that is there keeps its key and takes the rest. -/
  | write (r : Row)

namespace RowEdit

/-- The row afterwards. -/
def act : RowEdit → Option Row → Option Row
  | keep, row => row
  | disable, row => row.map fun r => { r with enabled := false }
  | write r, none => some r
  | write r, some old => some { r with key := old.key }

/-- One after the other. -/
def andThen : RowEdit → RowEdit → RowEdit
  | e, keep => e
  | write r, disable => write { r with enabled := false }
  | _, disable => disable
  | write old, write r => write { r with key := old.key }
  | _, write r => write r

theorem act_andThen (e e' : RowEdit) (row : Option Row) :
    (e.andThen e').act row = e'.act (e.act row) := by
  cases e' <;> cases e <;> cases row <;> rfl

/-- Each of these does nothing the second time. -/
theorem act_act (e : RowEdit) (row : Option Row) : e.act (e.act row) = e.act row := by
  cases e <;> cases row <;> rfl

end RowEdit

/-! ### Tables -/

theorem Tables.ext_row {tables tables' : Tables} (h : ∀ t k, tables'.row t k = tables.row t k) :
    tables' = tables := by
  cases tables
  cases tables'
  obtain rfl := funext fun t => funext (h t)
  rfl

/-- The statements do this to the rows of all tables. -/
def Performs (f : Tables → Option Tables) (edits : EntityType → Bytes → RowEdit) : Prop :=
  ∀ tables, ∃ tables', f tables = some tables' ∧
    ∀ t k, tables'.row t k = (edits t k).act (tables.row t k)

theorem insertOrUpdate_uniform (t : EntityType) (key reason : Bytes) (expireAt : Option ℕ) :
    (∀ tables, insertOrUpdate tables t key reason expireAt = none) ∨
      ∃ edits, Performs (insertOrUpdate · t key reason expireAt) edits := by
  by_cases hfits : (fitsKey t key && varchar 256 reason) = true
  · right
    refine ⟨fun t' k => if t' = t ∧ k = collation t key then
      .write ⟨key, reason, true, expireAt⟩ else .keep, fun tables => ?_⟩
    simp only [insertOrUpdate, if_pos hfits]
    cases hold : tables.row t (collation t key) with
    | none =>
      refine ⟨_, rfl, fun t' k => ?_⟩
      simp only [Tables.set]
      split_ifs with hkey
      · rw [hkey.1, hkey.2, hold]
        rfl
      · rfl
    | some old =>
      have hplace := tables.indexed _ _ _ hold
      refine ⟨_, rfl, fun t' k => ?_⟩
      simp only [Tables.set, hplace]
      split_ifs with hkey
      · rw [hkey.1, hkey.2, hold]
        rfl
      · rfl
  · exact .inl fun tables => if_neg hfits

section

variable [Inet]

theorem execute_uniform (m : BlacklistMutation) :
    (∀ tables, execute tables m = none) ∨ ∃ edits, Performs (execute · m) edits := by
  cases m with
  | mkUpsert t id reason expireAtMs =>
    simp only [execute, executeUpsert]
    cases keyOf t id with
    | none => exact .inl fun _ => rfl
    | some key =>
      cases expiryColumn expireAtMs with
      | none => exact .inl fun _ => rfl
      | some expireAt => exact insertOrUpdate_uniform t key reason expireAt
  | mkDisable t id =>
    simp only [execute, executeDisable]
    cases keyOf t id with
    | none => exact .inl fun _ => rfl
    | some key =>
      by_cases hfits : fitsKey t key = true
      · refine .inr ⟨fun t' k => if t' = t ∧ k = collation t key then .disable else .keep,
          fun tables => ⟨_, if_pos hfits, fun t' k => ?_⟩⟩
        simp only [Tables.update]
        split_ifs
        · rfl
        · exact Option.map_id'
      · exact .inl fun _ => if_neg hfits
  | mkClearAll => exact .inr ⟨fun _ _ => .disable, fun tables => ⟨_, rfl, fun _ _ => rfl⟩⟩

/-- **A batch does the same to the rows of all tables, or fails on all of them.** -/
theorem applyBlacklistMutations_uniform (ms : List BlacklistMutation) :
    (∀ tables, applyBlacklistMutations tables ms = none) ∨
      ∃ edits, Performs (applyBlacklistMutations · ms) edits := by
  induction ms with
  | nil => exact .inr ⟨fun _ _ => .keep, fun tables => ⟨tables, rfl, fun _ _ => rfl⟩⟩
  | cons m ms ih =>
    have hcons (tables : Tables) := applyBlacklistMutations_cons tables m ms
    rcases execute_uniform m with hfail | ⟨edits, hedits⟩
    · exact .inl fun tables => by rw [hcons, hfail]; rfl
    rcases ih with hfail | ⟨more, hmore⟩
    · refine .inl fun tables => ?_
      rw [hcons]
      cases execute tables m with
      | none => rfl
      | some tables' => exact hfail tables'
    · refine .inr ⟨fun t k => (edits t k).andThen (more t k), fun tables => ?_⟩
      obtain ⟨tables₁, hexecute, hrows₁⟩ := hedits tables
      obtain ⟨tables₂, happly, hrows₂⟩ := hmore tables₁
      refine ⟨tables₂, ?_, fun t k => ?_⟩
      · exact (hcons tables).trans (Option.bind_eq_some_iff.mpr ⟨tables₁, hexecute, happly⟩)
      · rw [hrows₂, hrows₁, RowEdit.act_andThen]

/-- **Applying a batch again is harmless.**  The tables after a batch that begins with what was
applied before are those that it makes of the tables from before. -/
theorem applyBlacklistMutations_replay {tables tables' : Tables} {done : List BlacklistMutation}
    (h : applyBlacklistMutations tables done = some tables') (rest : List BlacklistMutation) :
    applyBlacklistMutations tables' (done ++ rest) =
      applyBlacklistMutations tables (done ++ rest) := by
  rcases applyBlacklistMutations_uniform done with hfail | ⟨edits, hedits⟩
  · rw [hfail] at h
    cases h
  obtain ⟨tables₁, happly, hrows⟩ := hedits tables
  obtain rfl : tables₁ = tables' := Option.some.inj (happly.symm.trans h)
  obtain ⟨tables₂, hagain, hrows₂⟩ := hedits tables₁
  -- the second time every row is as after the first
  obtain rfl : tables₂ = tables₁ := Tables.ext_row fun t k => by
    rw [hrows₂, hrows, RowEdit.act_act]
  rw [applyBlacklistMutations_append, applyBlacklistMutations_append, h]
  exact congrArg (Option.bind · _) hagain

end

section Witness

local instance replayInet : Inet := Inet.sample

/-- Take a user off the blacklist, and put another on it. -/
def swapUsers : List BlacklistMutation :=
  [.banUser (ascii "b") ⟨ascii "b", by decide⟩,
    .mkDisable .user (ascii "a") ⟨ascii "a", by decide⟩]

/-- Whether the users "a" and "b" have rows, and whether those are enabled. -/
def userRows (tables : Tables) : Option Bool × Option Bool :=
  ((tables.row .user (ascii "a")).map (·.enabled), (tables.row .user (ascii "b")).map (·.enabled))

/-- The batch is applied to tables with a row, and again with all users taken off behind it. -/
theorem applyBlacklistMutations_replay_swapped : ∃ tables tables',
    userRows tables = (some true, none) ∧ userRows tables' = (some false, some true) ∧
    applyBlacklistMutations tables swapUsers = some tables' ∧
    applyBlacklistMutations tables' (swapUsers ++ [.mkClearAll]) =
      applyBlacklistMutations tables (swapUsers ++ [.mkClearAll]) := by
  have hrows : ((applyBlacklistMutations .empty [.banUser (ascii "a") ⟨ascii "a", by decide⟩]).bind
      fun tables => (applyBlacklistMutations tables swapUsers).map fun tables' =>
        (userRows tables, userRows tables')) =
      some ((some true, none), (some false, some true)) := by decide +kernel
  obtain ⟨tables, -, hswap⟩ := Option.bind_eq_some_iff.mp hrows
  obtain ⟨tables', happly, heq⟩ := Option.map_eq_some_iff.mp hswap
  obtain ⟨hbefore, hafter⟩ := Prod.mk.inj heq
  exact ⟨tables, tables', hbefore, hafter, happly,
    applyBlacklistMutations_replay happly [.mkClearAll]⟩

end Witness

end Mysql

end AegisFlow
