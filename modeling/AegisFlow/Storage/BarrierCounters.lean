import AegisFlow.Storage.StorePool

/-!
# The counters of the reset barrier

The barrier is a hash with two counters: the latest barrier that was asked for, and the latest one
that was acknowledged.  Asking is a single `HINCRBY`, acknowledging is a transaction; any number
of clients do both.

* `BarrierAt db requested completed` : the counters, in order;
* `barrier_of_leads` : **from then on they stay in order, and neither ever decreases**.
-/

namespace AegisFlow

open Redis

/-- Both counters can be read, and what was acknowledged was asked for. -/
structure BarrierAt (db : BlacklistDb) (requested completed : ℕ) : Prop where
  asked : db.barrierCounter (ascii "requested") = some requested
  done : db.barrierCounter (ascii "completed") = some completed
  /-- Nothing was acknowledged that was not asked for. -/
  ordered : completed ≤ requested

section

variable {db db' : BlacklistDb} {requested completed : ℕ}

/-- The key of the barrier determines its counters. -/
theorem BarrierAt.congr (h : BarrierAt db requested completed)
    (hkey : db' .resetBarrier = db .resetBarrier) : BarrierAt db' requested completed := by
  have hcounter (field : Bytes) : db'.barrierCounter field = db.barrierCounter field := by
    simp only [BlacklistDb.barrierCounter, hkey]
  exact ⟨(hcounter _).trans h.asked, (hcounter _).trans h.done, h.ordered⟩

/-- A counter as `HINCRBY` reads it. -/
theorem fieldCounter_of_barrierCounter {fields : Hash} {field : Bytes} {n : ℕ}
    (hfields : hash? (db .resetBarrier) = some fields)
    (h : db.barrierCounter field = some n) : fieldCounter? fields field = some (n : ℤ) := by
  simp only [BlacklistDb.barrierCounter, hfields, Option.bind_some] at h
  unfold fieldCounter?
  cases htext : fields.lookup field with
  | none =>
    rw [htext] at h
    cases h
    rfl
  | some text =>
    rw [htext] at h
    exact parseInteger_of_parseUnsigned h (parseUnsigned_le h).1

/-- The effect of `HINCRBY` on the counter of the barriers asked for. -/
theorem run_request (now : ℕ) {fields : Hash} (hfields : hash? (db .resetBarrier) = some fields)
    (h : db.barrierCounter (ascii "requested") = some requested) :
    ((Command.hincrby .resetBarrier (ascii "requested") 1).run now db).db =
      if requested < kMaxRedisInteger then Function.update db .resetBarrier
        (ofHash (fields.insert (ascii "requested") (toText (requested + 1))))
      else db := by
  have hrun : (Command.hincrby .resetBarrier (ascii "requested") 1).run now db =
      Outcome.onHash db .resetBarrier fun fields => Outcome.count db .resetBarrier
        ((fieldCounter? fields (ascii "requested")).bind (increment · 1)) fun n =>
          ofHash (fields.insert (ascii "requested") (integerText n)) := rfl
  rw [hrun, Outcome.onHash, hfields]
  dsimp only
  rw [fieldCounter_of_barrierCounter hfields h, Option.bind_some]
  split_ifs with hroom
  · rw [increment_one hroom, ← integerText_succ]
    rfl
  · -- the increment is refused, and the database stays as it is
    have hfull : increment requested 1 = none := by
      rw [kMaxRedisInteger, not_lt] at hroom
      exact if_neg (by omega)
    rw [hfull]
    rfl

/-- Asking for a barrier counts it, as long as the counter can be incremented. -/
theorem BarrierAt.request (h : BarrierAt db requested completed) (now : ℕ) :
    ∃ requested', requested ≤ requested' ∧
      BarrierAt ((Command.hincrby .resetBarrier (ascii "requested") 1).run now db).db
        requested' completed := by
  obtain ⟨fields, hfields⟩ : ∃ fields, hash? (db .resetBarrier) = some fields := by
    by_contra hnone
    have hread := h.asked
    rw [not_exists, ← Option.eq_none_iff_forall_ne_some] at hnone
    simp [BlacklistDb.barrierCounter, hnone] at hread
  rw [run_request now hfields h.asked]
  split_ifs with hroom
  · have hparse : parseUnsigned (toText (requested + 1)) kMaxRedisInteger =
        some (requested + 1) := by
      refine parseUnsigned_toText ?_ hroom
      simp only [kMaxRedisInteger, maxInteger] at hroom
      omega
    refine ⟨requested + 1, Nat.le_succ _, ?_, ?_, h.ordered.trans (Nat.le_succ _)⟩
    · simp only [BlacklistDb.barrierCounter, Function.update_self, hash?_ofHash, Option.bind_some,
        Finmap.lookup_insert]
      exact hparse
    · rw [← h.done]
      simp only [BlacklistDb.barrierCounter, Function.update_self, hash?_ofHash, Option.bind_some,
        hfields]
      rw [Finmap.lookup_insert_of_ne _ (by decide)]
  · exact ⟨requested, le_rfl, h⟩

variable [Inet]

/-- Only `completeResetBarrier` has a transaction that concerns the barrier. -/
theorem Commits.barrier {call : StoreCall} (h : Commits call db db') :
    db' .resetBarrier = db .resetBarrier ∨
      ∃ token, call = .completeResetBarrier token ∧ BarrierCompleted token db db' := by
  have hhash (t : EntityType) : RedisKey.resetBarrier ≠ hashKey t := by cases t <;> decide
  cases call with
  | applyMutations => exact .inl (h.others _ hhash (by decide) (by decide))
  | removeExpiredFields => exact .inl (h.others _ hhash (by decide))
  | rebuildFromMysql => exact .inl (h.others _ hhash (by decide) (by decide))
  | setPublishedRevision =>
    obtain rfl := h
    exact .inl (Function.update_of_ne (by decide) _ _)
  | completeResetBarrier token => exact .inr ⟨token, rfl, h⟩
  | _ => exact h.elim

/-- **One operation of any client keeps the counters in order and decreases none.** -/
theorem Evolves.barrier {v v' : StoreView} (h : Evolves v v' db db')
    (hat : BarrierAt db requested completed) :
    ∃ requested' completed', requested ≤ requested' ∧ completed ≤ completed' ∧
      BarrierAt db' requested' completed' := by
  cases h with
  | same hdb =>
    rw [hdb]
    exact ⟨_, _, le_rfl, le_rfl, hat⟩
  | @direct now call c hcall hwrite hdb =>
    cases call with
    | deletePending ids =>
      obtain rfl := hwrite
      refine ⟨_, _, le_rfl, le_rfl, hat.congr ?_⟩
      rw [hdb]
      exact Command.run_of_notMem_keys (by simp [Command.keys])
    | requestResetBarrier =>
      obtain rfl := hwrite
      obtain ⟨requested', hle, hat'⟩ := hat.request now
      exact ⟨_, _, hle, le_rfl, hdb ▸ hat'⟩
    | _ => exact hwrite.elim
  | @commit now call q hcall hqueue hknown hdb hcommits =>
    rcases hcommits.barrier with hkey | ⟨token, -, hdone⟩
    · exact ⟨_, _, le_rfl, le_rfl, hat.congr hkey⟩
    · obtain ⟨r, c, hr, hc, hlow, hhigh, hr', hc'⟩ := hdone.counters
      obtain rfl : r = requested := Option.some.inj (hr.symm.trans hat.asked)
      obtain rfl : c = completed := Option.some.inj (hc.symm.trans hat.done)
      exact ⟨_, _, le_rfl, hlow, hr', hc', hhigh⟩

variable {ι : Type} [DecidableEq ι]

/-- From a state with the counters in order on they stay so, and none ever decreases. -/
theorem barrier_of_leads {s s' : StorePoolState ι} (hr : (storePool ι).system.Reachable s)
    (hl : (storePool ι).system.Leads s s') (hat : BarrierAt (dbOf s) requested completed) :
    ∃ requested' completed', requested ≤ requested' ∧ completed ≤ completed' ∧
      BarrierAt (dbOf s') requested' completed' := by
  refine hl.invariant (I := fun s' => ∃ requested' completed', requested ≤ requested' ∧
    completed ≤ completed' ∧ BarrierAt (dbOf s') requested' completed') hr
    ⟨_, _, le_rfl, le_rfl, hat⟩ ?_
  intro s₁ l s₂ hr ⟨r, c, hr', hc', hat⟩ _ hst
  cases (storeContract ι).lawful hr hst with
  | begin | finish => exact ⟨r, c, hr', hc', hat⟩
  | op hrun hallow hserve =>
    obtain ⟨r₂, c₂, hr₂, hc₂, hat₂⟩ :=
      (evolves ((storeInv hr).synced.at _) hallow hserve).barrier hat
    exact ⟨r₂, c₂, hr'.trans hr₂, hc'.trans hc₂, hat₂⟩
  | env henv =>
    obtain ⟨-, rfl⟩ := henv
    exact ⟨r, c, hr', hc', hat⟩

end

end AegisFlow
