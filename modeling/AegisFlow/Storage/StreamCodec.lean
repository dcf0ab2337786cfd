import AegisFlow.Collections.Basic
import AegisFlow.Storage.BlacklistRedisStore

/-!
# The entries of the pending stream

A mutation is written to the stream as a list of names and values (`streamFields`), and read back
by `parseStreamMutation`, which looks the names up and takes nothing that is missing or left over.

* `parseUnsigned_eq_some_iff` : **only the text that `toText` writes is read as a number**;
* `mutationOfValues_perm` : the order of the names does not matter;
* `parse_streamFields` : what was written is read back;
* `values_of_mutation` : what is read as a mutation has the names and values of that mutation, but
  for the spelling of an address;
* `stream_codec_round_trip` : both directions.
-/

namespace AegisFlow

open Redis

/-! ### Numbers -/

theorem digit_sub {b : UInt8} (h : isDigit b = true) : digit (b.toNat - 48) = b := by
  simp only [isDigit, Bool.and_eq_true, decide_eq_true_eq] at h
  refine UInt8.toNat_inj.mp ?_
  rw [digit_toNat (by omega)]
  omega

variable {text : Bytes}

/-- The digits of a number are those of its text. -/
theorem toText_digitsValue (hne : text ≠ []) (hdigits : text.all isDigit = true)
    (hzero : ¬ (1 < text.length ∧ text.head? = some (digit 0))) :
    toText (digitsValue text) = text := by
  by_cases hhead : text.head? = some (digit 0)
  · obtain ⟨rest, rfl⟩ := List.head?_eq_some_iff.mp hhead
    have hrest : rest = [] := by
      by_contra hrest
      have := List.length_pos_iff.mpr hrest
      exact hzero ⟨by rw [List.length_cons]; omega, hhead⟩
    rw [hrest]
    rfl
  · let ds := (text.map fun b => b.toNat - 48).reverse
    have hds : (ds.map digit).reverse = text := by
      rw [List.map_reverse, List.reverse_reverse, List.map_map]
      conv_rhs => rw [← List.map_id text]
      exact List.map_congr_left fun b hb => digit_sub (List.all_eq_true.mp hdigits b hb)
    have hlt : ∀ d ∈ ds, d < 10 := by
      intro d hd
      obtain ⟨b, hb, rfl⟩ := List.mem_map.mp (List.mem_reverse.mp hd)
      have := List.all_eq_true.mp hdigits b hb
      simp only [isDigit, Bool.and_eq_true, decide_eq_true_eq] at this
      omega
    -- the first byte of the text is the last digit of the number
    have hlast : ∀ h : ds ≠ [], ds.getLast h ≠ 0 := by
      intro h hlast
      obtain ⟨b, rest, rfl⟩ := List.exists_cons_of_ne_nil hne
      have hb : b.toNat - 48 = 0 := by simpa [ds] using hlast
      have hdigit := digit_sub (List.all_eq_true.mp hdigits b List.mem_cons_self)
      rw [hb] at hdigit
      exact hhead (by rw [List.head?_cons, hdigit])
    have hvalue : digitsValue text = Nat.ofDigits 10 ds := by
      rw [← digitsValue_reverse_digits hlt, hds]
    have hnumber : Nat.digits 10 (digitsValue text) = ds := by
      rw [hvalue, Nat.digits_ofDigits 10 (by omega) ds hlt hlast]
    unfold toText
    rw [hnumber, hds, if_neg]
    intro hnull
    rw [hnull, Nat.digits_zero] at hnumber
    rw [← hnumber] at hds
    exact hne hds.symm

/-- **Only canonical decimal texts are numbers.** -/
theorem parseUnsigned_eq_some_iff {maximum n : ℕ} :
    parseUnsigned text maximum = some n ↔ text = toText n ∧ n < 2 ^ 64 ∧ n ≤ maximum := by
  constructor
  · intro h
    unfold parseUnsigned at h
    split_ifs at h with hform hvalue
    rw [not_or] at hform
    simp only [Bool.and_eq_true, decide_eq_true_eq] at hvalue
    cases h
    exact ⟨(toText_digitsValue hform.1 hvalue.1.1 hform.2).symm, hvalue.1.2, hvalue.2⟩
  · rintro ⟨rfl, h64, hmax⟩
    exact parseUnsigned_toText h64 hmax

namespace Store

/-! ### Names and values -/

/-- Names and values as an array has them, one after the other. -/
def flattenPairs (values : List (Bytes × Bytes)) : List Bytes :=
  values.flatMap fun p => [p.1, p.2]

@[simp] theorem flattenPairs_cons (p : Bytes × Bytes) (values : List (Bytes × Bytes)) :
    flattenPairs (p :: values) = p.1 :: p.2 :: flattenPairs values := rfl

variable {values : List (Bytes × Bytes)} {value name : Bytes} {t : EntityType}

/-- The names and values read so far are kept. -/
theorem pairUp_eq_some {before : List (Bytes × Bytes)} {elements : List Reply}
    (h : pairUp before elements = some values) (hnodup : (before.map Prod.fst).Nodup) :
    ∃ rest, values = before ++ rest ∧ elements = (flattenPairs rest).map .string ∧
      (values.map Prod.fst).Nodup := by
  fun_induction pairUp before elements with
  | case1 before =>
    cases h
    exact ⟨[], (List.append_nil _).symm, rfl, hnodup⟩
  | case2 before name value rest hany => cases h
  | case3 before name value rest hnew ih =>
    have hfresh : name ∉ before.map Prod.fst := by
      intro hmem
      obtain ⟨p, hp, rfl⟩ := List.mem_map.mp hmem
      exact hnew (List.any_eq_true.mpr ⟨p, hp, beq_self_eq_true _⟩)
    obtain ⟨rest', hvalues, helements, hall⟩ := ih h (by
      rw [List.map_append, List.map_singleton]
      exact hnodup.append (List.nodup_singleton _) (by simpa using hfresh))
    refine ⟨(name, value) :: rest', ?_, ?_, hall⟩
    · rw [hvalues, List.append_assoc, List.singleton_append]
    · rw [flattenPairs_cons, List.map_cons, List.map_cons, helements]
  | case4 => cases h

/-- An array of names and values is read as such if no name is there twice. -/
theorem pairUp_flattenPairs {before : List (Bytes × Bytes)}
    (h : ((before ++ values).map Prod.fst).Nodup) :
    pairUp before ((flattenPairs values).map .string) = some (before ++ values) := by
  induction values generalizing before with
  | nil => rw [List.append_nil]; rfl
  | cons p values ih =>
    have hfresh : before.any (·.1 == p.1) = false := by
      rw [List.any_eq_false]
      intro q hq
      rw [List.map_append, List.map_cons, List.nodup_append] at h
      have := h.2.2 q.1 (List.mem_map_of_mem hq) p.1 List.mem_cons_self
      simpa using this
    have hsplit : before ++ p :: values = before ++ [p] ++ values := by
      rw [List.append_assoc, List.singleton_append]
    rw [hsplit] at h ⊢
    rw [flattenPairs_cons, List.map_cons, List.map_cons, pairUp, hfresh,
      if_neg Bool.false_ne_true]
    exact ih h

theorem length_flattenPairs (values : List (Bytes × Bytes)) :
    (flattenPairs values).length = 2 * values.length := by
  induction values with
  | nil => rfl
  | cons p values ih =>
    simp only [flattenPairs_cons, List.length_cons, ih]
    omega

/-- **The arrays that have fields.** -/
theorem streamValues_eq_ok_iff {reply : Reply} :
    streamValues reply = .ok values ↔
      reply = .array ((flattenPairs values).map .string) ∧ (values.map Prod.fst).Nodup := by
  constructor
  · intro h
    cases reply with
    | array elements =>
      simp only [streamValues] at h
      split_ifs at h with hodd
      cases hpairs : pairUp [] elements with
      | none =>
        rw [hpairs] at h
        cases h
      | some values' =>
        rw [hpairs] at h
        cases h
        obtain ⟨rest, rfl, helements, hnodup⟩ := pairUp_eq_some hpairs List.nodup_nil
        exact ⟨by rw [helements], hnodup⟩
    | _ => cases h
  · rintro ⟨rfl, hnodup⟩
    have heven : ((flattenPairs values).map Reply.string).length % 2 = 0 := by
      rw [List.length_map, length_flattenPairs]
      omega
    have hpairs := @pairUp_flattenPairs values [] hnodup
    simp only [streamValues]
    rw [if_neg (not_not.mpr heven), hpairs]
    rfl

theorem parseEntityType_text (t : EntityType) : parseEntityType (entityTypeText t) = some t := by
  cases t <;> decide

theorem eq_of_parseEntityType (h : parseEntityType text = some t) : text = entityTypeText t := by
  unfold parseEntityType at h
  split_ifs at h with huser hip hdevice
  · cases h
    exact huser
  · cases h
    exact hip
  · cases h
    exact hdevice

section

variable [Inet]

/-! ### Writing and reading back -/

/-- The names and values of a mutation. -/
def fieldPairs : BlacklistMutation → List (Bytes × Bytes)
  | .mkUpsert type id reason expireAtMs .. =>
    [(ascii "operation", ascii "UPSERT"), (ascii "type", entityTypeText type), (ascii "id", id),
      (ascii "reason", reason), (ascii "expire_at_ms", toText expireAtMs)]
  | .mkDisable type id _ =>
    [(ascii "operation", ascii "DISABLE"), (ascii "type", entityTypeText type), (ascii "id", id)]
  | .mkClearAll => [(ascii "operation", ascii "CLEAR_ALL")]

theorem streamFields_eq (m : BlacklistMutation) : streamFields m = flattenPairs (fieldPairs m) := by
  cases m <;> rfl

theorem fieldPairs_nodup (m : BlacklistMutation) : ((fieldPairs m).map Prod.fst).Nodup := by
  cases m
  · change [ascii "operation", ascii "type", ascii "id", ascii "reason", ascii "expire_at_ms"].Nodup
    decide
  · change [ascii "operation", ascii "type", ascii "id"].Nodup
    decide
  · exact List.nodup_singleton _

/-- **The order of the names does not matter.** -/
theorem mutationOfValues_perm {values' : List (Bytes × Bytes)} (h : (values.map Prod.fst).Nodup)
    (hperm : values'.Perm values) : mutationOfValues values' = mutationOfValues values := by
  simp only [mutationOfValues, hperm.lookup_eq h, hperm.length_eq]

variable [Inet.Lawful]

/-- The names and values of a mutation describe that mutation. -/
theorem mutationOfValues_fieldPairs (m : BlacklistMutation) :
    mutationOfValues (fieldPairs m) = .ok m := by
  cases m with
  | mkUpsert t id reason expireAtMs hid hreason hexpire =>
    have hexpiry : parseUnsigned (toText expireAtMs) BlacklistMutation.kMaxExpireAtMs =
        some expireAtMs := by
      refine parseUnsigned_toText (hexpire.trans_lt ?_) hexpire
      decide
    have hupsert : BlacklistMutation.upsert t id reason expireAtMs =
        some (.mkUpsert t id reason expireAtMs hid hreason hexpire) := by
      unfold BlacklistMutation.upsert
      split
      · rename_i hnone
        rw [hid.normalizeId] at hnone
        cases hnone
      · rename_i normalized hsome
        obtain rfl := Option.some.inj (hid.normalizeId.symm.trans hsome)
        rw [dif_pos ⟨hreason, hexpire⟩]
    simp +decide [mutationOfValues, fieldPairs, List.lookup_cons, beq_eq_decide,
      parseEntityType_text, hexpiry, hupsert]
  | mkDisable t id hid =>
    have hdisable : BlacklistMutation.disable t id = some (.mkDisable t id hid) := by
      unfold BlacklistMutation.disable
      split
      · rename_i hnone
        rw [hid.normalizeId] at hnone
        cases hnone
      · rename_i normalized hsome
        obtain rfl := Option.some.inj (hid.normalizeId.symm.trans hsome)
        rfl
    simp +decide [mutationOfValues, fieldPairs, List.lookup_cons, beq_eq_decide,
      parseEntityType_text, hdisable]
  | mkClearAll => simp +decide [mutationOfValues, fieldPairs, BlacklistMutation.clearAll]

variable {m : BlacklistMutation} {id : Bytes}

/-- The names and values of a mutation are read back, in any order. -/
theorem parse_of_perm (h : values.Perm (fieldPairs m)) :
    parseStreamMutation (.array ((flattenPairs values).map .string)) = .ok m := by
  have hnodup : (values.map Prod.fst).Nodup :=
    (h.map Prod.fst).nodup_iff.mpr (fieldPairs_nodup m)
  unfold parseStreamMutation
  rw [streamValues_eq_ok_iff.mpr ⟨rfl, hnodup⟩]
  exact (mutationOfValues_perm (fieldPairs_nodup m) h).trans (mutationOfValues_fieldPairs m)

/-- **The entry of a mutation describes that mutation.** -/
theorem parse_streamFields (m : BlacklistMutation) :
    parseStreamMutation (.array ((streamFields m).map .string)) = .ok m := by
  rw [streamFields_eq]
  exact parse_of_perm (.refl _)

omit [Inet.Lawful]

/-! ### What can be read -/

theorem eq_of_disable (h : BlacklistMutation.disable t id = some m) :
    ∃ normalized hid, normalizeId t id = some normalized ∧ m = .mkDisable t normalized hid := by
  unfold BlacklistMutation.disable at h
  split at h
  · cases h
  · rename_i normalized hsome
    exact ⟨normalized, ⟨id, hsome⟩, hsome, (Option.some.inj h).symm⟩

theorem eq_of_upsert {reason : Bytes} {expireAtMs : ℕ}
    (h : BlacklistMutation.upsert t id reason expireAtMs = some m) :
    ∃ normalized hid hreason hexpire, normalizeId t id = some normalized ∧
      m = .mkUpsert t normalized reason expireAtMs hid hreason hexpire := by
  unfold BlacklistMutation.upsert at h
  split at h
  · cases h
  · rename_i normalized hsome
    split_ifs at h with hvalid
    exact ⟨normalized, ⟨id, hsome⟩, hvalid.1, hvalid.2, hsome, (Option.some.inj h).symm⟩

/-- The three forms of entries. -/
theorem mutationOfValues_cases (h : mutationOfValues values = .ok m) :
    (values.length = 1 ∧ values.lookup (ascii "operation") = some (ascii "CLEAR_ALL") ∧
      m = .mkClearAll) ∨
    (∃ t id, values.length = 3 ∧ values.lookup (ascii "operation") = some (ascii "DISABLE") ∧
      values.lookup (ascii "type") = some (entityTypeText t) ∧
      values.lookup (ascii "id") = some id ∧ BlacklistMutation.disable t id = some m) ∨
    ∃ t id reason expireAtMs, values.length = 5 ∧
      values.lookup (ascii "operation") = some (ascii "UPSERT") ∧
      values.lookup (ascii "type") = some (entityTypeText t) ∧
      values.lookup (ascii "id") = some id ∧ values.lookup (ascii "reason") = some reason ∧
      values.lookup (ascii "expire_at_ms") = some (toText expireAtMs) ∧
      BlacklistMutation.upsert t id reason expireAtMs = some m := by
  unfold mutationOfValues at h
  split at h
  · cases h
  · rename_i operation hoperation
    by_cases hclear : operation = ascii "CLEAR_ALL"
    · rw [if_pos hclear] at h
      split_ifs at h with hone
      cases h
      rw [hclear] at hoperation
      exact .inl ⟨not_not.mp hone, hoperation, rfl⟩
    rw [if_neg hclear] at h
    split at h
    · rename_i typeText id htype hid
      split at h
      · cases h
      · rename_i t ht
        obtain rfl := eq_of_parseEntityType ht
        by_cases hdisable : operation = ascii "DISABLE"
        · rw [if_pos hdisable] at h
          split at h
          · cases h
          · rename_i hthree
            split at h
            · cases h
            · rename_i mutation hmutation
              cases h
              rw [hdisable] at hoperation
              exact .inr (.inl ⟨t, id, not_not.mp hthree, hoperation, htype, hid, hmutation⟩)
        rw [if_neg hdisable] at h
        split at h
        · cases h
        · rename_i hupsert
          rw [not_or, not_not, not_not] at hupsert
          split at h
          · rename_i reason expiry hreason hexpiry
            split at h
            · cases h
            · rename_i expireAtMs hexpire
              obtain ⟨rfl, -, -⟩ := parseUnsigned_eq_some_iff.mp hexpire
              split at h
              · cases h
              · rename_i mutation hmutation
                cases h
                rw [hupsert.1] at hoperation
                exact .inr (.inr ⟨t, id, reason, expireAtMs, hupsert.2, hoperation, htype, hid,
                  hreason, hexpiry, hmutation⟩)
          · cases h
    · cases h

/-- A name and value of an entry, with an address spelled canonically. -/
def respell (m : BlacklistMutation) (p : Bytes × Bytes) : Bytes × Bytes :=
  if m.entityType = some .ip ∧ p.1 = ascii "id" then
    (p.1, ((IpAddress.parse p.2).map IpAddress.canonicalText).getD p.2)
  else p

theorem respell_of_ne (h : name ≠ ascii "id") :
    respell m (name, value) = (name, value) := if_neg fun hip => h hip.2

theorem respell_id {normalized : Bytes} (htype : m.entityType = some t)
    (hid : normalizeId t id = some normalized) :
    respell m (ascii "id", id) = (ascii "id", normalized) := by
  unfold respell
  rw [htype]
  by_cases hip : t = .ip
  · subst hip
    have hparse : (IpAddress.parse id).map IpAddress.canonicalText = some normalized := hid
    rw [if_pos ⟨rfl, rfl⟩, hparse]
    rfl
  · rw [if_neg fun h => hip (Option.some.inj h.1)]
    unfold normalizeId at hid
    rw [if_pos hip] at hid
    split_ifs at hid
    rw [Option.some.inj hid]

/-- **What is read as a mutation has its names and values**, but for the spelling of an address. -/
theorem values_of_mutation (hnodup : (values.map Prod.fst).Nodup)
    (h : mutationOfValues values = .ok m) : (values.map (respell m)).Perm (fieldPairs m) := by
  obtain ⟨hlength, hoperation, rfl⟩ | ⟨t, id, hlength, hoperation, htype, hid, hm⟩ |
    ⟨t, id, reason, expireAtMs, hlength, hoperation, htype, hid, hreason, hexpiry, hm⟩ :=
    mutationOfValues_cases h
  · have hperm := List.perm_of_lookup hnodup [(ascii "operation", ascii "CLEAR_ALL")]
      (List.nodup_singleton _) hlength (by simpa using hoperation)
    refine (hperm.map _).trans (.of_eq ?_)
    rw [List.map_singleton, respell_of_ne (by decide)]
    rfl
  · obtain ⟨normalized, hnormal, hnormalized, rfl⟩ := eq_of_disable hm
    have hperm := List.perm_of_lookup hnodup [(ascii "operation", ascii "DISABLE"),
        (ascii "type", entityTypeText t), (ascii "id", id)]
      (show [ascii "operation", ascii "type", ascii "id"].Nodup by decide) hlength
      (by simp [hoperation, htype, hid])
    refine (hperm.map _).trans (.of_eq ?_)
    rw [List.map_cons, List.map_cons, List.map_singleton, respell_of_ne (by decide),
      respell_of_ne (by decide), respell_id rfl hnormalized]
    rfl
  · obtain ⟨normalized, hnormal, _, _, hnormalized, rfl⟩ := eq_of_upsert hm
    have hperm := List.perm_of_lookup hnodup [(ascii "operation", ascii "UPSERT"),
        (ascii "type", entityTypeText t), (ascii "id", id), (ascii "reason", reason),
        (ascii "expire_at_ms", toText expireAtMs)]
      (show [ascii "operation", ascii "type", ascii "id", ascii "reason",
        ascii "expire_at_ms"].Nodup by decide) hlength
      (by simp [hoperation, htype, hid, hreason, hexpiry])
    refine (hperm.map _).trans (.of_eq ?_)
    rw [List.map_cons, List.map_cons, List.map_cons, List.map_cons, List.map_singleton,
      respell_of_ne (by decide), respell_of_ne (by decide), respell_id rfl hnormalized,
      respell_of_ne (by decide), respell_of_ne (by decide)]
    rfl

/-- **The round trip of the pending stream.**  The fields of a mutation are read back as that
mutation in any order of the pairs; what is read as a mutation has its fields, up to order and the
spelling of an address; and the numbers that are read are those that `toText` writes. -/
theorem stream_codec_round_trip [Inet.Lawful] :
    (∀ m : BlacklistMutation, streamFields m = flattenPairs (fieldPairs m) ∧
      ∀ values, values.Perm (fieldPairs m) →
        parseStreamMutation (.array ((flattenPairs values).map .string)) = .ok m) ∧
    (∀ reply m, parseStreamMutation reply = .ok m →
      ∃ values, reply = .array ((flattenPairs values).map .string) ∧
        (values.map (respell m)).Perm (fieldPairs m)) ∧
    ∀ text maximum n, maximum < 2 ^ 64 →
      (parseUnsigned text maximum = some n ↔ text = toText n ∧ n ≤ maximum) := by
  refine ⟨fun m => ?_, fun reply m h => ?_, fun text maximum n hmax => ?_⟩
  · exact ⟨streamFields_eq m, fun values hperm => parse_of_perm hperm⟩
  · unfold parseStreamMutation at h
    cases hvalues : streamValues reply with
    | error message =>
      rw [hvalues] at h
      cases h
    | ok values =>
      rw [hvalues] at h
      obtain ⟨rfl, hnodup⟩ := streamValues_eq_ok_iff.mp hvalues
      exact ⟨values, rfl, values_of_mutation hnodup h⟩
  · rw [parseUnsigned_eq_some_iff]
    refine and_congr_right fun _ => ⟨And.right, fun hn => ⟨by omega, hn⟩⟩

end

section Example

local instance codecInet : Inet := Inet.sample

theorem codecUser_normal : NormalId .user (ascii "u") := ⟨ascii "u", by decide⟩

/-- The theorem for the removal of a user, with the fields in another order. -/
theorem stream_codec_reversed :
    parseStreamMutation (.array ([ascii "id", ascii "u", ascii "type", ascii "USER",
      ascii "operation", ascii "DISABLE"].map .string)) =
        .ok (.mkDisable .user (ascii "u") codecUser_normal) := by
  have hread := ((@stream_codec_round_trip codecInet Inet.lawful_sample).1
    (.mkDisable .user (ascii "u") codecUser_normal)).2
  exact hread _ (List.reverse_perm _)

end Example

end Store

end AegisFlow
