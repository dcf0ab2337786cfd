import AegisFlow.Base.Text
import Mathlib.Data.Finmap
import Mathlib.Data.Prod.Lex

/-!
# A Redis database

The part of a Redis server that holds data: keys of an arbitrary type bound to strings, hashes
and streams, and the commands that read and edit them.

* `Object` : what a key can be bound to.  A stream carries the proof that its entries are sorted;
* `Command` : the commands of a client, those that control transactions included;
* `Command.run` : the reply of the server to a command on data, the new database and the keys
  that the command touched;
* `execDb`, `execReplies` : the commands of a transaction, one after the other.

The reply to a command depends on the keys of the command only (`Command.run_reply_congr`), and a
command leaves every key alone that it does not touch (`Command.run_frames`).
-/

namespace AegisFlow

namespace Redis

/-! ### Objects -/

/-- The fields of a hash. -/
abbrev Hash := Finmap fun _ : Bytes => Bytes

/-- Identifiers of stream entries: milliseconds and a sequence number. -/
abbrev StreamId := ℕ ×ₗ ℕ

/-- An identifier as text. -/
def StreamId.text (id : StreamId) : Bytes :=
  toText (ofLex id).1 ++ 45 :: toText (ofLex id).2

/-- The identifier given to an entry that is added at the time `now`. -/
def StreamId.next (last : StreamId) (now : ℕ) : StreamId :=
  if (ofLex last).1 < now then toLex (now, 0) else toLex ((ofLex last).1, (ofLex last).2 + 1)

theorem StreamId.lt_next (last : StreamId) (now : ℕ) : last < StreamId.next last now := by
  unfold StreamId.next
  split_ifs with h
  · exact Prod.Lex.lt_iff.2 (.inl h)
  · exact Prod.Lex.lt_iff.2 (.inr ⟨rfl, Nat.lt_succ_self _⟩)

theorem StreamId.text_injective : Function.Injective StreamId.text := by
  intro a b h
  have hdash : isDigit 45 = false := rfl
  have hsplit (id : StreamId) : (StreamId.text id).takeWhile isDigit = toText (ofLex id).1 ∧
      (StreamId.text id).dropWhile isDigit = 45 :: toText (ofLex id).2 := by
    have hall : ∀ x ∈ toText (ofLex id).1, isDigit x = true :=
      List.all_eq_true.1 (all_isDigit_toText _)
    unfold StreamId.text
    rw [List.takeWhile_append_of_pos hall, List.dropWhile_append_of_pos hall]
    simp [hdash]
  have hms : toText (ofLex a).1 = toText (ofLex b).1 := by rw [← (hsplit a).1, h, (hsplit b).1]
  have hseq : (45 : UInt8) :: toText (ofLex a).2 = 45 :: toText (ofLex b).2 := by
    rw [← (hsplit a).2, h, (hsplit b).2]
  have hms' := congrArg digitsValue hms
  have hseq' := congrArg digitsValue (List.tail_eq_of_cons_eq hseq)
  rw [digitsValue_toText, digitsValue_toText] at hms' hseq'
  exact ofLex.injective (Prod.ext hms' hseq')

/-- An entry of a stream: names and values of its fields, alternating. -/
structure StreamEntry where
  id : StreamId
  /-- Names and values. -/
  fields : List Bytes
  deriving DecidableEq

/-- A stream: entries by increasing identifier. -/
structure Stream where
  /-- The entries, oldest first. -/
  entries : List StreamEntry
  /-- The largest identifier ever given. -/
  lastId : StreamId
  sorted : entries.Pairwise fun a b => a.id < b.id
  bounded : ∀ e ∈ entries, e.id ≤ lastId

namespace Stream

/-- The stream without entries. -/
def empty : Stream := ⟨[], toLex (0, 0), .nil, fun _ h => absurd h List.not_mem_nil⟩

/-- The entry that is added at the time `now`. -/
def newEntry (s : Stream) (now : ℕ) (fields : List Bytes) : StreamEntry :=
  ⟨StreamId.next s.lastId now, fields⟩

theorem sorted_add (s : Stream) (now : ℕ) (fields : List Bytes) :
    (s.entries ++ [s.newEntry now fields]).Pairwise fun a b => a.id < b.id := by
  refine List.pairwise_append.2 ⟨s.sorted, List.pairwise_singleton _ _, fun a ha b hb => ?_⟩
  obtain rfl := List.mem_singleton.1 hb
  exact (s.bounded a ha).trans_lt (StreamId.lt_next _ _)

theorem bounded_add (s : Stream) (now : ℕ) (fields : List Bytes) :
    ∀ e ∈ s.entries ++ [s.newEntry now fields], e.id ≤ StreamId.next s.lastId now := by
  intro e he
  rcases List.mem_append.1 he with he | he
  · exact (s.bounded e he).trans (StreamId.lt_next _ _).le
  · obtain rfl := List.mem_singleton.1 he
    exact le_rfl

/-- Add an entry at the end. -/
def add (s : Stream) (now : ℕ) (fields : List Bytes) : Stream where
  entries := s.entries ++ [s.newEntry now fields]
  lastId := StreamId.next s.lastId now
  sorted := s.sorted_add now fields
  bounded := s.bounded_add now fields

/-- Remove the entries with the given identifiers. -/
def remove (s : Stream) (ids : List Bytes) : Stream where
  entries := s.entries.filter fun e => !ids.contains (StreamId.text e.id)
  lastId := s.lastId
  sorted := s.sorted.filter _
  bounded := fun e he => s.bounded e (List.mem_of_mem_filter he)

end Stream

/-- What a key is bound to. -/
inductive Object
  | string (value : Bytes)
  | hash (fields : Hash)
  | stream (stream : Stream)
  /-- A list, a set or a sorted set. -/
  | other

/-- A database. -/
abbrev Db (κ : Type) := κ → Option Object

/-- The type of a binding as the server names it. -/
def typeName : Option Object → String
  | none => "none"
  | some (.string _) => "string"
  | some (.hash _) => "hash"
  | some (.stream _) => "stream"
  | some .other => "list"

/-- A binding read as a hash; a key without binding is an empty hash. -/
def hash? : Option Object → Option Hash
  | none => some ∅
  | some (.hash fields) => some fields
  | some _ => none

/-- A binding read as a stream; a key without binding is an empty stream. -/
def stream? : Option Object → Option Stream
  | none => some Stream.empty
  | some (.stream stream) => some stream
  | some _ => none

/-- A hash without fields is not bound at all. -/
def ofHash (fields : Hash) : Option Object := if fields = ∅ then none else some (.hash fields)

/-! ### Integers -/

/-- The largest signed 64-bit integer. -/
def maxInteger : ℕ := 2 ^ 63 - 1

/-- The integer a text denotes in canonical form. -/
def parseInteger : Bytes → Option ℤ
  | 45 :: digits =>
    match parseUnsigned digits (2 ^ 63) with
    | some (n + 1) => some (-(n + 1 : ℕ))
    | _ => none
  | text => (parseUnsigned text maxInteger).map Int.ofNat

/-- An integer as text. -/
def integerText : ℤ → Bytes
  | .ofNat n => toText n
  | .negSucc n => 45 :: toText (n + 1)

/-- Canonical text of a natural number denotes that number. -/
theorem parseInteger_of_parseUnsigned {text : Bytes} {maximum n : ℕ}
    (h : parseUnsigned text maximum = some n) (hn : n ≤ maxInteger) :
    parseInteger text = some n := by
  have hdigits := isDigit_of_parseUnsigned h
  unfold parseInteger
  split
  · exact absurd (hdigits 45 List.mem_cons_self) (by decide)
  · rw [parseUnsigned_of_le h hn]
    rfl

/-- The value an increment leads to, unless it leaves the range. -/
def increment (n delta : ℤ) : Option ℤ :=
  if -maxInteger ≤ n + delta + 1 ∧ n + delta ≤ maxInteger then some (n + delta) else none

/-- A binding read as a counter; a key without binding counts from zero. -/
def counter? : Option Object → Option ℤ
  | none => some 0
  | some (.string value) => parseInteger value
  | some _ => none

/-- A field read as a counter; an absent field counts from zero. -/
def fieldCounter? (fields : Hash) (field : Bytes) : Option ℤ :=
  match fields.lookup field with
  | none => some 0
  | some value => parseInteger value

/-! ### Commands -/

/-- A reply of the server. -/
inductive Reply
  | status (text : String)
  | string (text : Bytes)
  | integer (value : ℤ)
  | nil
  | error (text : String)
  | array (elements : List Reply)

/-- The reply is the given status. -/
def Reply.isStatus (text : String) : Reply → Bool
  | status t => t == text
  | _ => false

/-- The reply is an error. -/
def Reply.isError : Reply → Bool
  | error _ => true
  | _ => false

/-- The replies of a transaction that ran. -/
def Reply.elements? : Reply → Option (List Reply)
  | array elements => some elements
  | _ => none

/-- The commands of a client. -/
inductive Command (κ : Type)
  | watch (keys : List κ)
  | unwatch
  | multi
  | exec
  | discard
  | type (key : κ)
  | get (key : κ)
  | set (key : κ) (value : Bytes)
  | incr (key : κ)
  | del (keys : List κ)
  | hget (key : κ) (field : Bytes)
  | hmget (key : κ) (fields : List Bytes)
  | hset (key : κ) (pairs : List (Bytes × Bytes))
  | hdel (key : κ) (fields : List Bytes)
  | hincrby (key : κ) (field : Bytes) (delta : ℤ)
  | hlen (key : κ)
  | hscan (key : κ) (cursor : Bytes) (count : ℕ)
  | xadd (key : κ) (fields : List Bytes)
  | xrange (key : κ) (count : ℕ)
  | xdel (key : κ) (ids : List Bytes)
  | xlen (key : κ)
  deriving DecidableEq, Repr

/-- The effect of a command. -/
structure Outcome (κ : Type) where
  reply : Reply
  /-- The database afterwards. -/
  db : Db κ
  touched : List κ

/-- A key holds an object of another type than the command expects. -/
def wrongType : Reply := .error "WRONGTYPE Operation against a key holding the wrong kind of value"

/-- A value is not an integer, or would leave the range of integers. -/
def notInteger : Reply := .error "ERR value is not an integer or out of range"

/-- A binding read as a string. -/
def stringReply : Option Object → Reply
  | none => .nil
  | some (.string value) => .string value
  | some _ => wrongType

/-- The value of a field. -/
def fieldReply (fields : Hash) (field : Bytes) : Reply :=
  match fields.lookup field with
  | none => .nil
  | some value => .string value

/-- An entry of a stream. -/
def entryReply (entry : StreamEntry) : Reply :=
  .array [.string (StreamId.text entry.id), .array (entry.fields.map .string)]

/-- Write fields, in order. -/
def setFields (fields : Hash) (pairs : List (Bytes × Bytes)) : Hash :=
  pairs.foldl (fun fields pair => fields.insert pair.1 pair.2) fields

/-- Remove fields. -/
def removeFields (fields : Hash) (names : List Bytes) : Hash :=
  names.foldl (fun fields name => fields.erase name) fields

variable {κ : Type} [DecidableEq κ]

namespace Outcome

/-- Nothing changes. -/
def keep (db : Db κ) (reply : Reply) : Outcome κ := ⟨reply, db, []⟩

/-- One key gets a new binding. -/
def write (db : Db κ) (key : κ) (object : Option Object) (reply : Reply) : Outcome κ :=
  ⟨reply, Function.update db key object, [key]⟩

/-- Read a key as a hash. -/
def onHash (db : Db κ) (key : κ) (f : Hash → Outcome κ) : Outcome κ :=
  match hash? (db key) with
  | none => keep db wrongType
  | some fields => f fields

/-- Read a key as a stream. -/
def onStream (db : Db κ) (key : κ) (f : Stream → Outcome κ) : Outcome κ :=
  match stream? (db key) with
  | none => keep db wrongType
  | some stream => f stream

/-- Write a counter, if the increment is possible. -/
def count (db : Db κ) (key : κ) (value : Option ℤ) (f : ℤ → Option Object) : Outcome κ :=
  match value with
  | none => keep db notInteger
  | some n => write db key (f n) (.integer n)

end Outcome

open Outcome

/-- A command on data, executed at the time `now`.  Scans and the commands that control
transactions are not executed here. -/
def Command.run (now : ℕ) (db : Db κ) : Command κ → Outcome κ
  | type key => keep db (.status (typeName (db key)))
  | get key => keep db (stringReply (db key))
  | set key value => write db key (some (.string value)) (.status "OK")
  | incr key =>
    count db key ((counter? (db key)).bind (increment · 1)) fun n => some (.string (integerText n))
  | del keys =>
    ⟨.integer (keys.dedup.filter fun key => (db key).isSome).length,
      fun key => if key ∈ keys then none else db key,
      keys.filter fun key => (db key).isSome⟩
  | hget key field => onHash db key fun fields => keep db (fieldReply fields field)
  | hmget key names => onHash db key fun fields => keep db (.array (names.map (fieldReply fields)))
  | hset key pairs => onHash db key fun fields =>
    write db key (ofHash (setFields fields pairs))
      (.integer ((setFields fields pairs).keys.card - fields.keys.card))
  | hdel key names => onHash db key fun fields =>
    if removeFields fields names = fields then keep db (.integer 0)
    else write db key (ofHash (removeFields fields names))
      (.integer (fields.keys.card - (removeFields fields names).keys.card))
  | hincrby key field delta => onHash db key fun fields =>
    count db key ((fieldCounter? fields field).bind (increment · delta)) fun n =>
      ofHash (fields.insert field (integerText n))
  | hlen key => onHash db key fun fields => keep db (.integer fields.keys.card)
  | xadd key fields => onStream db key fun stream =>
    write db key (some (.stream (stream.add now fields)))
      (.string (StreamId.text (StreamId.next stream.lastId now)))
  | xrange key count => onStream db key fun stream =>
    keep db (.array ((stream.entries.take count).map entryReply))
  | xdel key ids => onStream db key fun stream =>
    if (stream.remove ids).entries = stream.entries then keep db (.integer 0)
    else write db key (some (.stream (stream.remove ids)))
      (.integer (stream.entries.length - (stream.remove ids).entries.length))
  | xlen key => onStream db key fun stream => keep db (.integer stream.entries.length)
  | watch _ | unwatch | multi | exec | discard | hscan .. => keep db (.error "ERR")

/-- The keys a command reads or writes. -/
def Command.keys : Command κ → List κ
  | watch _ | unwatch | multi | exec | discard => []
  | del keys => keys
  | type key | get key | set key _ | incr key | hget key _ | hmget key _ | hset key _
  | hdel key _ | hincrby key _ _ | hlen key | hscan key _ _ | xadd key _ | xrange key _
  | xdel key _ | xlen key => [key]

/-! ### What a command depends on, and what it leaves alone -/

namespace Outcome

variable {db db' : Db κ} {key k : κ} {reply : Reply}

/-- Every key that was not touched is bound as in `db`. -/
def Frames (db : Db κ) (o : Outcome κ) : Prop := ∀ k, k ∉ o.touched → o.db k = db k

omit [DecidableEq κ] in
theorem frames_keep : Frames db (keep db reply) := fun _ _ => rfl

theorem frames_write {object : Option Object} : Frames db (write db key object reply) := by
  intro k hk
  exact Function.update_of_ne (fun h => hk (List.mem_singleton.2 h)) _ _

omit [DecidableEq κ] in
theorem frames_onHash {f : Hash → Outcome κ} (h : ∀ fields, Frames db (f fields)) :
    Frames db (onHash db key f) := by
  unfold onHash
  split
  · exact frames_keep
  · exact h _

omit [DecidableEq κ] in
theorem frames_onStream {f : Stream → Outcome κ} (h : ∀ stream, Frames db (f stream)) :
    Frames db (onStream db key f) := by
  unfold onStream
  split
  · exact frames_keep
  · exact h _

theorem frames_count {value : Option ℤ} {f : ℤ → Option Object} :
    Frames db (count db key value f) := by
  cases value with
  | none => exact frames_keep
  | some n => exact frames_write

omit [DecidableEq κ] in
theorem reply_onHash_congr {f g : Hash → Outcome κ} (hkey : db key = db' key)
    (h : ∀ fields, (f fields).reply = (g fields).reply) :
    (onHash db key f).reply = (onHash db' key g).reply := by
  unfold onHash
  rw [hkey]
  split
  · rfl
  · exact h _

omit [DecidableEq κ] in
theorem reply_onStream_congr {f g : Stream → Outcome κ} (hkey : db key = db' key)
    (h : ∀ stream, (f stream).reply = (g stream).reply) :
    (onStream db key f).reply = (onStream db' key g).reply := by
  unfold onStream
  rw [hkey]
  split
  · rfl
  · exact h _

theorem reply_count_congr {value : Option ℤ} {f : ℤ → Option Object} :
    (count db key value f).reply = (count db' key value f).reply := by
  cases value <;> rfl

end Outcome

namespace Command

variable {db db' : Db κ} {now : ℕ}

/-- A command leaves every key alone that it does not touch. -/
theorem run_frames (c : Command κ) : Frames db (c.run now db) := by
  cases c with
  | del keys =>
    intro k hk
    simp only [run, List.mem_filter, not_and, Bool.not_eq_true, Option.isSome_eq_false_iff,
      Option.isNone_iff_eq_none] at hk ⊢
    split_ifs with h
    · exact (hk h).symm
    · rfl
  | incr key => exact frames_count
  | set key value => exact frames_write
  | hset key pairs => exact frames_onHash fun _ => frames_write
  | hdel key names =>
    refine frames_onHash fun fields => ?_
    split_ifs
    · exact frames_keep
    · exact frames_write
  | hincrby key field delta => exact frames_onHash fun _ => frames_count
  | xadd key fields => exact frames_onStream fun _ => frames_write
  | xdel key ids =>
    refine frames_onStream fun stream => ?_
    split_ifs
    · exact frames_keep
    · exact frames_write
  | hget | hmget | hlen => exact frames_onHash fun _ => frames_keep
  | xrange | xlen => exact frames_onStream fun _ => frames_keep
  | type | get | watch | unwatch | multi | exec | discard | hscan => exact frames_keep

/-- A command touches no other keys than its own. -/
theorem touched_subset_keys (c : Command κ) : (c.run now db).touched ⊆ c.keys := by
  have hkeep {key : κ} {reply : Reply} : (keep db reply).touched ⊆ [key] := List.nil_subset _
  have hwrite {key : κ} {object : Option Object} {reply : Reply} :
      (write db key object reply).touched ⊆ [key] := List.Subset.refl _
  cases c with
  | del ks => exact List.filter_sublist.subset
  | set => exact hwrite
  | incr key =>
    simp only [run, Outcome.count]
    split
    · exact hkeep
    · exact hwrite
  | hset | hget | hmget | hlen =>
    simp only [run, Outcome.onHash]
    split
    · exact hkeep
    · first | exact hkeep | exact hwrite
  | hdel =>
    simp only [run, Outcome.onHash]
    split
    · exact hkeep
    · split_ifs
      · exact hkeep
      · exact hwrite
  | hincrby =>
    simp only [run, Outcome.onHash, Outcome.count]
    split
    · exact hkeep
    · split
      · exact hkeep
      · exact hwrite
  | xadd | xrange | xlen =>
    simp only [run, Outcome.onStream]
    split
    · exact hkeep
    · first | exact hkeep | exact hwrite
  | xdel =>
    simp only [run, Outcome.onStream]
    split
    · exact hkeep
    · split_ifs
      · exact hkeep
      · exact hwrite
  | type | get | watch | unwatch | multi | exec | discard | hscan => exact List.nil_subset _

theorem run_of_notMem_keys {c : Command κ} {k : κ} (h : k ∉ c.keys) : (c.run now db).db k = db k :=
  c.run_frames k fun hk => h (touched_subset_keys c hk)

/-- The reply depends on the keys of the command only. -/
theorem run_reply_congr {c : Command κ} (h : ∀ k ∈ c.keys, db k = db' k) :
    (c.run now db).reply = (c.run now db').reply := by
  cases c with
  | del keys =>
    simp only [run]
    congr 3
    exact List.filter_congr fun k hk => by rw [h k (List.mem_dedup.1 hk)]
  | watch | unwatch | multi | exec | discard | hscan => rfl
  | set => rfl
  | type key => exact congrArg (fun o => Reply.status (typeName o)) (h key (by simp [keys]))
  | get key => exact congrArg stringReply (h key (by simp [keys]))
  | incr key =>
    simp only [run, h key (by simp [keys])]
    exact reply_count_congr
  | hget key | hmget key | hset key | hlen key =>
    exact reply_onHash_congr (h key (by simp [keys])) fun _ => rfl
  | hdel key names =>
    refine reply_onHash_congr (h key (by simp [keys])) fun fields => ?_
    split_ifs <;> rfl
  | hincrby key field delta =>
    exact reply_onHash_congr (h key (by simp [keys])) fun _ => reply_count_congr
  | xadd key | xrange key | xlen key =>
    exact reply_onStream_congr (h key (by simp [keys])) fun _ => rfl
  | xdel key ids =>
    refine reply_onStream_congr (h key (by simp [keys])) fun stream => ?_
    split_ifs <;> rfl

end Command

/-! ### Transactions -/

/-- The database after the commands of a transaction. -/
def execDb (now : ℕ) (db : Db κ) (commands : List (Command κ)) : Db κ :=
  commands.foldl (fun db c => (c.run now db).db) db

/-- The replies to the commands of a transaction. -/
def execReplies (now : ℕ) : Db κ → List (Command κ) → List Reply
  | _, [] => []
  | db, c :: commands => (c.run now db).reply :: execReplies now (c.run now db).db commands

/-- The keys that the commands of a transaction touch. -/
def execTouched (now : ℕ) : Db κ → List (Command κ) → List κ
  | _, [] => []
  | db, c :: commands => (c.run now db).touched ++ execTouched now (c.run now db).db commands

section

variable (now : ℕ) (db : Db κ)

@[simp] theorem execDb_nil : execDb now db [] = db := rfl

@[simp] theorem execDb_cons (c : Command κ) (commands : List (Command κ)) :
    execDb now db (c :: commands) = execDb now (c.run now db).db commands := rfl

theorem execDb_append (cs ds : List (Command κ)) :
    execDb now db (cs ++ ds) = execDb now (execDb now db cs) ds := List.foldl_append

theorem execReplies_append (cs ds : List (Command κ)) :
    execReplies now db (cs ++ ds) =
      execReplies now db cs ++ execReplies now (execDb now db cs) ds := by
  induction cs generalizing db with
  | nil => rfl
  | cons c cs ih => simp [execReplies, ih]

theorem length_execReplies (cs : List (Command κ)) :
    (execReplies now db cs).length = cs.length := by
  induction cs generalizing db with
  | nil => rfl
  | cons c cs ih => simp [execReplies, ih]

end

/-- A transaction leaves every key alone that it does not touch. -/
theorem execDb_of_notMem {now : ℕ} {commands : List (Command κ)} {db : Db κ} {k : κ}
    (h : k ∉ execTouched now db commands) : execDb now db commands k = db k := by
  induction commands generalizing db with
  | nil => rfl
  | cons c commands ih =>
    simp only [execTouched, List.mem_append, not_or] at h
    rw [execDb_cons, ih h.2, c.run_frames k h.1]

end Redis

end AegisFlow
