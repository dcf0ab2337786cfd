import AegisFlow.Base.Text
import AegisFlow.Log.Logger

/-!
# Configuration files

A configuration file has one `key = value` in a line; empty lines and lines that begin with `#` are
skipped.  `RawConfig` is the table of these texts, and each reader turns the text of a key, or a
default, into a value of its type.  Whatever is wrong with the file is an error with a message that
names the key or the line.

* `RawConfig.parse` : the table of a file;
* `RawConfig.getUInt64` : a number as `std::stoull` reads it;
* `readSize`, `readUint32`, `readPort`, `readPositiveMilliseconds`, `addChecked` : numbers within
  the bounds of their types.
-/

namespace AegisFlow

/-- The UTF-8 bytes of a message. -/
def utf8 (s : String) : Bytes := s.toUTF8.data.toList

/-- White space of the C locale. -/
def isSpace (b : UInt8) : Bool := b == 32 || (decide (9 ≤ b.toNat) && decide (b.toNat ≤ 13))

/-- The text without white space at its ends. -/
def trim (text : Bytes) : Bytes :=
  ((text.dropWhile isSpace).reverse.dropWhile isSpace).reverse

/-- `std::stoull` in base 10: the number at the beginning of the text and the number of bytes read.
A number after a minus sign is negated modulo 2^64. -/
def stoull (text : Bytes) : Option (ℕ × ℕ) :=
  let spaces := text.takeWhile isSpace
  let rest := text.dropWhile isSpace
  let signed := rest.head? = some 43 ∨ rest.head? = some 45
  let digits := (if signed then rest.tail else rest).takeWhile isDigit
  if digits = [] ∨ 2 ^ 64 ≤ digitsValue digits then none
  else some (if rest.head? = some 45 then (2 ^ 64 - digitsValue digits) % 2 ^ 64
    else digitsValue digits, spaces.length + (if signed then 1 else 0) + digits.length)

/-! ### Results -/

/-- A value, or the message of the exception. -/
abbrev Loaded (α : Type) := Except Bytes α

/-- Go on if the condition holds. -/
def require (condition : Prop) [Decidable condition] (message : Bytes) : Loaded Unit :=
  if condition then .ok () else .error message

theorem loaded_bind_eq_ok {α β : Type} {x : Loaded α} {f : α → Loaded β} {b : β} :
    (x >>= f) = .ok b ↔ ∃ a, x = .ok a ∧ f a = .ok b := by
  cases x with
  | error message => exact ⟨nofun, fun ⟨_, h, _⟩ => by cases h⟩
  | ok a => exact ⟨fun h => ⟨a, rfl, h⟩, fun ⟨_, h, hf⟩ => by cases h; exact hf⟩

theorem require_bind_eq_ok {α : Type} {condition : Prop} [Decidable condition] {message : Bytes}
    {f : Unit → Loaded α} {a : α} :
    (require condition message >>= f) = .ok a ↔ condition ∧ f () = .ok a := by
  unfold require
  split
  case isTrue h => exact ⟨fun hf => ⟨h, hf⟩, fun hf => hf.2⟩
  case isFalse h => exact ⟨nofun, fun hf => absurd hf.1 h⟩

/-! ### The table -/

/-- The texts of the keys of a file. -/
structure RawConfig where
  values : List (Bytes × Bytes) := []
  deriving DecidableEq, Repr

/-- The order in which the entries of a `std::unordered_map` are visited. -/
class TableOrder where
  visit : List (Bytes × Bytes) → List (Bytes × Bytes)
  perm : ∀ entries, (visit entries).Perm entries

namespace RawConfig

/-- The text of a key. -/
def find (config : RawConfig) (key : Bytes) : Option Bytes := config.values.lookup key

/-- Add a line of the file. -/
def addLine (config : RawConfig) (lineNo : ℕ) (line : Bytes) : Loaded RawConfig :=
  let normalized := trim line
  if normalized = [] ∨ normalized.head? = some 35 then .ok config
  else
    let key := trim (normalized.takeWhile (· != 61))
    let value := trim ((normalized.dropWhile (· != 61)).drop 1)
    if (61 : UInt8) ∉ normalized then
      .error (utf8 "配置第 " ++ toText lineNo ++ utf8 " 行缺少 =")
    else if key = [] then .error (utf8 "配置第 " ++ toText lineNo ++ utf8 " 行键为空")
    else if (config.find key).isSome then .error (utf8 "重复配置键: " ++ key)
    else .ok ⟨config.values ++ [(key, value)]⟩

/-- Add lines of the file; the first one has the number `lineNo`. -/
def addLines (config : RawConfig) : (lineNo : ℕ) → List Bytes → Loaded RawConfig
  | _, [] => .ok config
  | lineNo, line :: rest => do
    let config ← config.addLine lineNo line
    config.addLines (lineNo + 1) rest

/-- The table of a file, `none` if it cannot be opened. -/
def parse (path : Bytes) : Option Bytes → Loaded RawConfig
  | none => .error (utf8 "无法打开配置文件: " ++ path)
  | some text => ({} : RawConfig).addLines 1 (text.splitOn 10)

def getString (config : RawConfig) (key : String) (defaultValue : Bytes) : Bytes :=
  (config.find (ascii key)).getD defaultValue

def getUInt64 (config : RawConfig) (key : String) (defaultValue : ℕ) : Loaded ℕ :=
  match config.find (ascii key) with
  | none => .ok defaultValue
  | some value =>
    if value.head? = some 45 then .error (utf8 "配置 " ++ ascii key ++ utf8 " 不能为负数")
    else match stoull value with
      | none => .error (utf8 "配置 " ++ ascii key ++ utf8 " 不是无符号整数")
      | some (number, parsed) =>
        if parsed ≠ value.length then
          .error (utf8 "配置 " ++ ascii key ++ utf8 " 不是无符号整数")
        else .ok number

/-- Every key is one of the known ones; otherwise the message names the first unknown one in the
order of the table. -/
def requireKnownKeys [TableOrder] (config : RawConfig) (knownKeys : List String) : Loaded Unit :=
  match (TableOrder.visit config.values).find? fun entry =>
      !(knownKeys.map ascii).contains entry.1 with
  | none => .ok ()
  | some entry => .error (utf8 "未知配置键: " ++ entry.1)

/-- Which files pass does not depend on the order of the table. -/
theorem requireKnownKeys_eq_ok_iff [TableOrder] {config : RawConfig} {knownKeys : List String} :
    config.requireKnownKeys knownKeys = .ok () ↔
      ∀ entry ∈ config.values, entry.1 ∈ knownKeys.map ascii := by
  have hall : (∀ entry ∈ TableOrder.visit config.values, entry.1 ∈ knownKeys.map ascii) ↔
      ∀ entry ∈ config.values, entry.1 ∈ knownKeys.map ascii :=
    forall_congr' fun entry => by rw [(TableOrder.perm config.values).mem_iff]
  rw [← hall]
  unfold requireKnownKeys
  split
  · rename_i hnone
    exact ⟨fun _ entry hentry => by simpa using List.find?_eq_none.mp hnone entry hentry,
      fun _ => rfl⟩
  · rename_i entry hsome
    refine ⟨nofun, fun hknown => ?_⟩
    have hunknown := List.find?_some hsome
    simp [hknown entry (List.mem_of_find?_eq_some hsome)] at hunknown

end RawConfig

/-! ### Readers -/

def readSize (config : RawConfig) (key : String) (defaultValue : ℕ) : Loaded ℕ := do
  let value ← config.getUInt64 key defaultValue
  require (value ≤ sizeMax) (utf8 "配置 " ++ ascii key ++ utf8 " 超出 size_t 范围")
  return value

def readUint32 (config : RawConfig) (key : String) (defaultValue : ℕ) : Loaded ℕ := do
  let value ← config.getUInt64 key defaultValue
  require (value ≤ 2 ^ 32 - 1) (utf8 "配置 " ++ ascii key ++ utf8 " 超出 uint32 范围")
  return value

def readPort (config : RawConfig) (key : String) (defaultValue : ℕ) : Loaded ℕ := do
  let value ← config.getUInt64 key defaultValue
  require (value ≠ 0 ∧ value ≤ 65535) (utf8 "配置 " ++ ascii key ++ utf8 " 不是有效端口")
  return value

def readNonEmptyString (config : RawConfig) (key : String) (defaultValue : Bytes) :
    Loaded Bytes := do
  let value := config.getString key defaultValue
  require (value ≠ []) (utf8 "配置 " ++ ascii key ++ utf8 " 不能为空")
  return value

/-- Milliseconds in a day. -/
def kDayMs : ℕ := 24 * 60 * 60 * 1000

def readPositiveMilliseconds (config : RawConfig) (key : String) (defaultValue : ℕ) :
    Loaded ℕ := do
  let value ← config.getUInt64 key defaultValue
  require (value ≠ 0 ∧ value ≤ kDayMs)
    (utf8 "配置 " ++ ascii key ++ utf8 " 必须在 1 毫秒到 24 小时之间")
  return value

/-- The sum of two sizes, unless it overflows. -/
def addChecked (left right : ℕ) (name : String) : Loaded ℕ := do
  require (right ≤ sizeMax - left) (utf8 name ++ utf8 " 容量溢出")
  return (left + right) % 2 ^ 64

/-- The text of a level in a file. -/
def levelText : LogLevel → Bytes
  | .debug => ascii "DEBUG"
  | .info => ascii "INFO"
  | .warn => ascii "WARN"
  | .error => ascii "ERROR"

def readLogLevel (config : RawConfig) (key : String) (defaultValue : LogLevel) :
    Loaded LogLevel :=
  let value := config.getString key (levelText defaultValue)
  if value = levelText .debug then .ok .debug
  else if value = levelText .info then .ok .info
  else if value = levelText .warn then .ok .warn
  else if value = levelText .error then .ok .error
  else .error (utf8 "配置 " ++ ascii key ++ utf8 " 必须是 DEBUG、INFO、WARN 或 ERROR")

variable {config : RawConfig} {key : String} {defaultValue value : ℕ}

theorem readSize_eq_ok (h : readSize config key defaultValue = .ok value) : value ≤ sizeMax := by
  obtain ⟨v, -, h⟩ := loaded_bind_eq_ok.mp h
  obtain ⟨hmax, h⟩ := require_bind_eq_ok.mp h
  cases h
  exact hmax

theorem readPort_eq_ok (h : readPort config key defaultValue = .ok value) :
    value ≠ 0 ∧ value ≤ 65535 := by
  obtain ⟨v, -, h⟩ := loaded_bind_eq_ok.mp h
  obtain ⟨hrange, h⟩ := require_bind_eq_ok.mp h
  cases h
  exact hrange

theorem readNonEmptyString_eq_ok {text defaultText : Bytes}
    (h : readNonEmptyString config key defaultText = .ok text) : text ≠ [] := by
  obtain ⟨hne, h⟩ := require_bind_eq_ok.mp h
  cases h
  exact hne

theorem readPositiveMilliseconds_eq_ok
    (h : readPositiveMilliseconds config key defaultValue = .ok value) :
    value ≠ 0 ∧ value ≤ kDayMs := by
  obtain ⟨v, -, h⟩ := loaded_bind_eq_ok.mp h
  obtain ⟨hrange, h⟩ := require_bind_eq_ok.mp h
  cases h
  exact hrange

/-- A sum that is accepted did not overflow. -/
theorem addChecked_eq_ok {left right sum : ℕ} {name : String} (hleft : left ≤ sizeMax)
    (h : addChecked left right name = .ok sum) : sum = left + right ∧ left + right ≤ sizeMax := by
  obtain ⟨hfits, h⟩ := require_bind_eq_ok.mp h
  cases h
  have hsum : left + right ≤ sizeMax := by omega
  refine ⟨Nat.mod_eq_of_lt ?_, hsum⟩
  unfold sizeMax at hsum
  omega

end AegisFlow
