import MediaHarvest.SortedMap
import MediaHarvest.Wire.Field

/-!
# Messages

A message is described once for both directions: its fields in the order of their numbers, each
with the way to write it and the way to read it onto a message.  Fields with the default value are
not written.  When a field occurs several times, the last number or text counts, lists grow, and
nested messages are read one onto the other.
-/

namespace MediaHarvest.Wire

/-- A field of a message of type `μ`. -/
structure Field (μ : Type) where
  number : Nat
  name : String
  write : μ → Bytes
  /-- Reads the field onto a message; the first argument counts the levels that are left. -/
  read : Nat → Form → μ → Reader μ

/-- The description of messages of type `μ`. -/
structure Message (μ : Type) where
  name : String
  empty : μ
  fields : List (Field μ)

namespace Message

variable {μ : Type}

/-- Writes a message. -/
def write (message : Message μ) (value : μ) : Bytes :=
  message.fields.flatMap fun field => field.write value

/-- Reads one field onto a message. -/
def readField (message : Message μ) (depth : Nat) (value : μ) : Reader μ := fun bytes => do
  let ((number, form), rest) ← readKey bytes
  match message.fields.find? fun field => field.number = number with
  | some field =>
      (field.read depth form value rest).mapError (Fault.within message.name field.name)
  | none => do
      let rest ← skipField (2 * rest.length + 2) depth number form rest
      return (value, rest)

/-- Reads a whole message. -/
def read (message : Message μ) (bytes : Bytes) : Except Fault μ := do
  let (value, _) ←
    readWhile 0 (message.readField depthLimit) (bytes.length + 1) message.empty bytes
  return value

end Message

namespace Field

variable {μ ν : Type}

/-- A text; the empty one is not written. -/
def text (number : Nat) (name : String) (get : μ → String) (set : μ → String → μ) : Field μ where
  number := number
  name := name
  write := fun message =>
    if get message = "" then []
    else key number .lengthDelimited ++ delimited (Text.utf8 (get message))
  read := fun _ form message bytes => do
    let (value, rest) ← readText form bytes
    return (set message value, rest)

/-- A text that may be missing. -/
def optionalText (number : Nat) (name : String) (get : μ → Option String)
    (set : μ → String → μ) : Field μ where
  number := number
  name := name
  write := fun message =>
    match get message with
    | none => []
    | some value => key number .lengthDelimited ++ delimited (Text.utf8 value)
  read := fun _ form message bytes => do
    let (value, rest) ← readText form bytes
    return (set message value, rest)

/-- Texts in order. -/
def texts (number : Nat) (name : String) (get : μ → List String)
    (set : μ → List String → μ) : Field μ where
  number := number
  name := name
  write := fun message =>
    (get message).flatMap fun value => key number .lengthDelimited ++ delimited (Text.utf8 value)
  read := fun _ form message bytes => do
    let (value, rest) ← readText form bytes
    return (set message (get message ++ [value]), rest)

/-- A number in the 64 bits that `ofWord` takes it from; zero is not written. -/
def numeral {α : Type} [DecidableEq α] (zero : α) (toWord : α → UInt64) (ofWord : UInt64 → α)
    (number : Nat) (name : String) (get : μ → α) (set : μ → α → μ) : Field μ where
  number := number
  name := name
  write := fun message =>
    if get message = zero then [] else key number .varint ++ Varint.write (toWord (get message))
  read := fun _ form message bytes => do
    expectForm .varint form
    let (word, rest) ← readNumber bytes
    return (set message (ofWord word), rest)

/-- A number of 64 bits. -/
def word64 : (number : Nat) → (name : String) → (get : μ → UInt64) → (set : μ → UInt64 → μ) →
    Field μ :=
  Field.numeral 0 id id

/-- A number of 32 bits; of a longer one the low bits count. -/
def word32 : (number : Nat) → (name : String) → (get : μ → UInt32) → (set : μ → UInt32 → μ) →
    Field μ :=
  Field.numeral 0 UInt32.toUInt64 UInt64.toUInt32

/-- A signed number of 64 bits. -/
def signed64 : (number : Nat) → (name : String) → (get : μ → Int64) → (set : μ → Int64 → μ) →
    Field μ :=
  Field.numeral 0 Int64.toUInt64 UInt64.toInt64

/-- The bits of an enumeration's number, extended by its sign. -/
def codeWord (code : Int32) : UInt64 := code.toInt64.toUInt64

/-- The number of an enumeration; of a longer one the low bits count. -/
def codeOfWord (word : UInt64) : Int32 := word.toUInt32.toInt32

/-- The number of an enumeration. -/
def code : (number : Nat) → (name : String) → (get : μ → Int32) → (set : μ → Int32 → μ) →
    Field μ :=
  Field.numeral 0 codeWord codeOfWord

/-- A number of 32 bits that may be missing. -/
def optionalWord32 (number : Nat) (name : String) (get : μ → Option UInt32)
    (set : μ → UInt32 → μ) : Field μ where
  number := number
  name := name
  write := fun message =>
    match get message with
    | none => []
    | some value => key number .varint ++ Varint.write value.toUInt64
  read := fun _ form message bytes => do
    expectForm .varint form
    let (word, rest) ← readNumber bytes
    return (set message word.toUInt32, rest)

/-- Numbers of an enumeration in order.  They are written together behind their length, and read
together or one by one. -/
def codes (number : Nat) (name : String) (get : μ → List Int32) (set : μ → List Int32 → μ) :
    Field μ where
  number := number
  name := name
  write := fun message =>
    if get message = [] then []
    else key number .lengthDelimited ++
      delimited ((get message).flatMap fun code => Varint.write (codeWord code))
  read := fun _ form message bytes => do
    let one (values : List Int32) : Reader (List Int32) := fun bytes => do
      let (word, rest) ← readNumber bytes
      return (values ++ [codeOfWord word], rest)
    if form = .lengthDelimited then
      let (values, rest) ← readParts one (get message) bytes
      return (set message values, rest)
    else
      expectForm .varint form
      let (values, rest) ← one (get message) bytes
      return (set message values, rest)

/-- One entry of a map as a message of its own: the key is field one, the value field two, and an
empty one is not written. -/
def entry (entry : String × String) : Bytes :=
  (if entry.1 = "" then [] else key 1 .lengthDelimited ++ delimited (Text.utf8 entry.1)) ++
    (if entry.2 = "" then [] else key 2 .lengthDelimited ++ delimited (Text.utf8 entry.2))

/-- Reads one field of an entry. -/
def readEntryField (depth : Nat) (entry : String × String) : Reader (String × String) :=
  fun bytes => do
    let ((number, form), rest) ← readKey bytes
    if number = 1 then
      let (text, rest) ← readText form rest
      return ((text, entry.2), rest)
    else if number = 2 then
      let (text, rest) ← readText form rest
      return ((entry.1, text), rest)
    else
      let rest ← skipField (2 * rest.length + 2) depth number form rest
      return (entry, rest)

/-- A map of texts, written in the order of its keys.  Its form is not checked. -/
def map (number : Nat) (name : String) (get : μ → SortedMap String String)
    (set : μ → SortedMap String String → μ) : Field μ where
  number := number
  name := name
  write := fun message =>
    (get message).entries.flatMap fun item =>
      key number .lengthDelimited ++ delimited (entry item)
  read := fun depth _ message bytes => do
    expectDepth depth
    let (item, rest) ← readParts (readEntryField (depth - 1)) ("", "") bytes
    return (set message ((get message).insert item.1 item.2), rest)

/-- A nested message that may be missing. -/
def message (number : Nat) (name : String) (inner : Message ν) (get : μ → Option ν)
    (set : μ → ν → μ) : Field μ where
  number := number
  name := name
  write := fun message =>
    match get message with
    | none => []
    | some value => key number .lengthDelimited ++ delimited (inner.write value)
  read := fun depth form message bytes => do
    expectForm .lengthDelimited form
    expectDepth depth
    let start := (get message).getD inner.empty
    let (value, rest) ← readParts (inner.readField (depth - 1)) start bytes
    return (set message value, rest)

end Field

end MediaHarvest.Wire
