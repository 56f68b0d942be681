import MediaHarvest.Wire.Varint

/-!
# Keys, lengths and unknown fields

A message is a sequence of fields, each behind a key: the field's number and the form in which its
value is written.  This module reads and writes keys and values of each form, and passes over
fields that a message does not know.  A reader gets all the bytes that are left, also those beyond
the end of a nested message; the end is checked between the fields.
-/

namespace MediaHarvest.Wire

/-- The form in which a value is written. -/
inductive Form where
  | varint
  /-- Eight bytes. -/
  | sixtyFourBit
  /-- A length and as many bytes. -/
  | lengthDelimited
  /-- Fields up to the end of the group. -/
  | startGroup
  | endGroup
  /-- Four bytes. -/
  | thirtyTwoBit
deriving DecidableEq, Repr

namespace Form

/-- The number of a form within a key. -/
def code : Form → Nat
  | varint => 0
  | sixtyFourBit => 1
  | lengthDelimited => 2
  | startGroup => 3
  | endGroup => 4
  | thirtyTwoBit => 5

/-- The form with a number. -/
def ofCode? : Nat → Option Form
  | 0 => some varint
  | 1 => some sixtyFourBit
  | 2 => some lengthDelimited
  | 3 => some startGroup
  | 4 => some endGroup
  | 5 => some thirtyTwoBit
  | _ => none

def name : Form → String
  | varint => "Varint"
  | sixtyFourBit => "SixtyFourBit"
  | lengthDelimited => "LengthDelimited"
  | startGroup => "StartGroup"
  | endGroup => "EndGroup"
  | thirtyTwoBit => "ThirtyTwoBit"

end Form

/-- Why bytes are not a message. -/
inductive Cause where
  /-- A number does not end within ten bytes, is beyond 64 bits, or is cut off. -/
  | invalidVarint
  | invalidKey (key : UInt64)
  | invalidForm (code : Nat)
  /-- A field has the number zero. -/
  | invalidNumber
  | wrongForm (actual expected : Form)
  /-- A value is longer than what is left. -/
  | underflow
  /-- The fields of a nested message run beyond its end. -/
  | lengthExceeded
  /-- A group ends that was not begun. -/
  | unexpectedEndGroup
  /-- A text is not UTF-8. -/
  | notText
  /-- Messages or groups are nested too deep. -/
  | tooDeep
deriving DecidableEq, Repr

/-- The wording of a cause. -/
def Cause.message : Cause → String
  | .invalidVarint => "invalid varint"
  | .invalidKey key => s!"invalid key value: {key}"
  | .invalidForm code => s!"invalid wire type value: {code}"
  | .invalidNumber => "invalid tag value: 0"
  | .wrongForm actual expected => s!"invalid wire type: {actual.name} (expected {expected.name})"
  | .underflow => "buffer underflow"
  | .lengthExceeded => "delimited length exceeded"
  | .unexpectedEndGroup => "unexpected end group tag"
  | .notText => "invalid string value: data is not UTF-8 encoded"
  | .tooDeep => "recursion limit reached"

/-- A cause with the fields in which it occurred, the innermost first. -/
structure Fault where
  /-- The message and the field of each level. -/
  path : List (String × String)
  cause : Cause
deriving DecidableEq, Repr

namespace Fault

/-- The fault within a field of a message. -/
def within (message field : String) (fault : Fault) : Fault :=
  { fault with path := fault.path ++ [(message, field)] }

/-- The wording of a fault. -/
def text (fault : Fault) : String :=
  "failed to decode Protobuf message: " ++
    String.join (fault.path.map fun level => s!"{level.1}.{level.2}: ") ++ fault.cause.message

end Fault

/-- Takes a value off the front of the bytes. -/
abbrev Reader (α : Type) := Bytes → Except Fault (α × Bytes)

/-- Refuses with a cause of no field in particular. -/
def refuse {α : Type} (cause : Cause) : Except Fault α := .error ⟨[], cause⟩

/-- Reads a number. -/
def readNumber : Reader UInt64 := fun bytes =>
  match Varint.read bytes with
  | some result => .ok result
  | none => refuse .invalidVarint

/-- Writes the key of a field. -/
def key (number : Nat) (form : Form) : Bytes := Varint.write (UInt64.ofNat (number * 8 + form.code))

/-- Reads a key. -/
def readKey : Reader (Nat × Form) := fun bytes => do
  let (key, rest) ← readNumber bytes
  if 0x100000000 ≤ key.toNat then refuse (.invalidKey key)
  else match Form.ofCode? (key.toNat % 8) with
    | none => refuse (.invalidForm (key.toNat % 8))
    | some form =>
        if key.toNat / 8 = 0 then refuse .invalidNumber
        else .ok ((key.toNat / 8, form), rest)

/-- Checks the form of a field. -/
def expectForm (expected actual : Form) : Except Fault Unit :=
  if actual = expected then .ok () else refuse (.wrongForm actual expected)

/-- The number of nested messages and groups that are read. -/
def depthLimit : Nat := 100

/-- Checks that one more level may be read; `depth` counts the levels that are left. -/
def expectDepth (depth : Nat) : Except Fault Unit :=
  if depth = 0 then refuse .tooDeep else .ok ()

/-- Drops as many bytes as a value has. -/
def skipBytes (count : Nat) (bytes : Bytes) : Except Fault Bytes :=
  if bytes.length < count then refuse .underflow else .ok (bytes.drop count)

mutual

/-- Passes over a field that is not known. -/
def skipField (fuel depth number : Nat) (form : Form) (bytes : Bytes) : Except Fault Bytes :=
  match fuel with
  | 0 => refuse .invalidVarint
  | fuel + 1 => do
      expectDepth depth
      match form with
      | .varint => do
          let (_, rest) ← readNumber bytes
          return rest
      | .thirtyTwoBit => skipBytes 4 bytes
      | .sixtyFourBit => skipBytes 8 bytes
      | .lengthDelimited => do
          let (length, rest) ← readNumber bytes
          skipBytes length.toNat rest
      | .startGroup => skipGroup fuel depth number bytes
      | .endGroup => refuse .unexpectedEndGroup

/-- Passes over the fields of a group up to its end. -/
def skipGroup (fuel depth number : Nat) (bytes : Bytes) : Except Fault Bytes :=
  match fuel with
  | 0 => refuse .invalidVarint
  | fuel + 1 => do
      let ((inner, form), rest) ← readKey bytes
      match form with
      | .endGroup => if inner = number then return rest else refuse .unexpectedEndGroup
      | _ => do
          let rest ← skipField fuel (depth - 1) inner form rest
          skipGroup fuel depth number rest

end

/-- Reads fields onto a value while more than `limit` bytes are left. -/
def readWhile {α : Type} (limit : Nat) (step : α → Reader α) : Nat → α → Reader α
  | 0, _, _ => refuse .invalidVarint
  | fuel + 1, value, bytes =>
      if bytes.length ≤ limit then .ok (value, bytes)
      else do
        let (value, rest) ← step value bytes
        readWhile limit step fuel value rest

/-- Reads a length and onto a value the parts that fill it. -/
def readParts {α : Type} (step : α → Reader α) (value : α) : Reader α := fun bytes => do
  let (length, rest) ← readNumber bytes
  if rest.length < length.toNat then refuse .underflow
  else
    let limit := rest.length - length.toNat
    let (value, left) ← readWhile limit step (rest.length + 1) value rest
    if left.length = limit then return (value, left) else refuse .lengthExceeded

/-- Writes bytes behind their length. -/
def delimited (bytes : Bytes) : Bytes := Varint.write (UInt64.ofNat bytes.length) ++ bytes

/-- Reads bytes behind their length. -/
def readDelimited : Reader Bytes := fun bytes => do
  let (length, rest) ← readNumber bytes
  if rest.length < length.toNat then refuse .underflow
  else return (rest.take length.toNat, rest.drop length.toNat)

/-- Reads a text behind its length. -/
def readText (form : Form) : Reader String := fun bytes => do
  expectForm .lengthDelimited form
  let (content, rest) ← readDelimited bytes
  match Text.ofUtf8? content with
  | some text => return (text, rest)
  | none => refuse .notText

end MediaHarvest.Wire
