import MediaHarvest.Json.Decoder
import MediaHarvest.Json.Value
import MediaHarvest.Json.Reader
import MediaHarvest.SortedMap

/-!
# Codecs and record shapes

A `Codec` writes values of one type and reads them back.  The codec of a structure is given by a
`Shape`, which lists its fields once for both directions:

* as an object, members with other names are ignored, a repeated one is refused, the members are
  decoded in the order of the text, and after that missing ones are reported in the order of the
  fields;
* as a list, the items are the fields in order, and only fields with a default may be left out at
  the end.
-/

namespace MediaHarvest.Json

/-- A way to write values of a type and to read them back. -/
structure Codec (α : Type) where
  encode : α → Value
  decode : Decoder α

namespace Codec

/-- Texts. -/
def text : Codec String := ⟨.text, Decoder.text "a string"⟩

/-- Truth values. -/
def bool : Codec Bool := ⟨.bool, Decoder.bool⟩

/-- Numbers of 64 bits. -/
def word64 : Codec UInt64 :=
  ⟨fun n => .natural n.toNat,
    fun source tree => UInt64.ofNat <$> Decoder.below 0x10000000000000000 "u64" source tree⟩

/-- Numbers of 32 bits. -/
def word32 : Codec UInt32 :=
  ⟨fun n => .natural n.toNat,
    fun source tree => UInt32.ofNat <$> Decoder.below 0x100000000 "u32" source tree⟩

/-- Numbers of 16 bits. -/
def word16 : Codec UInt16 :=
  ⟨fun n => .natural n.toNat,
    fun source tree => UInt16.ofNat <$> Decoder.below 0x10000 "u16" source tree⟩

/-- A value or null. -/
def option {α : Type} (item : Codec α) : Codec (Option α) :=
  ⟨.optional item.encode, Decoder.option item.decode⟩

/-- Lists. -/
def list {α : Type} (item : Codec α) : Codec (List α) :=
  ⟨fun values => .list (values.map item.encode), Decoder.list item.decode⟩

/-- Maps from texts, written in ascending order; of several values under one name the last
counts. -/
def map {α : Type} (item : Codec α) : Codec (SortedMap String α) :=
  ⟨fun map => .record (map.entries.map fun entry => (entry.1, item.encode entry.2)),
    fun source tree => SortedMap.ofList <$> Decoder.map item.decode source tree⟩

/-- Named alternatives. -/
def choice {α : Type} (all : List α) (name : α → String) : Codec α :=
  ⟨fun value => .text (name value), Decoder.choice (all.map fun value => (name value, value))⟩

/-- Reads a value that is written as a text of its own form. -/
def parsed {α : Type} (expected : String) (write : α → String)
    (parse : String → Except String α) : Codec α :=
  ⟨fun value => .text (write value), fun source tree => do
    let text ← Decoder.text expected source tree
    match parse text with
    | .ok value => return value
    | .error message => throw (.data (.content message))⟩

end Codec

/-- The fields of a structure: how a whole `σ` writes them, and how they make an `α`. -/
structure Shape (σ α : Type) where
  members : σ → List (String × Value)
  /-- The names in order, each with the check of its value. -/
  fields : List (String × Decoder Unit)
  /-- Builds the result from the values found under the names. -/
  named : Source → (String → Option Tree) → Except Refusal α
  /-- Builds the result from the items of a list: `missing` is what is shown if no item is left at
  a position.  The items that are left over are returned. -/
  listed : Source → (Nat → Refusal) → Nat → List Tree → Except Refusal (α × List Tree)

namespace Shape

variable {σ τ α β : Type}

/-- A field of its own: `absent` stands for a missing member and `short` for a missing item. -/
def field (name : String) (codec : Codec α) (get : σ → α) (absent short : Option α) :
    Shape σ α where
  members := fun whole => [(name, codec.encode (get whole))]
  fields := [(name, fun source tree => do discard <| codec.decode source tree)]
  named := fun source find =>
    match find name, absent with
    | some tree, _ => codec.decode source tree
    | none, some value => pure value
    | none, none => throw (.data (.missingField name))
  listed := fun source missing position items =>
    match items, short with
    | tree :: rest, _ => do return (← codec.decode source tree, rest)
    | [], some value => pure (value, [])
    | [], none => throw (missing position)

/-- A field that has to be there. -/
def required (name : String) (codec : Codec α) (get : σ → α) : Shape σ α :=
  field name codec get none none

/-- A field that may be null or, in an object, missing. -/
def optional (name : String) (codec : Codec α) (get : σ → Option α) : Shape σ (Option α) :=
  field name codec.option get (some none) none

/-- A field with a default. -/
def defaulted (name : String) (codec : Codec α) (get : σ → α) (default : α) : Shape σ α :=
  field name codec get (some default) (some default)

/-- The shape of a part, for a whole that holds it. -/
def via (get : σ → τ) (shape : Shape τ α) : Shape σ α :=
  { shape with members := fun whole => shape.members (get whole) }

instance : Functor (Shape σ) where
  map f shape :=
    { members := shape.members
      fields := shape.fields
      named := fun source find => f <$> shape.named source find
      listed := fun source missing position items => do
        let (value, rest) ← shape.listed source missing position items
        return (f value, rest) }

instance : Seq (Shape σ) where
  seq first second :=
    let second := second ()
    { members := fun whole => first.members whole ++ second.members whole
      fields := first.fields ++ second.fields
      named := fun source find => do
        let f ← first.named source find
        let value ← second.named source find
        return f value
      listed := fun source missing position items => do
        let (f, rest) ← first.listed source missing position items
        let (value, rest) ← second.listed source missing (position + first.fields.length) rest
        return (f value, rest) }

/-- Decodes the members in order: those of a field with its decoder, the others with `other`. -/
def walk (source : Source) (fields : List (String × Decoder Unit))
    (other : Option String → Tree → Except Refusal Unit) :
    List String → List (Option String × Tree) → Except Refusal Unit
  | _, [] => pure ()
  | seen, (name, tree) :: rest => do
      match name with
      | none => throw .malformed
      | some name =>
          match fields.lookup name with
          | none =>
              other name tree
              walk source fields other seen rest
          | some decode =>
              if seen.contains name then throw (.data (.duplicateField name))
              decode source tree
              walk source fields other (name :: seen) rest

/-- The value of the first member with a name. -/
def find (members : List (Option String × Tree)) (name : String) : Option Tree :=
  members.lookup (some name)

/-- A count of elements as messages word it. -/
def elements (count : Nat) : String :=
  if count = 1 then "1 element" else s!"{count} elements"

/-- What is shown for a list with items left over. -/
def leftOver (source : Source) (expected found : Nat) : Refusal :=
  match source with
  | .text => .malformed
  | .plain => .data (.wrongLength found "fewer elements in array")
  | .buffered => .data (.wrongLength found (elements expected ++ " in sequence"))

/-- Decodes a structure from an object or a list. -/
def decode (name : String) (shape : Shape σ α) : Decoder α
  | source, .record deep members ending => do
      shallow source deep
      walk source shape.fields (fun _ tree => sound tree.skip) [] members
      sound ending.read
      shape.named source (find members)
  | source, .list deep items ending => do
      shallow source deep
      let count := shape.fields.length
      let missing (position : Nat) : Refusal :=
        match ending.read with
        | .error fault => fault.refusal
        | .ok () => .data (.wrongLength position s!"struct {name} with {elements count}")
      let (value, rest) ← shape.listed source missing 0 items
      if items.length < count then sound ending.read
      else if rest.isEmpty then sound ending.close
      else throw (leftOver source count items.length)
      return value
  | _, tree => mismatch s!"struct {name}" tree

/-- Decodes an object that holds its own fields and those of a part side by side.  The members
that are not its own are put aside and make the part afterwards. -/
def decodeJoined (name : String) (own : Shape σ (β → α)) (part : Shape σ β) : Decoder α
  | source, .record deep members ending => do
      shallow source deep
      walk source own.fields (fun _ tree => sound tree.check) [] members
      sound ending.read
      let build ← own.named source (find members)
      let others := members.filter fun member =>
        (own.fields.lookup (member.1.getD "")).isNone
      walk .buffered part.fields (fun _ _ => pure ()) [] others
      let value ← part.named .buffered (find others)
      return build value
  | _, tree => mismatch s!"struct {name}" tree

def codec (name : String) (shape : Shape α α) : Codec α :=
  ⟨fun value => .record (shape.members value), shape.decode name⟩

/-- The codec of a structure whose fields stand side by side with those of a part. -/
def joined (name : String) (own : Shape α (β → α)) (part : Shape α β) : Codec α :=
  ⟨fun value => .record (own.members value ++ part.members value), decodeJoined name own part⟩

end Shape

/-- Reads a whole text as a value. -/
def Codec.readText {α : Type} (codec : Codec α) (text : Bytes) : Except Refusal α :=
  (read text).decode codec.decode

/-- Writes the text of a value. -/
def Codec.writeText {α : Type} (codec : Codec α) (value : α) : Bytes :=
  (codec.encode value).bytes

end MediaHarvest.Json
