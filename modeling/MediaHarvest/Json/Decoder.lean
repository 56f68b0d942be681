import MediaHarvest.Json.Document
import MediaHarvest.Text.Quoted

/-!
# Decoding typed values

A decoder takes a tree to a typed value or says why it refuses.  Values come from three sources
that word some refusals differently: the text itself, a value that was read before (`plain`), and
the members that a flattened record has put aside (`buffered`).
-/

namespace MediaHarvest.Json

open MediaHarvest.Number

/-- Where a tree comes from. -/
inductive Source where
  /-- Straight from a text, whose faults are met on the way. -/
  | text
  /-- From a value that was read completely, with the members in order of their names. -/
  | plain
  /-- From the members that a flattened record has put aside. -/
  | buffered
deriving DecidableEq, Repr

/-- Why a well-formed value is refused. -/
inductive DataError where
  /-- A value of another type was expected. -/
  | wrongType (found : Found) (expected : String)
  /-- The type is right, the value is not. -/
  | wrongValue (found : Found) (expected : String)
  /-- A list has too few or too many items. -/
  | wrongLength (found : Nat) (expected : String)
  | missingField (name : String)
  | duplicateField (name : String)
  | unknownVariant (name : String) (known : List String)
  /-- The content of a text is not what its type needs. -/
  | content (message : String)
deriving DecidableEq, Repr

/-- Why a text or value is refused. -/
inductive Refusal where
  | malformed
  | cutOff
  /-- The text is JSON of another shape. -/
  | data (error : DataError)
deriving DecidableEq, Repr

/-- A number as messages show it. -/
def Numeral.describe : Numeral → String
  | .integer value => s!"integer `{value}`"
  | .float negative magnitude =>
      let sign := if negative then "-" else ""
      s!"floating point `{sign}{magnitude.text}`"

/-- A value as messages show it. -/
def Found.describe : Found → String
  | .null => "null"
  | .bool value => s!"boolean `{value}`"
  | .number value => value.describe
  | .text value => "string " ++ Text.cite value
  | .list => "sequence"
  | .record => "map"

/-- The names of the alternatives as messages list them. -/
def listNames : List String → String
  | [] => "there are no variants"
  | [name] => s!"expected `{name}`"
  | [first, second] => s!"expected `{first}` or `{second}`"
  | names => "expected one of " ++ ", ".intercalate (names.map fun name => s!"`{name}`")

/-- The wording of a refused value. -/
def DataError.message : DataError → String
  | .wrongType found expected => s!"invalid type: {found.describe}, expected {expected}"
  | .wrongValue found expected => s!"invalid value: {found.describe}, expected {expected}"
  | .wrongLength found expected => s!"invalid length {found}, expected {expected}"
  | .missingField name => s!"missing field `{name}`"
  | .duplicateField name => s!"duplicate field `{name}`"
  | .unknownVariant name known => s!"unknown variant `{name}`, {listNames known}"
  | .content message => message

/-- The refusal that a fault of the text causes. -/
def Fault.refusal : Fault → Refusal
  | .malformed => .malformed
  | .cutOff => .cutOff

/-- A check of the text as part of a decoder. -/
def sound {α : Type} (result : Except Fault α) : Except Refusal α :=
  result.mapError Fault.refusal

/-- A way to take a tree to a typed value. -/
abbrev Decoder (α : Type) := Source → Tree → Except Refusal α

/-- Refuses a value of the wrong type. -/
def mismatch {α : Type} (expected : String) (tree : Tree) : Except Refusal α := do
  let found ← sound tree.found
  throw (.data (.wrongType found expected))

/-- Refuses a list or object of a text that stands too deep. -/
def shallow (source : Source) (deep : Bool) : Except Refusal Unit :=
  if source = .text ∧ deep then throw .malformed else pure ()

namespace Decoder

/-- A text. -/
def text (expected : String) : Decoder String
  | _, .text (some value) => pure value
  | _, tree => mismatch expected tree

/-- A truth value. -/
def bool : Decoder Bool
  | _, .bool value => pure value
  | _, tree => mismatch "a boolean" tree

/-- A natural number below a bound. -/
def below (bound : Nat) (expected : String) : Decoder Nat
  | _, .number (some (.integer value)) =>
      if 0 ≤ value ∧ value < bound then pure value.toNat
      else throw (.data (.wrongValue (.number (.integer value)) expected))
  | _, tree => mismatch expected tree

/-- Null for a missing value. -/
def option {α : Type} (item : Decoder α) : Decoder (Option α)
  | _, .null => pure none
  | source, tree => some <$> item source tree

/-- Decodes the items of a list from the front. -/
def items {α : Type} (item : Tree → Except Refusal α) : List Tree → Except Refusal (List α)
  | [] => pure []
  | first :: rest => do
      let value ← item first
      let values ← items item rest
      return value :: values

/-- A list of values of one type. -/
def list {α : Type} (item : Decoder α) : Decoder (List α)
  | source, .list deep trees ending => do
      shallow source deep
      let values ← items (item source) trees
      sound ending.read
      return values
  | _, tree => mismatch "a sequence" tree

/-- Decodes the members of an object whose names are free. -/
def entries {α : Type} (item : Tree → Except Refusal α) :
    List (Option String × Tree) → Except Refusal (List (String × α))
  | [] => pure []
  | (none, _) :: _ => throw .malformed
  | (some name, tree) :: rest => do
      let value ← item tree
      let values ← entries item rest
      return (name, value) :: values

/-- An object whose names are free. -/
def map {α : Type} (item : Decoder α) : Decoder (List (String × α))
  | source, .record deep members ending => do
      shallow source deep
      let values ← entries (item source) members
      sound ending.read
      return values
  | _, tree => mismatch "a map" tree

/-- A member that names an alternative has null as its value. -/
def unit : Decoder Unit
  | _, .null => pure ()
  | .buffered, .record _ [] _ => pure ()
  | _, tree => mismatch "unit" tree

/-- One of several named alternatives: the name alone, or an object whose only member has the name
and is null. -/
def choice {α : Type} (alternatives : List (String × α)) : Decoder α :=
  let pick (name : String) : Except Refusal α :=
    match alternatives.lookup name with
    | some value => pure value
    | none => throw (.data (.unknownVariant name (alternatives.map Prod.fst)))
  let named (source : Source) (name : Option String) (value : Tree) : Except Refusal α := do
    match name with
    | none => throw .malformed
    | some name =>
        let chosen ← pick name
        unit source value
        return chosen
  fun source tree =>
    match source, tree with
    | _, .text (some name) => pick name
    | .text, .record deep members ending => do
        shallow .text deep
        match members, ending with
        | [], .misplaced head =>
            let found ← sound head
            throw (.data (.wrongType found "variant identifier"))
        | [], .unclosed met _ => throw met.refusal
        | [], _ => throw .malformed
        | (name, value) :: rest, _ =>
            let chosen ← named .text name value
            if rest.isEmpty then sound ending.close else throw .malformed
            return chosen
    | .text, .absent => throw .cutOff
    | .text, .torn true met _ => throw met.refusal
    | .text, _ => throw .malformed
    | source, .record _ [(name, value)] _ => named source name value
    | _, .record .. => throw (.data (.wrongValue .record "map with a single key"))
    | _, tree => mismatch "string or map" tree

end Decoder

/-! ## Whole texts -/

/-- Decodes a whole text. -/
def Document.decode {α : Type} (decoder : Decoder α) (document : Document) : Except Refusal α := do
  let value ← decoder .text document.root
  if document.clean then return value else throw .malformed

/-- Puts the members of all objects in order of their names, the last of several with one name
standing for all. -/
def insertMember (name : String) (value : Tree) :
    List (Option String × Tree) → List (Option String × Tree)
  | [] => [(some name, value)]
  | (other, tree) :: rest =>
      match other with
      | none => (none, tree) :: insertMember name value rest
      | some key =>
          if name < key then (some name, value) :: (other, tree) :: rest
          else if name = key then (some name, value) :: rest
          else (other, tree) :: insertMember name value rest

mutual

/-- The tree with the members of every object in order of their names, the last of several with
one name standing for all. -/
def Tree.ordered : Tree → Tree
  | .list deep items ending => .list deep (orderedItems items) ending
  | .record deep members ending => .record deep (orderedMembers members []) ending
  | tree => tree

/-- Orders the members within each item. -/
def orderedItems : List Tree → List Tree
  | [] => []
  | item :: rest => item.ordered :: orderedItems rest

/-- Adds the members one after another. -/
def orderedMembers : List (Option String × Tree) → List (Option String × Tree) →
    List (Option String × Tree)
  | [], done => done
  | (none, value) :: rest, done => orderedMembers rest ((none, value) :: done)
  | (some name, value) :: rest, done => orderedMembers rest (insertMember name value.ordered done)

end

/-- Decodes a value that was read completely before. -/
def Tree.decode {α : Type} (decoder : Decoder α) (tree : Tree) : Except Refusal α :=
  decoder .plain tree.ordered

end MediaHarvest.Json
