import MediaHarvest.Json.Codec

/-!
# Where a content was put

In JSON a location is an object with the member `kind` and, for a file, the member `path`; they may
come in either order, and other members are ignored.
-/

namespace MediaHarvest

open MediaHarvest.Json

/-- Where a retrieved content was put. -/
inductive Storage where
  | disk (path : String)
  | memory
deriving DecidableEq, Repr

namespace Storage

/-- A location as messages name it. -/
def describe : Storage → String
  | disk path => path
  | memory => "memory"

/-- The kinds of locations. -/
inductive Kind where
  | disk
  | memory
deriving DecidableEq, Repr

/-- The names of the kinds. -/
def kinds : List (String × Kind) := [("disk", .disk), ("memory", .memory)]

/-- What a location is read from. -/
def expected : String := "adjacently tagged enum StorageLocation"

/-- Writes a location. -/
def encode : Storage → Value
  | disk path => .record [("kind", .text "disk"), ("path", .text path)]
  | memory => .record [("kind", .text "memory")]

/-- Reads the name of a kind. -/
def decodeKind : Decoder Kind := fun source tree => do
  let name ← Decoder.text "variant identifier" source tree
  match kinds.lookup name with
  | some kind => return kind
  | none => throw (.data (.unknownVariant name (kinds.map Prod.fst)))

/-- Reads what belongs to a kind: the path of a file, or null. -/
def decodeContent (kind : Kind) : Decoder Storage := fun source tree =>
  match kind, tree with
  | .disk, _ => disk <$> Decoder.text "path string" source tree
  | .memory, .null => pure memory
  | .memory, .list deep _ _ => do
      shallow source deep
      mismatch "unit variant StorageLocation::Memory" tree
  | .memory, .record deep _ _ => do
      shallow source deep
      mismatch "unit variant StorageLocation::Memory" tree
  | .memory, _ => mismatch "unit variant StorageLocation::Memory" tree

/-- The two members that count. -/
inductive Part where
  | kind
  | path

/-- Passes over the members that do not count, up to the next one that does. -/
def nextPart (ending : Ending) :
    List (Option String × Tree) →
      Except Refusal (Option (Part × Tree × List (Option String × Tree)))
  | [] => do sound ending.read; return none
  | (none, _) :: _ => throw .malformed
  | (some name, tree) :: rest =>
      if name = "kind" then return some (.kind, tree, rest)
      else if name = "path" then return some (.path, tree, rest)
      else do sound tree.skip; nextPart ending rest

/-- After both members none may come again. -/
def finish (ending : Ending) (members : List (Option String × Tree)) (value : Storage) :
    Except Refusal Storage := do
  match ← nextPart ending members with
  | none => return value
  | some (.kind, _) => throw (.data (.duplicateField "kind"))
  | some (.path, _) => throw (.data (.duplicateField "path"))

/-- Reads the members of a location in either order. -/
def decodeMembers (source : Source) (ending : Ending) (members : List (Option String × Tree)) :
    Except Refusal Storage := do
  match ← nextPart ending members with
  | none => throw (.data (.missingField "kind"))
  | some (.kind, tree, rest) =>
      let kind ← decodeKind source tree
      match ← nextPart ending rest with
      | none =>
          match kind with
          | .memory => return memory
          | .disk => throw (.data (.missingField "path"))
      | some (.kind, _) => throw (.data (.duplicateField "kind"))
      | some (.path, tree, rest) => finish ending rest (← decodeContent kind source tree)
  | some (.path, content, rest) =>
      sound content.check
      match ← nextPart ending rest with
      | none => throw (.data (.missingField "kind"))
      | some (.path, _) => throw (.data (.duplicateField "path"))
      | some (.kind, tree, rest) =>
          let kind ← decodeKind source tree
          finish ending rest (← decodeContent kind .buffered content)

/-- Reads a location. -/
def decode : Decoder Storage
  | source, .record deep members ending => do
      shallow source deep
      decodeMembers source ending members
  | source, .list deep items ending => do
      shallow source deep
      let short (count : Nat) : Except Refusal Storage := do
        sound ending.read
        throw (.data (.wrongLength count expected))
      match items with
      | [] => short 0
      | [tag] => do
          let _ ← decodeKind source tag
          short 1
      | tag :: content :: rest => do
          let kind ← decodeKind source tag
          let value ← decodeContent kind source content
          if rest.isEmpty then sound ending.close
          else throw (Shape.leftOver source 2 items.length)
          return value
  | _, tree => mismatch expected tree

def codec : Codec Storage := ⟨encode, decode⟩

end Storage

end MediaHarvest
