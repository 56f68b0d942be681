import MediaHarvest.Number.Real64

/-!
# Given settings

What the sources of settings give: values, lists and groups, each with the name of its source.
Sources are laid over each other: a later value replaces an earlier one, and groups are merged.
-/

namespace MediaHarvest

open MediaHarvest.Number

/-- A single value. -/
inductive Scalar where
  | bool (value : Bool)
  | integer (value : Int)
  | real (value : Real64)
  | text (value : String)
deriving DecidableEq, Repr

/-- What is given for a setting. -/
inductive Given where
  /-- Nothing, at a place that was only made for another one. -/
  | nothing
  | scalar (source : Option String) (value : Scalar)
  | list (source : Option String) (items : List Given)
  /-- A group of settings by their names. -/
  | group (source : Option String) (entries : List (String × Given))
deriving Repr

namespace Given

/-- A group without settings. -/
def empty : Given := group none []

instance : Inhabited Given := ⟨empty⟩

/-- The settings of a group; nothing else has any. -/
def entries : Given → List (String × Given)
  | group _ entries => entries
  | _ => []

/-- The items of a list; nothing else has any. -/
def items : Given → List Given
  | list _ items => items
  | _ => []

/-- The source of what is given. -/
def source? : Given → Option String
  | nothing => none
  | scalar source _ => source
  | list source _ => source
  | group source _ => source

/-! ## Places -/

/-- A step from a setting to a part of it. -/
inductive Step where
  /-- To the setting of a group with a name. -/
  | name (name : String)
  /-- To an item of a list; a negative position counts from the end. -/
  | item (position : Int)
deriving DecidableEq, Repr

/-- The entries with a changed entry; it stands last if it is new. -/
def changeEntry (edit : Given → Given) (name : String) :
    List (String × Given) → List (String × Given)
  | [] => [(name, edit nothing)]
  | entry :: rest =>
      if entry.1 = name then (name, edit entry.2) :: rest
      else entry :: changeEntry edit name rest

/-- A changed entry is found with its change. -/
theorem lookup_changeEntry_self (edit : Given → Given) (name : String)
    (entries : List (String × Given)) :
    (changeEntry edit name entries).lookup name =
      some (edit ((entries.lookup name).getD nothing)) := by
  induction entries with
  | nil => simp [changeEntry]
  | cons entry rest ih =>
      obtain ⟨key, given⟩ := entry
      by_cases same : key = name
      · simp [changeEntry, same]
      · have miss : (name == key) = false := by simpa using Ne.symm same
        simp [changeEntry, List.lookup_cons, same, miss, ih]

/-- Every other entry stays as it is. -/
theorem lookup_changeEntry_ne (edit : Given → Given) {name other : String} (differ : other ≠ name)
    (entries : List (String × Given)) :
    (changeEntry edit name entries).lookup other = entries.lookup other := by
  have miss : (other == name) = false := by simpa using differ
  induction entries with
  | nil => simp [changeEntry, List.lookup_cons, miss]
  | cons entry rest ih =>
      obtain ⟨key, given⟩ := entry
      by_cases same : key = name
      · simp [changeEntry, List.lookup_cons, same, miss]
      · simp [changeEntry, List.lookup_cons, same, ih]

/-- The items up to a position at least, and the position from the front. -/
def reach (position : Int) (items : List Given) : List Given × Nat :=
  if 0 ≤ position then
    (items ++ List.replicate (position.toNat + 1 - items.length) nothing, position.toNat)
  else if -position ≤ items.length then (items, (items.length + position).toNat)
  else (List.replicate ((-position).toNat - items.length) nothing ++ items, 0)

/-- Changes what stands at a place.  What stands in the way of a group or a list gives way. -/
def change (edit : Given → Given) : List Step → Given → Given
  | [], given => edit given
  | .name name :: rest, given =>
      match given with
      | group source entries => group source (changeEntry (change edit rest) name entries)
      | _ => group none (changeEntry (change edit rest) name [])
  | .item position :: rest, given =>
      let (items, index) := reach position given.items
      let source := match given with
        | list source _ => source
        | _ => none
      list source (items.modify index (change edit rest))

/-! ## Layers -/

mutual

/-- What is given by a source laid over earlier ones. -/
def laidOver : Given → Given → Given
  | group _ entries, earlier =>
      entriesLaidOver entries (match earlier with
        | group source earlier => group source earlier
        | _ => empty)
  | given, _ => given

/-- Settings laid over a group. -/
def entriesLaidOver : List (String × Given) → Given → Given
  | [], target => target
  | (name, given) :: rest, target =>
      entriesLaidOver rest (change (laidOver given) [.name name] target)

end

/-- Lays something over what stands at a place. -/
def put (place : List Step) (given earlier : Given) : Given := change (laidOver given) place earlier

/-! ## Reading places -/

/-- Whether a character may stand in a name of a place. -/
def isNameChar (c : Char) : Bool := c.isAlphanum || c = '_' || c = '-'

def name? (chars : List Char) : Option (String × List Char) :=
  let name := chars.takeWhile isNameChar
  if name = [] then none else some (String.ofList name, chars.dropWhile isNameChar)

/-- Reads a position and the bracket behind it. -/
def position? (chars : List Char) : Option (Int × List Char) := do
  let isBlank (c : Char) : Bool := c = ' ' || c = '\t'
  let chars := chars.dropWhile isBlank
  let (negative, chars) := match chars with
    | '-' :: rest => (true, rest)
    | _ => (false, chars)
  let value ← natural? (chars.takeWhile Char.isDigit)
  guard (value < 0x8000000000000000)
  match (chars.dropWhile Char.isDigit).dropWhile isBlank with
  | ']' :: rest => some (if negative then -(value : Int) else value, rest)
  | _ => none

/-- Reads steps: names behind points and positions in brackets. -/
def steps? : Nat → List Char → Option (List Step)
  | _, [] => some []
  | 0, _ :: _ => none
  | fuel + 1, '.' :: rest => do
      let (name, rest) ← name? rest
      return .name name :: (← steps? fuel rest)
  | fuel + 1, '[' :: rest => do
      let (position, rest) ← position? rest
      return .item position :: (← steps? fuel rest)
  | _ + 1, _ :: _ => none

/-- The place that a text names; a text that is no path is a name as a whole. -/
def place (text : String) : List Step :=
  let steps := do
    let (name, rest) ← name? text.toList
    return Step.name name :: (← steps? rest.length rest)
  steps.getD [.name text]

end Given

end MediaHarvest
