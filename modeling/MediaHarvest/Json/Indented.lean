import MediaHarvest.Json.Value

/-!
# Indented text

The text of a value for a reader: every item and member on a line of its own, two blanks deeper
than what holds it.
-/

namespace MediaHarvest.Json

/-- A new line at a depth. -/
def newLine (depth : Nat) : List Char := '\n' :: List.replicate (2 * depth) ' '

mutual

/-- The characters of a value's indented text. -/
def Value.indentedChars (depth : Nat) : Value → List Char
  | .list (first :: rest) =>
      '[' :: (newLine (depth + 1) ++ first.indentedChars (depth + 1) ++
        indentedItems depth rest)
  | .record ((name, first) :: rest) =>
      '\x7b' :: (newLine (depth + 1) ++ quote name ++ ':' :: ' ' ::
        first.indentedChars (depth + 1) ++ indentedMembers depth rest)
  | value => value.chars

/-- The items after the first, and the closing bracket. -/
def indentedItems (depth : Nat) : List Value → List Char
  | [] => newLine depth ++ [']']
  | item :: rest =>
      ',' :: (newLine (depth + 1) ++ item.indentedChars (depth + 1) ++ indentedItems depth rest)

/-- The members after the first, and the closing brace. -/
def indentedMembers (depth : Nat) : List (String × Value) → List Char
  | [] => newLine depth ++ ['\x7d']
  | (name, value) :: rest =>
      ',' :: (newLine (depth + 1) ++ quote name ++ ':' :: ' ' ::
        value.indentedChars (depth + 1) ++ indentedMembers depth rest)

end

/-- The indented text of a value. -/
def Value.indented (value : Value) : String := String.ofList (value.indentedChars 0)

end MediaHarvest.Json
