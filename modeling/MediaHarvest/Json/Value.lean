import MediaHarvest.Text.Hex

/-!
# JSON values and their text

The values that the library writes, and their compact text.  Members keep the order in which they
are given; numbers are integers.
-/

namespace MediaHarvest.Json

/-- A value to be written. -/
inductive Value where
  | null
  | bool (value : Bool)
  | number (value : Int)
  | text (value : String)
  | list (items : List Value)
  | record (members : List (String × Value))
deriving Repr, Inhabited

namespace Value

/-- A natural number as a value. -/
def natural (n : Nat) : Value := .number n

/-- A missing value is null. -/
def optional {α : Type} (write : α → Value) : Option α → Value
  | none => .null
  | some value => write value

end Value

/-- How a character stands inside quotes: the quote, the backslash and the control characters are
escaped, the latter by a letter where there is one. -/
def escapeChar (c : Char) : List Char :=
  if c = '"' then ['\\', '"']
  else if c = '\\' then ['\\', '\\']
  else if c = '\x08' then ['\\', 'b']
  else if c = '\x0c' then ['\\', 'f']
  else if c = '\n' then ['\\', 'n']
  else if c = '\r' then ['\\', 'r']
  else if c = '\t' then ['\\', 't']
  else if c.toNat < 32 then
    ['\\', 'u', '0', '0', Text.hexDigit (c.toNat / 16), Text.hexDigit (c.toNat % 16)]
  else [c]

/-- A text in quotes. -/
def quote (text : String) : List Char :=
  '"' :: (text.toList.flatMap escapeChar ++ ['"'])

mutual

/-- The characters of a value's compact text. -/
def Value.chars : Value → List Char
  | .null => "null".toList
  | .bool true => "true".toList
  | .bool false => "false".toList
  | .number value => (toString value).toList
  | .text value => quote value
  | .list [] => ['[', ']']
  | .list (first :: rest) => '[' :: (first.chars ++ itemChars rest)
  | .record [] => ['\x7b', '\x7d']
  | .record ((name, first) :: rest) =>
      '\x7b' :: (quote name ++ ':' :: (first.chars ++ memberChars rest))

/-- The items after the first, each behind a comma, and the closing bracket. -/
def itemChars : List Value → List Char
  | [] => [']']
  | item :: rest => ',' :: (item.chars ++ itemChars rest)

/-- The members after the first, each behind a comma, and the closing brace. -/
def memberChars : List (String × Value) → List Char
  | [] => ['\x7d']
  | (name, value) :: rest => ',' :: (quote name ++ ':' :: (value.chars ++ memberChars rest))

end

/-- The compact text of a value. -/
def Value.print (value : Value) : String := String.ofList value.chars

/-- The bytes of a value's compact text. -/
def Value.bytes (value : Value) : Bytes := Text.utf8 value.print

end MediaHarvest.Json
