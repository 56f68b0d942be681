import MediaHarvest.Toml.Quoted
import MediaHarvest.Toml.Scalar
import MediaHarvest.Toml.Value

/-!
# Reading TOML

A document is a sequence of lines.  A line is empty, opens a table or an item of an array of
tables, or gives a value to a key of the table that was opened last.  `Toml.parse?` gives the table
of the whole document; a document that breaks a rule has none.
-/

namespace MediaHarvest.Toml

/-! ## Keys -/

/-- Whether a character may stand in a key without quotes. -/
def isKeyChar (c : Char) : Bool := c.isAlphanum || c = '_' || c = '-'

/-- Reads a part of a key. -/
def keyPart? (chars : List Char) : Option (String × List Char) :=
  match chars with
  | '"' :: rest => do
      let (text, rest) ← readLine? '"' (rest.length + 1) rest
      return (String.ofList text, rest)
  | '\'' :: rest => do
      let (text, rest) ← readLine? '\'' (rest.length + 1) rest
      return (String.ofList text, rest)
  | _ => do
      let name := chars.takeWhile isKeyChar
      guard (name ≠ [])
      return (String.ofList name, chars.dropWhile isKeyChar)

/-- Reads a key, whose parts are separated by points, and the blanks behind it; `fuel` is at least
the number of characters. -/
def key? : Nat → List Char → Option (List String × List Char)
  | 0, _ => none
  | fuel + 1, chars => do
      let (part, rest) ← keyPart? (skipSpace chars)
      match skipSpace rest with
      | '.' :: rest => do
          let (parts, rest) ← key? fuel rest
          return (part :: parts, rest)
      | rest => return ([part], rest)

/-! ## Values -/

/-- Drops a comment at the front. -/
def skipComment? (chars : List Char) : Option (List Char) :=
  match chars with
  | '#' :: rest =>
      let after := rest.dropWhile isPlainChar
      if after = [] ∨ (lineEnd? after).isSome then some after else none
  | _ => some chars

/-- Drops blanks, line endings and comments; `fuel` is at least the number of characters. -/
def skipLines? : Nat → List Char → Option (List Char)
  | 0, chars => some chars
  | fuel + 1, chars => do
      let rest ← skipComment? (skipSpace chars)
      match lineEnd? rest with
      | some rest => skipLines? fuel rest
      | none => return rest

/-- Whether a character ends a scalar. -/
def endsScalar (c : Char) : Bool := [' ', '\t', '\r', '\n', ',', ']', '\x7d', '#'].contains c

/-- The scalar that a text writes. -/
def scalar? (chars : List Char) : Option Value :=
  if chars = "true".toList then some (.bool true)
  else if chars = "false".toList then some (.bool false)
  else
    match integer? chars with
    | some value => some (.integer value)
    | none =>
        match real? chars with
        | some value => some (.real value)
        | none => (moment? chars).map .moment

/-- Splits off the text of a scalar.  A blank may stand between a date and a time of day. -/
def scalarText (chars : List Char) : List Char × List Char :=
  let front := chars.takeWhile fun c => !endsScalar c
  let rest := chars.drop front.length
  match date? front, rest with
  | some (_, []), ' ' :: a :: b :: ':' :: after =>
      if a.isDigit ∧ b.isDigit then
        let time := a :: b :: ':' :: after.takeWhile fun c => !endsScalar c
        (front ++ ' ' :: time, rest.drop (time.length + 1))
      else (front, rest)
  | _, _ => (front, rest)

/-- How deep arrays and tables in braces may be nested. -/
def maxDepth : Nat := 80

mutual

/-- Reads a value; `depth` more levels of arrays and braces may follow. -/
def value? : Nat → Nat → List Char → Option (Value × List Char)
  | 0, _, _ => none
  | fuel + 1, depth, chars =>
      match chars with
      | '"' :: rest => (readText? '"' rest).map fun read => (.text read.1, read.2)
      | '\'' :: rest => (readText? '\'' rest).map fun read => (.text read.1, read.2)
      | '[' :: rest =>
          match depth with
          | 0 => none
          | depth + 1 => do
              let (items, rest) ← items? fuel depth rest
              return (.array false items, rest)
      | '\x7b' :: rest =>
          match depth with
          | 0 => none
          | depth + 1 => do
              let (table, rest) ←
                match skipSpace rest with
                | '\x7d' :: rest => some (Table.new .opened, rest)
                | rest => entries? fuel depth (.new .opened) rest
              return (.table .inline table.entries, rest)
      | _ => do
          let (text, rest) := scalarText chars
          return (← scalar? text, rest)

/-- Reads the items of an array and the bracket behind them. -/
def items? : Nat → Nat → List Char → Option (List Value × List Char)
  | 0, _, _ => none
  | fuel + 1, depth, chars => do
      match ← skipLines? chars.length chars with
      | ']' :: rest => return ([], rest)
      | chars => do
          let (item, rest) ← value? fuel depth chars
          match ← skipLines? rest.length rest with
          | ']' :: rest => return ([item], rest)
          | ',' :: rest => do
              let (items, rest) ← items? fuel depth rest
              return (item :: items, rest)
          | _ => none

/-- Reads the entries of a table in braces and the brace behind them. -/
def entries? : Nat → Nat → Table → List Char → Option (Table × List Char)
  | 0, _, _, _ => none
  | fuel + 1, depth, table, chars => do
      let (keys, rest) ← key? (chars.length + 1) chars
      match rest with
      | '=' :: rest => do
          let (value, rest) ← value? fuel depth (skipSpace rest)
          let table ← table.assign keys value
          match skipSpace rest with
          | '\x7d' :: rest => return (table, rest)
          | ',' :: rest => entries? fuel depth table rest
          | _ => none
      | _ => none

end

/-! ## Documents -/

/-- A document of which some lines were read. -/
structure Draft where
  table : Table
  /-- The header of the table that was opened last. -/
  header : List String
deriving Repr

/-- Reads a line up to its end. -/
def line? (read : Draft) (chars : List Char) : Option (Draft × List Char) :=
  match chars with
  | [] => some (read, [])
  | '#' :: _ => some (read, chars)
  | '\n' :: _ => some (read, chars)
  | '\r' :: _ => some (read, chars)
  | '[' :: '[' :: rest => do
      let (keys, rest) ← key? (rest.length + 1) rest
      match rest with
      | ']' :: ']' :: rest => return (⟨← read.table.openItem keys, keys⟩, rest)
      | _ => none
  | '[' :: rest => do
      let (keys, rest) ← key? (rest.length + 1) rest
      match rest with
      | ']' :: rest => return (⟨← read.table.openTable keys, keys⟩, rest)
      | _ => none
  | _ => do
      let (keys, rest) ← key? (chars.length + 1) chars
      match rest with
      | '=' :: rest => do
          let rest := skipSpace rest
          let (value, rest) ← value? (2 * rest.length + 1) maxDepth rest
          return ({ read with table := ← read.table.assignBelow read.header keys value }, rest)
      | _ => none

/-- Reads lines; `fuel` is at least the number of characters. -/
def lines? : Nat → Draft → List Char → Option Table
  | 0, read, _ => some read.table
  | fuel + 1, read, chars => do
      let (read, rest) ← line? read (skipSpace chars)
      let rest ← skipComment? (skipSpace rest)
      if rest = [] then return read.table
      else lines? fuel read (← lineEnd? rest)

/-- Reads a document. -/
def parse? (text : String) : Option Table :=
  let chars := match text.toList with
    | '\uFEFF' :: rest => rest
    | chars => chars
  lines? (chars.length + 1) ⟨.new .opened, []⟩ chars

end MediaHarvest.Toml
