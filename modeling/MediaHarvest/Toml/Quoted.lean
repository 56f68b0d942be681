import MediaHarvest.Text.Hex

/-!
# Texts in TOML

A text stands in single or double quotes, and may span lines if the quotes stand three times.  Only
double quotes know escapes.
-/

namespace MediaHarvest.Toml

/-- Whether a character may stand in a comment or in a text of one line. -/
def isPlainChar (c : Char) : Bool := c = '\t' || (' ' ≤ c && c ≠ Char.ofNat 127)

/-- Splits off a line ending. -/
def lineEnd? : List Char → Option (List Char)
  | '\n' :: rest => some rest
  | '\r' :: '\n' :: rest => some rest
  | _ => none

/-- Whether a character is a blank within a line. -/
def isSpace (c : Char) : Bool := c = ' ' || c = '\t'

/-- Drops the blanks at the front. -/
def skipSpace (chars : List Char) : List Char := chars.dropWhile isSpace

/-- The character that a number stands for; half of a pair stands for none. -/
def charOf? (n : Nat) : Option Char := if n.isValidChar then some (Char.ofNat n) else none

/-- Reads a character by a fixed number of hexadecimal digits. -/
def hexChar? (count : Nat) (chars : List Char) : Option (Char × List Char) := do
  let digits := chars.take count
  guard (digits.length = count)
  let value ← digits.foldlM
    (fun value c => (Text.hexValue? c.toUInt8).bind fun digit =>
      if c.toNat < 128 then some (16 * value + digit) else none) 0
  return (← charOf? value, chars.drop count)

/-- Reads what stands behind a backslash. -/
def escape? (chars : List Char) : Option (Char × List Char) :=
  match chars with
  | 'b' :: rest => some (Char.ofNat 8, rest)
  | 't' :: rest => some ('\t', rest)
  | 'n' :: rest => some ('\n', rest)
  | 'f' :: rest => some (Char.ofNat 12, rest)
  | 'r' :: rest => some ('\r', rest)
  | '"' :: rest => some ('"', rest)
  | '\\' :: rest => some ('\\', rest)
  | 'u' :: rest => hexChar? 4 rest
  | 'U' :: rest => hexChar? 8 rest
  | _ => none

/-- Reads a text of one line in the given quotes, up to the closing one; `fuel` is at least the
number of characters. -/
def readLine? (quote : Char) : Nat → List Char → Option (List Char × List Char)
  | 0, _ => none
  | _ + 1, [] => none
  | fuel + 1, c :: rest =>
      if c = quote then some ([], rest)
      else if c = '\\' ∧ quote = '"' then do
        let (escaped, rest) ← escape? rest
        let (text, rest) ← readLine? quote fuel rest
        return (escaped :: text, rest)
      else do
        guard (isPlainChar c)
        let (text, rest) ← readLine? quote fuel rest
        return (c :: text, rest)

/-- Drops blanks and line endings at the front; `fuel` is at least the number of characters. -/
def skipBlankLines : Nat → List Char → List Char
  | 0, chars => chars
  | fuel + 1, chars =>
      match lineEnd? chars with
      | some rest => skipBlankLines fuel rest
      | none =>
          match chars with
          | c :: rest => if isSpace c then skipBlankLines fuel rest else chars
          | [] => []

/-- Reads a text of several lines up to three closing quotes, before which one or two more may
stand; `fuel` is at least the number of characters. -/
def readLines? (quote : Char) : Nat → List Char → Option (List Char × List Char)
  | 0, _ => none
  | _ + 1, [] => none
  | fuel + 1, c :: rest =>
      let quotes := (c :: rest).takeWhile (· = quote)
      if 3 ≤ quotes.length then do
        guard (quotes.length ≤ 5)
        return (quotes.drop 3, (c :: rest).drop quotes.length)
      else
        match lineEnd? (c :: rest) with
        | some after => do
            let ending := (c :: rest).take ((c :: rest).length - after.length)
            let (text, rest) ← readLines? quote fuel after
            return (ending ++ text, rest)
        | none =>
            if c = '\\' ∧ quote = '"' then
              match lineEnd? (skipSpace rest) with
              | some after => readLines? quote fuel (skipBlankLines after.length after)
              | none => do
                  let (escaped, rest) ← escape? rest
                  let (text, rest) ← readLines? quote fuel rest
                  return (escaped :: text, rest)
            else do
              guard (isPlainChar c)
              let (text, rest) ← readLines? quote fuel rest
              return (c :: text, rest)

/-- Reads a text behind its first quote. -/
def readText? (quote : Char) (chars : List Char) : Option (String × List Char) := do
  let tripled := match chars with
    | second :: third :: rest => if second = quote ∧ third = quote then some rest else none
    | _ => none
  let (text, rest) ← match tripled with
    | some rest =>
        let body := (lineEnd? rest).getD rest
        readLines? quote (body.length + 1) body
    | none => readLine? quote (chars.length + 1) chars
  return (String.ofList text, rest)

end MediaHarvest.Toml
