import MediaHarvest.Json.Document
import MediaHarvest.Text.Hex

/-!
# Reading a JSON text

One pass over the bytes of a text builds its tree.  Reading stops at the first place that even
skipping could not pass; everything before it is kept.  The recursion is on a count of steps that
`read` computes from the length of the text.
-/

namespace MediaHarvest.Json

open MediaHarvest.Number

/-- The byte of an ASCII character. -/
def byte (c : Char) : UInt8 := c.toUInt8

/-- Space, tab, line feed and carriage return. -/
def isSpace (b : UInt8) : Bool := b == 32 || b == 9 || b == 10 || b == 13

/-- An ASCII digit. -/
def isDigit (b : UInt8) : Bool := 48 ≤ b && b ≤ 57

/-- Drops the blanks in front. -/
def skipSpace (bytes : Bytes) : Bytes := bytes.dropWhile isSpace

/-! ## Quoted text -/

/-- The value of four hexadecimal digits. -/
def hexWord? (a b c d : UInt8) : Option Nat := do
  let a ← Text.hexValue? a
  let b ← Text.hexValue? b
  let c ← Text.hexValue? c
  let d ← Text.hexValue? d
  return ((a * 16 + b) * 16 + c) * 16 + d

/-- The byte that a one-letter escape stands for. -/
def escaped? (letter : UInt8) : Option UInt8 :=
  if letter = byte '"' ∨ letter = byte '\\' ∨ letter = byte '/' then some letter
  else if letter = byte 'b' then some 8
  else if letter = byte 'f' then some 12
  else if letter = byte 'n' then some 10
  else if letter = byte 'r' then some 13
  else if letter = byte 't' then some 9
  else none

/-- Passes over a text behind its opening quote, up to and with the closing one. -/
def skipQuoted : Bytes → Except Fault Bytes
  | [] => .error .cutOff
  | b :: rest =>
      if b = byte '"' then .ok rest
      else if b = byte '\\' then
        match rest with
        | [] => .error .cutOff
        | letter :: more =>
            if letter = byte 'u' then
              match more with
              | h₁ :: h₂ :: h₃ :: h₄ :: more =>
                  if (hexWord? h₁ h₂ h₃ h₄).isSome then skipQuoted more else .error .malformed
              | _ => .error .cutOff
            else if (escaped? letter).isSome then skipQuoted more
            else .error .malformed
      else if b < 32 then .error .malformed
      else skipQuoted rest

/-- The UTF-8 bytes of a code point. -/
def codePoint (n : Nat) : Bytes := Text.utf8 (String.singleton (Char.ofNat n))

/-- Puts bytes in front of what the rest of a text holds. -/
def held (front : Bytes) (rest : Except Fault (Bytes × Bytes)) : Except Fault (Bytes × Bytes) :=
  rest.map fun (content, left) => (front ++ content, left)

/-- Reads a text behind its opening quote: the bytes that it holds, and what follows the closing
quote.  Escapes above the basic plane come as a high and a low surrogate. -/
def readQuoted : Bytes → Except Fault (Bytes × Bytes)
  | [] => .error .cutOff
  | b :: rest =>
      if b = byte '"' then .ok ([], rest)
      else if b = byte '\\' then
        match rest with
        | [] => .error .cutOff
        | letter :: more =>
            if letter = byte 'u' then
              match more with
              | h₁ :: h₂ :: h₃ :: h₄ :: more =>
                  match hexWord? h₁ h₂ h₃ h₄ with
                  | none => .error .malformed
                  | some high =>
                      if 0xDC00 ≤ high ∧ high ≤ 0xDFFF then .error .malformed
                      else if 0xD800 ≤ high ∧ high ≤ 0xDBFF then
                        match more with
                        | [] => .error .cutOff
                        | slash :: more =>
                            if slash ≠ byte '\\' then .error .malformed
                            else match more with
                              | [] => .error .cutOff
                              | mark :: more =>
                                  if mark ≠ byte 'u' then .error .malformed
                                  else match more with
                                    | l₁ :: l₂ :: l₃ :: l₄ :: more =>
                                        match hexWord? l₁ l₂ l₃ l₄ with
                                        | none => .error .malformed
                                        | some low =>
                                            if 0xDC00 ≤ low ∧ low ≤ 0xDFFF then
                                              held (codePoint (0x10000 +
                                                (high - 0xD800) * 0x400 + (low - 0xDC00)))
                                                (readQuoted more)
                                            else .error .malformed
                                    | _ => .error .cutOff
                      else held (codePoint high) (readQuoted more)
              | _ => .error .cutOff
            else match escaped? letter with
              | some value => held [value] (readQuoted more)
              | none => .error .malformed
      else if b < 32 then .error .malformed
      else held [b] (readQuoted rest)

/-- The text that a quoted part holds, if its escapes and bytes make characters. -/
def quotedText? (bytes : Bytes) : Option String :=
  match readQuoted bytes with
  | .ok (content, _) => Text.ofUtf8? content
  | .error _ => none

/-- The fault that a quoted part shows when it is read. -/
def quotedFault (bytes : Bytes) : Fault :=
  match readQuoted bytes with
  | .ok _ => .malformed
  | .error fault => fault

/-! ## Numbers -/

/-- Takes digits into a significand while it stays within 64 bits; the count says how many are
left over. -/
def takeDigits : Nat → Bytes → Nat × Nat
  | significand, [] => (significand, 0)
  | significand, b :: rest =>
      let next := 10 * significand + (b.toNat - 48)
      if maxWord < next then (significand, rest.length + 1) else takeDigits next rest

/-- The power of ten as a binary magnitude. -/
def powerOfTen (n : Nat) : Binary64 := (Binary64.ofDecimal? 1 n).getD .zero

/-- Scales a magnitude by a power of ten, in steps within the range of such powers. -/
def scaleByTen : Nat → Binary64 → Int → Option Binary64
  | 0, _, _ => none
  | fuel + 1, magnitude, exponent =>
      if magnitude.significand = 0 then some .zero
      else if exponent.natAbs ≤ 308 then
        if 0 ≤ exponent then magnitude.mul? (powerOfTen exponent.natAbs)
        else magnitude.div? (powerOfTen exponent.natAbs)
      else if 0 ≤ exponent then none
      else do scaleByTen fuel (← magnitude.div? (powerOfTen 308)) (exponent + 308)

/-- The number of a numeral in parts.  Whole numbers within 64 bits are kept exactly; of any other
number the leading digits are taken and scaled. -/
def numeral? (negative : Bool) (whole fraction : Bytes) (exponent : Option Int) : Option Numeral :=
  let (lead, left) := takeDigits 0 whole
  let float (significand : Nat) (scale : Int) : Option Numeral := do
    let magnitude ← Binary64.ofNat? significand
    return .float negative (← scaleByTen 4 magnitude scale)
  if fraction = [] ∧ exponent = none then
    if 0 < left then float lead left
    else if negative then
      if lead = 0 ∨ 0x8000000000000000 < lead then float lead 0 else some (.integer (-lead))
    else some (.integer lead)
  else
    let (significand, dropped) := takeDigits lead fraction
    float significand (left - (fraction.length - dropped : Nat) + exponent.getD 0)

/-- A run of digits and what follows it. -/
def digits (bytes : Bytes) : Bytes × Bytes :=
  (bytes.takeWhile isDigit, bytes.dropWhile isDigit)

/-- What is shown where a digit is missing. -/
def missingDigit : Bytes → Tree × Option Bytes
  | [] => (.torn false .cutOff .malformed, none)
  | _ => (.torn false .malformed .malformed, none)

/-- Reads the exponent of a number, if there is one, and builds the number. -/
def readExponent (negative : Bool) (whole fraction rest : Bytes) : Tree × Option Bytes :=
  match rest with
  | mark :: more =>
      if mark = byte 'e' ∨ mark = byte 'E' then
        let (minus, more) := match more with
          | sign :: tail =>
              if sign = byte '-' then (true, tail)
              else if sign = byte '+' then (false, tail)
              else (false, more)
          | [] => (false, [])
        let (run, left) := digits more
        if run = [] then missingDigit left
        else
          let size : Int := ofDigits (run.map fun b => Char.ofNat b.toNat)
          (.number (numeral? negative whole fraction (some (if minus then -size else size))),
            some left)
      else (.number (numeral? negative whole fraction none), some rest)
  | [] => (.number (numeral? negative whole fraction none), some rest)

/-- Reads a number behind its sign. -/
def readNumber (negative : Bool) (bytes : Bytes) : Tree × Option Bytes :=
  let (whole, rest) := digits bytes
  match whole with
  | [] => missingDigit rest
  | first :: more =>
      if first = byte '0' ∧ more ≠ [] then (.torn false .malformed .malformed, none)
      else match rest with
        | point :: tail =>
            if point = byte '.' then
              let (fraction, rest) := digits tail
              if fraction = [] then missingDigit rest
              else readExponent negative whole fraction rest
            else readExponent negative whole [] rest
        | [] => readExponent negative whole [] rest

/-! ## Values -/

/-- Reads the rest of a literal. -/
def readLiteral (value : Tree) : List Char → Bytes → Tree × Option Bytes
  | [], rest => (value, some rest)
  | _, [] => (.torn false .cutOff .cutOff, none)
  | c :: more, b :: rest =>
      if b = byte c then readLiteral value more rest else (.torn false .malformed .malformed, none)

/-- Reads a text behind its opening quote. -/
def readText (bytes : Bytes) : Tree × Option Bytes :=
  match skipQuoted bytes with
  | .error skipped => (.torn true (quotedFault bytes) skipped, none)
  | .ok rest => (.text (quotedText? bytes), some rest)

/-- Reads a value that is neither a list nor an object. -/
def readScalar (bytes : Bytes) : Tree × Option Bytes :=
  match bytes with
  | [] => (.absent, none)
  | b :: rest =>
      if b = byte 'n' then readLiteral .null "ull".toList rest
      else if b = byte 't' then readLiteral (.bool true) "rue".toList rest
      else if b = byte 'f' then readLiteral (.bool false) "alse".toList rest
      else if b = byte '"' then readText rest
      else if b = byte '-' then readNumber true rest
      else if isDigit b then readNumber false bytes
      else (.torn false .malformed .malformed, none)

/-- What stands where the first name of an object should. -/
def readHead (bytes : Bytes) : Except Fault Found :=
  match bytes with
  | [] => .error .cutOff
  | b :: _ =>
      if b = byte '[' then .ok .list
      else if b = byte '\x7b' then .ok .record
      else (readScalar bytes).1.found

/-- The number of open lists and objects that a reader of values refuses. -/
def depthLimit : Nat := 128

mutual

/-- Reads a value with `depth` lists and objects open around it.  What follows is given only if
the value ended properly. -/
def readValue (fuel depth : Nat) (bytes : Bytes) : Tree × Option Bytes :=
  match fuel with
  | 0 => (.torn false .malformed .malformed, none)
  | fuel + 1 =>
      let bytes := skipSpace bytes
      let deep := decide (depthLimit ≤ depth + 1)
      match bytes with
      | [] => (.absent, none)
      | b :: rest =>
          if b = byte '[' then
            let (items, ending, left) := readItems fuel (depth + 1) true rest
            (.list deep items ending, left)
          else if b = byte '\x7b' then
            let (members, ending, left) := readMembers fuel (depth + 1) true rest
            (.record deep members ending, left)
          else readScalar bytes

/-- Reads the items of a list behind the opening bracket or behind an item. -/
def readItems (fuel depth : Nat) (first : Bool) (bytes : Bytes) :
    List Tree × Ending × Option Bytes :=
  match fuel with
  | 0 => ([], .unclosed .malformed .malformed, none)
  | fuel + 1 =>
      let item (bytes : Bytes) : List Tree × Ending × Option Bytes :=
        match readValue fuel depth bytes with
        | (value, none) => ([value], .unclosed .malformed .malformed, none)
        | (value, some rest) =>
            let (items, ending, left) := readItems fuel depth false rest
            (value :: items, ending, left)
      match skipSpace bytes with
      | [] => ([], .unclosed .cutOff .cutOff, none)
      | b :: rest =>
          if b = byte ']' then ([], .closed, some rest)
          else if first then item (b :: rest)
          else if b = byte ',' then
            match skipSpace rest with
            | [] => ([], .dangling .cutOff, none)
            | next :: more =>
                if next = byte ']' then ([], .dangling .malformed, none)
                else item (next :: more)
          else ([], .unclosed .malformed .malformed, none)

/-- Reads the members of an object behind the opening brace or behind a member. -/
def readMembers (fuel depth : Nat) (first : Bool) (bytes : Bytes) :
    List (Option String × Tree) × Ending × Option Bytes :=
  match fuel with
  | 0 => ([], .unclosed .malformed .malformed, none)
  | fuel + 1 =>
      let member (bytes : Bytes) : List (Option String × Tree) × Ending × Option Bytes :=
        match skipQuoted bytes with
        | .error skipped => ([], .unclosed (quotedFault bytes) skipped, none)
        | .ok rest =>
            let name := quotedText? bytes
            let stopped (fault : Fault) : List (Option String × Tree) × Ending × Option Bytes :=
              ([(name, .torn false fault fault)], .unclosed fault fault, none)
            match skipSpace rest with
            | [] => stopped .cutOff
            | colon :: rest =>
                if colon ≠ byte ':' then stopped .malformed
                else match readValue fuel depth rest with
                  | (value, none) => ([(name, value)], .unclosed .malformed .malformed, none)
                  | (value, some rest) =>
                      let (members, ending, left) := readMembers fuel depth false rest
                      ((name, value) :: members, ending, left)
      match skipSpace bytes with
      | [] => ([], .unclosed .cutOff .cutOff, none)
      | b :: rest =>
          if b = byte '\x7d' then ([], .closed, some rest)
          else if first then
            if b = byte '"' then member rest else ([], .misplaced (readHead (b :: rest)), none)
          else if b = byte ',' then
            match skipSpace rest with
            | [] => ([], .dangling .cutOff, none)
            | quote :: more =>
                if quote = byte '"' then member more else ([], .dangling .malformed, none)
          else ([], .unclosed .malformed .malformed, none)

end

/-- Reads a text. -/
def read (bytes : Bytes) : Document :=
  match readValue (2 * bytes.length + 2) 0 bytes with
  | (root, none) => ⟨root, true⟩
  | (root, some rest) => ⟨root, (skipSpace rest).isEmpty⟩

end MediaHarvest.Json
