import MediaHarvest.Text.Hex

/-!
# Network addresses

Addresses of version 4 and 6 in their usual text forms.  A version 6 address is written with the
first longest run of at least two zero groups left out, and with its last two groups as a version 4
address if it maps one.
-/

namespace MediaHarvest

/-- A network address. -/
inductive Address where
  | v4 (a b c d : UInt8)
  | v6 (groups : Vector UInt16 8)
deriving DecidableEq, Repr

namespace Address

/-! ## Writing -/

/-- The text of a version 4 address. -/
def dotted (a b c d : UInt8) : String :=
  s!"{a.toNat}.{b.toNat}.{c.toNat}.{d.toNat}"

/-- Groups in hexadecimal, separated by colons. -/
def colonText (groups : List UInt16) : String :=
  ":".intercalate (groups.map fun group => Text.hexNumeral group.toNat)

/-- The number of zero groups in front. -/
def zeroRun (groups : List UInt16) : Nat := (groups.takeWhile (· = 0)).length

/-- The start and length of the first longest run of zero groups, looking from position `start`;
`best` is the one found so far. -/
def longestZeroRun : List UInt16 → Nat → Nat × Nat → Nat × Nat
  | [], _, best => best
  | group :: rest, start, best =>
      let length := zeroRun (group :: rest)
      longestZeroRun rest (start + 1) (if best.2 < length then (start, length) else best)

/-- The text of eight groups. -/
def groupText (groups : List UInt16) : String :=
  match groups with
  | [0, 0, 0, 0, 0, 0xffff, high, low] =>
      "::ffff:" ++ dotted (UInt8.ofNat (high.toNat / 256)) (UInt8.ofNat (high.toNat % 256))
        (UInt8.ofNat (low.toNat / 256)) (UInt8.ofNat (low.toNat % 256))
  | _ =>
      let (start, length) := longestZeroRun groups 0 (0, 0)
      if 1 < length then
        colonText (groups.take start) ++ "::" ++ colonText (groups.drop (start + length))
      else colonText groups

/-- The text of an address. -/
def text : Address → String
  | .v4 a b c d => dotted a b c d
  | .v6 groups => groupText groups.toList

/-! ## Reading -/

/-- The value of a hexadecimal digit. -/
def digitValue? (c : Char) : Option Nat :=
  if c.toNat < 128 then Text.hexValue? c.toUInt8 else none

/-- A number of at most three decimal digits below 256 without leading zeros. -/
def octet (chars : List Char) : Option (UInt8 × List Char) :=
  let digits := chars.takeWhile Char.isDigit
  let value := digits.foldl (fun n c => 10 * n + (c.toNat - 48)) 0
  if digits = [] ∨ 3 < digits.length ∨ 255 < value ∨ (1 < digits.length ∧ digits.head? = some '0')
  then none
  else some (UInt8.ofNat value, chars.dropWhile Char.isDigit)

/-- A given character. -/
def expect (wanted : Char) : List Char → Option (List Char)
  | c :: rest => if c = wanted then some rest else none
  | [] => none

/-- Four octets separated by points. -/
def octets (chars : List Char) : Option ((UInt8 × UInt8 × UInt8 × UInt8) × List Char) := do
  let (a, chars) ← octet chars
  let (b, chars) ← octet (← expect '.' chars)
  let (c, chars) ← octet (← expect '.' chars)
  let (d, chars) ← octet (← expect '.' chars)
  return ((a, b, c, d), chars)

/-- A group of one to four hexadecimal digits. -/
def group (chars : List Char) : Option (UInt16 × List Char) :=
  let digits := chars.takeWhile fun c => (digitValue? c).isSome
  if digits = [] ∨ 4 < digits.length then none
  else
    let value := digits.foldl (fun n c => 16 * n + (digitValue? c).getD 0) 0
    some (UInt16.ofNat value, chars.dropWhile fun c => (digitValue? c).isSome)

/-- Two octets as one group. -/
def pair (high low : UInt8) : UInt16 := UInt16.ofNat (256 * high.toNat + low.toNat)

/-- Reads up to `limit` groups; the last two may be given as a version 4 address, which the flag
tells. -/
def groups : Nat → Bool → List Char → List UInt16 × Bool × List Char
  | 0, _, chars => ([], false, chars)
  | limit + 1, first, chars =>
      let start := if first then some chars else expect ':' chars
      let embedded := if limit = 0 then none else start.bind octets
      match embedded with
      | some ((a, b, c, d), rest) => ([pair a b, pair c d], true, rest)
      | none =>
          match start.bind group with
          | none => ([], false, chars)
          | some (value, rest) =>
              let (more, version4, rest) := groups limit false rest
              (value :: more, version4, rest)

/-- Eight groups as an address. -/
def ofGroups? (groups : List UInt16) : Option Address :=
  if h : groups.toArray.size = 8 then some (.v6 ⟨groups.toArray, h⟩) else none

/-- Reads a version 6 address. -/
def version6? (chars : List Char) : Option Address := do
  let (head, version4, rest) := groups 8 true chars
  if head.length = 8 then
    guard (rest = [])
    ofGroups? head
  else
    guard (!version4)
    let rest ← expect ':' (← expect ':' rest)
    let (tail, _, rest) := groups (7 - head.length) true rest
    guard (rest = [])
    ofGroups? (head ++ List.replicate (8 - head.length - tail.length) 0 ++ tail)

/-- Reads a version 4 address. -/
def version4? (chars : List Char) : Option Address := do
  let ((a, b, c, d), rest) ← octets chars
  guard (rest = [])
  return .v4 a b c d

/-- Reads an address of either version. -/
def parse? (text : String) : Option Address :=
  version4? text.toList <|> version6? text.toList

end Address

end MediaHarvest
