/-!
# Labels in ASCII

A label of a domain name that holds other characters than ASCII is written in ASCII: first its own
ASCII characters, then the others as numerals of base 36 that tell, in ascending order of the
characters, where each of them stands.  The thresholds of the digits adapt to the numerals that were
written before.
-/

namespace MediaHarvest.Punycode

/-- The digit of a value below 36. -/
def digit (value : Nat) : Char :=
  if value < 26 then Char.ofNat (97 + value) else Char.ofNat (22 + value)

/-- The value of a digit, in either case. -/
def value? (c : Char) : Option Nat :=
  let n := c.toNat
  if 97 ≤ n ∧ n ≤ 122 then some (n - 97)
  else if 65 ≤ n ∧ n ≤ 90 then some (n - 65)
  else if 48 ≤ n ∧ n ≤ 57 then some (n - 22)
  else none

/-- The threshold of the digit at a position, which is a multiple of 36. -/
def threshold (position bias : Nat) : Nat := max 1 (min 26 (position - bias))

/-- Divides by 35 until the rest is at most 455; counts 36 for each step. -/
def shrink (delta : Nat) (steps : Nat) : Nat × Nat :=
  if 455 < delta then shrink (delta / 35) (steps + 36) else (delta, steps)
termination_by delta
decreasing_by exact Nat.div_lt_self (by omega) (by omega)

/-- The bias after a numeral: `count` characters stand in the label so far. -/
def adapt (delta count : Nat) (first : Bool) : Nat :=
  let halved := if first then delta / 700 else delta / 2
  let (rest, steps) := shrink (halved + halved / count) 0
  steps + 36 * rest / (rest + 38)

/-! ## Writing -/

/-- The digits of a number. -/
def numeral (bias position number : Nat) : List Char :=
  let t := threshold position bias
  if number < t then [digit number]
  else
    digit (t + (number - t) % (36 - t)) ::
      numeral bias (position + 36) ((number - t) / (36 - t))
termination_by number
decreasing_by
  have atLeast : 1 ≤ threshold position bias := by unfold threshold; omega
  exact Nat.lt_of_le_of_lt (Nat.div_le_self _ _) (by omega)

/-- Where the writing of a label stands. -/
structure Writing where
  written : List Char
  delta : Nat
  bias : Nat
  told : Nat

/-- Passes a character of the label while the places of `current` are told. -/
def Writing.pass (plain current : Nat) (writing : Writing) (c : Char) : Writing :=
  if c.toNat < current then { writing with delta := writing.delta + 1 }
  else if c.toNat = current then
    { written := writing.written ++ numeral writing.bias 36 writing.delta
      delta := 0
      bias := adapt writing.delta (writing.told + 1) (writing.told = plain)
      told := writing.told + 1 }
  else writing

/-- Tells the places of the given characters, which ascend from `next` on. -/
def Writing.tell (label : List Char) (plain : Nat) : List Nat → Nat → Writing → Writing
  | [], _, writing => writing
  | current :: rest, next, writing =>
      let raised := { writing with delta := writing.delta + (current - next) * (writing.told + 1) }
      let passed := label.foldl (Writing.pass plain current) raised
      Writing.tell label plain rest (current + 1) { passed with delta := passed.delta + 1 }

/-- Whether a character is ASCII. -/
def isPlain (c : Char) : Bool := c.toNat < 128

/-- A label in ASCII. -/
def encode (label : List Char) : List Char :=
  let plain := label.filter isPlain
  let others := ((label.filter fun c => !isPlain c).map Char.toNat).mergeSort.eraseDups
  let writing := Writing.tell label plain.length others 128 ⟨[], 0, 72, plain.length⟩
  plain ++ (if plain.isEmpty then [] else ['-']) ++ writing.written

/-! ## Reading -/

/-- Where the reading of a label stands. -/
structure Reading where
  label : List Nat
  /-- The place before the numeral that is being read. -/
  start : Nat
  /-- The place that the numeral tells so far. -/
  place : Nat
  weight : Nat
  position : Nat
  bias : Nat
  current : Nat

/-- Reads a digit. -/
def Reading.digit? (reading : Reading) (c : Char) : Option Reading := do
  let value ← value? c
  let place := reading.place + value * reading.weight
  let t := threshold reading.position reading.bias
  if value < t then
    let count := reading.label.length + 1
    let current := reading.current + place / count
    guard (current ≤ 0x10ffff)
    let index := place % count
    return {
      label := reading.label.take index ++ current :: reading.label.drop index
      start := index + 1
      place := index + 1
      weight := 1
      position := 36
      bias := adapt (place - reading.start) count (reading.start = 0)
      current := current }
  else
    return { reading with
      place := place
      weight := reading.weight * (36 - t)
      position := reading.position + 36 }

/-- Reads digits up to the end of a numeral. -/
def Reading.digits? : List Char → Reading → Option (List Nat)
  | [], reading => if reading.position = 36 then some reading.label else none
  | c :: rest, reading => do digits? rest (← reading.digit? c)

/-- The character with a number, if it is one. -/
def charOf? (n : Nat) : Option Char :=
  if n.isValidChar then some (Char.ofNat n) else none

/-- The label of its ASCII form. -/
def decode? (text : List Char) : Option (List Char) := do
  let backward := text.reverse
  let digits := (backward.takeWhile (· ≠ '-')).reverse
  let plain := ((backward.dropWhile (· ≠ '-')).drop 1).reverse
  guard (plain.all isPlain)
  let numbers ← Reading.digits? digits
    ⟨plain.map Char.toNat, 0, 0, 1, 36, 72, 128⟩
  numbers.mapM charOf?

end MediaHarvest.Punycode
