import MediaHarvest.Net.Punycode
import MediaHarvest.Text.Bytes
import MediaHarvest.Text.Printable

/-!
# Domain names

A domain name is compared and looked up in ASCII.  How names beyond ASCII are spelled there is
written in tables that the readers of links are given as `Domains`.

`Domains.common` spells the names of some common scripts as the tables do.  Characters are first
brought into one form: letters in lower case, wide forms as ordinary ones, and some invisible
characters not at all.  Then every label with a character beyond ASCII is replaced by its ASCII
form.  Marks that attach to a letter are not joined with it, and the direction of a script is not
looked at.
-/

namespace MediaHarvest

/-- How the names of domains are spelled. -/
structure Domains where
  /-- The name in ASCII; none if the bytes are no domain name. -/
  toAscii? : Bytes → Option String

namespace Domain

/-- Characters that do not count. -/
def isIgnored (n : Nat) : Bool :=
  n == 0xad || n == 0x34f || (0x180b ≤ n && n ≤ 0x180d) || n == 0x180f || n == 0x200b ||
    n == 0x2060 || n == 0x2064 || (0xfe00 ≤ n && n ≤ 0xfe0f) || n == 0xfeff ||
    (0xe0100 ≤ n && n ≤ 0xe01ef)

/-- Characters that separate labels as a point does. -/
def isPoint (n : Nat) : Bool := n == 0x3002 || n == 0xff0e || n == 0xff61

/-- Ranges of capital letters, first and last included, with the distance to the small ones. -/
def capitals : List (Nat × Nat × Nat) :=
  [(0x41, 0x5a, 32), (0xc0, 0xd6, 32), (0xd8, 0xde, 32), (0x391, 0x3a1, 32), (0x3a3, 0x3ab, 32),
    (0x400, 0x40f, 80), (0x410, 0x42f, 32), (0x531, 0x556, 48)]

/-- Ranges in which every capital letter is even and its small one follows it. -/
def evenCapitals : List (Nat × Nat) :=
  [(0x100, 0x12f), (0x132, 0x137), (0x14a, 0x177), (0x460, 0x481), (0x48a, 0x4bf), (0x4d0, 0x52f),
    (0x1e00, 0x1e95), (0x1ea0, 0x1eff)]

/-- Ranges in which every capital letter is odd and its small one follows it. -/
def oddCapitals : List (Nat × Nat) := [(0x139, 0x148), (0x179, 0x17e), (0x4c1, 0x4ce)]

/-- The small form of a character. -/
def small (n : Nat) : Nat :=
  match capitals.find? fun (first, last, _) => first ≤ n && n ≤ last with
  | some (_, _, distance) => n + distance
  | none =>
      if evenCapitals.any (fun (first, last) => first ≤ n && n ≤ last) && n % 2 == 0 then n + 1
      else if oddCapitals.any (fun (first, last) => first ≤ n && n ≤ last) && n % 2 == 1 then n + 1
      else n

/-- The ordinary form of a wide character. -/
def narrow (n : Nat) : Nat := if 0xff01 ≤ n ∧ n ≤ 0xff5e then n - 0xfee0 else n

/-- Marks that attach to the letter before them. -/
def isMark (n : Nat) : Bool := 0x300 ≤ n && n ≤ 0x36f

/-- The form of a character in which names are compared; none if no name may hold it. -/
def fold? (c : Char) : Option (List Char) :=
  let n := c.toNat
  if isIgnored n then some []
  else if isPoint n then some ['.']
  else if n < 128 then some [Char.ofNat (small n)]
  else if isMark n || Text.isPrintable c then some [Char.ofNat (small (narrow n))]
  else none

/-- Characters of ASCII that no domain name may hold. -/
def isForbidden (c : Char) : Bool :=
  c.toNat ≤ 32 || c.toNat == 127 || "%#/:<>?@[\\]^|".toList.contains c

/-- Splits a name at its points. -/
def labels : List Char → List (List Char)
  | [] => [[]]
  | c :: rest =>
      if c = '.' then [] :: labels rest
      else
        match labels rest with
        | [] => [[c]]
        | label :: more => (c :: label) :: more

/-- What an ASCII form starts with. -/
def mark : List Char := "xn--".toList

/-- Whether a label given in ASCII form stands for one that has to be given so. -/
def isWellMarked (text : List Char) : Bool :=
  match Punycode.decode? text with
  | none => false
  | some label =>
      label.any (fun c => !Punycode.isPlain c) && !(label.head?.any fun c => isMark c.toNat) &&
        label.all (fun c => fold? c == some [c] && !isForbidden c && c != '.') &&
        Punycode.encode label == text

/-- A label in ASCII. -/
def labelToAscii? (label : List Char) : Option (List Char) :=
  if label.all Punycode.isPlain then
    if mark.isPrefixOf label then
      if isWellMarked (label.drop mark.length) then some label else none
    else some label
  else if label.head?.any fun c => isMark c.toNat then none
  else some (mark ++ Punycode.encode label)

/-- The characters of a name in the form in which names are compared. -/
def fold (chars : List Char) : Option (List Char) := List.flatten <$> chars.mapM fold?

/-- A domain name in ASCII, if its bytes are one. -/
def toAscii? (bytes : Bytes) : Option String := do
  let chars ← fold (← Text.ofUtf8? bytes).toList
  guard (!chars.any isForbidden)
  let ascii ← (labels chars).mapM labelToAscii?
  return ".".intercalate (ascii.map String.ofList)

end Domain

/-- The spelling of names in common scripts. -/
def Domains.common : Domains := ⟨Domain.toAscii?⟩

end MediaHarvest
