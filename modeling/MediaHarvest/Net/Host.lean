import MediaHarvest.Net.Address
import MediaHarvest.Net.Domain
import MediaHarvest.Net.Percent

/-!
# Hosts of links

A host is a domain name, an address, or, in links of other schemes than the known ones, any text.
A name whose last label is a number has to be a version 4 address, which may be written with fewer
than four parts and with parts in base 8 or 16.
-/

namespace MediaHarvest

/-- The host of a link. -/
inductive Host where
  /-- A domain name, or a text that nothing is known about. -/
  | name (text : String)
  | address (address : Address)
deriving DecidableEq, Repr

/-- Why a text is not a link. -/
inductive UrlError where
  | emptyHost
  /-- The host is not a domain name. -/
  | invalidName
  /-- The port is not a number of 16 bits. -/
  | invalidPort
  /-- The host ends in a number and is not a version 4 address. -/
  | invalidVersion4
  /-- The host is in brackets and not a version 6 address. -/
  | invalidVersion6
  /-- The host holds a character that no host may hold. -/
  | invalidHostCharacter
  /-- There is no scheme and nothing that the link is relative to. -/
  | relativeWithoutBase
  /-- The link is relative to one that has no hierarchy. -/
  | relativeToOpaque
deriving DecidableEq, Repr

/-- The wording of a refused link. -/
def UrlError.message : UrlError → String
  | .emptyHost => "empty host"
  | .invalidName => "invalid international domain name"
  | .invalidPort => "invalid port number"
  | .invalidVersion4 => "invalid IPv4 address"
  | .invalidVersion6 => "invalid IPv6 address"
  | .invalidHostCharacter => "invalid domain character"
  | .relativeWithoutBase => "relative URL without a base"
  | .relativeToOpaque => "relative URL with a cannot-be-a-base base"

namespace Host

/-- The text of a host. -/
def text : Host → String
  | name text => text
  | address (.v4 a b c d) => Address.dotted a b c d
  | address (.v6 groups) =>
      let groups := groups.toList
      let (start, length) := Address.longestZeroRun groups 0 (0, 0)
      let inner :=
        if 1 < length then
          Address.colonText (groups.take start) ++ "::" ++
            Address.colonText (groups.drop (start + length))
        else Address.colonText groups
      s!"[{inner}]"

/-! ## Version 4 addresses in their loose form -/

/-- The value of a digit in a base. -/
def digitIn? (base : Nat) (c : Char) : Option Nat :=
  match Address.digitValue? c with
  | some value => if value < base then some value else none
  | none => none

/-- The value of digits in a base; none if one of them is no digit. -/
def numberIn? (base : Nat) (digits : List Char) : Option Nat :=
  digits.foldlM (fun n c => (digitIn? base c).map (base * n + ·)) 0

/-- A part of an address: a number in base 10, in base 8 after a zero, or in base 16 after a zero
and an X.  A zero or an X with nothing behind it is zero. -/
def part? : List Char → Option Nat
  | [] => none
  | '0' :: 'x' :: digits => numberIn? 16 digits
  | '0' :: 'X' :: digits => numberIn? 16 digits
  | '0' :: c :: digits => numberIn? 8 (c :: digits)
  | digits => numberIn? 10 digits

/-- The labels of a name without the empty one at its end. -/
def lastingLabels (labels : List (List Char)) : List (List Char) :=
  match labels.reverse with
  | [] :: rest => rest.reverse
  | _ => labels

/-- Whether the last label is a number. -/
def endsInNumber (labels : List (List Char)) : Bool :=
  match (lastingLabels labels).getLast? with
  | none => false
  | some [] => false
  | some last => last.all Char.isDigit || (part? last).isSome

/-- The address of parts: all but the last one are octets, and the last one fills the rest. -/
def ofParts? (parts : List Nat) : Option Address := do
  guard (parts.length ≤ 4)
  let last ← parts.getLast?
  let front := parts.dropLast
  guard (front.all (· ≤ 255))
  guard (last < Nat.pow 256 (4 - front.length))
  let n := (front.foldl (fun n part => 256 * n + part) 0) * Nat.pow 256 (4 - front.length) + last
  return .v4 (UInt8.ofNat (n / 16777216)) (UInt8.ofNat (n / 65536)) (UInt8.ofNat (n / 256))
    (UInt8.ofNat n)

/-- The address of labels. -/
def version4? (labels : List (List Char)) : Option Address := do
  ofParts? (← (lastingLabels labels).mapM part?)

/-! ## Reading -/

/-- Reads a version 6 address in brackets. -/
def bracketed (chars : List Char) : Except UrlError Host :=
  if chars.getLast? = some ']' then
    match Address.version6? (chars.drop 1).dropLast with
    | some found => .ok (.address found)
    | none => .error .invalidVersion6
  else .error .invalidVersion6

/-- Reads the host of a link with a known scheme. -/
def ofKnown (domains : Domains) (chars : List Char) : Except UrlError Host :=
  if chars.head? = some '[' then bracketed chars
  else
    match domains.toAscii? (Percent.decode (Text.utf8 (String.ofList chars))) with
    | none => .error .invalidName
    | some "" => .error .emptyHost
    | some domain =>
        let labels := Domain.labels domain.toList
        if endsInNumber labels then
          match version4? labels with
          | some found => .ok (.address found)
          | none => .error .invalidVersion4
        else .ok (.name domain)

/-- Characters that no host may hold. -/
def isForbidden (c : Char) : Bool := "\x00\t\n\r #/:<>?@[\\]^|".toList.contains c

/-- Controls and everything beyond ASCII. -/
def isControl (c : Char) : Bool := c.toNat < 32 || 126 < c.toNat

/-- Reads the host of a link with another scheme. -/
def ofOther (chars : List Char) : Except UrlError Host :=
  if chars.head? = some '[' then bracketed chars
  else if chars.any isForbidden then .error .invalidHostCharacter
  else .ok (.name (String.ofList (Percent.encode isControl chars)))

end Host

end MediaHarvest
