import MediaHarvest.Net.Host
import MediaHarvest.Number.Decimal
import MediaHarvest.Text.Blank

/-!
# Links

A link has a scheme and, for the known schemes, a host and a path of segments.  `Url.parse` reads a
link, on its own or relative to another one, into the one form in which links are compared and
written by `Url.text`.  Characters that may not stand in a part are escaped, `.` and `..` are
resolved, and a port that the scheme implies is left out.
-/

namespace MediaHarvest

/-- The path of a link. -/
inductive UrlPath where
  | plain (text : String)
  | rooted (segments : List String)
deriving DecidableEq, Repr

/-- A link. -/
structure Url where
  /-- The scheme, in lower case. -/
  scheme : String
  user : String
  password : String
  host : Option Host
  /-- The port, unless the scheme implies it. -/
  port : Option UInt16
  path : UrlPath
  query : Option String
  fragment : Option String
deriving DecidableEq, Repr

namespace Url

/-! ## Schemes -/

/-- The schemes whose links have a host and a path, with the ports that they imply. -/
def knownPorts : List (String × Option UInt16) :=
  [("http", some 80), ("https", some 443), ("ws", some 80), ("wss", some 443), ("ftp", some 21),
    ("file", none)]

/-- Whether the form of links with a scheme is known. -/
def isKnown (scheme : String) : Bool := (knownPorts.lookup scheme).isSome

/-- The port that a scheme implies. -/
def impliedPort (scheme : String) : Option UInt16 := (knownPorts.lookup scheme).join

/-! ## Writing -/

/-- The text of a path. -/
def pathText : UrlPath → String
  | .plain text => text
  | .rooted segments => String.join (segments.map ("/" ++ ·))

/-- The text of a user and a password. -/
def credentials (url : Url) : String :=
  if url.user = "" ∧ url.password = "" then ""
  else if url.password = "" then url.user ++ "@"
  else url.user ++ ":" ++ url.password ++ "@"

/-- The text of what a path follows. -/
def authority (url : Url) : String :=
  match url.host with
  | none => ""
  | some host =>
      "//" ++ url.credentials ++ host.text ++
        (match url.port with
          | some port => s!":{port}"
          | none => "")

/-- What separates a path that starts with an empty segment from the place of a host. -/
def pathGuard (url : Url) : String :=
  match url.host, url.path with
  | none, .rooted ("" :: _ :: _) => "/."
  | _, _ => ""

/-- The text of a link without its fragment. -/
def address (url : Url) : String :=
  let front := if url.scheme = "file" ∧ url.host = none then "//" else url.authority
  url.scheme ++ ":" ++ front ++ (if front = "" then url.pathGuard else "") ++ pathText url.path ++
    (match url.query with
      | some query => "?" ++ query
      | none => "")

/-- The text of a link. -/
def text (url : Url) : String :=
  url.address ++
    (match url.fragment with
      | some fragment => "#" ++ fragment
      | none => "")

/-! ## Characters that are escaped -/

/-- In a text without structure. -/
def escapedPlain (c : Char) : Bool := c.toNat < 32 || 126 < c.toNat

/-- In a fragment. -/
def escapedFragment (c : Char) : Bool := escapedPlain c || " \"<>`".toList.contains c

/-- In a path. -/
def escapedPath (c : Char) : Bool := escapedFragment c || "#?\x7b\x7d".toList.contains c

/-- In a user name and a password. -/
def escapedUser (c : Char) : Bool := escapedPath c || "/:;=@[\\]^|".toList.contains c

/-- In a query. -/
def escapedQuery (known : Bool) (c : Char) : Bool :=
  escapedPlain c || " \"#<>".toList.contains c || (known && c == '\'')

/-- Escapes a text. -/
def escape (escaped : Char → Bool) (chars : List Char) : String :=
  String.ofList (Percent.encode escaped chars)

/-! ## Paths -/

/-- Splits a path at its slashes; in links of known schemes backslashes count as well. -/
def splitPath (known : Bool) : List Char → List (List Char)
  | [] => [[]]
  | c :: rest =>
      if c = '/' ∨ (known ∧ c = '\\') then [] :: splitPath known rest
      else
        match splitPath known rest with
        | [] => [[c]]
        | segment :: more => (c :: segment) :: more

/-- Spellings of the segment that stands for the path itself. -/
def isHere (segment : String) : Bool := [".", "%2e"].contains (Text.lower segment)

/-- Spellings of the segment that stands for the path above. -/
def isAbove (segment : String) : Bool :=
  ["..", ".%2e", "%2e.", "%2e%2e"].contains (Text.lower segment)

/-- Appends segments to the segments above them. -/
def resolve (above : List String) : List String → List String
  | [] => above
  | [last] =>
      if isAbove last then above.dropLast ++ [""]
      else if isHere last then above ++ [""]
      else above ++ [last]
  | segment :: rest =>
      if isAbove segment then resolve above.dropLast rest
      else if isHere segment then resolve above rest
      else resolve (above ++ [segment]) rest

/-- The segments of a path that follows a root and the segments above it. -/
def segments (known : Bool) (above : List String) (chars : List Char) : List String :=
  resolve above ((splitPath known chars).map (escape escapedPath))

/-! ## Parts of a text -/

/-- The parts of a link behind its scheme. -/
structure Parts where
  /-- What comes before the query and the fragment. -/
  body : List Char
  query : Option (List Char)
  fragment : Option (List Char)

/-- What follows a separator, if it stands in the text. -/
def behind? (separator : Char) (chars : List Char) : Option (List Char) :=
  match chars.dropWhile (· ≠ separator) with
  | [] => none
  | _ :: rest => some rest

/-- Splits off the query and the fragment. -/
def splitParts (chars : List Char) : Parts :=
  let front := chars.takeWhile (· ≠ '#')
  ⟨front.takeWhile (· ≠ '?'), behind? '?' front, behind? '#' chars⟩

/-- A link with the query and the fragment of the parts. -/
def withTail (url : Url) (parts : Parts) : Url :=
  { url with
    query := parts.query.map (escape (escapedQuery (isKnown url.scheme)))
    fragment := parts.fragment.map (escape escapedFragment) }

/-! ## Host and port -/

/-- Whether a character ends the place of the host. -/
def endsAuthority (known : Bool) (c : Char) : Bool := c == '/' || (known && c == '\\')

/-- The text of a host, up to the colon before the port, with what follows it. -/
def splitHost : Bool → List Char → List Char × List Char
  | _, [] => ([], [])
  | bracketed, c :: rest =>
      if c = ':' ∧ !bracketed then ([], c :: rest)
      else
        let inBrackets := if c = '[' then true else if c = ']' then false else bracketed
        let (host, more) := splitHost inBrackets rest
        (c :: host, more)

/-- Reads a port; the one that the scheme implies is left out. -/
def readPort (scheme : String) (digits : List Char) : Except UrlError (Option UInt16) :=
  if digits = [] then .ok none
  else
    match Number.natural? digits with
    | some number =>
        if 65535 < number then .error .invalidPort
        else
          let port := UInt16.ofNat number
          .ok (if impliedPort scheme = some port then none else some port)
    | none => .error .invalidPort

/-- Reads a host and a port. -/
def readHost (domains : Domains) (scheme : String) (chars : List Char) :
    Except UrlError (Host × Option UInt16) := do
  let (hostText, rest) := splitHost false chars
  if isKnown scheme ∧ hostText = [] then throw .emptyHost
  let host ← if isKnown scheme then Host.ofKnown domains hostText else Host.ofOther hostText
  match rest with
  | [] => return (host, none)
  | _ :: digits =>
      if host = .name "" then throw .emptyHost
      return (host, ← readPort scheme digits)

/-- The text up to the last at sign and the text behind it. -/
def splitUser (chars : List Char) : Option (List Char) × List Char :=
  if chars.contains '@' then
    let backward := chars.reverse
    (some ((backward.dropWhile (· ≠ '@')).drop 1).reverse,
      (backward.takeWhile (· ≠ '@')).reverse)
  else (none, chars)

/-- Reads a link from the place of its host on. -/
def afterSlashes (domains : Domains) (scheme : String) (parts : Parts) : Except UrlError Url := do
  let known := isKnown scheme
  let place := parts.body.takeWhile fun c => !endsAuthority known c
  let pathChars := parts.body.dropWhile fun c => !endsAuthority known c
  let (userInfo, hostPort) := splitUser place
  let userText := userInfo.getD []
  if userInfo = some [] ∧ hostPort = [] ∧
      (pathChars ≠ [] ∨ parts.query.isSome ∨ parts.fragment.isSome) then throw .emptyHost
  let user := escape escapedUser (userText.takeWhile (· ≠ ':'))
  let password := escape escapedUser ((behind? ':' userText).getD [])
  let (host, port) ← readHost domains scheme hostPort
  if host = .name "" ∧ (user ≠ "" ∨ password ≠ "") then throw .emptyHost
  let path := match pathChars with
    | [] => if known then [""] else []
    | _ :: rest => segments known [] rest
  return Url.withTail ⟨scheme, user, password, some host, port, .rooted path, none, none⟩ parts

/-! ## Links of files -/

/-- Whether a text is a letter and a colon or a bar. -/
def isDrive : List Char → Bool
  | [letter, mark] => letter.isAlpha && (mark == ':' || mark == '|')
  | _ => false

/-- Reads the link of a file behind its scheme. -/
def ofFile (domains : Domains) (chars : List Char) : Except UrlError Url := do
  let parts := splitParts chars
  let slashes := parts.body.takeWhile (endsAuthority true)
  let rest := parts.body.drop (min slashes.length 2)
  let make (host : Option Host) (path : List Char) : Url :=
    Url.withTail ⟨"file", "", "", host, none, .rooted (segments true [] path), none, none⟩ parts
  if slashes.length < 2 then return make none (parts.body.drop slashes.length)
  else
    let place := rest.takeWhile fun c => !endsAuthority true c
    let pathChars := rest.dropWhile fun c => !endsAuthority true c
    if isDrive place then return make none rest
    else if place = [] then return make none (pathChars.drop 1)
    else
      let host ← Host.ofKnown domains place
      return make (if host = .name "localhost" then none else some host) (pathChars.drop 1)

/-! ## Reading -/

/-- Drops the blanks around a text and the line breaks and tabulators within it. -/
def clean (chars : List Char) : List Char :=
  let isEdge (c : Char) : Bool := c.toNat ≤ 32
  let trimmed := ((chars.dropWhile isEdge).reverse.dropWhile isEdge).reverse
  trimmed.filter fun c => !(c == '\t' || c == '\n' || c == '\r')

/-- Whether a character may stand in a scheme. -/
def isSchemeChar (c : Char) : Bool := c.isAlphanum || c == '+' || c == '-' || c == '.'

/-- The scheme, in lower case, and what follows its colon. -/
def splitScheme? (chars : List Char) : Option (String × List Char) :=
  let scheme := chars.takeWhile isSchemeChar
  match scheme, chars.dropWhile isSchemeChar with
  | first :: _, ':' :: rest =>
      if first.isAlpha then some (Text.lower (String.ofList scheme), rest) else none
  | _, _ => none

/-- Reads a link with a known scheme behind its colon, where any number of slashes may stand. -/
def ofKnown (domains : Domains) (scheme : String) (chars : List Char) : Except UrlError Url :=
  afterSlashes domains scheme (splitParts (chars.dropWhile (endsAuthority true)))

/-- Reads a link with another scheme behind its colon. -/
def ofOther (domains : Domains) (scheme : String) (chars : List Char) : Except UrlError Url :=
  match chars with
  | '/' :: '/' :: rest => afterSlashes domains scheme (splitParts rest)
  | '/' :: rest =>
      let parts := splitParts rest
      .ok (Url.withTail
        ⟨scheme, "", "", none, none, .rooted (segments false [] parts.body), none, none⟩ parts)
  | _ =>
      let parts := splitParts chars
      .ok (Url.withTail
        ⟨scheme, "", "", none, none, .plain (escape escapedPlain parts.body), none, none⟩ parts)

/-- The segments above the last one. -/
def folder : UrlPath → List String
  | .plain _ => []
  | .rooted segments => segments.dropLast

/-- Reads a text without a scheme relative to a link. -/
def relative (domains : Domains) (base : Url) (chars : List Char) : Except UrlError Url :=
  let parts := splitParts chars
  let known := isKnown base.scheme
  let slashes := parts.body.takeWhile (endsAuthority known)
  match parts.body with
  | [] =>
      let moved := Url.withTail base parts
      .ok (if parts.query.isSome then moved else { moved with query := base.query })
  | first :: rest =>
      if 2 ≤ slashes.length then
        let skipped := if "//".toList.isPrefixOf parts.body then 2 else slashes.length
        afterSlashes domains base.scheme { parts with body := parts.body.drop skipped }
      else if endsAuthority known first then
        .ok (Url.withTail { base with path := .rooted (segments known [] rest) } parts)
      else
        .ok (Url.withTail
          { base with path := .rooted (segments known (folder base.path) parts.body) } parts)

/-- Reads a text with a scheme, which is relative all the same if it has the known scheme of the
base and no two slashes. -/
def absolute (domains : Domains) (base : Option Url) (scheme : String) (chars : List Char) :
    Except UrlError Url :=
  if scheme = "file" then ofFile domains chars
  else if isKnown scheme then
    match base with
    | some base =>
        if base.scheme = scheme ∧ (chars.takeWhile (endsAuthority true)).length < 2 then
          relative domains base chars
        else ofKnown domains scheme chars
    | none => ofKnown domains scheme chars
  else ofOther domains scheme chars

/-- Reads a link, relative to `base` if that is given. -/
def parse (domains : Domains) (base : Option Url) (text : String) : Except UrlError Url :=
  let chars := clean text.toList
  match splitScheme? chars, base with
  | some (scheme, rest), _ => absolute domains base scheme rest
  | none, none => .error .relativeWithoutBase
  | none, some base =>
      match base.path, chars.head? with
      | .rooted _, _ => relative domains base chars
      | .plain _, some '#' =>
          .ok { base with fragment := (splitParts chars).fragment.map (escape escapedFragment) }
      | .plain _, _ => .error .relativeToOpaque

/-- Whether a link leads to the web: it has one of the two schemes and a host. -/
def isWeb (url : Url) : Bool :=
  (url.scheme == "http" || url.scheme == "https") && url.host.isSome

end Url

end MediaHarvest
