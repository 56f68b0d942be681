import MediaHarvest.Text.Blank

/-!
# Files of variables

A file of variables gives a variable on each line, as in `NAME=value`, with an optional `export` in
front.  A value may be quoted and may then span lines, and `$NAME` or `${NAME}` stands for
another variable.  What is already set stays as it is, and everything behind the first faulty line
is left out.
-/

namespace MediaHarvest

/-- Variables with their values. -/
abbrev Variables := List (String × String)

namespace VariablesFile

/-! ## Lines -/

/-- Where a line stands while its end is looked for. -/
inductive LineState where
  | plain
  | blank
  | escaped
  | quoted (quote : Char)
  | quotedEscape (quote : Char)
deriving DecidableEq, Repr

/-- The state behind a character; none where a comment starts. -/
def LineState.after (state : LineState) (c : Char) : Option LineState :=
  match state with
  | escaped => some plain
  | quoted quote =>
      if c = '\\' then some (quotedEscape quote)
      else if c = quote then some plain
      else some (quoted quote)
  | quotedEscape quote => some (quoted quote)
  | _ =>
      if state = blank ∧ c = '#' then none
      else if c = '\\' then some escaped
      else if c = '"' ∨ c = '\'' then some (quoted c)
      else if state = plain ∧ Text.isBlank c ∧ c ≠ '\n' ∧ c ≠ '\r' then some blank
      else some plain

/-- The state behind a text, or the number of characters before a comment. -/
def scan : LineState → Nat → List Char → LineState ⊕ Nat
  | state, _, [] => .inl state
  | state, count, c :: rest =>
      match state.after c with
      | none => .inr count
      | some state => scan state (count + 1) rest

/-- Splits a text behind its line ends. -/
def pieces : List Char → List (List Char)
  | [] => []
  | c :: rest =>
      if c = '\n' then [c] :: pieces rest
      else
        match pieces rest with
        | [] => [[c]]
        | piece :: more => (c :: piece) :: more

/-- A line without its line end. -/
def chomp (line : List Char) : List Char :=
  match line.reverse with
  | '\n' :: '\r' :: rest => rest.reverse
  | '\n' :: rest => rest.reverse
  | _ => line

/-- Joins pieces to lines.  A line goes on while quotes are open; one that does not end is none.  A
comment cuts a line off. -/
def lines : LineState → List Char → List (List Char) → List (Option (List Char))
  | state, _, [] => if state = .plain then [] else [none]
  | state, front, piece :: rest =>
      let line := front ++ piece
      if (Text.trimStart line).head? = some '#' then some [] :: lines .plain [] rest
      else
        match scan state 0 piece with
        | .inr count => some (line.take count) :: lines .plain [] rest
        | .inl .plain => some (chomp line) :: lines .plain [] rest
        | .inl state => lines state line rest

/-! ## Values -/

/-- How far a value was read. -/
structure ValueState where
  /-- What was read, the last character first. -/
  written : List Char
  quote : Option Char
  isEscaped : Bool
  /-- Whether only blanks and a comment may follow. -/
  isEnded : Bool
  /-- The name of a variable that is being read, and whether it stands in braces. -/
  name : Option (Bool × List Char)
deriving Repr

namespace ValueState

/-- Nothing was read. -/
def start : ValueState := ⟨[], none, false, false, none⟩

/-- Adds a character. -/
def push (state : ValueState) (c : Char) : ValueState :=
  { state with written := c :: state.written }

/-- Puts the value of the variable whose name was read in its place. -/
def substitute (vars : Variables) (state : ValueState) : ValueState :=
  match state.name with
  | none => state
  | some (_, name) =>
      let value := (vars.lookup (String.ofList name.reverse)).getD ""
      { state with written := value.toList.reverse ++ state.written, name := none }

/-- Whether a character may stand in the name of a variable in a value. -/
def isNameChar (c : Char) : Bool := c.isAlphanum || (128 ≤ c.toNat && !Text.isBlank c)

/-- Reads a character behind a backslash. -/
def escape (state : ValueState) (c : Char) : Option ValueState :=
  let state := { state with isEscaped := false }
  if c = 'n' then some (state.push '\n')
  else if ['\\', '\'', '"', '$', ' '].contains c then some (state.push c)
  else none

/-- Reads a character of the name of a variable, or the one behind it. -/
def readName (vars : Variables) (state : ValueState) (inBraces : Bool) (name : List Char)
    (c : Char) : ValueState :=
  if isNameChar c then { state with name := some (inBraces, c :: name) }
  else if inBraces then
    if c = '\x7d' then state.substitute vars
    else { state with name := some (true, c :: name) }
  else if c = '\x7b' ∧ name = [] then { state with name := some (true, []) }
  else
    let state := state.substitute vars
    if c = '$' then { state with name := some (false, []) } else state.push c

/-- Reads a character that is neither escaped nor in single quotes nor in a name. -/
def readPlain (state : ValueState) (c : Char) : ValueState :=
  if c = '$' then { state with name := some (false, []) }
  else if c = '\\' then { state with isEscaped := true }
  else if state.quote = some '"' then
    if c = '"' then { state with quote := none } else state.push c
  else if c = '"' ∨ c = '\'' then { state with quote := some c }
  else if c = ' ' ∨ c = '\t' then { state with isEnded := true }
  else state.push c

/-- Reads a character. -/
def read (vars : Variables) (state : ValueState) (c : Char) : Option ValueState :=
  if state.isEscaped then state.escape c
  else if state.quote = some '\'' then
    some (if c = '\'' then { state with quote := none } else state.push c)
  else
    match state.name with
    | some (inBraces, name) => some (state.readName vars inBraces name c)
    | none => some (state.readPlain c)

/-- The value at the end of a line, unless quotes or braces are open. -/
def finish (vars : Variables) (state : ValueState) : Option String :=
  let isOpen : Bool := match state.name with
    | some (inBraces, _) => inBraces
    | none => false
  if isOpen ∨ state.quote.isSome then none
  else some (String.ofList (state.substitute vars).written.reverse)

end ValueState

/-- Reads a value up to the end of its line. -/
def readValue? (vars : Variables) : ValueState → List Char → Option String
  | state, [] => state.finish vars
  | state, c :: rest =>
      if state.isEnded then
        if c = ' ' ∨ c = '\t' then readValue? vars state rest
        else if c = '#' then state.finish vars
        else none
      else
        match state.read vars c with
        | some state => readValue? vars state rest
        | none => none

/-! ## Variables -/

def name? (chars : List Char) : Option (String × List Char) := do
  let first ← chars.head?
  guard (first.isAlpha ∨ first = '_')
  let isPart (c : Char) : Bool := c.isAlphanum || c = '_' || c = '.'
  return (String.ofList (chars.takeWhile isPart), chars.dropWhile isPart)

/-- Reads the sign between a name and its value. -/
def equals? (chars : List Char) : Option (List Char) :=
  match Text.trimStart chars with
  | '=' :: rest => some rest
  | _ => none

/-- Reads the name of a variable and the sign behind it. -/
def assigned? (chars : List Char) : Option (String × List Char) := do
  let (name, rest) ← name? chars
  if name = "export" ∧ (equals? rest).isNone then
    let (name, rest) ← name? (Text.trimStart rest)
    return (name, ← equals? rest)
  else return (name, ← equals? rest)

/-- What a line says. -/
inductive Statement where
  | nothing
  | variableIs (name value : String)
deriving DecidableEq, Repr

/-- Reads a line. -/
def statement? (vars : Variables) (line : List Char) : Option Statement :=
  let line := Text.trimStart (Text.trimEnd line)
  if line = [] ∨ line.head? = some '#' then some .nothing
  else do
    let (name, rest) ← assigned? line
    let rest := Text.trimStart rest
    if rest = [] ∨ rest.head? = some '#' then return .variableIs name ""
    else return .variableIs name (← readValue? vars .start rest)

/-- Sets the variables of lines that are not set yet, up to the first faulty line. -/
def setAll : List (Option (List Char)) → Variables → Variables
  | [], vars => vars
  | none :: _, vars => vars
  | some line :: rest, vars =>
      match statement? vars line with
      | none => vars
      | some .nothing => setAll rest vars
      | some (.variableIs name value) =>
          setAll rest
            (if (vars.lookup name).isSome then vars else vars ++ [(name, value)])

/-- Adds the variables of a file to those that are set. -/
def extend (text : String) (vars : Variables) : Variables :=
  let chars := match text.toList with
    | '\uFEFF' :: rest => rest
    | chars => chars
  setAll (lines .plain [] (pieces chars)) vars

end VariablesFile

end MediaHarvest
