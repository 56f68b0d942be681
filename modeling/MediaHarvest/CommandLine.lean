/-!
# The command line

A command comes with its own options and operands.  An option takes a value, which stands behind
it or behind an equals sign; it may be given once before the command and once after it.  Behind two
dashes everything is an operand.  What an option or operand was given is looked at when the next
one begins, so that the first fault met is the one that is told.
-/

namespace MediaHarvest

/-- What is to be done. -/
inductive Command where
  /-- Harvest the jobs of a jobs file. -/
  | run (jobs : String)
  /-- Retrieve a single link, or only look whether it is there. -/
  | fetch (url : String) (checkOnly : Bool)
deriving DecidableEq, Repr

/-- A command line. -/
structure CommandLine where
  settings : Option String
  command : Command
deriving DecidableEq, Repr

/-- Why there is nothing to be done. -/
inductive CommandLineError where
  | nothingGiven
  | helpRequested
  /-- A value is missing or empty. -/
  | invalidValue
  /-- Something that takes no value has one. -/
  | needlessValue
  | repeated
  | unknownArgument
  | invalidCommand
  | missingCommand
  | missingArgument
deriving DecidableEq, Repr

/-- The wording of a command line that cannot be followed. -/
def CommandLineError.message : CommandLineError → String
  | nothingGiven => "a command is needed: run or fetch"
  | helpRequested => "run --jobs PATH | fetch URL [--check], each with [--config PATH]"
  | invalidValue => "a value is needed"
  | needlessValue => "unexpected value"
  | repeated => "an argument cannot be used multiple times"
  | unknownArgument => "unexpected argument"
  | invalidCommand => "unrecognized command"
  | missingCommand => "a command is needed"
  | missingArgument => "a required argument was not provided"

namespace CommandLine

/-- What may be given at one place of a command line. -/
structure Level where
  options : List String
  flags : List String
  /-- The operands in their order. -/
  operands : List String
  commands : List String
deriving DecidableEq, Repr

/-- The level before a command. -/
def topLevel : Level := ⟨["config"], [], [], ["run", "fetch", "help"]⟩

/-- The level of a command. -/
def levelOf (command : String) : Level :=
  if command = "run" then ⟨["config", "jobs"], [], [], []⟩
  else ⟨["config"], ["check"], ["url"], []⟩

/-- What was given at a level. -/
structure Reading where
  /-- The values by their names, the first one first. -/
  values : List (String × String)
  /-- The option or operand that was met last, and its value if it has one by now. -/
  pending : Option (String × Option String)
  operandCount : Nat
  isVerbatim : Bool
deriving DecidableEq, Repr

namespace Reading

/-- Nothing was given. -/
def start : Reading := ⟨[], none, 0, false⟩

/-- The value of an option, a flag or an operand. -/
def value? (reading : Reading) (name : String) : Option String := reading.values.lookup name

/-- Takes a value; only an operand may be empty. -/
def accept (level : Level) (name value : String) (reading : Reading) :
    Except CommandLineError Reading :=
  if (reading.value? name).isSome then .error .repeated
  else if level.options.contains name ∧ value = "" then .error .invalidValue
  else .ok { reading with values := reading.values ++ [(name, value)] }

/-- Looks at what was met last. -/
def settle (level : Level) (reading : Reading) : Except CommandLineError Reading :=
  match reading.pending with
  | none => .ok reading
  | some (_, none) => .error .invalidValue
  | some (name, some value) => accept level name value { reading with pending := none }

/-- Whether the value of an option is to follow. -/
def isAwaiting (reading : Reading) : Bool :=
  match reading.pending with
  | some (_, none) => true
  | _ => false

/-- Meets an operand. -/
def operand (level : Level) (value : String) (reading : Reading) :
    Except CommandLineError Reading :=
  match level.operands[reading.operandCount]? with
  | some name => do
      let reading ← reading.settle level
      return { reading with
        pending := some (name, some value)
        operandCount := reading.operandCount + 1 }
  | none =>
      if level.commands = [] ∨ (reading.isVerbatim ∧ level.commands.contains value) then
        .error .unknownArgument
      else .error .invalidCommand

/-- Meets an option with a long name, and its value if it has one behind an equals sign. -/
def option (level : Level) (name : String) (value : Option String) (reading : Reading) :
    Except CommandLineError Reading :=
  if level.options.contains name then do
    let reading ← reading.settle level
    match value with
    | some value => reading.accept level name value
    | none => return { reading with pending := some (name, none) }
  else if name = "help" ∨ level.flags.contains name then
    if value.isSome then .error .needlessValue
    else do
      let reading ← reading.settle level
      if name = "help" then .error .helpRequested else reading.accept level name "true"
  else .error .unknownArgument

/-- Meets options with short names, of which there is only one. -/
def shortOption (level : Level) (name : Char) (reading : Reading) :
    Except CommandLineError Reading :=
  if name = 'h' then do
    let _ ← reading.settle level
    .error .helpRequested
  else .error .unknownArgument

/-- Splits a long option at its first equals sign. -/
def splitValue (chars : List Char) : String × Option String :=
  let name := String.ofList (chars.takeWhile (· ≠ '='))
  match chars.dropWhile (· ≠ '=') with
  | _ :: value => (name, some (String.ofList value))
  | [] => (name, none)

/-- Meets an argument that is not the name of a command. -/
def meet (level : Level) (argument : String) (reading : Reading) :
    Except CommandLineError Reading :=
  if reading.isVerbatim then reading.operand level argument
  else
    match argument.toList with
    | ['-', '-'] => .ok { reading with isVerbatim := true }
    | '-' :: '-' :: rest =>
        let (name, value) := splitValue rest
        reading.option level name value
    | '-' :: name :: _ => reading.shortOption level name
    | _ =>
        match reading.pending with
        | some (name, none) => .ok { reading with pending := some (name, some argument) }
        | _ => reading.operand level argument

end Reading

open Reading

/-- Reads arguments up to the name of a command; gives it with the arguments behind it. -/
def readLevel (level : Level) : List String → Reading →
    Except CommandLineError (Reading × Option (String × List String))
  | [], reading => .ok (reading, none)
  | argument :: rest, reading =>
      if !reading.isVerbatim ∧ !reading.isAwaiting ∧ level.commands.contains argument then
        .ok (reading, some (argument, rest))
      else do readLevel level rest (← reading.meet level argument)

/-- What asking for help on a command comes to. -/
def helpOn (names : List String) : CommandLineError :=
  match names with
  | [] => .helpRequested
  | [name] => if topLevel.commands.contains name then .helpRequested else .invalidCommand
  | _ => .invalidCommand

/-- The command that was read. -/
def commandOf (name : String) (reading : Reading) : Except CommandLineError Command :=
  if name = "run" then
    match reading.value? "jobs" with
    | some jobs => .ok (.run jobs)
    | none => .error .missingArgument
  else
    match reading.value? "url" with
    | some url => .ok (.fetch url (reading.value? "check").isSome)
    | none => .error .missingArgument

/-- Reads the arguments of a command. -/
def readCommand (name : String) (arguments : List String) :
    Except CommandLineError (Command × Option String) := do
  let level := levelOf name
  let (reading, _) ← readLevel level arguments .start
  let reading ← reading.settle level
  return (← commandOf name reading, reading.value? "config")

/-- Reads a command line. -/
def parse (arguments : List String) : Except CommandLineError CommandLine := do
  let (reading, found) ← readLevel topLevel arguments .start
  match found with
  | none =>
      let reading ← reading.settle topLevel
      throw (if reading.values = [] then .nothingGiven else .missingCommand)
  | some ("help", names) => throw (helpOn names)
  | some (name, arguments) =>
      let (command, inner) ← readCommand name arguments
      let reading ← reading.settle topLevel
      return ⟨inner <|> reading.value? "config", command⟩

end CommandLine

end MediaHarvest
