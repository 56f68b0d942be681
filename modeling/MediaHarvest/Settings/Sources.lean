import MediaHarvest.Settings.Given
import MediaHarvest.Settings.VariablesFile
import MediaHarvest.Text.Blank
import MediaHarvest.Toml.Reader

/-!
# Sources of settings

Settings are given by a document and by the variables of the environment, which are laid over the
document.  A variable that gives a setting has a name such as `HARVESTER__WORKER__NODES`, in any
case of its letters.
-/

namespace MediaHarvest

namespace Given

/-! ## Documents -/

mutual

/-- A value of a document. -/
def ofToml (source : Option String) : Toml.Value → Given
  | .text value => scalar source (.text value)
  | .integer value => scalar source (.integer value)
  | .real value => scalar source (.real value)
  | .bool value => scalar source (.bool value)
  | .moment text => scalar source (.text text)
  | .array _ items => list source (ofTomlItems source items)
  | .table _ entries => group source (ofTomlEntries source entries)

/-- The items of an array of a document. -/
def ofTomlItems (source : Option String) : List Toml.Value → List Given
  | [] => []
  | item :: rest => ofToml source item :: ofTomlItems source rest

/-- The entries of a table of a document. -/
def ofTomlEntries (source : Option String) : List (String × Toml.Value) → List (String × Given)
  | [] => []
  | (key, value) :: rest => (key, ofToml source value) :: ofTomlEntries source rest

end

/-- Lays a document over what is given. -/
def withDocument (source : String) (document : Toml.Table) (given : Given) : Given :=
  (ofTomlEntries (some source) document.entries).foldl
    (fun given entry => put (place entry.1) entry.2 given) given

/-! ## Variables -/

/-- The name of the environment as a source. -/
def environment : String := "the environment"

/-- A letter in lower case; the sign for kelvin is a letter too. -/
def lowerChar (c : Char) : Char := if c = '\u212A' then 'k' else c.toLower

/-- How the names of the variables begin that give settings. -/
def variableFront : List Char := "harvester__".toList

/-- Puts points where two underscores separate the parts of a name. -/
def pointed : List Char → List Char
  | '_' :: '_' :: rest => '.' :: pointed rest
  | c :: rest => c :: pointed rest
  | [] => []

/-- The name of the setting that a variable gives, if it gives one. -/
def settingName? (name : String) : Option String :=
  let name := name.toList.map lowerChar
  if variableFront.isPrefixOf name then
    some (String.ofList (pointed (name.drop variableFront.length)))
  else none

/-- The value of a variable: a truth value, an integer or a number if it reads as one. -/
def scalarOf (text : String) : Scalar :=
  match Text.lower text with
  | "true" => .bool true
  | "false" => .bool false
  | _ =>
      match Number.integer64? text.toList with
      | some value => .integer value
      | none =>
          match Number.Real64.parse? text.toList with
          | some value => .real value
          | none => .text text

/-- Lays a variable over what is given, if it gives a setting. -/
def withVariable (given : Given) (entry : String × String) : Given :=
  match settingName? entry.1 with
  | some name => put (place name) (scalar (some environment) (scalarOf entry.2)) given
  | none => given

/-- Lays variables over what is given, one after another. -/
def withVariables (vars : Variables) (given : Given) : Given :=
  vars.foldl withVariable given

end Given

end MediaHarvest
