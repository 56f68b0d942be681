import MediaHarvest.Settings.Reading
import MediaHarvest.Settings.Sources

/-!
# Loading settings

Settings come from their defaults, from a document, and from the variables of the environment, each
laid over the ones before.  Only settings that fit together are accepted.
-/

namespace MediaHarvest

/-- A document with the name under which messages show it. -/
structure SettingsDocument where
  name : String
  text : String
deriving DecidableEq, Repr

/-- Why settings cannot be had. -/
inductive LoadError where
  | document (name : String)
  | setting (error : SettingError)
  | unfit (fault : SettingsFault)
deriving Repr

/-- The wording of a failure to load settings. -/
def LoadError.message : LoadError → String
  | .document name => s!"Failed to load configuration: malformed document in {name}"
  | .setting error => s!"Failed to load configuration: {error.message}"
  | .unfit fault => s!"Configuration validation failed: {fault.message}"

namespace Settings

/-- All that the sources give. -/
def gather (document : Option SettingsDocument) (vars : Variables) :
    Except LoadError Given :=
  match document with
  | none => .ok (Given.empty.withVariables vars)
  | some document =>
      match Toml.parse? document.text with
      | none => .error (.document document.name)
      | some table =>
          .ok ((Given.empty.withDocument document.name table).withVariables vars)

/-- Loads settings from a document, if there is one, and from variables. -/
def load (document : Option SettingsDocument) (vars : Variables) :
    Except LoadError Settings := do
  let given ← gather document vars
  let settings ← (read given).mapError .setting
  settings.check.mapError .unfit

/-- The name of the variable that gives a setting of a section. -/
def variableName (part name : String) : String := Text.upper s!"harvester__{part}__{name}"

/-- The names of all variables that give settings. -/
def variableNames : List String :=
  match codec.encode standard with
  | .record sections =>
      sections.flatMap fun part =>
        match part.2 with
        | .record fields => fields.map fun field => variableName part.1 field.1
        | _ => []
  | _ => []

/-- The variable that names the document. -/
def documentVariable : String := "HARVESTER_CONFIG"

/-- The document if nothing names another one. -/
def standardDocument : String := "config/harvester.toml"

end Settings

end MediaHarvest
