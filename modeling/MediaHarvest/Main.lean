import MediaHarvest.CommandLine
import MediaHarvest.Harvest.FreshName
import MediaHarvest.Harvest.Run
import MediaHarvest.Json.Indented
import MediaHarvest.Settings.Loading

/-!
# The program

Reads the command line, the settings and the jobs file, and prints the summary of the harvest or
the outcome of a single retrieval.  The stores last as long as the program runs.
-/

namespace MediaHarvest.Program

/-- A text for the user in place of a result. -/
structure Complaint where
  text : String
  /-- The status that the program ends with. -/
  status : UInt32

/-- What the program does up to its result. -/
abbrev Attempt := ExceptT Complaint IO

/-- Gives up with a text. -/
def giveUp {α : Type} (text : String) : Attempt α := throw ⟨"Error: " ++ text, 1⟩

/-- The reading of the clock, as the files show it. -/
def now : IO Instant := do
  let (_, path) ← IO.FS.createTempFile
  let reading := (← path.metadata).modified
  IO.FS.removeFile path
  return (Instant.ofParts? reading.sec reading.nsec.toNat).getD .epoch

/-- The bytes of a file, or why they cannot be had. -/
def bytesOf (path : String) : IO (Except String Bytes) := do
  try
    return .ok (← IO.FS.readBinFile path).toList
  catch error => return .error (toString error)

/-- The text of a file, if it is there. -/
def textOf? (path : String) : IO (Option String) := do
  match ← bytesOf path with
  | .ok bytes => return Text.ofUtf8? bytes
  | .error _ => return none

/-- The variables that are set. -/
def givenVariables : IO Variables :=
  (Settings.documentVariable :: Settings.variableNames).filterMapM fun name => do
    return (← IO.getEnv name).map fun value => (name, value)

/-- The settings: from a given document, or from the usual places. -/
def settings (path : Option String) : Attempt Settings := do
  let set ← givenVariables
  let (path, set) ← match path with
    | some path => pure (path, set)
    | none =>
        let set := match ← textOf? ".env" with
          | some file => VariablesFile.extend file set
          | none => set
        pure ((set.lookup Settings.documentVariable).getD Settings.standardDocument, set)
  let document := (← textOf? path).map fun text => SettingsDocument.mk path text
  match Settings.load document set with
  | .ok settings => return settings
  | .error error => giveUp error.message

/-- Names for jobs without one. -/
def newNames (now : Instant) : IO (Nat → String) := do
  let random := (← IO.getRandomBytes 160).toList
  return fun index => freshName now.toMillis.toNat (random.drop (10 * (index % 16)))

/-- Harvests the jobs of a jobs file. -/
def harvest (settings : Settings) (path : String) : Attempt Json.Value := do
  let now ← now
  let bytes ← match ← bytesOf path with
    | .ok bytes => pure bytes
    | .error text => giveUp text
  let jobs ← match JobsFile.ofBytes bytes with
    | .ok jobs => pure jobs
    | .error error => giveUp error.message
  let held : Holdings := ⟨.empty, .empty, .empty⟩
  match (Harvest.run .usual settings (.unreachable .zero) jobs (← newNames now) held now).2 with
  | .ok (summary, _) => return summary.encode summary.metrics.encode
  | .error error => giveUp error.message

/-- Retrieves a single link. -/
def fetch (settings : Settings) (url : String) (checkOnly : Bool) : Attempt Json.Value := do
  let name := (← newNames (← now)) 0
  match fetchLink settings (.unreachable .zero) url checkOnly name with
  | .ok session => return Outcome.codec.encode session.outcome
  | .error error => giveUp error.message

/-- Follows a command line. -/
def perform (arguments : List String) : Attempt Json.Value := do
  match CommandLine.parse arguments with
  | .error .helpRequested => throw ⟨CommandLineError.helpRequested.message, 0⟩
  | .error error => throw ⟨"error: " ++ error.message, 2⟩
  | .ok line =>
      let settings ← settings line.settings
      match line.command with
      | .run jobs => harvest settings jobs
      | .fetch url checkOnly => fetch settings url checkOnly

end MediaHarvest.Program

/-- Runs the program. -/
def main (arguments : List String) : IO UInt32 := do
  match ← (MediaHarvest.Program.perform arguments).run with
  | .ok value =>
      IO.println value.indented
      return 0
  | .error complaint =>
      IO.eprintln complaint.text
      return complaint.status
