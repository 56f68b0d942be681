import MediaHarvest.Job.Basic
import MediaHarvest.Sink.FileTree

/-!
# Jobs files

A jobs file lists resources and jobs.  A job may come without a name of its own; it then gets a new
one.
-/

namespace MediaHarvest

open MediaHarvest.Json

/-- A job as a jobs file gives it. -/
structure JobDefinition where
  /-- The name, if the job has one. -/
  id : Option String
  owner : Owner
  role : SourceRole
  limits : Limits
  tasks : List PlannedTask
deriving DecidableEq, Repr

namespace JobDefinition

/-- The job, under a new name if it has none. -/
def toJob (definition : JobDefinition) (newName : String) (now : Instant) : Job where
  id := definition.id.getD newName
  owner := definition.owner
  tasks := definition.tasks
  state := .ready
  role := definition.role
  limits := definition.limits
  createdAt := now
  updatedAt := now

def shape : Shape JobDefinition JobDefinition :=
  mk <$> .defaulted "id" (.option .text) id none
    <*> .defaulted "owner" Owner.codec owner ⟨"", "", "", ""⟩
    <*> .required "url_source_type" SourceRole.codec role
    <*> .defaulted "limits" Limits.codec limits .unlimited
    <*> .required "tasks" (.list PlannedTask.codec) tasks

def codec : Codec JobDefinition := shape.codec "JobDefinition"

end JobDefinition

/-- What a jobs file holds. -/
structure JobsFile where
  resources : List Resource
  jobs : List JobDefinition
deriving DecidableEq, Repr

/-- Why a jobs file cannot be used. -/
inductive JobsFileError where
  | file (fault : FileFault)
  | notText
  | json (refusal : Refusal)
deriving DecidableEq, Repr

/-- The wording of a refused jobs file. -/
def JobsFileError.message : JobsFileError → String
  | .file fault => s!"Failed to read jobs file: {fault.message}"
  | .notText => "Failed to read jobs file: stream did not contain valid UTF-8"
  | .json (.data error) => s!"Invalid jobs file: {error.message}"
  | .json .malformed => "Invalid jobs file: malformed text"
  | .json .cutOff => "Invalid jobs file: unexpected end of text"

namespace JobsFile

def shape : Shape JobsFile JobsFile :=
  mk <$> .defaulted "resources" (.list Resource.codec) resources []
    <*> .required "jobs" (.list JobDefinition.codec) jobs

def codec : Codec JobsFile := shape.codec "JobsFile"

/-- Reads the bytes of a jobs file. -/
def ofBytes (bytes : Bytes) : Except JobsFileError JobsFile :=
  match Text.ofUtf8? bytes with
  | none => .error .notText
  | some _ => (codec.readText bytes).mapError .json

/-- Reads the jobs file at a path. -/
def load (files : FileTree) (path : String) : Except JobsFileError JobsFile := do
  let place ← (files.walk ((FileTree.names path).dropLast)).mapError .file
  match files.entry? ((FileTree.names path).getLast?.toList ++ place) with
  | some (.file contents) => ofBytes contents
  | some .folder => throw (.file .isFolder)
  | none => throw (.file .notFound)

end JobsFile

end MediaHarvest
