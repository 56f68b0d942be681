import MediaHarvest.Job.Basic
import MediaHarvest.Net.Percent

/-!
# Storage paths

The file of a task lies in a folder named for its job.  Every part of the path is escaped, so that
no part can leave its place and different tasks have different files.
-/

namespace MediaHarvest.StoragePath

/-- Whether a byte stands for itself. -/
def isPlain (byte : UInt8) : Bool :=
  (48 ≤ byte && byte ≤ 57) || (65 ≤ byte && byte ≤ 90) || (97 ≤ byte && byte ≤ 122) ||
    byte == 45 || byte == 95

/-- A byte as it stands in a path. -/
def escapeByte (byte : UInt8) : List Char :=
  if isPlain byte then [Char.ofNat byte.toNat] else Percent.escape byte

/-- A part of a path; the empty one is a percent sign alone. -/
def escapePart (bytes : Bytes) : List Char :=
  if bytes = [] then ['%'] else bytes.flatMap escapeByte

/-- A text as a part of a path. -/
def part (text : String) : String := String.ofList (escapePart (Text.utf8 text))

/-- The path of a task's file below the folder of all files. -/
def ofTask (task : Task) : String :=
  part task.job ++ "/" ++ part task.id ++ "." ++ part task.resource

end MediaHarvest.StoragePath
