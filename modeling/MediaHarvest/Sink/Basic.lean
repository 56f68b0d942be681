import MediaHarvest.Retrieval.Storage
import MediaHarvest.Sink.FileTree

/-!
# Sinks

A sink takes the content of a retrieval piece by piece.  What it took so far can be discarded, and
once it is finished it takes nothing more.
-/

namespace MediaHarvest

/-- Why a sink refuses. -/
inductive SinkError where
  | file (path : String) (fault : FileFault)
  | finished
deriving DecidableEq, Repr

/-- The wording of a refusal of a sink. -/
def SinkError.message : SinkError → String
  | .file path fault => s!"I/O error on {path}: {fault.message}"
  | .finished => "Sink already finished"

/-- What can take the content of a retrieval.  Every operation gives the new sink next to its
answer. -/
class Sink (σ : Type) where
  write : Bytes → σ → σ × Except SinkError Unit
  truncate : σ → σ × Except SinkError Unit
  finish : σ → σ × Except SinkError Unit
  /-- How many bytes were taken and not discarded. -/
  accepted : σ → Nat
  location : σ → Storage

/-! ## Memory -/

/-- A sink that keeps the content. -/
structure MemorySink where
  contents : Bytes
  isFinished : Bool
deriving DecidableEq, Repr

namespace MemorySink

/-- A sink that has taken nothing. -/
def new : MemorySink := ⟨[], false⟩

instance : Inhabited MemorySink := ⟨new⟩

/-- Takes a piece. -/
def write (piece : Bytes) (sink : MemorySink) : MemorySink × Except SinkError Unit :=
  if sink.isFinished then (sink, .error .finished)
  else ({ sink with contents := sink.contents ++ piece }, .ok ())

/-- Discards what was taken. -/
def truncate (sink : MemorySink) : MemorySink × Except SinkError Unit :=
  ({ sink with contents := [] }, .ok ())

/-- Takes nothing more. -/
def finish (sink : MemorySink) : MemorySink × Except SinkError Unit :=
  ({ sink with isFinished := true }, .ok ())

instance : Sink MemorySink where
  write := write
  truncate := truncate
  finish := finish
  accepted sink := sink.contents.length
  location _ := .memory

end MemorySink

/-! ## Files -/

/-- A sink that writes a file.  The file may be removed from its folder meanwhile; what is written
to it then is lost. -/
structure DiskSink where
  /-- The path that the sink was opened with. -/
  path : String
  place : FilePath
  /-- Where in the file the next piece goes; nowhere once the file is closed. -/
  position : Option Nat
  /-- How many bytes were taken and not discarded. -/
  accepted : Nat
  files : FileTree
deriving DecidableEq, Repr

namespace DiskSink

/-- Opens a sink on an empty file, in place of the file that may stand there, and makes the folders
on the way. -/
def create (files : FileTree) (path : String) : FileTree × Except SinkError DiskSink :=
  match files.makeWay path with
  | .error fault => (files, .error (.file path fault))
  | .ok files =>
      match files.create path with
      | .error fault => (files, .error (.file path fault))
      | .ok (files, place) => (files, .ok ⟨path, place, some 0, 0, files⟩)

/-- The contents of a file after a piece was written at a position: it covers what was there, and a
gap before it is filled with zeros. -/
def overwrite (position : Nat) (piece contents : Bytes) : Bytes :=
  if piece = [] then contents
  else
    contents.take position ++ List.replicate (position - contents.length) 0 ++ piece ++
      contents.drop (position + piece.length)

/-- Takes a piece. -/
def write (piece : Bytes) (sink : DiskSink) : DiskSink × Except SinkError Unit :=
  match sink.position with
  | some position =>
      ({ sink with
          position := some (position + piece.length)
          accepted := sink.accepted + piece.length
          files := sink.files.change sink.place (overwrite position piece) }, .ok ())
  | none => (sink, .error .finished)

/-- Discards what was taken: the file is emptied and written from its start on again.  A file that
was closed is made anew and stays closed. -/
def truncate (sink : DiskSink) : DiskSink × Except SinkError Unit :=
  match sink.position with
  | some _ =>
      ({ sink with
          position := some 0
          accepted := 0
          files := sink.files.change sink.place fun _ => [] }, .ok ())
  | none =>
      match sink.files.create sink.path with
      | .error fault => (sink, .error (.file sink.path fault))
      | .ok (files, _) => ({ sink with accepted := 0, files := files }, .ok ())

/-- Closes the file. -/
def finish (sink : DiskSink) : DiskSink × Except SinkError Unit :=
  ({ sink with position := none }, .ok ())

instance : Sink DiskSink where
  write := write
  truncate := truncate
  finish := finish
  accepted := accepted
  location sink := .disk sink.path

/-- The contents of the file, if it is still there. -/
def contents? (sink : DiskSink) : Option Bytes := sink.files.read? sink.place

end DiskSink

/-! ## Either -/

/-- The kinds of sinks that a node can be told to use. -/
inductive SinkKind where
  | disk
  | memory
deriving DecidableEq, Repr, Inhabited

namespace SinkKind

def name : SinkKind → String
  | disk => "disk"
  | memory => "memory"

def codec : Json.Codec SinkKind := .choice [disk, memory] name

end SinkKind

/-- A sink of either kind; a sink in memory leaves the files as they are. -/
inductive AnySink where
  | disk (sink : DiskSink)
  | memory (files : FileTree) (sink : MemorySink)
deriving DecidableEq, Repr

namespace AnySink

/-- The location of a sink before it is opened. -/
def plannedLocation (kind : SinkKind) (folder path : String) : Storage :=
  match kind with
  | .disk => .disk (FileTree.join folder path)
  | .memory => .memory

/-- Opens a sink of a kind. -/
def create (kind : SinkKind) (files : FileTree) (folder path : String) :
    FileTree × Except SinkError AnySink :=
  match kind with
  | .memory => (files, .ok (.memory files .new))
  | .disk =>
      match DiskSink.create files (FileTree.join folder path) with
      | (files, .error error) => (files, .error error)
      | (files, .ok sink) => (files, .ok (.disk sink))

/-- Changes the sink that is there. -/
def apply (onDisk : DiskSink → DiskSink × Except SinkError Unit)
    (inMemory : MemorySink → MemorySink × Except SinkError Unit) :
    AnySink → AnySink × Except SinkError Unit
  | disk sink => let (sink, answer) := onDisk sink; (disk sink, answer)
  | memory files sink => let (sink, answer) := inMemory sink; (memory files sink, answer)

instance : Sink AnySink where
  write piece := apply (DiskSink.write piece) (MemorySink.write piece)
  truncate := apply DiskSink.truncate MemorySink.truncate
  finish := apply DiskSink.finish MemorySink.finish
  accepted
    | disk sink => sink.accepted
    | memory _ sink => sink.contents.length
  location
    | disk sink => .disk sink.path
    | memory .. => .memory

/-- The files after all that the sink did. -/
def files : AnySink → FileTree
  | disk sink => sink.files
  | memory files _ => files

end AnySink

end MediaHarvest
