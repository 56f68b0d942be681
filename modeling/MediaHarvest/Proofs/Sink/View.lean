import MediaHarvest.Proofs.Except
import MediaHarvest.Sink.Basic
import Mathlib.Data.List.Basic

/-!
# What a sink holds

A `SinkView` tells what can be seen in a sink while none of its operations fails: pieces are put one
behind the other, discarding leaves nothing, and closing keeps what there is.  Memory always has such
a view, and a file has one as long as it stays in its folder.
-/

namespace MediaHarvest

/-- A view of the sinks whose operations do not fail. -/
structure SinkView (σ : Type) [Sink σ] where
  /-- The sink takes pieces. -/
  Ready : σ → Prop
  /-- The pieces that were taken and not discarded, as one. -/
  contents : σ → Bytes
  accepted : ∀ {sink}, Ready sink → Sink.accepted sink = (contents sink).length
  write : ∀ {sink}, Ready sink → ∀ piece, ∃ next, Sink.write piece sink = (next, .ok ()) ∧
    Ready next ∧ contents next = contents sink ++ piece
  truncate : ∀ {sink}, Ready sink → ∃ next, Sink.truncate sink = (next, .ok ()) ∧
    Ready next ∧ contents next = []
  /-- A closed sink need not be ready. -/
  finish : ∀ {sink}, Ready sink → ∃ next, Sink.finish sink = (next, .ok ()) ∧
    Sink.accepted next = Sink.accepted sink ∧ contents next = contents sink

/-- A sink in memory takes pieces until it is finished. -/
def MemorySink.view : SinkView MemorySink where
  Ready sink := sink.isFinished = false
  contents := contents
  accepted _ := rfl
  write {sink} ready piece := by
    refine ⟨{ sink with contents := sink.contents ++ piece }, ?_, ready, rfl⟩
    change MemorySink.write piece sink = _
    rw [MemorySink.write, ready]
    rfl
  truncate ready := ⟨_, rfl, ready, rfl⟩
  finish _ := ⟨_, rfl, rfl, rfl⟩

namespace FileTree

variable (tree : FileTree) (path : FilePath)

/-- A file that was put at a path other than that of the root is read there. -/
theorem read?_put (contents : Bytes) (inside : path ≠ []) :
    (tree.put path (.file contents)).read? path = some contents := by
  simp [read?, entry?, put, inside]

/-- The root is no file. -/
theorem ne_nil_of_read? {contents : Bytes} (there : tree.read? path = some contents) :
    path ≠ [] := by
  rintro rfl
  cases there

/-- Changing a file that is there. -/
theorem read?_change {contents : Bytes} (there : tree.read? path = some contents)
    (edit : Bytes → Bytes) : (tree.change path edit).read? path = some (edit contents) := by
  rw [change, there]
  exact read?_put tree path _ (ne_nil_of_read? tree path there)

/-- A file that was just made is empty. -/
theorem read?_of_create {tree made : FileTree} {path : String} {place : FilePath}
    (created : tree.create path = .ok (made, place)) : made.read? place = some [] := by
  rw [create] at created
  split at created
  · cases created
  · split at created
    · cases created
    · next name outer _ =>
      obtain ⟨folder, _, created⟩ := bind_eq_ok_iff.1 created
      split at created
      · split at created
        · obtain ⟨_, _, created⟩ := bind_eq_ok_iff.1 created
          cases created
        · cases created
      · split at created
        · cases created
        · split at created
          · cases created
          · cases created
            exact read?_put tree (name :: folder) [] (List.cons_ne_nil _ _)

end FileTree

namespace DiskSink

/-- What is written where a file ends comes behind what it has. -/
@[simp]
theorem overwrite_length (contents piece : Bytes) :
    overwrite contents.length piece contents = contents ++ piece := by
  have beyond : contents.drop (contents.length + piece.length) = [] :=
    List.drop_eq_nil_of_le (Nat.le_add_right ..)
  rw [overwrite, beyond, List.take_length, Nat.sub_self]
  split
  · next nothing => rw [nothing, List.append_nil]
  · simp

/-- An open file that is in its folder, has as many bytes as were taken, and is written where it
ends. -/
structure Ready (sink : DiskSink) : Prop where
  there : ∃ contents, sink.contents? = some contents ∧ sink.accepted = contents.length
  atEnd : sink.position = some sink.accepted

/-- A piece comes behind what a file has. -/
theorem Ready.write {sink : DiskSink} (ready : sink.Ready) (piece : Bytes) {contents : Bytes}
    (there : sink.contents? = some contents) :
    ∃ next, DiskSink.write piece sink = (next, .ok ()) ∧ next.Ready ∧
      next.contents? = some (contents ++ piece) := by
  obtain ⟨⟨_, again, size⟩, atEnd⟩ := ready
  obtain rfl : contents = _ := Option.some.inj (there.symm.trans again)
  have grown := sink.files.read?_change sink.place there (overwrite sink.accepted piece)
  rw [size, overwrite_length] at grown
  rw [DiskSink.write, atEnd]
  refine ⟨_, rfl, ⟨⟨contents ++ piece, ?_, ?_⟩, rfl⟩, ?_⟩
  · rw [size]
    exact grown
  · rw [List.length_append, ← size]
  · rw [size]
    exact grown

/-- A file is emptied, and written from its start on again. -/
theorem Ready.truncate {sink : DiskSink} (ready : sink.Ready) :
    ∃ next, DiskSink.truncate sink = (next, .ok ()) ∧ next.Ready ∧ next.contents? = some [] := by
  obtain ⟨⟨contents, there, _⟩, atEnd⟩ := ready
  have emptied := sink.files.read?_change sink.place there fun _ => []
  rw [DiskSink.truncate, atEnd]
  exact ⟨_, rfl, ⟨⟨[], emptied, rfl⟩, rfl⟩, emptied⟩

/-- A file takes pieces as long as it is open and in its folder. -/
def view : SinkView DiskSink where
  Ready := Ready
  contents sink := sink.contents?.getD []
  accepted := by
    rintro sink ⟨⟨contents, there, size⟩, _⟩
    rw [there]
    exact size
  write {sink} ready piece := by
    obtain ⟨contents, there, _⟩ := ready.there
    obtain ⟨next, written, still, grown⟩ := ready.write piece there
    refine ⟨next, written, still, ?_⟩
    rw [grown, there]
    rfl
  truncate {sink} ready := by
    obtain ⟨next, truncated, still, emptied⟩ := ready.truncate
    exact ⟨next, truncated, still, congrArg (·.getD []) emptied⟩
  finish _ := ⟨_, rfl, rfl, rfl⟩

/-- A sink is opened by making the folders on the way and then the file. -/
theorem create_eq_ok_iff {files left : FileTree} {path : String} {sink : DiskSink} :
    create files path = (left, .ok sink) ↔
      ∃ paved place, files.makeWay path = .ok paved ∧ paved.create path = .ok (left, place) ∧
        sink = ⟨path, place, some 0, 0, left⟩ := by
  rw [create]
  constructor
  · intro opened
    split at opened
    · cases opened
    · next paved way =>
      split at opened
      · cases opened
      · next made place created =>
        cases opened
        exact ⟨paved, place, way, created, rfl⟩
  · rintro ⟨paved, place, way, created, rfl⟩
    simp only [way, created]

/-- A file that was just opened is ready and empty. -/
theorem ready_of_create {files left : FileTree} {path : String} {sink : DiskSink}
    (opened : create files path = (left, .ok sink)) :
    view.Ready sink ∧ view.contents sink = [] := by
  obtain ⟨_, place, _, created, rfl⟩ := create_eq_ok_iff.1 opened
  have there := FileTree.read?_of_create created
  constructor
  · exact ⟨⟨[], there, rfl⟩, rfl⟩
  · exact congrArg (·.getD []) there

end DiskSink

namespace AnySink

/-- A sink of either kind is viewed as its kind is. -/
def view : SinkView AnySink where
  Ready
    | disk sink => DiskSink.view.Ready sink
    | memory _ sink => MemorySink.view.Ready sink
  contents
    | disk sink => DiskSink.view.contents sink
    | memory _ sink => MemorySink.view.contents sink
  accepted {sink} ready := by
    cases sink with
    | disk sink => exact DiskSink.view.accepted ready
    | memory files sink => exact MemorySink.view.accepted ready
  write {sink} ready piece := by
    cases sink with
    | disk sink =>
        obtain ⟨next, done, kept⟩ := DiskSink.view.write ready piece
        exact ⟨disk next, congrArg (fun done => (disk done.1, done.2)) done, kept⟩
    | memory files sink =>
        obtain ⟨next, done, kept⟩ := MemorySink.view.write ready piece
        exact ⟨memory files next, congrArg (fun done => (memory files done.1, done.2)) done, kept⟩
  truncate {sink} ready := by
    cases sink with
    | disk sink =>
        obtain ⟨next, done, kept⟩ := DiskSink.view.truncate ready
        exact ⟨disk next, congrArg (fun done => (disk done.1, done.2)) done, kept⟩
    | memory files sink =>
        obtain ⟨next, done, kept⟩ := MemorySink.view.truncate ready
        exact ⟨memory files next, congrArg (fun done => (memory files done.1, done.2)) done, kept⟩
  finish {sink} ready := by
    cases sink with
    | disk sink => exact ⟨_, rfl, rfl, rfl⟩
    | memory files sink => exact ⟨_, rfl, rfl, rfl⟩

/-- A sink that was just opened is ready and empty. -/
theorem ready_of_create {kind : SinkKind} {files left : FileTree} {folder path : String}
    {sink : AnySink} (opened : create kind files folder path = (left, .ok sink)) :
    view.Ready sink ∧ view.contents sink = [] := by
  cases kind with
  | memory =>
      cases opened
      exact ⟨rfl, rfl⟩
  | disk =>
      rw [create] at opened
      split at opened
      · cases opened
      · next made =>
        cases opened
        exact DiskSink.ready_of_create made

end AnySink

end MediaHarvest
