import MediaHarvest.Proofs.Sink.Emptying

/-!
# A file and a buffer under the same calls

A sink on a file keeps a handle, a position and a count, and one in memory a buffer and a mark that
it is finished.  Whatever calls both get, in any order, they give the same answers, and both hold
the pieces that were accepted and not discarded, one behind the other.
-/

namespace MediaHarvest

/-- A call of an operation of a sink. -/
inductive SinkCall where
  | write (piece : Bytes)
  | truncate
  | finish
deriving DecidableEq, Repr

namespace SinkCall

section Running

variable {σ : Type} [Sink σ]

/-- The operation that a call asks for. -/
def perform : SinkCall → σ → σ × Except SinkError Unit
  | write piece => Sink.write piece
  | truncate => Sink.truncate
  | finish => Sink.finish

/-- A sink after calls. -/
def after (calls : List SinkCall) (sink : σ) : σ :=
  calls.foldl (fun sink call => (call.perform sink).1) sink

@[simp]
theorem after_cons (call : SinkCall) (calls : List SinkCall) (sink : σ) :
    after (call :: calls) sink = after calls (call.perform sink).1 := rfl

end Running

/-! ## What is kept -/

/-- The pieces that calls of a new sink leave in it: those that come before the first closing and
behind the last emptying. -/
def kept : List SinkCall → List Bytes
  | [] => []
  | write piece :: calls => if truncate ∈ calls then kept calls else piece :: kept calls
  | truncate :: calls => kept calls
  | finish :: _ => []

/-- The answer to a call that comes after others: nothing is written once the sink was closed. -/
def answer (calls : List SinkCall) : SinkCall → Except SinkError Unit
  | write _ => if finish ∈ calls then .error .finished else .ok ()
  | truncate => .ok ()
  | finish => .ok ()

variable (calls : List SinkCall) (contents : Bytes)

/-- A closed buffer can only be emptied. -/
theorem after_closed :
    after calls (MemorySink.mk contents true) =
      ⟨if truncate ∈ calls then [] else contents, true⟩ := by
  induction calls generalizing contents with
  | nil => rfl
  | cons call calls ih =>
      rw [after_cons]
      cases call with
      | write piece =>
          refine (ih contents).trans ?_
          simp only [List.mem_cons, reduceCtorEq, false_or]
      | truncate =>
          refine (ih []).trans ?_
          rw [ite_self, if_pos List.mem_cons_self]
      | finish =>
          refine (ih contents).trans ?_
          simp only [List.mem_cons, reduceCtorEq, false_or]

/-- An open buffer has the kept pieces behind what it held, unless that was discarded. -/
theorem after_open :
    after calls (MemorySink.mk contents false) =
      ⟨(if truncate ∈ calls then [] else contents) ++ (kept calls).flatten,
        decide (finish ∈ calls)⟩ := by
  -- What the sink held before the remaining calls grows with each piece.
  induction calls generalizing contents with
  | nil =>
      change MemorySink.mk contents false = ⟨contents ++ [], false⟩
      rw [List.append_nil]
  | cons call calls ih =>
      rw [after_cons]
      cases call with
      | write piece =>
          refine (ih (contents ++ piece)).trans ?_
          rw [kept]
          simp only [List.mem_cons, reduceCtorEq, false_or]
          split
          · rfl
          · rw [List.flatten_cons, List.append_assoc]
      | truncate =>
          refine (ih []).trans ?_
          rw [kept, ite_self, if_pos List.mem_cons_self]
          simp only [List.mem_cons, reduceCtorEq, false_or]
      | finish =>
          refine (after_closed calls contents).trans ?_
          simp only [kept, List.mem_cons, reduceCtorEq, false_or, true_or, decide_true,
            List.flatten_nil, List.append_nil]

theorem after_new :
    after calls MemorySink.new = ⟨(kept calls).flatten, decide (finish ∈ calls)⟩ := by
  refine (after_open calls []).trans ?_
  rw [ite_self, List.nil_append]

/-! ## Side by side -/

/-- A file and a buffer that hold the same and take pieces alike. -/
structure Twins (disk : DiskSink) (memory : MemorySink) : Prop where
  renewable : disk.Renewable
  contents : disk.contents? = some memory.contents
  accepted : disk.accepted = memory.contents.length
  position : disk.position = if memory.isFinished then none else some memory.contents.length

namespace Twins

variable {disk : DiskSink} {memory : MemorySink}

/-- A file that takes pieces and a buffer that does. -/
theorem of_ready (renewable : disk.Renewable) (ready : disk.Ready)
    (same : disk.contents? = some memory.contents) (unfinished : memory.isFinished = false) :
    Twins disk memory := by
  obtain ⟨⟨_, again, size⟩, atEnd⟩ := ready
  cases again.symm.trans same
  refine ⟨renewable, same, size, ?_⟩
  rw [atEnd, size, unfinished]
  rfl

section Calling

variable (twins : Twins disk memory)
include twins

theorem ready (unfinished : memory.isFinished = false) : disk.Ready := by
  refine ⟨⟨memory.contents, twins.contents, twins.accepted⟩, ?_⟩
  rw [twins.position, unfinished, twins.accepted]
  rfl

theorem closed (finished : memory.isFinished = true) : disk.position = none := by
  rw [twins.position, finished]
  rfl

/-- A piece that comes after the end is refused, and nothing is changed. -/
theorem refuse (finished : memory.isFinished = true) (piece : Bytes) :
    DiskSink.write piece disk = (disk, .error .finished) ∧
      MemorySink.write piece memory = (memory, .error .finished) := by
  constructor
  · rw [DiskSink.write, twins.closed finished]
  · rw [MemorySink.write, if_pos finished]

theorem write (piece : Bytes) :
    (DiskSink.write piece disk).2 = (MemorySink.write piece memory).2 ∧
      Twins (DiskSink.write piece disk).1 (MemorySink.write piece memory).1 := by
  cases finished : memory.isFinished with
  | true =>
      obtain ⟨onDisk, inMemory⟩ := twins.refuse finished piece
      rw [onDisk, inMemory]
      exact ⟨rfl, twins⟩
  | false =>
      have still := twins.renewable.write piece
      obtain ⟨next, onDisk, ready, grown⟩ := (twins.ready finished).write piece twins.contents
      have inMemory : MemorySink.write piece memory =
          ({ memory with contents := memory.contents ++ piece }, .ok ()) := by
        rw [MemorySink.write, finished, if_neg Bool.false_ne_true]
      rw [onDisk] at still ⊢
      rw [inMemory]
      exact ⟨rfl, of_ready still ready grown finished⟩

theorem truncate :
    (DiskSink.truncate disk).2 = .ok () ∧
      Twins (DiskSink.truncate disk).1 (MemorySink.truncate memory).1 := by
  have still := twins.renewable.truncate
  cases finished : memory.isFinished with
  | false =>
      obtain ⟨next, onDisk, ready, emptied⟩ := (twins.ready finished).truncate
      rw [onDisk] at still ⊢
      exact ⟨rfl, of_ready still ready emptied finished⟩
  | true =>
      -- The file was closed, and is made anew at its path.
      have closed := twins.closed finished
      obtain ⟨files, renews⟩ := twins.renewable.renews
      have onDisk : DiskSink.truncate disk =
          ({ disk with accepted := 0, files := files }, .ok ()) := by
        rw [DiskSink.truncate, closed]
        simp only [renews]
      rw [onDisk] at still ⊢
      refine ⟨rfl, still, FileTree.read?_of_create renews, rfl, ?_⟩
      change disk.position = if memory.isFinished then none else _
      rw [closed, finished]
      rfl

theorem finish : Twins (DiskSink.finish disk).1 (MemorySink.finish memory).1 :=
  ⟨twins.renewable.finish, twins.contents, twins.accepted, rfl⟩

/-- A call is answered alike, and leaves what holds the same. -/
theorem perform (call : SinkCall) :
    (call.perform disk).2 = (call.perform memory).2 ∧
      Twins (call.perform disk).1 (call.perform memory).1 := by
  cases call with
  | write piece => exact twins.write piece
  | truncate => exact twins.truncate
  | finish => exact ⟨rfl, twins.finish⟩

end Calling

/-- Calls leave what holds the same. -/
theorem after (twins : Twins disk memory) (calls : List SinkCall) :
    Twins (after calls disk) (after calls memory) := by
  induction calls generalizing disk memory with
  | nil => exact twins
  | cons call calls ih => exact ih (twins.perform call).2

/-- A file that was just opened is empty, whatever stood there. -/
theorem of_create {files left : FileTree} {path : String}
    (opened : DiskSink.create files path = (left, .ok disk)) : Twins disk MemorySink.new := by
  obtain ⟨ready, nothing⟩ := DiskSink.ready_of_create opened
  obtain ⟨contents, there, _⟩ := ready.there
  have empty : contents = [] := by
    change disk.contents?.getD [] = [] at nothing
    rwa [there] at nothing
  rw [empty] at there
  exact of_ready (DiskSink.renewable_of_create opened) ready there rfl

end Twins

/-! ## All calls -/

/-- A file and a buffer after the same calls. -/
structure Alike (calls : List SinkCall) (disk : DiskSink) (memory : MemorySink) : Prop where
  /-- The file has the kept pieces, one behind the other. -/
  file : disk.contents? = some (kept calls).flatten
  /-- So has the buffer. -/
  buffer : memory.contents = (kept calls).flatten
  countOnDisk : Sink.accepted disk = (kept calls).flatten.length
  countInMemory : Sink.accepted memory = (kept calls).flatten.length
  /-- One more call has the same answer. -/
  answers : ∀ call,
    (call.perform disk).2 = answer calls call ∧ (call.perform memory).2 = answer calls call
  /-- A write that comes after the end changes nothing. -/
  refused : finish ∈ calls → ∀ piece,
    (write piece).perform disk = (disk, .error .finished) ∧
      (write piece).perform memory = (memory, .error .finished)

/-- A sink on a file that was opened and one in memory answer any calls alike and hold the same after
them, whatever the file held before. -/
theorem alike_after (files left : FileTree) (path : String) (disk : DiskSink)
    (opened : DiskSink.create files path = (left, .ok disk)) (calls : List SinkCall) :
    Alike calls (after calls disk) (after calls MemorySink.new) := by
  have twins := (Twins.of_create opened).after calls
  rw [after_new] at twins ⊢
  have answered (call : SinkCall) :
      (call.perform (MemorySink.mk (kept calls).flatten (decide (finish ∈ calls)))).2 =
        answer calls call := by
    cases call with
    | write piece =>
        change (MemorySink.write piece _).2 = _
        rw [MemorySink.write, answer]
        by_cases closed : finish ∈ calls
        · rw [if_pos (decide_eq_true closed), if_pos closed]
        · rw [if_neg (by simpa using closed), if_neg closed]
    | truncate => rfl
    | finish => rfl
  exact {
    file := twins.contents
    buffer := rfl
    countOnDisk := twins.accepted
    countInMemory := rfl
    answers := fun call => ⟨(twins.perform call).1.trans (answered call), answered call⟩
    refused := fun closed piece => twins.refuse (decide_eq_true closed) piece }

/-- A folder with a file that holds three bytes. -/
def staleFiles : FileTree := ⟨[(["page", "out"], .file [9, 9, 9]), (["out"], .folder)]⟩

/-- Calls that go on after the sink was closed. -/
def lateCalls : List SinkCall :=
  [write [1, 2, 3], truncate, write [4], write [], finish, write [5], finish]

/-- What stood in the file is gone, and what comes after the end is not taken; even then the file can
be emptied. -/
theorem alike_after_late :
    staleFiles.read? ["page", "out"] = some [9, 9, 9] ∧
      ∃ left disk, DiskSink.create staleFiles "out/page" = (left, .ok disk) ∧
        Alike lateCalls (after lateCalls disk) (after lateCalls MemorySink.new) ∧
        (after lateCalls disk).contents? = some [4] ∧
        (after (lateCalls ++ [truncate]) disk).contents? = some [] := by
  let left := staleFiles.put ["page", "out"] (.file [])
  have names : FileTree.names "out/page" = ["out", "page"] := by decide +kernel
  have way : staleFiles.makeWay "out/page" = .ok staleFiles := by
    rw [FileTree.makeWay, names]
    change (if ["out"].any (·.contains '\x00') then _ else _) = _
    rw [if_neg (by simp)]
    decide +kernel
  have made : staleFiles.create "out/page" = .ok (left, ["page", "out"]) :=
    FileTree.create_eq_ok_iff.2 ⟨by simp, "page", ["out"], ["out"], by rw [names]; rfl,
      by decide +kernel, by decide +kernel, by decide +kernel, by decide +kernel, rfl, rfl⟩
  have opened := DiskSink.create_eq_ok_iff.2 ⟨staleFiles, _, way, made, rfl⟩
  have alike := alike_after _ _ _ _ opened
  refine ⟨rfl, left, _, opened, alike lateCalls, ?_, ?_⟩
  · exact (alike lateCalls).file
  · exact (alike (lateCalls ++ [truncate])).file

end SinkCall

end MediaHarvest
