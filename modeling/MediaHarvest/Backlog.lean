import MediaHarvest.Store.Partition
import MediaHarvest.Wire.Records

/-!
# The backlog of tasks

Every task is written down under the next number before it is handed to a node.  One that cannot be
delivered moves to the dead letters under the same number.  The next number is kept as a note, so
that it goes on after the backlog was closed and opened again.
-/

namespace MediaHarvest

/-- The tasks that were handed out. -/
structure Backlog where
  /-- Tasks by their numbers. -/
  tasks : Partition
  /-- Undelivered tasks by their numbers. -/
  deadLetters : Partition
  notes : Partition
  next : UInt64
deriving DecidableEq

/-- Why the backlog refuses. -/
inductive BacklogError where
  /-- What is stored is not a message. -/
  | unreadable (fault : Wire.Fault)
  /-- What is stored is not a task. -/
  | notATask (error : Wire.DecodeError)
  | taskNotFound (number : UInt64)
  /-- A number does not have eight bytes. -/
  | invalidNumber
deriving DecidableEq, Repr

/-- The wording of a refusal of the backlog. -/
def BacklogError.message : BacklogError → String
  | .unreadable fault => s!"Protobuf decode error: {fault.text}"
  | .notATask error => s!"Task decode error: {error.message}"
  | .taskNotFound number => s!"Task not found: seq={number}"
  | .invalidNumber => "Invalid sequence key"

namespace Backlog

/-- The backlog without entries. -/
def empty : Backlog := ⟨∅, ∅, ∅, 0⟩

instance : Inhabited Backlog := ⟨empty⟩

/-- The note that keeps the next number. -/
def nextNote : Bytes := Text.utf8 "next_seq"

/-- Reads a number. -/
def readNumber (bytes : Bytes) : Except BacklogError UInt64 :=
  match Partition.wordOfKey? bytes with
  | some number => .ok number
  | none => .error .invalidNumber

/-- Opens the backlog that is stored, with the number that the note gives. -/
def reopen (backlog : Backlog) : Except BacklogError Backlog := do
  match backlog.notes.get? nextNote with
  | some bytes => return { backlog with next := ← readNumber bytes }
  | none => return { backlog with next := 0 }

/-- Writes a task down under the next number. -/
def enqueue (backlog : Backlog) (task : Task) : UInt64 × Backlog :=
  let number := backlog.next
  (number,
    { backlog with
      tasks := backlog.tasks.insert (Partition.wordKey number) (Wire.encodeTask task)
      notes := backlog.notes.insert nextNote (Partition.wordKey (number + 1))
      next := number + 1 })

/-- The task with a number. -/
def task? (backlog : Backlog) (number : UInt64) : Except BacklogError (Option Task) :=
  match backlog.tasks.get? (Partition.wordKey number) with
  | none => .ok none
  | some bytes => some <$> (Wire.decodeTask bytes).mapError .notATask

/-- Moves a task to the dead letters. -/
def bury (backlog : Backlog) (number : UInt64) (reason : String) (now : Instant) :
    Except BacklogError Backlog := do
  let key := Partition.wordKey number
  let some bytes := backlog.tasks.get? key | throw (.taskNotFound number)
  let task ← (Wire.taskMessage.read bytes).mapError .unreadable
  let letter : Wire.DeadLetter := ⟨some task, reason, Int64.ofInt now.toMillis⟩
  return { backlog with
    deadLetters := backlog.deadLetters.insert key (Wire.deadLetter.write letter)
    tasks := backlog.tasks.erase key }

/-- Reads a dead letter. -/
def readLetter (bytes : Bytes) : Except BacklogError Wire.DeadLetter :=
  (Wire.deadLetter.read bytes).mapError .unreadable

/-- The dead letter with a number. -/
def deadLetter? (backlog : Backlog) (number : UInt64) :
    Except BacklogError (Option Wire.DeadLetter) :=
  match backlog.deadLetters.get? (Partition.wordKey number) with
  | none => .ok none
  | some bytes => some <$> readLetter bytes

/-- Reads numbered dead letters in order. -/
def readLetters : List (Bytes × Bytes) → Except BacklogError (List (UInt64 × Wire.DeadLetter))
  | [] => .ok []
  | (key, bytes) :: rest => do
      let number ← readNumber key
      let letter ← readLetter bytes
      let letters ← readLetters rest
      return (number, letter) :: letters

/-- The first dead letters in the order of their numbers. -/
def deadLetterList (backlog : Backlog) (limit : Nat) :
    Except BacklogError (List (UInt64 × Wire.DeadLetter)) :=
  readLetters (backlog.deadLetters.entries.take limit)

end Backlog

end MediaHarvest
