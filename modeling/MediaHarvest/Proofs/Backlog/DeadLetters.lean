import MediaHarvest.Proofs.Backlog.Runs
import Mathlib.Logic.Function.Basic

/-!
# Dead letters in the order of their numbers

A `Shelf` says what should stand under every number, from whatever number on tasks are written down
and in whatever order they are given up.  The keys of numbers are in the order of the numbers, so the
dead letters are listed from the smallest number on, each with its own.
-/

namespace MediaHarvest.Backlog

/-! ## Shelves -/

/-- What stands under each number: a task that waits, and the dead letter of one that was given
up. -/
structure Shelf where
  /-- The number of the next task. -/
  next : UInt64
  tasks : UInt64 → Option Task
  letters : UInt64 → Option Wire.DeadLetter

/-- The shelf after a call; a number without a waiting task is not given up. -/
def Shelf.after (shelf : Shelf) : Call → Shelf
  | .enqueue task =>
      { shelf with
        next := shelf.next + 1
        tasks := Function.update shelf.tasks shelf.next (some task) }
  | .bury number reason now =>
      match shelf.tasks number with
      | some task =>
          { shelf with
            tasks := Function.update shelf.tasks number none
            letters := Function.update shelf.letters number
              (some (Burial.letter ⟨reason, now⟩ task)) }
      | none => shelf
  | .look _ | .list _ | .reopen => shelf

/-- The shelf after calls, one after another. -/
def Shelf.afterAll (shelf : Shelf) (calls : List Call) : Shelf := calls.foldl Shelf.after shelf

/-- The bytes of every waiting task are fewer than the bound on lengths. -/
def Shelf.Fits (shelf : Shelf) : Prop :=
  ∀ number task, shelf.tasks number = some task → (Wire.encodeTask task).length < 2 ^ 64

/-- The bytes of the task that a call writes down are. -/
def Call.Fits : Call → Prop
  | .enqueue task => (Wire.encodeTask task).length < 2 ^ 64
  | .bury .. | .look _ | .list _ | .reopen => True

theorem Shelf.Fits.after {shelf : Shelf} (fits : shelf.Fits) {call : Call} (short : call.Fits) :
    (shelf.after call).Fits := by
  cases call with
  | enqueue task =>
      intro number other found
      dsimp only [Shelf.after] at found
      rw [Function.update_apply] at found
      split at found
      · cases found
        exact short
      · exact fits number other found
  | bury number reason now =>
      rw [Shelf.after]
      split
      · intro other task found
        dsimp only at found
        rw [Function.update_apply] at found
        split at found
        · cases found
        · exact fits other task found
      · exact fits
  | look number => exact fits
  | list limit => exact fits
  | reopen => exact fits

/-! ## What the bytes stand for -/

/-- The entries are dead letters, each under the key of its number. -/
def Lettered (partition : Partition) (letters : UInt64 → Option Wire.DeadLetter) : Prop :=
  ∀ key bytes, partition.get? key = some bytes ↔
    ∃ number letter, letters number = some letter ∧ Partition.wordKey number = key ∧
      Wire.deadLetter.write letter = bytes

theorem Lettered.insert {partition : Partition} {letters : UInt64 → Option Wire.DeadLetter}
    (lettered : Lettered partition letters) (number : UInt64) (letter : Wire.DeadLetter) :
    Lettered (partition.insert (Partition.wordKey number) (Wire.deadLetter.write letter))
      (Function.update letters number (some letter)) := by
  intro key bytes
  rw [SortedMap.get?_insert]
  split
  · next own =>
    subst own
    constructor
    · rintro ⟨⟩
      exact ⟨number, letter, Function.update_self .., rfl, rfl⟩
    · rintro ⟨other, known, found, same, rfl⟩
      obtain rfl := Partition.wordKey_inj.1 same
      rw [Function.update_self] at found
      cases found
      rfl
  · next differ =>
    have apart {other : UInt64} (same : Partition.wordKey other = key) : other ≠ number := by
      rintro rfl
      exact differ same.symm
    rw [lettered]
    constructor
    · rintro ⟨other, known, found, same, written⟩
      exact ⟨other, known, (Function.update_of_ne (apart same) ..).trans found, same, written⟩
    · rintro ⟨other, known, found, same, written⟩
      rw [Function.update_of_ne (apart same)] at found
      exact ⟨other, known, found, same, written⟩

/-- A backlog stores what stands on a shelf. -/
structure Stores (backlog : Backlog) (shelf : Shelf) : Prop where
  next : backlog.next = shelf.next
  /-- The note gives the next number. -/
  noted : backlog.Noted
  tasks : ∀ number,
    backlog.tasks.get? (Partition.wordKey number) = (shelf.tasks number).map Wire.encodeTask
  letters : Lettered backlog.deadLetters shelf.letters
  /-- Every dead letter was written for a task. -/
  made : ∀ number letter, shelf.letters number = some letter →
    ∃ burial task, letter = Burial.letter burial task

variable {backlog start : Backlog} {shelf : Shelf}

namespace Stores

theorem enqueue (stores : backlog.Stores shelf) (task : Task) :
    (backlog.enqueue task).2.Stores (shelf.after (.enqueue task)) where
  next := congrArg (· + 1) stores.next
  noted := noted_enqueue backlog task
  tasks := by
    intro number
    rw [Backlog.enqueue, SortedMap.get?_insert, stores.next]
    dsimp only [Shelf.after]
    rw [Function.update_apply]
    simp only [Partition.wordKey_inj, stores.tasks]
    split <;> rfl
  letters := stores.letters
  made := stores.made

/-- The dead letter of a task takes the place of the task. -/
theorem giveUp (stores : backlog.Stores shelf) (number : UInt64) (burial : Burial) (task : Task) :
    { backlog with
      deadLetters := backlog.deadLetters.insert (Partition.wordKey number)
        (Wire.deadLetter.write (burial.letter task))
      tasks := backlog.tasks.erase (Partition.wordKey number) : Backlog }.Stores
      { shelf with
        tasks := Function.update shelf.tasks number none
        letters := Function.update shelf.letters number (some (burial.letter task)) } where
  next := stores.next
  noted := stores.noted
  tasks := by
    intro other
    dsimp only
    rw [SortedMap.get?_erase, Function.update_apply]
    simp only [Partition.wordKey_inj, stores.tasks]
    split <;> rfl
  letters := stores.letters.insert number (burial.letter task)
  made := by
    intro other letter found
    dsimp only at found
    rw [Function.update_apply] at found
    split at found
    · cases found
      exact ⟨burial, task, rfl⟩
    · exact stores.made other letter found

/-- A waiting task is given up, and no other one. -/
theorem bury (stores : backlog.Stores shelf) (fits : shelf.Fits) (number : UInt64)
    (reason : String) (now : Instant) :
    ((Call.bury number reason now).perform backlog).Stores
      (shelf.after (.bury number reason now)) := by
  have stored := stores.tasks number
  cases waiting : shelf.tasks number with
  | none =>
      rw [waiting] at stored
      rw [Call.perform, bury_of_missing stored, Shelf.after, waiting]
      exact stores
  | some task =>
      rw [waiting] at stored
      have moved : backlog.bury number reason now = .ok { backlog with
          deadLetters := backlog.deadLetters.insert (Partition.wordKey number)
            (Wire.deadLetter.write (Burial.letter ⟨reason, now⟩ task))
          tasks := backlog.tasks.erase (Partition.wordKey number) } := by
        rw [Backlog.bury, stored]
        dsimp only [Option.map_some]
        rw [Wire.read_encodeTask (fits number task waiting)]
        rfl
      rw [Call.perform, moved, Shelf.after, waiting]
      exact stores.giveUp number ⟨reason, now⟩ task

/-- A call changes what is stored as it changes the shelf. -/
theorem perform (stores : backlog.Stores shelf) (fits : shelf.Fits) (call : Call) :
    (call.perform backlog).Stores (shelf.after call) := by
  cases call with
  | enqueue task => exact stores.enqueue task
  | bury number reason now => exact stores.bury fits number reason now
  | look number => exact stores
  | list limit => exact stores
  | reopen =>
      rw [Call.perform, reopen_of_noted stores.noted]
      exact stores

/-- So do all calls of a run. -/
theorem performAll (calls : List Call) (stores : backlog.Stores shelf) (fits : shelf.Fits)
    (short : ∀ call ∈ calls, call.Fits) :
    (calls.foldl Call.perform backlog).Stores (shelf.afterAll calls) := by
  induction calls generalizing backlog shelf with
  | nil => exact stores
  | cons call rest ih =>
      exact ih (stores.perform fits call) (fits.after (short call List.mem_cons_self))
        fun other mem => short other (List.mem_cons_of_mem _ mem)

end Stores

/-! ## The list -/

/-- Every dead letter is read back as it was written. -/
def Shelf.Readable (shelf : Shelf) : Prop :=
  ∀ number letter, shelf.letters number = some letter →
    readLetter (Wire.deadLetter.write letter) = .ok letter

/-- Dead letters with few enough bytes are. -/
theorem Stores.readable (stores : backlog.Stores shelf)
    (short : ∀ number letter, shelf.letters number = some letter →
      (Wire.deadLetter.write letter).length < 2 ^ 64) : shelf.Readable := by
  intro number letter found
  obtain ⟨burial, task, rfl⟩ := stores.made number letter found
  exact readLetter_write (short number _ found)

/-- Entries for numbers and dead letters are read as these. -/
theorem readLetters_map (letters : List (UInt64 × Wire.DeadLetter))
    (back : ∀ pair ∈ letters, readLetter (Wire.deadLetter.write pair.2) = .ok pair.2) :
    readLetters (letters.map fun pair =>
      (Partition.wordKey pair.1, Wire.deadLetter.write pair.2)) = .ok letters := by
  induction letters with
  | nil => rfl
  | cons pair rest ih =>
      rw [List.map_cons, readLetters, readNumber, Partition.wordOfKey?_wordKey, ok_bind,
        back pair List.mem_cons_self, ok_bind, ih fun other mem => back other (.tail _ mem)]
      rfl

/-- The entries are those of the numbers with a dead letter, from the smallest one on. -/
theorem Stores.entries (stores : backlog.Stores shelf) :
    ∃ all : List (UInt64 × Wire.DeadLetter), (all.map Prod.fst).Pairwise (· < ·) ∧
      (∀ number letter, (number, letter) ∈ all ↔ shelf.letters number = some letter) ∧
      backlog.deadLetters.entries =
        all.map fun pair => (Partition.wordKey pair.1, Wire.deadLetter.write pair.2) := by
  have kept {entry : Bytes × Bytes} (mem : entry ∈ backlog.deadLetters.entries) :
      ∃ number letter, shelf.letters number = some letter ∧ Partition.wordKey number = entry.1 ∧
        Wire.deadLetter.write letter = entry.2 :=
    (stores.letters ..).1 (SortedMap.get?_eq_some_iff.2 mem)
  have listed (entries : List (Bytes × Bytes)) (inside : entries ⊆ backlog.deadLetters.entries) :
      ∃ all : List (UInt64 × Wire.DeadLetter),
        entries = all.map (fun pair =>
          (Partition.wordKey pair.1, Wire.deadLetter.write pair.2)) ∧
        ∀ pair ∈ all, shelf.letters pair.1 = some pair.2 := by
    induction entries with
    | nil => exact ⟨[], rfl, List.forall_mem_nil _⟩
    | cons entry rest ih =>
        obtain ⟨number, letter, found, key, written⟩ := kept (inside List.mem_cons_self)
        obtain ⟨all, rfl, each⟩ := ih fun other mem => inside (List.mem_cons_of_mem _ mem)
        refine ⟨(number, letter) :: all, ?_, ?_⟩
        · rw [List.map_cons, key, written]
        · exact List.forall_mem_cons.2 ⟨found, each⟩
  obtain ⟨all, same, each⟩ := listed _ (List.Subset.refl _)
  refine ⟨all, ?_, fun number letter => ⟨each (number, letter), fun found => ?_⟩, same⟩
  · have ascending := backlog.deadLetters.ascending
    rw [Ascending, same, List.pairwise_map] at ascending
    exact List.pairwise_map.2 (ascending.imp Partition.wordKey_lt_iff.1)
  · have stored := (stores.letters ..).2 ⟨number, letter, found, rfl, rfl⟩
    have mem := SortedMap.get?_eq_some_iff.1 stored
    rw [same] at mem
    obtain ⟨⟨other, known⟩, inside, equal⟩ := List.mem_map.1 mem
    obtain rfl : other = number := Partition.wordKey_inj.1 (congrArg Prod.fst equal)
    have again := each _ inside
    rw [found] at again
    cases again
    exact inside

/-- What is listed of dead letters: those of the smallest numbers, from the smallest one on, and of
each the one that is found under its number. -/
structure ListsInOrder (backlog : Backlog) (letters : UInt64 → Option Wire.DeadLetter) :
    Prop where
  /-- Every list is a front of the list of all. -/
  listed : ∃ all : List (UInt64 × Wire.DeadLetter), (all.map Prod.fst).Pairwise (· < ·) ∧
    (∀ number letter, (number, letter) ∈ all ↔ letters number = some letter) ∧
    ∀ limit, backlog.deadLetterList limit = .ok (all.take limit)
  found : ∀ number, backlog.deadLetter? number = .ok (letters number)
  /-- The bytes of the keys are in the order of the numbers that are read from them. -/
  keys : ∀ first second : UInt64,
    (Partition.wordKey first < Partition.wordKey second ↔ first < second) ∧
      readNumber (Partition.wordKey first) = .ok first

theorem Stores.listsInOrder (stores : backlog.Stores shelf) (readable : shelf.Readable) :
    backlog.ListsInOrder shelf.letters where
  listed := by
    obtain ⟨all, ascending, mem_iff, entries⟩ := stores.entries
    refine ⟨all, ascending, mem_iff, fun limit => ?_⟩
    rw [deadLetterList, entries, ← List.map_take]
    refine readLetters_map _ fun pair mem => readable pair.1 pair.2 ?_
    exact (mem_iff ..).1 (List.mem_of_mem_take mem)
  found := by
    intro number
    rw [deadLetter?]
    cases known : shelf.letters number with
    | some letter =>
        rw [(stores.letters ..).2 ⟨number, letter, known, rfl, rfl⟩]
        dsimp only
        rw [readable number letter known]
        rfl
    | none =>
        cases stored : backlog.deadLetters.get? (Partition.wordKey number) with
        | none => rfl
        | some bytes =>
            obtain ⟨other, letter, found, same, _⟩ := (stores.letters ..).1 stored
            obtain rfl := Partition.wordKey_inj.1 same
            rw [known] at found
            cases found
  keys := by
    intro first second
    refine ⟨Partition.wordKey_lt_iff, ?_⟩
    rw [readNumber, Partition.wordOfKey?_wordKey]

/-- Whatever numbers are given up in whatever order, and however often the backlog is closed and
opened again, the dead letters are listed in the order of their numbers. -/
theorem listsInOrder_run (calls : List Call) (stores : start.Stores shelf) (fits : shelf.Fits)
    (short : ∀ call ∈ calls, call.Fits)
    (shortLetters : ∀ number letter, (shelf.afterAll calls).letters number = some letter →
      (Wire.deadLetter.write letter).length < 2 ^ 64) :
    (calls.foldl Call.perform start).ListsInOrder (shelf.afterAll calls).letters := by
  have stores := stores.performAll calls fits short
  exact stores.listsInOrder (stores.readable shortLetters)

/-- The backlog whose entries were all deleted before a number was given out. -/
def clearedAt (number : UInt64) : Backlog :=
  ⟨∅, ∅, (∅ : Partition).insert nextNote (Partition.wordKey number), number⟩

/-- The shelf of such a backlog. -/
def Shelf.clearedAt (number : UInt64) : Shelf := ⟨number, fun _ => none, fun _ => none⟩

theorem stores_clearedAt (number : UInt64) : (clearedAt number).Stores (.clearedAt number) where
  next := rfl
  noted := .inl ((SortedMap.get?_insert ..).trans (if_pos rfl))
  tasks _ := rfl
  letters _ _ := ⟨nofun, nofun⟩
  made := nofun

/-- Tasks are written down around the number at which the last byte of a key overflows, and given up
from the last one on. -/
def carryCalls : List Call :=
  [.enqueue Wire.linkTask, .enqueue Wire.linkTask, .enqueue Wire.linkTask,
    .bury 257 "gone" .epoch, .bury 256 "gone" .epoch, .reopen, .bury 255 "gone" .epoch]

theorem listsInOrder_carryCalls :
    (clearedAt 255).Stores (.clearedAt 255) ∧ (Shelf.clearedAt 255).Fits ∧
      (∀ call ∈ carryCalls, call.Fits) ∧
      (∀ number letter, ((Shelf.clearedAt 255).afterAll carryCalls).letters number = some letter →
        (Wire.deadLetter.write letter).length < 2 ^ 64) ∧
      (carryCalls.foldl Call.perform (clearedAt 255)).ListsInOrder
        ((Shelf.clearedAt 255).afterAll carryCalls).letters := by
  have fits : (Shelf.clearedAt 255).Fits := nofun
  have short : ∀ call ∈ carryCalls, call.Fits := by
    have link : (Wire.encodeTask Wire.linkTask).length < 2 ^ 64 := by decide +kernel
    simp only [carryCalls, List.forall_mem_cons]
    exact ⟨link, link, link, trivial, trivial, trivial, trivial, fun _ => nofun⟩
  have shortLetters : ∀ number letter,
      ((Shelf.clearedAt 255).afterAll carryCalls).letters number = some letter →
        (Wire.deadLetter.write letter).length < 2 ^ 64 := by
    intro number letter found
    have alike : letter = Burial.letter ⟨"gone", .epoch⟩ Wire.linkTask := by
      have stacked : ((Shelf.clearedAt 255).afterAll carryCalls).letters =
          Function.update (Function.update (Function.update (fun _ => none)
            257 (some (Burial.letter ⟨"gone", .epoch⟩ Wire.linkTask)))
            256 (some (Burial.letter ⟨"gone", .epoch⟩ Wire.linkTask)))
            255 (some (Burial.letter ⟨"gone", .epoch⟩ Wire.linkTask)) := rfl
      rw [stacked] at found
      simp only [Function.update_apply] at found
      grind
    rw [alike]
    decide +kernel
  exact ⟨stores_clearedAt 255, fits, short, shortLetters,
    listsInOrder_run carryCalls (stores_clearedAt 255) fits short shortLetters⟩

end MediaHarvest.Backlog
