import MediaHarvest.Backlog
import MediaHarvest.Proofs.Except
import MediaHarvest.Proofs.SortedMap
import MediaHarvest.Proofs.Store.Partition
import MediaHarvest.Proofs.Wire.Records
import Mathlib.Data.List.Induction

/-!
# Runs of the backlog

What the backlog should hold is a list of items: the tasks in the order in which they were written
down, each with the way it was given up, if it was.  The stored bytes always stand for that list.
So every number that was given out is either that of a waiting task or that of a dead letter, and
closing and opening the backlog anywhere in between changes nothing.
-/

namespace MediaHarvest.Backlog

/-! ## Items and calls -/

/-- How a task was given up. -/
structure Burial where
  reason : String
  time : Instant

/-- A task that was written down, and how it was given up, if it was. -/
structure Item where
  task : Task
  burial : Option Burial

/-- The item after its task was given up; what was given up before stays as it is. -/
def Item.bury (burial : Burial) (item : Item) : Item :=
  { item with burial := some (item.burial.getD burial) }

/-- The dead letter of a task that was given up. -/
def Burial.letter (burial : Burial) (task : Task) : Wire.DeadLetter :=
  ⟨some (.ofTask task.inMillis), burial.reason, Int64.ofInt burial.time.toMillis⟩

/-- What stands among the tasks for an item. -/
def Item.waiting (item : Item) : Option Bytes :=
  match item.burial with
  | none => some (Wire.encodeTask item.task)
  | some _ => none

/-- What stands among the dead letters for an item. -/
def Item.buried (item : Item) : Option Bytes :=
  item.burial.map fun burial => Wire.deadLetter.write (burial.letter item.task)

/-- The bytes of an item are fewer than the bound on lengths, which are words of 64 bits. -/
structure Item.Fits (item : Item) : Prop where
  task : (Wire.encodeTask item.task).length < 2 ^ 64
  buried : ∀ bytes, item.buried = some bytes → bytes.length < 2 ^ 64

/-- A call of the backlog. -/
inductive Call where
  | enqueue (task : Task)
  | bury (number : UInt64) (reason : String) (now : Instant)
  | look (number : UInt64)
  | list (limit : Nat)
  | reopen

/-- The backlog after a call; a refused call gives no other one. -/
def Call.perform (backlog : Backlog) : Call → Backlog
  | .enqueue task => (backlog.enqueue task).2
  | .bury number reason now => (backlog.bury number reason now).toOption.getD backlog
  | .look _ | .list _ => backlog
  | .reopen => backlog.reopen.toOption.getD backlog

/-- The number that a call gives out. -/
def Call.number? (backlog : Backlog) : Call → Option UInt64
  | .enqueue task => some (backlog.enqueue task).1
  | .bury .. | .look _ | .list _ | .reopen => none

/-- The items after a call. -/
def Call.note (items : List Item) : Call → List Item
  | .enqueue task => items ++ [⟨task, none⟩]
  | .bury number reason now => items.modify number.toNat (Item.bury ⟨reason, now⟩)
  | .look _ | .list _ | .reopen => items

/-- The items after calls on an empty backlog. -/
def items (calls : List Call) : List Item := calls.foldl Call.note []

/-- The backlog after calls on an empty one. -/
def run (calls : List Call) : Backlog := calls.foldl Call.perform empty

/-- The numbers that are given out by calls on a backlog. -/
def numbers (backlog : Backlog) : List Call → List UInt64
  | [] => []
  | call :: calls => (call.number? backlog).toList ++ numbers (call.perform backlog) calls

theorem items_concat (calls : List Call) (call : Call) :
    items (calls ++ [call]) = call.note (items calls) := by
  rw [items, items, List.foldl_append]
  rfl

theorem run_concat (calls : List Call) (call : Call) :
    run (calls ++ [call]) = call.perform (run calls) := by
  rw [run, run, List.foldl_append]
  rfl

theorem numbers_concat (backlog : Backlog) (calls : List Call) (call : Call) :
    backlog.numbers (calls ++ [call]) =
      backlog.numbers calls ++ (call.number? (calls.foldl Call.perform backlog)).toList := by
  induction calls generalizing backlog with
  | nil => simp [numbers]
  | cons first calls ih =>
      rw [List.cons_append, numbers, ih, numbers, List.append_assoc]
      rfl

/-! ## What a call does to the items -/

theorem getElem?_concat {α : Type} (list : List α) (a : α) (index : Nat) :
    (list ++ [a])[index]? = if index = list.length then some a else list[index]? := by
  rcases Nat.lt_trichotomy index list.length with below | rfl | above
  · rw [List.getElem?_append_left below, if_neg (Nat.ne_of_lt below)]
  · rw [List.getElem?_concat_length, if_pos rfl]
  · rw [if_neg (Nat.ne_of_gt above), List.getElem?_eq_none (Nat.le_of_lt above),
      List.getElem?_eq_none (by rw [List.length_append, List.length_singleton]; exact above)]

/-- No call takes an item back. -/
theorem length_le_note (items : List Item) (call : Call) :
    items.length ≤ (call.note items).length := by
  cases call with
  | enqueue task =>
      rw [Call.note, List.length_append]
      exact Nat.le_add_right _ _
  | bury number reason now => exact Nat.le_of_eq (List.length_modify ..).symm
  | look number => exact Nat.le_refl _
  | list limit => exact Nat.le_refl _
  | reopen => exact Nat.le_refl _

/-- Giving an item up changes neither its task nor an earlier burial, so it makes no bytes fewer. -/
theorem Item.Fits.of_bury {item : Item} {burial : Burial} (fits : (item.bury burial).Fits) :
    item.Fits where
  task := fits.task
  buried bytes found := by
    obtain ⟨earlier, before, rfl⟩ := Option.map_eq_some_iff.1 found
    refine fits.buried _ ?_
    rw [Item.bury, before]
    rfl

theorem fits_of_note {items : List Item} {call : Call}
    (fits : ∀ item ∈ call.note items, item.Fits) : ∀ item ∈ items, item.Fits := by
  intro item mem
  cases call with
  | enqueue task => exact fits item (List.mem_append_left _ mem)
  | bury number reason now =>
      obtain ⟨index, inside, rfl⟩ := List.mem_iff_getElem.1 mem
      have after := List.getElem?_modify (Item.bury ⟨reason, now⟩) number.toNat items index
      rw [List.getElem?_eq_getElem inside] at after
      have kept := fits _ (List.mem_of_getElem? after)
      split at kept
      · exact kept.of_bury
      · exact kept
  | look number => exact fits item mem
  | list limit => exact fits item mem
  | reopen => exact fits item mem

/-! ## The note of the next number -/

/-- The note tells the next number, unless that is the first one. -/
def Noted (backlog : Backlog) : Prop :=
  backlog.notes.get? nextNote = some (Partition.wordKey backlog.next) ∨
    backlog.notes.get? nextNote = none ∧ backlog.next = 0

theorem noted_empty : empty.Noted := .inr ⟨rfl, rfl⟩

theorem noted_enqueue (backlog : Backlog) (task : Task) : (backlog.enqueue task).2.Noted := by
  left
  rw [enqueue, SortedMap.get?_insert, if_pos rfl]

/-- Opening the backlog again finds it as it was. -/
theorem reopen_of_noted {backlog : Backlog} (noted : backlog.Noted) :
    backlog.reopen = .ok backlog := by
  rw [reopen]
  rcases noted with noted | ⟨noted, first⟩
  · rw [noted]
    dsimp only
    rw [readNumber, Partition.wordOfKey?_wordKey]
    rfl
  · rw [noted, ← first]
    rfl

/-! ## What the bytes stand for -/

/-- The stored bytes stand for items. -/
structure Holds (backlog : Backlog) (items : List Item) : Prop where
  next : backlog.next = UInt64.ofNat items.length
  /-- The note gives the next number. -/
  noted : backlog.Noted
  tasks : ∀ number : UInt64,
    backlog.tasks.get? (Partition.wordKey number) = items[number.toNat]?.bind Item.waiting
  deadLetters : ∀ number : UInt64,
    backlog.deadLetters.get? (Partition.wordKey number) = items[number.toNat]?.bind Item.buried
  /-- Only numbers are keys. -/
  keyed : ∀ key, backlog.tasks.contains key = true ∨ backlog.deadLetters.contains key = true →
    ∃ number, key = Partition.wordKey number

theorem holds_empty : empty.Holds [] where
  next := rfl
  noted := noted_empty
  tasks _ := rfl
  deadLetters _ := rfl
  keyed key stored := by
    rcases stored with stored | stored
    · cases stored
    · cases stored

/-- What does not wait is not given up. -/
theorem bury_of_missing {backlog : Backlog} {number : UInt64}
    (missing : backlog.tasks.get? (Partition.wordKey number) = none) (reason : String)
    (now : Instant) : backlog.bury number reason now = .error (.taskNotFound number) := by
  rw [Backlog.bury, missing]
  rfl

section Step

variable {backlog : Backlog} {items : List Item} (holds : backlog.Holds items)

include holds

/-- The next number is that of the next item. -/
theorem Holds.toNat_eq_iff (few : items.length < 2 ^ 64) {number : UInt64} :
    number.toNat = items.length ↔ number = backlog.next := by
  have value : backlog.next.toNat = items.length := by
    rw [holds.next, UInt64.toNat_ofNat']
    exact Nat.mod_eq_of_lt few
  rw [← value]
  exact UInt64.toNat_inj

theorem Holds.enqueue (few : items.length + 1 < 2 ^ 64) (task : Task) :
    (backlog.enqueue task).2.Holds (items ++ [⟨task, none⟩]) where
  next := by
    rw [Backlog.enqueue, holds.next, List.length_append, UInt64.ofNat_add]
    rfl
  noted := noted_enqueue backlog task
  tasks number := by
    rw [Backlog.enqueue, getElem?_concat]
    simp only [SortedMap.get?_insert, Partition.wordKey_inj,
      holds.toNat_eq_iff (Nat.lt_of_succ_lt few), holds.tasks]
    split
    · rfl
    · rfl
  deadLetters number := by
    show backlog.deadLetters.get? _ = _
    rw [getElem?_concat, holds.deadLetters]
    split
    · next last =>
      rw [List.getElem?_eq_none (Nat.le_of_eq last.symm)]
      rfl
    · rfl
  keyed key stored := by
    rcases stored with stored | stored
    · rw [Backlog.enqueue, SortedMap.contains, SortedMap.get?_insert] at stored
      split at stored
      · next same => exact ⟨_, same⟩
      · exact holds.keyed key (.inl stored)
    · exact holds.keyed key (.inr stored)

/-- The note of an item that is given up takes its place, and no other place changes. -/
theorem Holds.bury {number : UInt64} {item : Item} (found : items[number.toNat]? = some item)
    (waits : item.burial = none) (burial : Burial) :
    { backlog with
      deadLetters := backlog.deadLetters.insert (Partition.wordKey number)
        (Wire.deadLetter.write (burial.letter item.task))
      tasks := backlog.tasks.erase (Partition.wordKey number) : Backlog }.Holds
      (items.modify number.toNat (Item.bury burial)) where
  next := by rw [List.length_modify, holds.next]
  noted := holds.noted
  tasks other := by
    rw [SortedMap.get?_erase, List.getElem?_modify]
    simp only [Partition.wordKey_inj]
    split
    · next same =>
      subst same
      rw [found]
      simp [Item.bury, Item.waiting]
    · next differ =>
      have apart : ¬ number.toNat = other.toNat := fun same => differ (UInt64.toNat_inj.1 same).symm
      simp [apart, holds.tasks]
  deadLetters other := by
    rw [SortedMap.get?_insert, List.getElem?_modify]
    simp only [Partition.wordKey_inj]
    split
    · next same =>
      subst same
      rw [found]
      simp [Item.bury, Item.buried, waits]
    · next differ =>
      have apart : ¬ number.toNat = other.toNat := fun same => differ (UInt64.toNat_inj.1 same).symm
      simp [apart, holds.deadLetters]
  keyed key stored := by
    rcases stored with stored | stored
    · rw [SortedMap.contains, SortedMap.get?_erase] at stored
      split at stored
      · cases stored
      · exact holds.keyed key (.inl stored)
    · rw [SortedMap.contains, SortedMap.get?_insert] at stored
      split at stored
      · next same => exact ⟨_, same⟩
      · exact holds.keyed key (.inr stored)

theorem Holds.get?_of_waiting {number : UInt64} {item : Item}
    (found : items[number.toNat]? = some item) (waits : item.burial = none) :
    backlog.tasks.get? (Partition.wordKey number) = some (Wire.encodeTask item.task) := by
  rw [holds.tasks, found, Option.bind_some, Item.waiting, waits]

theorem Holds.get?_of_buried {number : UInt64} {item : Item} {burial : Burial}
    (found : items[number.toNat]? = some item) (given : item.burial = some burial) :
    backlog.tasks.get? (Partition.wordKey number) = none ∧
      backlog.deadLetters.get? (Partition.wordKey number) =
        some (Wire.deadLetter.write (burial.letter item.task)) := by
  rw [holds.tasks, holds.deadLetters, found, Option.bind_some, Option.bind_some, Item.waiting,
    Item.buried, given]
  exact ⟨rfl, rfl⟩

/-- What stands among the tasks is that of a waiting item. -/
theorem Holds.waiting_of_get? {number : UInt64} {bytes : Bytes}
    (stored : backlog.tasks.get? (Partition.wordKey number) = some bytes) :
    ∃ item, items[number.toNat]? = some item ∧ item.burial = none := by
  rw [holds.tasks] at stored
  obtain ⟨item, found, waiting⟩ := Option.bind_eq_some_iff.1 stored
  refine ⟨item, found, ?_⟩
  cases given : item.burial with
  | none => rfl
  | some burial => simp [Item.waiting, given] at waiting

/-- A waiting task is given up with its dead letter under the same number. -/
theorem Holds.bury_of_waiting {number : UInt64} {item : Item}
    (found : items[number.toNat]? = some item) (waits : item.burial = none) (fits : item.Fits)
    (reason : String) (now : Instant) :
    backlog.bury number reason now = .ok { backlog with
      deadLetters := backlog.deadLetters.insert (Partition.wordKey number)
        (Wire.deadLetter.write (Burial.letter ⟨reason, now⟩ item.task))
      tasks := backlog.tasks.erase (Partition.wordKey number) } := by
  rw [Backlog.bury, holds.get?_of_waiting found waits]
  dsimp only
  rw [Wire.read_encodeTask fits.task]
  rfl

/-- Without a waiting task nothing is given up. -/
theorem Holds.modify_of_missing {number : UInt64}
    (missing : backlog.tasks.get? (Partition.wordKey number) = none) (burial : Burial) :
    items.modify number.toNat (Item.bury burial) = items := by
  apply List.ext_getElem?
  intro index
  rw [List.getElem?_modify]
  split
  · next same =>
    subst same
    cases found : items[number.toNat]? with
    | none => rfl
    | some item =>
        cases given : item.burial with
        | none =>
            rw [holds.get?_of_waiting found given] at missing
            cases missing
        | some earlier =>
            have same : item.bury burial = item := by
              rw [Item.bury, given, Option.getD_some, ← given]
            simp [same]
  · exact id_map _

theorem Holds.perform_bury (fits : ∀ item ∈ items, item.Fits) (number : UInt64) (reason : String)
    (now : Instant) :
    ((Call.bury number reason now).perform backlog).Holds
      ((Call.bury number reason now).note items) := by
  cases stored : backlog.tasks.get? (Partition.wordKey number) with
  | none =>
      rw [Call.perform, bury_of_missing stored, Call.note, holds.modify_of_missing stored]
      exact holds
  | some bytes =>
      obtain ⟨item, found, waits⟩ := holds.waiting_of_get? stored
      rw [Call.perform, holds.bury_of_waiting found waits (fits item (List.mem_of_getElem? found))]
      exact holds.bury found waits ⟨reason, now⟩

theorem holds_perform (call : Call) (few : (call.note items).length < 2 ^ 64)
    (fits : ∀ item ∈ items, item.Fits) : (call.perform backlog).Holds (call.note items) := by
  cases call with
  | enqueue task =>
      rw [Call.note, List.length_append] at few
      exact holds.enqueue few task
  | bury number reason now => exact holds.perform_bury fits number reason now
  | look number => exact holds
  | list limit => exact holds
  | reopen =>
      rw [Call.perform, reopen_of_noted holds.noted]
      exact holds

end Step

/-- The bytes stand for the items after all calls. -/
theorem holds_run (calls : List Call) (few : (items calls).length < 2 ^ 64)
    (fits : ∀ item ∈ items calls, item.Fits) : (run calls).Holds (items calls) := by
  induction calls using List.reverseRecOn with
  | nil => exact holds_empty
  | append_singleton calls call ih =>
      rw [items_concat] at few fits ⊢
      rw [run_concat]
      have fewer := Nat.lt_of_le_of_lt (length_le_note _ call) few
      have before := fits_of_note fits
      exact holds_perform (ih fewer before) call few before

/-- The numbers that were given out are those of the items, in their order. -/
theorem numbers_run (calls : List Call) (few : (items calls).length < 2 ^ 64)
    (fits : ∀ item ∈ items calls, item.Fits) :
    empty.numbers calls = (List.range (items calls).length).map UInt64.ofNat := by
  induction calls using List.reverseRecOn with
  | nil => rfl
  | append_singleton calls call ih =>
      rw [items_concat] at few fits
      have fewer := Nat.lt_of_le_of_lt (length_le_note _ call) few
      have before := fits_of_note fits
      rw [numbers_concat, ih fewer before, items_concat]
      cases call with
      | enqueue task =>
          have next : (run calls).next = UInt64.ofNat (items calls).length :=
            (holds_run calls fewer before).next
          rw [Call.note, List.length_append, List.length_singleton, List.range_succ,
            List.map_append, List.map_singleton, ← next]
          rfl
      | bury number reason now =>
          rw [Call.note, List.length_modify]
          exact List.append_nil _
      | look number => exact List.append_nil _
      | list limit => exact List.append_nil _
      | reopen => exact List.append_nil _

/-! ## What the answers are -/

/-- A dead letter is read back as it was written. -/
theorem readLetter_write {task : Task} {burial : Burial}
    (fits : (Wire.deadLetter.write (burial.letter task)).length < 2 ^ 64) :
    readLetter (Wire.deadLetter.write (burial.letter task)) = .ok (burial.letter task) := by
  have whole : ∀ message, (burial.letter task).task = some message →
      ∀ limits, message.limits = some limits → limits.Whole := by
    rintro _ ⟨⟩
    exact Wire.whole_ofTask_inMillis task
  rw [readLetter, Wire.Message.read_write Wire.deadLetter_numbered
    (Wire.deadLetter_carries (by decide) whole) fits]
  rfl

/-- Entries that can be read are read one by one. -/
theorem readLetters_of_readable {entries : List (Bytes × Bytes)}
    (readable : ∀ entry ∈ entries, ∃ number letter,
      entry.1 = Partition.wordKey number ∧ readLetter entry.2 = .ok letter) :
    ∃ letters, readLetters entries = .ok letters ∧
      letters.map (fun letter => Partition.wordKey letter.1) = entries.map Prod.fst ∧
      ∀ number letter, (number, letter) ∈ letters →
        ∃ bytes, (Partition.wordKey number, bytes) ∈ entries ∧ readLetter bytes = .ok letter := by
  induction entries with
  | nil => exact ⟨[], rfl, rfl, fun _ _ mem => by cases mem⟩
  | cons entry rest ih =>
      obtain ⟨key, bytes⟩ := entry
      obtain ⟨number, letter, same, read⟩ := readable _ List.mem_cons_self
      obtain ⟨letters, run, keys, each⟩ := ih fun entry mem =>
        readable entry (List.mem_cons_of_mem _ mem)
      dsimp only at same read
      subst same
      refine ⟨(number, letter) :: letters, ?_, ?_, ?_⟩
      · rw [readLetters, readNumber, Partition.wordOfKey?_wordKey, ok_bind, read, ok_bind, run]
        rfl
      · rw [List.map_cons, List.map_cons, keys]
      · intro other otherLetter mem
        rcases List.mem_cons.1 mem with first | later
        · cases first
          exact ⟨bytes, List.mem_cons_self, read⟩
        · obtain ⟨bytes, mem, read⟩ := each other otherLetter later
          exact ⟨bytes, List.mem_cons_of_mem _ mem, read⟩

/-- A backlog keeps items durably. -/
structure Durable (backlog : Backlog) (items : List Item) : Prop where
  /-- The next number is the count of the tasks that were ever written down. -/
  current : backlog.next.toNat = items.length
  /-- Closing and opening it changes nothing. -/
  reopened : backlog.reopen = .ok backlog
  /-- Every number that was given out is in exactly one of the two partitions. -/
  placed : ∀ number : UInt64, number.toNat < items.length →
    backlog.deadLetters.contains (Partition.wordKey number) =
      !backlog.tasks.contains (Partition.wordKey number)
  /-- There are no other keys in either. -/
  others : ∀ key, backlog.tasks.contains key = true ∨ backlog.deadLetters.contains key = true →
    ∃ number : UInt64, number.toNat < items.length ∧ key = Partition.wordKey number
  /-- A task that waits is given back, with its durations in milliseconds. -/
  waiting : ∀ (number : UInt64) (item : Item), items[number.toNat]? = some item →
    item.burial = none → backlog.task? number = .ok (some item.task.inMillis)
  /-- A task that was given up is no longer found; its dead letter stands for it and tells the
  reason. -/
  buried : ∀ (number : UInt64) (item : Item) (burial : Burial),
    items[number.toNat]? = some item → item.burial = some burial →
    backlog.task? number = .ok none ∧
      ∃ letter message, backlog.deadLetter? number = .ok (some letter) ∧
        letter.task = some message ∧ message.toTask = .ok item.task.inMillis ∧
        letter.reason = burial.reason ∧
        letter.failedAtMillis = Int64.ofInt burial.time.toMillis
  /-- A task that waits can be given up. -/
  accepted : ∀ number reason now,
    backlog.tasks.contains (Partition.wordKey number) = true →
    ∃ after, backlog.bury number reason now = .ok after
  /-- Any other number is refused, and nothing changes. -/
  refused : ∀ number reason now,
    backlog.tasks.contains (Partition.wordKey number) = false →
    backlog.bury number reason now = .error (.taskNotFound number) ∧
      (Call.bury number reason now).perform backlog = backlog
  /-- The list gives the first dead letters in the order of their numbers. -/
  listed : ∀ limit, ∃ letters, backlog.deadLetterList limit = .ok letters ∧
    letters.map (fun letter => Partition.wordKey letter.1) =
      backlog.deadLetters.keys.take limit ∧
    ∀ number letter, (number, letter) ∈ letters →
      backlog.deadLetter? number = .ok (some letter)

section Answers

variable {backlog : Backlog} {items : List Item} (holds : backlog.Holds items)

include holds

/-- What stands among the dead letters is that of an item that was given up. -/
theorem Holds.buried_of_get? {number : UInt64} {bytes : Bytes}
    (stored : backlog.deadLetters.get? (Partition.wordKey number) = some bytes) :
    ∃ item burial, items[number.toNat]? = some item ∧ item.burial = some burial ∧
      bytes = Wire.deadLetter.write (burial.letter item.task) := by
  rw [holds.deadLetters] at stored
  obtain ⟨item, found, buried⟩ := Option.bind_eq_some_iff.1 stored
  obtain ⟨burial, given, same⟩ := Option.map_eq_some_iff.1 buried
  exact ⟨item, burial, found, given, same.symm⟩

theorem Holds.placed {number : UInt64} (issued : number.toNat < items.length) :
    backlog.deadLetters.contains (Partition.wordKey number) =
      !backlog.tasks.contains (Partition.wordKey number) := by
  have found := List.getElem?_eq_getElem issued
  cases given : items[number.toNat].burial with
  | none =>
      rw [SortedMap.contains, SortedMap.contains, holds.get?_of_waiting found given,
        holds.deadLetters, found, Option.bind_some, Item.buried, given]
      rfl
  | some burial =>
      obtain ⟨missing, letter⟩ := holds.get?_of_buried found given
      rw [SortedMap.contains, SortedMap.contains, missing, letter]
      rfl

theorem Holds.issued_of_stored {key : Bytes}
    (stored : backlog.tasks.contains key = true ∨ backlog.deadLetters.contains key = true) :
    ∃ number : UInt64, number.toNat < items.length ∧ key = Partition.wordKey number := by
  obtain ⟨number, rfl⟩ := holds.keyed key stored
  refine ⟨number, ?_, rfl⟩
  have found : ∃ item, items[number.toNat]? = some item := by
    rcases stored with stored | stored
    · obtain ⟨bytes, stored⟩ := Option.isSome_iff_exists.1 stored
      obtain ⟨item, found, _⟩ := holds.waiting_of_get? stored
      exact ⟨item, found⟩
    · obtain ⟨bytes, stored⟩ := Option.isSome_iff_exists.1 stored
      obtain ⟨item, _, found, _⟩ := holds.buried_of_get? stored
      exact ⟨item, found⟩
  obtain ⟨item, found⟩ := found
  exact (List.getElem?_eq_some_iff.1 found).1

theorem Holds.task?_of_waiting {number : UInt64} {item : Item}
    (found : items[number.toNat]? = some item) (waits : item.burial = none) (fits : item.Fits) :
    backlog.task? number = .ok (some item.task.inMillis) := by
  rw [task?, holds.get?_of_waiting found waits]
  dsimp only
  rw [Wire.decodeTask_encodeTask_inMillis fits.task]
  rfl

theorem Holds.task?_of_buried {number : UInt64} {item : Item} {burial : Burial}
    (found : items[number.toNat]? = some item) (given : item.burial = some burial) :
    backlog.task? number = .ok none := by
  rw [task?, (holds.get?_of_buried found given).1]

theorem Holds.deadLetter?_of_buried {number : UInt64} {item : Item} {burial : Burial}
    (found : items[number.toNat]? = some item) (given : item.burial = some burial)
    (fits : item.Fits) : backlog.deadLetter? number = .ok (some (burial.letter item.task)) := by
  have short := fits.buried _ (by rw [Item.buried, given]; rfl)
  rw [deadLetter?, (holds.get?_of_buried found given).2]
  dsimp only
  rw [readLetter_write short]
  rfl

/-- Every dead letter can be listed. -/
theorem Holds.readable (fits : ∀ item ∈ items, item.Fits) {key bytes : Bytes}
    (mem : (key, bytes) ∈ backlog.deadLetters.entries) :
    ∃ number letter, key = Partition.wordKey number ∧ readLetter bytes = .ok letter := by
  have stored := SortedMap.get?_eq_some_iff.2 mem
  obtain ⟨number, rfl⟩ := holds.keyed key (.inr (Option.isSome_iff_exists.2 ⟨bytes, stored⟩))
  obtain ⟨item, burial, found, given, rfl⟩ := holds.buried_of_get? stored
  have short := (fits item (List.mem_of_getElem? found)).buried _ (by rw [Item.buried, given]; rfl)
  exact ⟨number, _, rfl, readLetter_write short⟩

theorem Holds.listed (fits : ∀ item ∈ items, item.Fits) (limit : Nat) :
    ∃ letters, backlog.deadLetterList limit = .ok letters ∧
      letters.map (fun letter => Partition.wordKey letter.1) =
        backlog.deadLetters.keys.take limit ∧
      ∀ number letter, (number, letter) ∈ letters →
        backlog.deadLetter? number = .ok (some letter) := by
  obtain ⟨letters, read, keys, each⟩ := readLetters_of_readable
    fun entry (mem : entry ∈ backlog.deadLetters.entries.take limit) =>
      holds.readable fits (List.mem_of_mem_take mem)
  refine ⟨letters, read, keys.trans (List.map_take ..), fun number letter mem => ?_⟩
  obtain ⟨bytes, stored, readable⟩ := each number letter mem
  rw [deadLetter?, SortedMap.get?_eq_some_iff.2 (List.mem_of_mem_take stored)]
  dsimp only
  rw [readable]
  rfl

theorem Holds.durable (few : items.length < 2 ^ 64) (fits : ∀ item ∈ items, item.Fits) :
    backlog.Durable items where
  current := (holds.toNat_eq_iff few).2 rfl
  reopened := reopen_of_noted holds.noted
  placed _ := holds.placed
  others _ := holds.issued_of_stored
  waiting number item found waits :=
    holds.task?_of_waiting found waits (fits item (List.mem_of_getElem? found))
  buried number item burial found given :=
    ⟨holds.task?_of_buried found given, burial.letter item.task, .ofTask item.task.inMillis,
      holds.deadLetter?_of_buried found given (fits item (List.mem_of_getElem? found)), rfl,
      Wire.TaskMessage.toTask_ofTask _, rfl, rfl⟩
  accepted number reason now stored := by
    obtain ⟨bytes, stored⟩ := Option.isSome_iff_exists.1 stored
    obtain ⟨item, found, waits⟩ := holds.waiting_of_get? stored
    exact ⟨_, holds.bury_of_waiting found waits (fits item (List.mem_of_getElem? found)) reason now⟩
  refused number reason now missing := by
    have refusal := bury_of_missing (Option.not_isSome_iff_eq_none.1 (Bool.eq_false_iff.1 missing))
      reason now
    exact ⟨refusal, by rw [Call.perform, refusal]; rfl⟩
  listed := holds.listed fits

end Answers

/-- However the backlog is used and wherever it is closed and opened again, the numbers that it
gives out are 0, 1, 2 and so on, and it keeps the tasks that were written down and the dead letters
of those that were given up.  Numbers and lengths are words of 64 bits: there are fewer tasks and
fewer bytes than their bound. -/
theorem durable_run (calls : List Call) (few : (items calls).length < 2 ^ 64)
    (fits : ∀ item ∈ items calls, item.Fits) :
    empty.numbers calls = (List.range (items calls).length).map UInt64.ofNat ∧
      (run calls).Durable (items calls) :=
  ⟨numbers_run calls few fits, (holds_run calls few fits).durable few fits⟩

/-- A task is given up twice, and another one is written down after the backlog was opened again;
its retrieval time is not of whole milliseconds. -/
def linkCalls : List Call :=
  [.enqueue Wire.linkTask, .bury 0 "node node-0 channel closed" .epoch, .bury 0 "again" .epoch,
    .reopen, .enqueue { Wire.linkTask with
      limits := { Wire.linkTask.limits with retrievalTime := ⟨1500000700⟩ } }]

theorem durable_linkCalls :
    (items linkCalls).length < 2 ^ 64 ∧ (∀ item ∈ items linkCalls, item.Fits) ∧
      empty.numbers linkCalls = [0, 1] ∧ (run linkCalls).Durable (items linkCalls) := by
  have few : (items linkCalls).length < 2 ^ 64 := by decide
  have fits : ∀ item ∈ items linkCalls, item.Fits := by
    rintro item (_ | ⟨_, _ | ⟨_, ⟨⟩⟩⟩)
    · exact ⟨by decide +kernel, by rintro bytes ⟨⟩; decide +kernel⟩
    · exact ⟨by decide +kernel, by rintro bytes ⟨⟩⟩
  exact ⟨few, fits, durable_run linkCalls few fits⟩

end MediaHarvest.Backlog
