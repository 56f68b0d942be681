import MediaHarvest.Backlog
import MediaHarvest.Proofs.SortedMap
import MediaHarvest.Proofs.Store.Partition

/-!
# Writing many tasks down

Tasks that are written to the backlog one after another stand under consecutive numbers, and all
else stays where it was.
-/

namespace MediaHarvest.Backlog

/-- Writes tasks down one after another. -/
def enqueueAll (backlog : Backlog) (tasks : List Task) : Backlog :=
  tasks.foldl (fun backlog task => (backlog.enqueue task).2) backlog

/-- The task at a position stands under the number that is that far from the first one; under any
other number nothing changes. -/
theorem get?_enqueueAll (tasks : List Task) (few : tasks.length ≤ 2 ^ 64) (backlog : Backlog)
    (number : UInt64) :
    (backlog.enqueueAll tasks).tasks.get? (Partition.wordKey number) =
      match tasks[(number - backlog.next).toNat]? with
      | some task => some (Wire.encodeTask task)
      | none => backlog.tasks.get? (Partition.wordKey number) := by
  induction tasks generalizing backlog with
  | nil => simp [enqueueAll]
  | cons task rest ih =>
      have fewer : rest.length < 2 ^ 64 := few
      have written : (backlog.enqueue task).2.tasks.get? (Partition.wordKey number) =
          if number = backlog.next then some (Wire.encodeTask task)
          else backlog.tasks.get? (Partition.wordKey number) := by
        rw [enqueue, SortedMap.get?_insert]
        simp only [Partition.wordKey_inj]
      rw [enqueueAll, List.foldl_cons, ← enqueueAll, ih (Nat.le_of_lt fewer)]
      show (match rest[(number - (backlog.next + 1)).toNat]? with
        | some task => some (Wire.encodeTask task)
        | none => (backlog.enqueue task).2.tasks.get? (Partition.wordKey number)) = _
      by_cases same : number = backlog.next
      · -- the number of the first task lies behind those of all the others
        have last : (number - (backlog.next + 1)).toNat = 2 ^ 64 - 1 := by
          rw [same]
          have : backlog.next - (backlog.next + 1) = -1 := by grind
          rw [this]
          rfl
        have first : (number - backlog.next).toNat = 0 := by
          rw [same, UInt64.sub_self]
          rfl
        rw [last, List.getElem?_eq_none (by omega), first, written, if_pos same]
        rfl
      · have nonzero : (number - backlog.next).toNat ≠ 0 := by
          intro zero
          have : number - backlog.next = 0 := UInt64.toNat_inj.1 zero
          exact same (by grind)
        have later : (number - backlog.next).toNat = (number - (backlog.next + 1)).toNat + 1 := by
          have shift : number - (backlog.next + 1) = number - backlog.next - 1 := by grind
          have low : 1 ≤ number - backlog.next :=
            UInt64.le_iff_toNat_le.2 (Nat.one_le_iff_ne_zero.2 nonzero)
          rw [shift, UInt64.toNat_sub_of_le _ _ low]
          show _ = _ - 1 + 1
          omega
        rw [later, List.getElem?_cons_succ, written, if_neg same]

/-- Tasks under free numbers are so many further entries. -/
theorem size_enqueueAll (tasks : List Task) (few : tasks.length ≤ 2 ^ 64) (backlog : Backlog)
    (free : ∀ index < tasks.length,
      backlog.tasks.contains (Partition.wordKey (backlog.next + UInt64.ofNat index)) = false) :
    (backlog.enqueueAll tasks).tasks.size = backlog.tasks.size + tasks.length := by
  induction tasks generalizing backlog with
  | nil => rfl
  | cons task rest ih =>
      have fewer : rest.length < 2 ^ 64 := few
      have first : (backlog.enqueue task).2.tasks.size = backlog.tasks.size + 1 := by
        have new := free 0 (Nat.succ_pos _)
        rw [show backlog.next + UInt64.ofNat 0 = backlog.next from UInt64.add_zero _] at new
        exact SortedMap.size_insert_of_new new _
      have later : ∀ index < rest.length, (backlog.enqueue task).2.tasks.contains
          (Partition.wordKey ((backlog.enqueue task).2.next + UInt64.ofNat index)) = false := by
        intro index inside
        have new := free (index + 1) (Nat.succ_lt_succ inside)
        have number : backlog.next + UInt64.ofNat (index + 1) =
            backlog.next + 1 + UInt64.ofNat index := by
          rw [UInt64.ofNat_add, UInt64.add_comm (UInt64.ofNat index), ← UInt64.add_assoc]
          rfl
        have differ : backlog.next + 1 + UInt64.ofNat index ≠ backlog.next := by
          rw [← number]
          intro same
          have zero : UInt64.ofNat (index + 1) = 0 := by grind
          have value := congrArg UInt64.toNat zero
          rw [UInt64.toNat_ofNat_of_lt' (by rw [UInt64.size]; omega)] at value
          exact absurd value (Nat.succ_ne_zero index)
        rw [enqueue, SortedMap.contains, SortedMap.get?_insert]
        dsimp only
        rw [if_neg fun same => differ (Partition.wordKey_inj.1 same), ← number]
        exact new
      rw [enqueueAll, List.foldl_cons, ← enqueueAll, ih (Nat.le_of_lt fewer) _ later, first,
        List.length_cons]
      omega

/-- A backlog grew by tasks: they were written down in their order. -/
structure GrownBy (backlog after : Backlog) (tasks : List Task) : Prop where
  /-- They were written down one after another. -/
  written : after = backlog.enqueueAll tasks
  /-- They stand under the next numbers, and nothing else changed. -/
  entries : tasks.length ≤ 2 ^ 64 → ∀ number,
    after.tasks.get? (Partition.wordKey number) =
      match tasks[(number - backlog.next).toNat]? with
      | some task => some (Wire.encodeTask task)
      | none => backlog.tasks.get? (Partition.wordKey number)
  /-- Unless a number was taken, there are so many entries more. -/
  size : tasks.length ≤ 2 ^ 64 →
    (∀ index < tasks.length,
      backlog.tasks.contains (Partition.wordKey (backlog.next + UInt64.ofNat index)) = false) →
    after.tasks.size = backlog.tasks.size + tasks.length

theorem grownBy_enqueueAll (backlog : Backlog) (tasks : List Task) :
    backlog.GrownBy (backlog.enqueueAll tasks) tasks :=
  ⟨rfl, fun few => get?_enqueueAll tasks few backlog,
    fun few => size_enqueueAll tasks few backlog⟩

end MediaHarvest.Backlog
