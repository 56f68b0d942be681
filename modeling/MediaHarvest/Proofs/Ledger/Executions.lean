import MediaHarvest.Proofs.Ledger.Partitions
import MediaHarvest.Proofs.Ledger.Records
import MediaHarvest.Proofs.Ledger.Recordings
import Mathlib.Data.List.Find
import Mathlib.Data.List.Induction

/-!
# Executions in the ledger

An execution is kept for a `Slot`, whose parts are joined with a zero character into a key.  Slots
whose parts join to the same text share a key, and a scan for a resource finds whatever key goes on
from it with a zero character.  Both need a zero character inside an identifier: as long as no
resource has one, every slot has a key of its own and a scan finds the slots of its resource.
-/

namespace MediaHarvest

open MediaHarvest.Partition

/-! ## Texts without zero characters -/

/-- The text has no zero character. -/
def ZeroFree (text : String) : Prop := '\x00' ∉ text.toList

instance (text : String) : Decidable (ZeroFree text) := by
  unfold ZeroFree
  infer_instance

/-- The zero byte stands for the zero character only. -/
theorem ZeroFree.not_mem_utf8 {text : String} (free : ZeroFree text) : 0 ∉ Text.utf8 text := by
  rw [Text.utf8_eq, Text.encode, List.mem_flatMap]
  rintro ⟨c, mem, zero⟩
  by_cases ascii : c.toNat < 128
  · rw [Text.utf8EncodeChar_of_lt ascii, List.mem_singleton] at zero
    have code : c.toNat = 0 := by
      have bytes := congrArg UInt8.toNat zero
      simp only [Char.toUInt8, UInt8.toNat_zero, UInt32.toNat_toUInt8] at bytes
      exact (Nat.mod_eq_of_lt (Nat.lt_trans ascii (by decide))).symm.trans bytes.symm
    have same : c = '\x00' := Char.toNat_inj.1 code
    exact free (same ▸ mem)
  · have wide := Text.le_of_mem_utf8EncodeChar (Nat.not_lt.1 ascii) zero
    exact absurd wide (by decide)

/-! ## Slots -/

/-- What an execution is kept for. -/
structure Slot where
  resource : String
  job : String
  kind : TaskKind
deriving DecidableEq

/-- The slot of an execution. -/
def Execution.slot (execution : Execution) : Slot :=
  ⟨execution.resource, execution.measurements.job, execution.kind⟩

namespace Slot

/-- The key under which the execution of a slot is stored. -/
def key (slot : Slot) : Bytes := Ledger.executionKey slot.resource slot.job slot.kind

variable {first second : Slot}

/-- Slots share a key if they have the same kind and their parts join to the same text. -/
theorem key_eq_iff : first.key = second.key ↔ first.kind = second.kind ∧
    first.resource ++ "\x00" ++ first.job = second.resource ++ "\x00" ++ second.job := by
  constructor
  · intro same
    have texts : ("stat:" ++ (first.resource ++ "\x00" ++ first.job)).toList ++
          '\x00' :: first.kind.name.toList =
        ("stat:" ++ (second.resource ++ "\x00" ++ second.job)).toList ++
          '\x00' :: second.kind.name.toList := by
      simpa [String.toList_append] using congrArg String.toList (Text.utf8_injective same)
    obtain ⟨fronts, kinds⟩ := cut_at_last first.kind.zero_free second.kind.zero_free texts
    refine ⟨TaskKind.name_inj.1 (String.toList_inj.1 kinds), ?_⟩
    simp only [String.toList_append] at fronts
    apply String.toList_inj.1
    simpa using fronts
  · rintro ⟨kinds, joined⟩
    have texts := congrArg (fun text => "stat:" ++ text ++ "\x00" ++ first.kind.name) joined
    simp only [← String.append_assoc] at texts
    rw [key, key, Ledger.executionKey, Ledger.executionKey, texts, kinds]

/-- Slots of resources without zero characters have keys of their own. -/
theorem key_inj (free : ZeroFree first.resource) (free' : ZeroFree second.resource) :
    first.key = second.key ↔ first = second := by
  constructor
  · intro same
    obtain ⟨kinds, joined⟩ := key_eq_iff.1 same
    have lists : first.resource.toList ++ '\x00' :: first.job.toList =
        second.resource.toList ++ '\x00' :: second.job.toList := by
      simpa [String.toList_append] using congrArg String.toList joined
    obtain ⟨resources, jobs⟩ := cut_at_first free free' lists
    rcases first with ⟨resource, job, kind⟩
    rcases second with ⟨resource', job', kind'⟩
    obtain rfl : resource = resource' := String.toList_inj.1 resources
    obtain rfl : job = job' := String.toList_inj.1 jobs
    obtain rfl : kind = kind' := kinds
    rfl
  · rintro rfl
    rfl

/-- The keys that start with the front of a resource without zero characters are those of its own
slots, among slots of such resources. -/
theorem front_prefix_key {resource : String} {slot : Slot} (free : ZeroFree resource)
    (free' : ZeroFree slot.resource) :
    Ledger.executionFront resource <+: slot.key ↔ slot.resource = resource := by
  have front : Ledger.executionFront resource =
      Text.utf8 "stat:" ++ (Text.utf8 resource ++ [0]) := by
    rw [Ledger.executionFront, Text.utf8_append, Text.utf8_append, List.append_assoc]
    rfl
  have key : slot.key = Text.utf8 "stat:" ++
      (Text.utf8 slot.resource ++ 0 :: Text.utf8 (slot.job ++ "\x00" ++ slot.kind.name)) := by
    simp only [Slot.key, Ledger.executionKey, Text.utf8_append, List.append_assoc]
    rfl
  rw [front, key, List.prefix_append_right_inj]
  constructor
  · rintro ⟨rest, same⟩
    rw [List.append_assoc, List.singleton_append] at same
    obtain ⟨resources, _⟩ := cut_at_first free.not_mem_utf8 free'.not_mem_utf8 same
    exact (Text.utf8_injective resources).symm
  · rintro rfl
    refine ⟨Text.utf8 (slot.job ++ "\x00" ++ slot.kind.name), ?_⟩
    rw [List.append_assoc, List.singleton_append]

end Slot

/-! ## Executions put one after another -/

/-- The first of the executions for a slot. -/
def firstFor (slot : Slot) (executions : List Execution) : Option Execution :=
  executions.find? fun execution => execution.slot = slot

/-- The first of the executions under a key. -/
def firstUnder (executions : List Execution) (key : Bytes) : Option Execution :=
  executions.find? fun execution => execution.slot.key = key

/-- The last of the executions that was put for a slot. -/
def lastFor (slot : Slot) (executions : List Execution) : Option Execution :=
  firstFor slot executions.reverse

/-- The last of the executions that was put under a key. -/
def lastUnder (executions : List Execution) : Bytes → Option Execution :=
  firstUnder executions.reverse

section Under

variable {executions : List Execution} {execution : Execution} {key : Bytes} {slot : Slot}

theorem key_of_firstUnder (first : firstUnder executions key = some execution) :
    execution ∈ executions ∧ execution.slot.key = key := by
  have own := List.find?_some first
  exact ⟨List.mem_of_find?_eq_some first, of_decide_eq_true own⟩

theorem key_of_lastUnder (last : lastUnder executions key = some execution) :
    execution ∈ executions ∧ execution.slot.key = key := by
  obtain ⟨mem, own⟩ := key_of_firstUnder last
  exact ⟨List.mem_reverse.1 mem, own⟩

/-- Without zero characters, what is first under the key of a slot is first for the slot. -/
theorem firstUnder_key (free : ∀ execution ∈ executions, ZeroFree execution.resource)
    (free' : ZeroFree slot.resource) :
    firstUnder executions slot.key = firstFor slot executions := by
  apply List.find?_congr
  intro execution mem
  exact decide_eq_decide.2 (Slot.key_inj (free execution mem) free')

/-- Without zero characters, what is last under the key of a slot is last for the slot. -/
theorem lastUnder_key (free : ∀ execution ∈ executions, ZeroFree execution.resource)
    (free' : ZeroFree slot.resource) : lastUnder executions slot.key = lastFor slot executions :=
  firstUnder_key (fun execution mem => free execution (List.mem_reverse.1 mem)) free'

end Under

theorem lastUnder_append (executions : List Execution) (execution : Execution) :
    lastUnder (executions ++ [execution]) =
      Function.update (lastUnder executions) execution.slot.key (some execution) := by
  funext key
  rw [lastUnder, firstUnder, List.reverse_append, List.reverse_singleton, List.singleton_append,
    Function.update_apply]
  by_cases same : execution.slot.key = key
  · rw [if_pos same.symm]
    exact List.find?_cons_of_pos (by simpa using same)
  · rw [if_neg (Ne.symm same)]
    exact List.find?_cons_of_neg (by simpa using same)

namespace Ledger

/-- Writes executions one after another. -/
def putExecutions (executions : List Execution) (ledger : Ledger) : Ledger :=
  executions.foldl putExecution ledger

/-- The partition of the executions keeps the last one that was put under each key. -/
theorem keeps_putExecutions (executions : List Execution) :
    Keeps Execution.codec id (empty.putExecutions executions).executions
      (lastUnder executions) := by
  induction executions using List.reverseRecOn with
  | nil => exact keeps_empty _ _
  | append_singleton executions execution ih =>
      rw [putExecutions, List.foldl_append, List.foldl_cons, List.foldl_nil, lastUnder_append]
      exact ih.insert Function.injective_id execution.slot.key execution

/-! ## Looking up -/

/-- What is found after executions were put one after another. -/
structure Finds (executions : List Execution) (ledger : Ledger) : Prop where
  /-- A look-up finds the last execution that was put under the key of the slot. -/
  found : ∀ slot : Slot, ledger.execution? slot.resource slot.job slot.kind =
    .ok (lastUnder executions slot.key)
  /-- A scan finds the last execution of every key that goes on from the front of the resource. -/
  scanned : ∀ resource, ∃ found, Scanned Execution.codec id (lastUnder executions)
    (executionFront resource) (ledger.executionsOf resource) found
  /-- As long as no resource has a zero character, both find executions of the slots asked for. -/
  exact : (∀ execution ∈ executions, ZeroFree execution.resource) →
    ∀ resource, ZeroFree resource →
      (∀ job kind, ledger.execution? resource job kind =
        .ok (lastFor ⟨resource, job, kind⟩ executions)) ∧
      ∃ found, ledger.executionsOf resource = .ok found ∧ (found.map Execution.slot).Nodup ∧
        ∀ execution, execution ∈ found ↔
          execution.resource = resource ∧ lastFor execution.slot executions = some execution

/-- Without zero characters, the values that are scanned for a resource are the last executions for
its slots. -/
theorem exact_of_scanned {executions : List Execution} {resource : String}
    {answer : Except LedgerError (List Execution)} {pairs : List (Bytes × Execution)}
    (scanned : Scanned Execution.codec id (lastUnder executions) (executionFront resource) answer
      pairs)
    (free : ∀ execution ∈ executions, ZeroFree execution.resource) (free' : ZeroFree resource) :
    ((pairs.map Prod.snd).map Execution.slot).Nodup ∧
      ∀ execution, execution ∈ pairs.map Prod.snd ↔
        execution.resource = resource ∧ lastFor execution.slot executions = some execution := by
  obtain ⟨_, ascending, mem_iff⟩ := scanned
  have keyed {pair : Bytes × Execution} (mem : pair ∈ pairs) :
      pair.2 ∈ executions ∧ pair.2.slot.key = pair.1 :=
    key_of_lastUnder ((mem_iff ..).1 mem).1
  refine ⟨?_, fun execution => ⟨?_, ?_⟩⟩
  · rw [List.map_map, List.Nodup, List.pairwise_map]
    apply (List.pairwise_map.1 ascending).imp_of_mem
    intro one two mem mem' below same
    have keys : one.1 = two.1 := by
      rw [← (keyed mem).2, ← (keyed mem').2]
      exact congrArg Slot.key same
    exact KeyOrder.irrefl two.1 (keys ▸ below)
  · intro mem
    obtain ⟨⟨key, found⟩, inside, rfl⟩ := List.mem_map.1 mem
    obtain ⟨put, same⟩ : found ∈ executions ∧ found.slot.key = key := keyed inside
    subst same
    obtain ⟨last, starts⟩ := (mem_iff ..).1 inside
    have own := (Slot.front_prefix_key free' (free _ put)).1 starts
    exact ⟨own, (lastUnder_key free (free _ put)).symm.trans last⟩
  · rintro ⟨rfl, last⟩
    have last : lastUnder executions execution.slot.key = some execution :=
      (lastUnder_key free free').trans last
    have starts : executionFront execution.resource <+: execution.slot.key :=
      (Slot.front_prefix_key free' free').2 rfl
    exact List.mem_map.2 ⟨(execution.slot.key, execution), (mem_iff ..).2 ⟨last, starts⟩, rfl⟩

/-- Executions that were put one after another, whatever their identifiers, are found under their
keys, and without zero characters under their slots. -/
theorem finds_putExecutions (executions : List Execution) :
    Finds executions (empty.putExecutions executions) := by
  have keeps := keeps_putExecutions executions
  have back (key : Bytes) (execution : Execution)
      (_ : lastUnder executions key = some execution) :
      Execution.codec.ReadsBack 127 execution := Execution.codec_readsBack execution
  have found (slot : Slot) : (empty.putExecutions executions).execution? slot.resource slot.job
      slot.kind = .ok (lastUnder executions slot.key) :=
    keeps.fetch Function.injective_id back slot.key
  have scanned (resource : String) :=
    keeps.scan Function.injective_id back (executionFront resource)
  refine ⟨found, scanned, fun free resource free' => ⟨fun job kind => ?_, ?_⟩⟩
  · rw [found ⟨resource, job, kind⟩, lastUnder_key free free']
  · obtain ⟨pairs, scanned⟩ := scanned resource
    exact ⟨_, scanned.answer, exact_of_scanned scanned free free'⟩

/-- A scan for a resource goes on to the keys of every resource whose name goes on from it with a
zero character. -/
theorem front_prefix_of_longer (resource more job : String) (kind : TaskKind) :
    executionFront resource <+: executionKey (resource ++ "\x00" ++ more) job kind := by
  simp only [executionFront, executionKey, Text.utf8_append, List.append_assoc,
    List.prefix_append_right_inj]
  exact List.prefix_append _ _

/-- The only execution is found for every resource whose front starts its key. -/
theorem executionsOf_single {execution : Execution} {resource : String}
    (starts : executionFront resource <+: execution.slot.key) :
    (empty.putExecutions [execution]).executionsOf resource = .ok [execution] := by
  have under : Partition.under (empty.putExecutions [execution]).executions
      (executionFront resource) = [execution].map Execution.codec.writeText :=
    congrArg (List.map Prod.snd)
      (List.filter_cons_of_pos (l := []) (List.isPrefixOf_iff_prefix.2 starts))
  rw [executionsOf, under]
  exact readAll_map_writeText fun execution _ => Execution.codec_readsBack execution

/-- A zero character may belong to the resource or to the job. -/
theorem executionKey_regrouped (resource more job : String) (kind : TaskKind) :
    executionKey (resource ++ "\x00" ++ more) job kind =
      executionKey resource (more ++ "\x00" ++ job) kind := by
  simp only [executionKey, String.append_assoc]

end Ledger

/-- An execution on an image whose name goes on from that of a page with a zero character. -/
def strayExecution : Execution :=
  { (PageEvent.report ⟨false, .checkLink, false⟩).execution .epoch with
    id := Execution.idOf "page\x00image" "7" .checkLink
    resource := "page\x00image" }

/-- The execution on the image is found for the page, by a scan and by a look-up, although none was
put for that. -/
theorem Ledger.found_for_page :
    strayExecution.slot = ⟨"page\x00image", "7", .checkLink⟩ ∧
      lastFor ⟨"page", "image\x007", .checkLink⟩ [strayExecution] = none ∧
      (empty.putExecutions [strayExecution]).executionsOf "page" = .ok [strayExecution] ∧
      (empty.putExecutions [strayExecution]).execution? "page" "image\x007" .checkLink =
        .ok (some strayExecution) := by
  refine ⟨rfl, by decide, ?_, ?_⟩
  · exact executionsOf_single (front_prefix_of_longer "page" "image" "7" .checkLink)
  · have same : executionKey "page" "image\x007" .checkLink =
        executionKey strayExecution.resource strayExecution.measurements.job strayExecution.kind :=
      (executionKey_regrouped "page" "image" "7" .checkLink).symm
    exact (execution?_putExecution ..).trans (if_pos same)

end MediaHarvest
