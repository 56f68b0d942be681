import MediaHarvest.Proofs.SortedMap
import MediaHarvest.Proofs.Wire.Reading

/-!
# Reading back fields and messages

What a field writes is a row of occurrences: its key and a value that its reader takes onto the
message.  `Carries` says that reading them takes the message from one value to another.  A message
whose fields are carried one after another is read back as a whole, whatever follows it.
-/

namespace MediaHarvest.Wire

/-- Reading the occurrences of a field one after another takes a message from `before` to `after`.
-/
inductive Occurrences {μ : Type} (field : Field μ) (depth : Nat) : μ → Bytes → μ → Prop where
  | none (message : μ) : Occurrences field depth message [] message
  /-- The first occurrence, and the others. -/
  | first {before middle after : μ} {form : Form} {value others : Bytes}
      (read : ∀ rest, field.read depth form before (value ++ rest) = .ok (middle, rest))
      (more : Occurrences field depth middle others after) :
      Occurrences field depth before (key field.number form ++ (value ++ others)) after

/-- Reading what a field writes of `value` takes a message from `before` to `after`.  Lengths are
written as words, so what is written has to be shorter than their bound. -/
def Field.Carries {μ : Type} (field : Field μ) (depth : Nat) (value before after : μ) : Prop :=
  (field.write value).length < 2 ^ 64 → Occurrences field depth before (field.write value) after

namespace Message

variable {μ : Type}

/-- The fields have different numbers that fit into a key. -/
def WellNumbered (message : Message μ) : Prop :=
  (message.fields.map (·.number)).Nodup ∧
    ∀ number ∈ message.fields.map (·.number), 0 < number ∧ number < 2 ^ 29

instance (message : Message μ) : Decidable message.WellNumbered := by
  unfold WellNumbered
  infer_instance

/-- Every field is found under its number. -/
theorem find?_number {fields : List (Field μ)} (distinct : (fields.map (·.number)).Nodup)
    {field : Field μ} (mem : field ∈ fields) :
    fields.find? (fun other => other.number = field.number) = some field := by
  induction fields with
  | nil => simp at mem
  | cons head rest ih =>
      obtain ⟨fresh, tail⟩ := List.nodup_cons.1 distinct
      rcases List.mem_cons.1 mem with rfl | mem
      · simp
      · have differ : head.number ≠ field.number := fun same =>
          fresh (List.mem_map.2 ⟨field, mem, same.symm⟩)
        rw [List.find?_cons_of_neg (by simpa using differ)]
        exact ih tail mem

/-- The occurrences of a field are read as part of the message. -/
theorem consumes_occurrences {message : Message μ} (numbered : message.WellNumbered)
    {field : Field μ} (mem : field ∈ message.fields) {depth : Nat} {before after : μ}
    {bytes : Bytes} (occurrences : Occurrences field depth before bytes after) (rest : Bytes) :
    Consumes (message.readField depth) before (bytes ++ rest) after rest := by
  obtain ⟨positive, small⟩ := numbered.2 _ (List.mem_map.2 ⟨field, mem, rfl⟩)
  induction occurrences with
  | none => exact .done _ _
  | @first before middle after form value others read more ih =>
      have taken : message.readField depth before
          (key field.number form ++ (value ++ (others ++ rest))) =
          .ok (middle, others ++ rest) := by
        rw [readField, readKey_key positive small]
        simp only [bind, Except.bind, find?_number numbered.1 mem, read]
        rfl
      rw [List.append_assoc, List.append_assoc]
      refine .next taken ?_ ih
      have keyed : 0 < (key field.number form).length :=
        List.length_pos_iff.2 (Varint.write_ne_nil _)
      simp only [List.length_append]
      omega

/-- Reading what a row of fields writes of `value` takes a message from one value to another. -/
inductive CarriesAll (depth : Nat) (value : μ) : List (Field μ) → μ → μ → Prop where
  | nil (message : μ) : CarriesAll depth value [] message message
  /-- The first field, and the others. -/
  | cons {field : Field μ} {fields : List (Field μ)} {before middle after : μ}
      (first : field.Carries depth value before middle)
      (others : CarriesAll depth value fields middle after) :
      CarriesAll depth value (field :: fields) before after

/-- A message whose fields are carried is read back. -/
theorem consumes_write {message : Message μ} (numbered : message.WellNumbered) {depth : Nat}
    {value result : μ} (carried : CarriesAll depth value message.fields message.empty result)
    (fits : (message.write value).length < 2 ^ 64) (rest : Bytes) :
    Consumes (message.readField depth) message.empty (message.write value ++ rest) result rest := by
  suffices run : ∀ (fields : List (Field μ)) (before after : μ),
      CarriesAll depth value fields before after → (∀ field ∈ fields, field ∈ message.fields) →
      (fields.flatMap fun field => field.write value).length < 2 ^ 64 →
      Consumes (message.readField depth) before
        ((fields.flatMap fun field => field.write value) ++ rest) after rest from
    run _ _ _ carried (fun _ mem => mem) fits
  intro fields before after carried part fits
  induction carried with
  | nil => exact .done _ _
  | @cons field fields before middle after first others ih =>
      rw [List.flatMap_cons, List.length_append] at fits
      rw [List.flatMap_cons, List.append_assoc]
      have head := consumes_occurrences numbered (part field List.mem_cons_self)
        (first (by omega)) ((fields.flatMap fun field => field.write value) ++ rest)
      exact head.trans
        (ih (fun field mem => part field (List.mem_cons_of_mem _ mem)) (by omega))

/-- A whole message is read back. -/
theorem read_write {message : Message μ} (numbered : message.WellNumbered) {value result : μ}
    (carried : CarriesAll depthLimit value message.fields message.empty result)
    (fits : (message.write value).length < 2 ^ 64) :
    message.read (message.write value) = .ok result := by
  have run := consumes_write numbered carried fits []
  rw [List.append_nil] at run
  have whole := run.readWhile_eq ((message.write value).length + 1) (Nat.lt_succ_self _)
  rw [List.length_nil] at whole
  rw [read, whole]
  rfl

end Message

namespace Field

variable {μ ν : Type} {depth number : Nat} {name : String}

/-! ## Single values -/

/-- A single occurrence takes a message to `after`. -/
theorem occurrences_single {field : Field μ} {form : Form} {value : Bytes} {before after : μ}
    (read : ∀ rest, field.read depth form before (value ++ rest) = .ok (after, rest)) :
    Occurrences field depth before (key field.number form ++ value) after := by
  have whole := Occurrences.first read (.none after)
  rwa [List.append_nil] at whole

/-- The bound on what is written holds of the content behind a key and a length. -/
theorem content_lt {form : Form} {content : Bytes} (others : Bytes)
    (fits : (key number form ++ (delimited content ++ others)).length < 2 ^ 64) :
    content.length < 2 ^ 64 ∧ others.length < 2 ^ 64 := by
  simp only [delimited, List.length_append] at fits
  omega

theorem text_carries {get : μ → String} {set : μ → String → μ} {value before : μ}
    (absent : set before "" = before) :
    (text number name get set).Carries depth value before (set before (get value)) := by
  intro fits
  by_cases empty : get value = ""
  · simp only [text, empty, absent]
    exact .none _
  · simp only [text, if_neg empty] at fits ⊢
    refine occurrences_single fun rest => ?_
    have small := (content_lt [] (by simpa using fits)).1
    simp only [readText_delimited small, bind, Except.bind, pure, Except.pure]

theorem optionalText_carries {get : μ → Option String} {set : μ → String → μ}
    (put : μ → Option String → μ) {value before : μ} (absent : put before none = before)
    (present : ∀ text, put before (some text) = set before text) :
    (optionalText number name get set).Carries depth value before (put before (get value)) := by
  intro fits
  cases found : get value with
  | none =>
      simp only [optionalText, found, absent]
      exact .none _
  | some text =>
      simp only [optionalText, found] at fits ⊢
      rw [present]
      refine occurrences_single fun rest => ?_
      have small := (content_lt [] (by simpa using fits)).1
      simp only [readText_delimited small, bind, Except.bind, pure, Except.pure]

theorem numeral_carries {α : Type} [DecidableEq α] {zero : α} {toWord : α → UInt64}
    {ofWord : UInt64 → α} {get : μ → α} {set : μ → α → μ} {value before : μ}
    (absent : set before zero = before) (kept : ofWord (toWord (get value)) = get value) :
    (numeral zero toWord ofWord number name get set).Carries depth value before
      (set before (get value)) := by
  intro _
  by_cases empty : get value = zero
  · simp only [numeral, empty, absent]
    exact .none _
  · simp only [numeral, if_neg empty]
    refine occurrences_single fun rest => ?_
    simp only [expectForm, if_true, readNumber_write, bind, Except.bind, pure, Except.pure, kept]

theorem word64_carries {get : μ → UInt64} {set : μ → UInt64 → μ} {value before : μ}
    (absent : set before 0 = before) :
    (word64 number name get set).Carries depth value before (set before (get value)) :=
  numeral_carries absent rfl

theorem word32_carries {get : μ → UInt32} {set : μ → UInt32 → μ} {value before : μ}
    (absent : set before 0 = before) :
    (word32 number name get set).Carries depth value before (set before (get value)) :=
  numeral_carries absent (by simp)

theorem signed64_carries {get : μ → Int64} {set : μ → Int64 → μ} {value before : μ}
    (absent : set before 0 = before) :
    (signed64 number name get set).Carries depth value before (set before (get value)) :=
  numeral_carries absent rfl

@[simp]
theorem codeOfWord_codeWord (code : Int32) : codeOfWord (codeWord code) = code := by
  have narrowed : codeOfWord (codeWord code) = code.toInt64.toInt32 := by
    apply Int32.toBitVec_inj.1
    exact (BitVec.signExtend_eq_setWidth_of_le _ (show 32 ≤ 64 by decide)).symm
  rw [narrowed, Int32.toInt32_toInt64]

theorem code_carries {get : μ → Int32} {set : μ → Int32 → μ} {value before : μ}
    (absent : set before 0 = before) :
    (code number name get set).Carries depth value before (set before (get value)) :=
  numeral_carries absent (codeOfWord_codeWord _)

theorem optionalWord32_carries {get : μ → Option UInt32} {set : μ → UInt32 → μ}
    (put : μ → Option UInt32 → μ) {value before : μ} (absent : put before none = before)
    (present : ∀ word, put before (some word) = set before word) :
    (optionalWord32 number name get set).Carries depth value before (put before (get value)) := by
  intro _
  cases found : get value with
  | none =>
      simp only [optionalWord32, found, absent]
      exact .none _
  | some word =>
      simp only [optionalWord32, found]
      rw [present]
      refine occurrences_single fun rest => ?_
      simp [expectForm, bind, Except.bind, pure, Except.pure]

/-! ## Lists, maps and nested messages -/

theorem texts_carries {get : μ → List String} {set : μ → List String → μ} {value before : μ}
    (get_set : ∀ message texts, get (set message texts) = texts)
    (set_set : ∀ message texts others, set (set message texts) others = set message others)
    (absent : set before [] = before) :
    (texts number name get set).Carries depth value before (set before (get value)) := by
  intro fits
  suffices all : ∀ (done left : List String),
      (left.flatMap fun text => key number .lengthDelimited ++ delimited (Text.utf8 text)).length
        < 2 ^ 64 →
      Occurrences (texts number name get set) depth (set before done)
        (left.flatMap fun text => key number .lengthDelimited ++ delimited (Text.utf8 text))
        (set before (done ++ left)) by
    have whole := all [] (get value) fits
    rwa [absent, List.nil_append] at whole
  intro done left fits
  induction left generalizing done with
  | nil =>
      rw [List.append_nil]
      exact .none _
  | cons text left ih =>
      rw [List.flatMap_cons, List.append_assoc] at fits
      obtain ⟨small, others⟩ := content_lt _ fits
      rw [List.flatMap_cons, List.append_assoc]
      have tail := ih (done ++ [text]) others
      rw [List.append_assoc] at tail
      refine .first (fun rest => ?_) tail
      · simp only [texts, readText_delimited small, bind, Except.bind, pure, Except.pure, get_set,
          set_set]

/-- Numbers of an enumeration are read one after another onto a list. -/
theorem consumes_codes (step : List Int32 → Reader (List Int32))
    (one : ∀ values code rest,
      step values (Varint.write (codeWord code) ++ rest) = .ok (values ++ [code], rest))
    (values codes : List Int32) (rest : Bytes) :
    Consumes step values ((codes.flatMap fun code => Varint.write (codeWord code)) ++ rest)
      (values ++ codes) rest := by
  induction codes generalizing values with
  | nil =>
      rw [List.append_nil]
      exact .done _ _
  | cons code codes ih =>
      have written : 0 < (Varint.write (codeWord code)).length :=
        List.length_pos_iff.2 (Varint.write_ne_nil _)
      have tail := ih (values ++ [code])
      rw [List.append_assoc] at tail
      rw [List.flatMap_cons, List.append_assoc]
      exact .next (one _ _ _) (by simp only [List.length_append]; omega) tail

/-- Reads a further number of an enumeration onto a list. -/
def pushCode (values : List Int32) : Reader (List Int32) := fun bytes => do
  let (word, rest) ← readNumber bytes
  return (values ++ [codeOfWord word], rest)

theorem codes_carries {get : μ → List Int32} {set : μ → List Int32 → μ} {value before : μ}
    (none_before : get before = []) (absent : set before [] = before) :
    (codes number name get set).Carries depth value before (set before (get value)) := by
  intro fits
  by_cases empty : get value = []
  · simp only [codes, empty, absent, if_true]
    exact .none _
  · simp only [codes, if_neg empty] at fits ⊢
    refine occurrences_single fun rest => ?_
    have small := (content_lt [] (by simpa using fits)).1
    have run := consumes_codes pushCode
      (fun values code rest => by simp [pushCode, bind, Except.bind, pure, Except.pure])
      [] (get value) rest
    simp only [if_true, none_before]
    change (readParts pushCode [] _ >>= _) = _
    rw [readParts_delimited small rest run]
    rfl

/-- An entry of a map is read back as a message of its own. -/
theorem consumes_entry (item : String × String) (depth : Nat)
    (fits : (entry item).length < 2 ^ 64) (rest : Bytes) :
    Consumes (readEntryField depth) ("", "") (entry item ++ rest) item rest := by
  obtain ⟨label, content⟩ := item
  have part : ∀ (number : Nat) (text : String) (before after : String × String),
      (number = 1 ∧ after = (text, before.2) ∨ number = 2 ∧ after = (before.1, text)) →
      (text = "" → before = after) →
      (if text = "" then [] else key number .lengthDelimited ++
        delimited (Text.utf8 text)).length < 2 ^ 64 →
      ∀ rest, Consumes (readEntryField depth) before
        ((if text = "" then [] else key number .lengthDelimited ++
          delimited (Text.utf8 text)) ++ rest) after rest := by
    intro number text before after field absent fits rest
    by_cases empty : text = ""
    · rw [absent empty, if_pos empty]
      exact .done _ _
    · rw [if_neg empty] at fits ⊢
      have small := (content_lt [] (by simpa using fits)).1
      have keyed : 0 < (key number .lengthDelimited).length :=
        List.length_pos_iff.2 (Varint.write_ne_nil _)
      refine Consumes.next ?_ (by simp only [List.length_append]; omega) (.done after rest)
      rw [List.append_assoc]
      rcases field with ⟨rfl, rfl⟩ | ⟨rfl, rfl⟩
      · simp [readEntryField, readKey_key, readText_delimited small, bind, Except.bind, pure,
          Except.pure]
      · simp [readEntryField, readKey_key, readText_delimited small, bind, Except.bind, pure,
          Except.pure]
  rw [entry, List.length_append] at fits
  rw [entry, List.append_assoc]
  dsimp only at fits ⊢
  have label_part := part 1 label ("", "") (label, "") (.inl ⟨rfl, rfl⟩) (fun h => by rw [h])
    (by omega)
  have content_part := part 2 content (label, "") (label, content) (.inr ⟨rfl, rfl⟩)
    (fun h => by rw [h]) (by omega)
  exact (label_part _).trans (content_part rest)

theorem map_carries {get : μ → SortedMap String String} {set : μ → SortedMap String String → μ}
    {value before : μ} (levels : 0 < depth)
    (get_set : ∀ message map, get (set message map) = map)
    (set_set : ∀ message map other, set (set message map) other = set message other)
    (absent : set before ∅ = before) :
    (map number name get set).Carries depth value before (set before (get value)) := by
  intro fits
  suffices all : ∀ (left : List (String × String)) (done : SortedMap String String),
      (left.flatMap fun item => key number .lengthDelimited ++ delimited (entry item)).length
        < 2 ^ 64 →
      Occurrences (map number name get set) depth (set before done)
        (left.flatMap fun item => key number .lengthDelimited ++ delimited (entry item))
        (set before (left.foldl (fun map item => map.insert item.1 item.2) done)) by
    have whole := all (get value).entries ∅ fits
    rw [absent] at whole
    rwa [← SortedMap.ofList, SortedMap.ofList_entries] at whole
  intro left done fits
  induction left generalizing done with
  | nil => exact .none _
  | cons item left ih =>
      rw [List.flatMap_cons, List.append_assoc] at fits
      obtain ⟨small, others⟩ := content_lt _ fits
      rw [List.flatMap_cons, List.append_assoc]
      refine .first (fun rest => ?_) (ih (done.insert item.1 item.2) others)
      have level : ¬ depth = 0 := by omega
      have run := consumes_entry item (depth - 1) small rest
      simp only [map, expectDepth, if_neg level, bind, Except.bind,
        readParts_delimited small rest run, get_set, set_set]
      rfl

/-- A nested message is carried as it is read back. -/
theorem message_carries {inner : Message ν} {get : μ → Option ν} {set : μ → ν → μ}
    (put : μ → Option ν → μ) {value before : μ} {result : ν → ν} (levels : 0 < depth)
    (numbered : inner.WellNumbered)
    (carried : ∀ part, get value = some part →
      Message.CarriesAll (depth - 1) part inner.fields inner.empty (result part))
    (none_before : get before = none) (absent : put before none = before)
    (present : ∀ part, put before (some part) = set before part) :
    (message number name inner get set).Carries depth value before
      (put before ((get value).map result)) := by
  intro fits
  cases found : get value with
  | none =>
      simp only [message, found, Option.map_none, absent]
      exact .none _
  | some part =>
      simp only [message, found, Option.map_some, present] at fits ⊢
      refine occurrences_single fun rest => ?_
      have small := (content_lt [] (by simpa using fits)).1
      have level : ¬ depth = 0 := by omega
      have run := Message.consumes_write numbered (carried part found) small rest
      simp only [expectForm, expectDepth, if_true, if_neg level, bind, Except.bind, none_before,
        Option.getD_none, readParts_delimited small rest run]
      rfl

end Field

end MediaHarvest.Wire
