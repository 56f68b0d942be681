import MediaHarvest.Settings.VariablesFile
import Mathlib.Data.List.Basic

/-!
# What a file of variables adds

A file adds variables behind those that are set, and none under the name of one that is set.  In a
file without a `$` no value stands for another variable, so what it adds is what it holds by itself,
but for the variables that are set.
-/

namespace MediaHarvest.VariablesFile

/-! ## Variables that are added -/

/-- Lines add variables whose names are not set. -/
theorem setAll_eq_append (lines : List (Option (List Char))) (vars : Variables) :
    ∃ added, setAll lines vars = vars ++ added ∧
      ∀ entry ∈ added, vars.lookup entry.1 = none := by
  have stops (vars : Variables) :
      ∃ added, vars = vars ++ added ∧ ∀ entry ∈ added, vars.lookup entry.1 = none :=
    ⟨[], (List.append_nil _).symm, List.forall_mem_nil _⟩
  induction lines generalizing vars with
  | nil => exact stops vars
  | cons line rest ih =>
      cases line with
      | none => exact stops vars
      | some line =>
          rw [setAll]
          split
          · exact stops vars
          · exact ih vars
          · next name value said =>
            split
            · exact ih vars
            · next new =>
              obtain ⟨added, same, fresh⟩ := ih (vars ++ [(name, value)])
              refine ⟨(name, value) :: added, by rw [same, List.append_assoc]; rfl, ?_⟩
              refine List.forall_mem_cons.2 ⟨Option.not_isSome_iff_eq_none.1 new, ?_⟩
              intro entry mem
              have missing := fresh entry mem
              rw [List.lookup_append, Option.or_eq_none_iff] at missing
              exact missing.1

/-- The lines of a file. -/
def fileLines (text : String) : List (Option (List Char)) :=
  lines .plain [] (pieces (match text.toList with
    | '\uFEFF' :: rest => rest
    | chars => chars))

/-- The variables that a file adds to those that are set. -/
def added (text : String) (vars : Variables) : Variables := (extend text vars).drop vars.length

variable {text : String} {vars : Variables}

/-- They are what setting the lines adds. -/
theorem added_eq {new : Variables} (same : setAll (fileLines text) vars = vars ++ new) :
    added text vars = new := by
  rw [added, show extend text vars = vars ++ new from same, List.drop_left]

theorem extend_eq (text : String) (vars : Variables) :
    extend text vars = vars ++ added text vars := by
  obtain ⟨new, same, _⟩ := setAll_eq_append (fileLines text) vars
  rw [added_eq same]
  exact same

/-- Nothing that is set is added. -/
theorem lookup_of_mem_added {entry : String × String} (mem : entry ∈ added text vars) :
    vars.lookup entry.1 = none := by
  obtain ⟨new, same, fresh⟩ := setAll_eq_append (fileLines text) vars
  rw [added_eq same] at mem
  exact fresh entry mem

/-! ## Values without signs for other variables -/

/-- The text has no sign for another variable. -/
def SignFree (chars : List Char) : Prop := '$' ∉ chars

theorem SignFree.of_subset {chars other : List Char} (free : SignFree chars)
    (inside : other ⊆ chars) : SignFree other := fun mem => free (inside mem)

section Values

variable {state after : ValueState} {c : Char}

/-- Without a sign no name of another variable is read. -/
theorem name_readPlain (plain : c ≠ '$') (unnamed : state.name = none) :
    (state.readPlain c).name = none := by
  rw [ValueState.readPlain, if_neg plain]
  repeat' split
  all_goals exact unnamed

theorem name_read (plain : c ≠ '$') (unnamed : state.name = none)
    (read : state.read vars c = some after) : after.name = none := by
  rw [ValueState.read, unnamed] at read
  split at read
  · rw [ValueState.escape] at read
    split at read
    · cases read
      exact unnamed
    · split at read
      · cases read
        exact unnamed
      · cases read
  · split at read
    · cases read
      split
      · rfl
      · exact unnamed
    · cases read
      exact name_readPlain plain unnamed

/-- Then other variables do not matter. -/
theorem read_eq (vars : Variables) (unnamed : state.name = none) :
    state.read vars c = state.read [] c := by
  rw [ValueState.read, ValueState.read, unnamed]

theorem finish_eq (vars : Variables) (unnamed : state.name = none) :
    state.finish vars = state.finish [] := by
  rw [ValueState.finish, ValueState.finish, ValueState.substitute, ValueState.substitute, unnamed]

theorem readValue?_eq (vars : Variables) {chars : List Char} (free : SignFree chars)
    (unnamed : state.name = none) : readValue? vars state chars = readValue? [] state chars := by
  induction chars generalizing state with
  | nil => exact finish_eq vars unnamed
  | cons c rest ih =>
      have plain : c ≠ '$' := fun same => free (same ▸ List.mem_cons_self)
      have others : SignFree rest := free.of_subset (List.subset_cons_self ..)
      rw [readValue?, readValue?, finish_eq vars unnamed, ih others unnamed, read_eq vars unnamed]
      cases read : state.read [] c with
      | none => rfl
      | some after =>
          dsimp only
          rw [ih others (name_read plain unnamed read)]

end Values

/-! ## Lines without signs -/

theorem trimStart_subset (chars : List Char) : Text.trimStart chars ⊆ chars :=
  List.dropWhile_subset _

theorem trimEnd_subset (chars : List Char) : Text.trimEnd chars ⊆ chars := by
  intro c mem
  exact List.mem_reverse.1 (List.dropWhile_subset _ (List.mem_reverse.1 mem))

/-- What stands behind the sign between a name and its value is a part of the line. -/
theorem equals?_subset {chars rest : List Char} (read : equals? chars = some rest) :
    rest ⊆ chars := by
  rw [equals?] at read
  split at read
  · next found =>
    cases read
    exact fun c mem => trimStart_subset _ (found ▸ List.mem_cons_of_mem _ mem)
  · cases read

theorem name?_subset {chars rest : List Char} {name : String}
    (read : name? chars = some (name, rest)) : rest ⊆ chars := by
  rw [name?] at read
  obtain ⟨first, _, read⟩ := Option.bind_eq_some_iff.1 read
  obtain ⟨_, _, read⟩ := Option.bind_eq_some_iff.1 read
  cases read
  exact List.dropWhile_subset _

theorem assigned?_subset {chars rest : List Char} {name : String}
    (read : assigned? chars = some (name, rest)) : rest ⊆ chars := by
  simp only [assigned?, Option.bind_eq_bind, Option.bind_eq_some_iff, Option.pure_def] at read
  obtain ⟨⟨first, middle⟩, named, read⟩ := read
  have inside := name?_subset named
  dsimp only at read
  split at read
  · simp only [Option.bind_eq_some_iff, Option.some.injEq, Prod.mk.injEq] at read
    obtain ⟨⟨second, last⟩, named', value, valued, rfl, rfl⟩ := read
    have inside' := List.Subset.trans (name?_subset named') (trimStart_subset _)
    exact List.Subset.trans (equals?_subset valued) (List.Subset.trans inside' inside)
  · simp only [Option.bind_eq_some_iff, Option.some.injEq, Prod.mk.injEq] at read
    obtain ⟨value, valued, rfl, rfl⟩ := read
    exact List.Subset.trans (equals?_subset valued) inside

theorem statement?_eq (vars : Variables) {line : List Char} (free : SignFree line) :
    statement? vars line = statement? [] line := by
  have within : Text.trimStart (Text.trimEnd line) ⊆ line :=
    List.Subset.trans (trimStart_subset _) (trimEnd_subset _)
  rw [statement?, statement?]
  split
  · rfl
  · cases read : assigned? (Text.trimStart (Text.trimEnd line)) with
    | none => rfl
    | some pair =>
        have inside := List.Subset.trans (trimStart_subset _)
          (List.Subset.trans (assigned?_subset read) within)
        simp only [Option.bind_eq_bind, Option.bind_some]
        rw [readValue?_eq vars (free.of_subset inside) rfl]

/-- Every piece is a part of the text. -/
theorem pieces_subset {chars piece : List Char} (mem : piece ∈ pieces chars) : piece ⊆ chars := by
  induction chars generalizing piece with
  | nil => cases mem
  | cons c rest ih =>
      have first : [c] ⊆ c :: rest := List.cons_subset_cons c (List.nil_subset _)
      rw [pieces] at mem
      split at mem
      · rcases List.mem_cons.1 mem with rfl | later
        · exact first
        · exact List.subset_cons_of_subset _ (ih later)
      · split at mem
        · obtain rfl := List.mem_singleton.1 mem
          exact first
        · next next more split =>
          rcases List.mem_cons.1 mem with rfl | later
          · exact List.cons_subset_cons c (ih (split ▸ List.mem_cons_self))
          · exact List.subset_cons_of_subset _ (ih (split ▸ List.mem_cons_of_mem _ later))

theorem chomp_subset (line : List Char) : chomp line ⊆ line := by
  intro c mem
  rw [chomp] at mem
  apply List.mem_reverse.1
  split at mem
  · next back =>
    rw [back]
    exact List.mem_cons_of_mem _ (List.mem_cons_of_mem _ (List.mem_reverse.1 mem))
  · next back =>
    rw [back]
    exact List.mem_cons_of_mem _ (List.mem_reverse.1 mem)
  · exact List.mem_reverse.2 mem

/-- Pieces without signs make lines without signs. -/
theorem signFree_lines {pieces : List (List Char)} (free : ∀ piece ∈ pieces, SignFree piece)
    {state : LineState} {front : List Char} (before : SignFree front) :
    ∀ line, some line ∈ lines state front pieces → SignFree line := by
  induction pieces generalizing state front with
  | nil =>
      intro line mem
      rw [lines] at mem
      split at mem
      · cases mem
      · rcases List.mem_singleton.1 mem
  | cons piece rest ih =>
      obtain ⟨own, others⟩ := List.forall_mem_cons.1 free
      have whole : SignFree (front ++ piece) := fun mem =>
        (List.mem_append.1 mem).elim before own
      intro line mem
      rw [lines] at mem
      split at mem
      · rcases List.mem_cons.1 mem with same | later
        · cases same
          exact List.not_mem_nil
        · exact ih others List.not_mem_nil line later
      · split at mem
        · rcases List.mem_cons.1 mem with same | later
          · cases same
            exact whole.of_subset (List.take_subset ..)
          · exact ih others List.not_mem_nil line later
        · rcases List.mem_cons.1 mem with same | later
          · cases same
            exact whole.of_subset (chomp_subset _)
          · exact ih others List.not_mem_nil line later
        · exact ih others whole line mem

theorem signFree_fileLines (free : SignFree text.toList) {line : List Char}
    (mem : some line ∈ fileLines text) : SignFree line := by
  refine signFree_lines (fun piece inside => ?_) List.not_mem_nil line mem
  split at inside
  · next rest whole =>
    exact (free.of_subset (whole ▸ List.subset_cons_self ..)).of_subset (pieces_subset inside)
  · exact free.of_subset (pieces_subset inside)

/-! ## Files by themselves -/

/-- The variables with another one, unless that is set. -/
def withNew (vars : Variables) (entry : String × String) : Variables :=
  if (vars.lookup entry.1).isSome then vars else vars ++ [entry]

/-- What lines say by themselves, up to the first faulty one. -/
def said : List (Option (List Char)) → Variables
  | [] => []
  | none :: _ => []
  | some line :: rest =>
      match statement? [] line with
      | none => []
      | some .nothing => said rest
      | some (.variableIs name value) => (name, value) :: said rest

/-- Lines without signs set what they say by themselves. -/
theorem setAll_eq_foldl {lines : List (Option (List Char))}
    (free : ∀ line, some line ∈ lines → SignFree line) (vars : Variables) :
    setAll lines vars = (said lines).foldl withNew vars := by
  induction lines generalizing vars with
  | nil => rfl
  | cons line rest ih =>
      have others := ih fun line mem => free line (List.mem_cons_of_mem _ mem)
      cases line with
      | none => rfl
      | some line =>
          rw [setAll, said, statement?_eq vars (free line List.mem_cons_self)]
          cases statement? [] line with
          | none => rfl
          | some statement =>
              cases statement with
              | nothing => exact others vars
              | variableIs name value => exact others (withNew vars (name, value))

/-- The variables with names that are kept. -/
def kept (keep : String → Bool) (vars : Variables) : Variables :=
  vars.filter fun entry => keep entry.1

/-- The variables whose names are not set. -/
def unset (vars new : Variables) : Variables := kept (fun name => (vars.lookup name).isNone) new

section Kept

variable {keep : String → Bool}

theorem kept_append_singleton (keep : String → Bool) (vars : Variables)
    (entry : String × String) :
    kept keep (vars ++ [entry]) =
      if keep entry.1 then kept keep vars ++ [entry] else kept keep vars := by
  rw [kept, List.filter_append, List.filter_singleton]
  cases keep entry.1 with
  | true => rfl
  | false => exact List.append_nil _

/-- What is left out does not matter for the names that are kept. -/
theorem lookup_kept {name : String} (stays : keep name = true) (vars : Variables) :
    (kept keep vars).lookup name = vars.lookup name := by
  induction vars with
  | nil => rfl
  | cons entry rest ih =>
      rw [kept, List.filter_cons]
      split
      · rw [List.lookup_cons, List.lookup_cons, ← ih]
        rfl
      · next dropped =>
        have differ : (name == entry.1) = false := by
          refine beq_eq_false_iff_ne.2 fun same => ?_
          rw [← same] at dropped
          exact dropped stays
        rw [List.lookup_cons, differ]
        exact ih

theorem kept_withNew (vars : Variables) (entry : String × String) :
    kept keep (withNew vars entry) =
      if keep entry.1 then withNew (kept keep vars) entry else kept keep vars := by
  rw [withNew, withNew]
  cases stays : keep entry.1 with
  | true =>
      rw [if_pos rfl, lookup_kept stays]
      split
      · rfl
      · rw [kept_append_singleton, if_pos stays]
  | false =>
      rw [if_neg Bool.false_ne_true]
      split
      · rfl
      · rw [kept_append_singleton, stays, if_neg Bool.false_ne_true]

theorem kept_kept (keep other : String → Bool) (vars : Variables) :
    kept keep (kept other vars) = kept (fun name => keep name && other name) vars :=
  List.filter_filter

theorem kept_unset (keep : String → Bool) (vars new : Variables) :
    kept keep (unset vars new) = unset (kept keep vars) (kept keep new) := by
  rw [unset, unset, kept_kept, kept_kept]
  refine List.filter_congr fun entry _ => ?_
  dsimp only
  cases stays : keep entry.1 with
  | true => rw [lookup_kept stays, Bool.and_comm]
  | false => rw [Bool.and_false, Bool.false_and]

end Kept

/-- Whether a variable is new does not depend on what is left out for being set. -/
theorem withNew_append_unset (vars new : Variables) (entry : String × String) :
    withNew (vars ++ unset vars new) entry = vars ++ unset vars (withNew new entry) := by
  rw [withNew, List.lookup_append, unset, unset, kept_withNew]
  cases set : vars.lookup entry.1 with
  | some value => rfl
  | none =>
      rw [Option.none_or, withNew, lookup_kept (Option.isNone_iff_eq_none.2 set)]
      simp only [Option.isNone_none, if_true]
      split
      · rfl
      · exact List.append_assoc ..

/-- The first variable of each name. -/
def firsts (vars : Variables) : Variables := vars.foldl withNew []

/-- Of the first variables those that are kept are the first ones of those that are kept. -/
theorem kept_firsts (keep : String → Bool) (vars : Variables) :
    kept keep (firsts vars) = firsts (kept keep vars) := by
  have all : vars.foldl (fun vars entry => if keep entry.1 then withNew vars entry else vars)
      (kept keep []) = kept keep (vars.foldl withNew []) :=
    List.foldl_hom (kept keep) fun vars entry => (kept_withNew vars entry).symm
  rw [firsts, ← all]
  exact List.foldl_filter.symm

/-- What a file without signs adds are the variables that it says first of their names, but for those
that are set. -/
theorem added_eq_unset (free : SignFree text.toList) (vars : Variables) :
    added text vars = unset vars (firsts (said (fileLines text))) := by
  refine added_eq ?_
  calc setAll (fileLines text) vars
      = (said (fileLines text)).foldl withNew vars :=
        setAll_eq_foldl (fun line mem => signFree_fileLines free mem) vars
    _ = (said (fileLines text)).foldl withNew (vars ++ unset vars []) := by
        rw [unset, kept, List.filter_nil, List.append_nil]
    _ = vars ++ unset vars (firsts (said (fileLines text))) :=
        List.foldl_hom (fun new => vars ++ unset vars new) (withNew_append_unset vars)

/-- So it adds what it adds to nothing, but for the variables that are set. -/
theorem added_signFree (free : SignFree text.toList) (vars : Variables) :
    added text vars = unset vars (added text []) := by
  have alone : unset [] (firsts (said (fileLines text))) = firsts (said (fileLines text)) :=
    List.filter_eq_self.2 fun _ _ => rfl
  rw [added_eq_unset free, added_eq_unset free, alone]

end MediaHarvest.VariablesFile
