import MediaHarvest.Proofs.Sink.View

/-!
# Emptying a sink

Whatever was done to a sink since it was opened, and even if an operation was cut short, it can
still be emptied: a file that is open is emptied in its place, and one that was closed is made anew,
for nothing but its contents has changed in its folder.
-/

namespace MediaHarvest

namespace FileTree

variable {tree made other : FileTree} {path : String} {place path' : FilePath}

/-- A way through folders is there as long as the folders are. -/
theorem walk_of_folders
    (folders : ∀ path, tree.entry? path = some .folder → other.entry? path = some .folder)
    {names : List String} {folder : FilePath} (walked : tree.walk names = .ok folder) :
    other.walk names = .ok folder := by
  have enters {path next : FilePath} {name : String} (entered : tree.enter path name = .ok next) :
      other.enter path name = .ok next := by
    unfold enter at entered ⊢
    split
    · next stays => rwa [if_pos stays] at entered
    · next stays =>
      rw [if_neg stays] at entered
      split
      · next leaves => rwa [if_pos leaves] at entered
      · next leaves =>
        rw [if_neg leaves] at entered
        split
        · next long => rwa [if_pos long] at entered
        · next long =>
          rw [if_neg long] at entered
          split at entered
          · next there =>
            rw [folders _ there]
            exact entered
          · cases entered
          · cases entered
  unfold walk at walked ⊢
  generalize ([] : FilePath) = start at walked ⊢
  induction names generalizing start with
  | nil => exact walked
  | cons name names ih =>
      rw [List.foldlM_cons] at walked ⊢
      obtain ⟨next, entered, walked⟩ := bind_eq_ok_iff.1 walked
      exact bind_eq_ok_iff.2 ⟨next, enters entered, ih next walked⟩

/-- A file can be made where its folders are and no folder stands. -/
theorem create_eq_ok_iff :
    tree.create path = .ok (made, place) ↔
      path.contains '\x00' = false ∧ ∃ name outer folder, (names path).reverse = name :: outer ∧
        tree.walk outer.reverse = .ok folder ∧ ¬ (endsInFolder path ∨ name = "..") ∧
        isTooLong name = false ∧ tree.entry? (name :: folder) ≠ some .folder ∧
        place = name :: folder ∧ made = tree.put place (.file []) := by
  constructor
  · intro created
    unfold create at created
    split at created
    · cases created
    next zero =>
    split at created
    · cases created
    next name outer names =>
    obtain ⟨folder, walked, created⟩ := bind_eq_ok_iff.1 created
    split at created
    · split at created
      · obtain ⟨_, _, created⟩ := bind_eq_ok_iff.1 created
        cases created
      · cases created
    next last =>
    split at created
    · cases created
    next long =>
    split at created
    · cases created
    next free =>
    cases created
    exact ⟨Bool.eq_false_iff.2 zero, name, outer, folder, names, walked, last,
      Bool.eq_false_iff.2 long, free, rfl, rfl⟩
  · rintro ⟨zero, name, outer, folder, names, walked, last, long, free, rfl, rfl⟩
    rw [create, zero, if_neg Bool.false_ne_true, names]
    refine bind_eq_ok_iff.2 ⟨folder, walked, ?_⟩
    rw [if_neg last, long, if_neg Bool.false_ne_true]
    split
    · next there => exact absurd there free
    · rfl

/-- Where a file was made it can be made again, as long as the folders are there. -/
theorem create_again (created : tree.create path = .ok (made, place))
    (folders : ∀ path, tree.entry? path = some .folder → other.entry? path = some .folder)
    (free : other.entry? place ≠ some .folder) :
    other.create path = .ok (other.put place (.file []), place) := by
  obtain ⟨zero, name, outer, folder, names, walked, last, long, _, rfl, rfl⟩ :=
    create_eq_ok_iff.1 created
  exact create_eq_ok_iff.2
    ⟨zero, name, outer, folder, names, walk_of_folders folders walked, last, long, free, rfl, rfl⟩

/-- Putting something at a path changes nothing elsewhere. -/
theorem entry?_put_of_ne {entry : FileEntry} (elsewhere : path' ≠ place) :
    entry? (tree.put place entry) path' = tree.entry? path' := by
  have kept (entries : List (FilePath × FileEntry)) :
      (entries.filter fun other => other.1 ≠ place).lookup path' = entries.lookup path' := by
    induction entries with
    | nil => rfl
    | cons head rest ih =>
        by_cases removed : head.1 = place
        · rw [List.filter_cons_of_neg (by simpa using removed), ih, List.lookup_cons,
            beq_false_of_ne (removed ▸ elsewhere)]
        · rw [List.filter_cons_of_pos (by simpa using removed), List.lookup_cons,
            List.lookup_cons, ih]
  unfold entry? put
  rw [List.lookup_cons, beq_false_of_ne elsewhere, kept]

theorem eq_put_of_create (created : tree.create path = .ok (made, place)) :
    made = tree.put place (.file []) := by
  obtain ⟨_, _, _, _, _, _, _, _, _, rfl, rfl⟩ := create_eq_ok_iff.1 created
  rfl

/-- Making a file leaves the folders where they are. -/
theorem folders_create (created : tree.create path = .ok (made, place)) (path' : FilePath)
    (isFolder : tree.entry? path' = some .folder) : made.entry? path' = some .folder := by
  obtain ⟨_, name, _, folder, _, _, _, _, free, rfl, rfl⟩ := create_eq_ok_iff.1 created
  have elsewhere : path' ≠ name :: folder := by
    rintro rfl
    exact free isFolder
  exact (entry?_put_of_ne elsewhere).trans isFolder

/-- A file that was made can be made anew. -/
theorem create_made (created : tree.create path = .ok (made, place)) :
    ∃ again, made.create path = .ok (again, place) := by
  have there := read?_of_create created
  refine ⟨_, create_again created (folders_create created) ?_⟩
  · intro isFolder
    rw [read?, isFolder] at there
    cases there

/-- Changing a file leaves the folders where they are, and no folder in its place. -/
theorem folders_change {contents : Bytes} (there : tree.read? place = some contents)
    (edit : Bytes → Bytes) :
    (∀ path, tree.entry? path = some .folder →
      entry? (tree.change place edit) path = some .folder) ∧
      entry? (tree.change place edit) place ≠ some .folder := by
  constructor
  · intro path folder
    have elsewhere : path ≠ place := by
      rintro rfl
      rw [read?, folder] at there
      cases there
    rw [change, there]
    exact (entry?_put_of_ne elsewhere).trans folder
  · intro folder
    have still := read?_change tree place there edit
    rw [read?, folder] at still
    cases still

end FileTree

namespace DiskSink

/-- A sink whose file is in its folder, and can be made anew there. -/
structure Renewable (sink : DiskSink) : Prop where
  there : ∃ contents, sink.contents? = some contents
  renews : ∃ files, sink.files.create sink.path = .ok (files, sink.place)

/-- A sink that was just opened. -/
theorem renewable_of_create {files left : FileTree} {path : String} {sink : DiskSink}
    (opened : create files path = (left, .ok sink)) : sink.Renewable := by
  obtain ⟨_, place, _, created, rfl⟩ := create_eq_ok_iff.1 opened
  exact ⟨⟨_, FileTree.read?_of_create created⟩, FileTree.create_made created⟩

/-- What happens to the contents of the file, to the count and to the handle does not matter. -/
theorem Renewable.change {sink : DiskSink} (renewable : sink.Renewable) (edit : Bytes → Bytes)
    (position : Option Nat) (accepted : Nat) :
    Renewable
      { sink with
        position := position
        accepted := accepted
        files := sink.files.change sink.place edit } := by
  obtain ⟨⟨contents, there⟩, files, renews⟩ := renewable
  obtain ⟨folders, free⟩ := FileTree.folders_change there edit
  exact ⟨⟨_, sink.files.read?_change sink.place there edit⟩, _,
    FileTree.create_again renews folders free⟩

theorem Renewable.write {sink : DiskSink} (renewable : sink.Renewable) (piece : Bytes) :
    (DiskSink.write piece sink).1.Renewable := by
  rw [DiskSink.write]
  split
  · exact renewable.change _ _ _
  · exact renewable

theorem Renewable.truncate {sink : DiskSink} (renewable : sink.Renewable) :
    (DiskSink.truncate sink).1.Renewable := by
  rw [DiskSink.truncate]
  split
  · exact renewable.change _ _ _
  · obtain ⟨files, renews⟩ := renewable.renews
    rw [renews]
    exact ⟨⟨_, FileTree.read?_of_create renews⟩, FileTree.create_made renews⟩

theorem Renewable.finish {sink : DiskSink} (renewable : sink.Renewable) :
    (DiskSink.finish sink).1.Renewable :=
  ⟨renewable.there, renewable.renews⟩

/-- Emptying and closing leaves nothing. -/
theorem Renewable.emptied {sink : DiskSink} (renewable : sink.Renewable) :
    ∃ empty, DiskSink.truncate sink = (empty, .ok ()) ∧
      ∃ closed, DiskSink.finish empty = (closed, .ok ()) ∧ closed.accepted = 0 ∧
        view.contents closed = [] := by
  obtain ⟨⟨contents, there⟩, files, renews⟩ := renewable
  rw [DiskSink.truncate]
  split
  · refine ⟨_, rfl, _, rfl, rfl, ?_⟩
    have emptied := sink.files.read?_change sink.place there fun _ => []
    exact congrArg (·.getD []) emptied
  · rw [renews]
    refine ⟨_, rfl, _, rfl, rfl, ?_⟩
    exact congrArg (·.getD []) (FileTree.read?_of_create renews)

end DiskSink

namespace AnySink

/-- A sink that can be emptied whatever was done to it. -/
def Renewable : AnySink → Prop
  | disk sink => sink.Renewable
  | memory .. => True

/-- What can have become of a sink that was opened: pieces were put into it, it was emptied or
closed, or one of these was cut short, so that its count is behind what happened to its file. -/
inductive Handled (opened : AnySink) : AnySink → Prop where
  | opened : Handled opened opened
  | write {sink : AnySink} (piece : Bytes) (handled : Handled opened sink) :
      Handled opened (Sink.write piece sink).1
  | truncate {sink : AnySink} (handled : Handled opened sink) :
      Handled opened (Sink.truncate sink).1
  | finish {sink : AnySink} (handled : Handled opened sink) :
      Handled opened (Sink.finish sink).1
  | cutShort {sink : DiskSink} (edit : Bytes → Bytes) (position : Option Nat)
      (handled : Handled opened (disk sink)) :
      Handled opened
        (disk { sink with
          position := position
          files := sink.files.change sink.place edit })

variable {opened sink : AnySink}

theorem Renewable.write (renewable : sink.Renewable) (piece : Bytes) :
    (Sink.write piece sink).1.Renewable := by
  cases sink with
  | memory => exact trivial
  | disk sink => exact DiskSink.Renewable.write renewable piece

theorem Renewable.truncate (renewable : sink.Renewable) :
    (Sink.truncate sink).1.Renewable := by
  cases sink with
  | memory => exact trivial
  | disk sink => exact DiskSink.Renewable.truncate renewable

theorem Renewable.finish (renewable : sink.Renewable) : (Sink.finish sink).1.Renewable := by
  cases sink with
  | memory => exact trivial
  | disk sink => exact DiskSink.Renewable.finish renewable

/-- What was renewable stays so. -/
theorem Handled.renewable (handled : Handled opened sink) (renewable : opened.Renewable) :
    sink.Renewable := by
  induction handled with
  | opened => exact renewable
  | write piece _ ih => exact ih.write piece
  | truncate _ ih => exact ih.truncate
  | finish _ ih => exact ih.finish
  | cutShort edit position _ ih => exact DiskSink.Renewable.change ih edit position _

/-- Emptying and closing leaves nothing. -/
theorem Renewable.emptied (renewable : sink.Renewable) :
    ∃ empty, Sink.truncate sink = (empty, .ok ()) ∧
      ∃ closed, Sink.finish empty = (closed, .ok ()) ∧ Sink.accepted closed = 0 ∧
        view.contents closed = [] := by
  cases sink with
  | memory files sink => exact ⟨_, rfl, _, rfl, rfl, rfl⟩
  | disk sink =>
      obtain ⟨empty, truncated, closed, finished, size, nothing⟩ :=
        DiskSink.Renewable.emptied renewable
      exact ⟨disk empty, congrArg (fun done => (disk done.1, done.2)) truncated, disk closed,
        congrArg (fun done => (disk done.1, done.2)) finished, size, nothing⟩

theorem renewable_of_create {kind : SinkKind} {files left : FileTree} {folder path : String}
    (opened : create kind files folder path = (left, .ok sink)) : sink.Renewable := by
  cases kind with
  | memory =>
      cases opened
      exact trivial
  | disk =>
      rw [create] at opened
      split at opened
      · cases opened
      · next made =>
        cases opened
        exact DiskSink.renewable_of_create made

end AnySink

end MediaHarvest
