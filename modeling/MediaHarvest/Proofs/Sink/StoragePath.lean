import MediaHarvest.Proofs.Sink.Emptying
import MediaHarvest.Proofs.Text.Cutting
import MediaHarvest.Sink.StoragePath

/-!
# Where the contents of tasks are stored

The escapes of bytes form a prefix code, and the mark of the empty text is no escape, so every part
of a path can be told from every other.  No part has a slash or a dot of its own.  A path is
therefore cut in one way only, names a file in a folder, and never leads out of the folder that it
is joined to.
-/

namespace MediaHarvest

namespace FileTree

variable {tree made : FileTree} {name : String} {names' : List String} {place folder : FilePath}

/-! ## Names of joined paths -/

theorem names_append_slash (front rest : String) :
    names (front ++ "/" ++ rest) = names front ++ names rest := by
  have cut : (front ++ "/" ++ rest).toList = front.toList ++ '/' :: rest.toList := by simp
  rw [names, cut, List.splitOn_append_cons_self, List.map_append, List.filter_append]
  rfl

theorem names_of_slash_free (free : '/' ∉ name.toList) (full : name ≠ "") (stays : name ≠ ".") :
    names name = [name] := by
  rw [names, List.splitOn_eq_singleton free]
  simp [full, stays]

/-- The names of a path that is joined to a folder come behind those of the folder. -/
theorem names_join (folder : String) {path : String} (relative : path.startsWith "/" = false) :
    names (join folder path) = names folder ++ names path := by
  rw [join, relative]
  split
  · next empty =>
    obtain rfl : folder = "" := by simpa using empty
    rfl
  · split
    · next ends =>
      rw [String.endsWith_eq_endsWith_toSlice, String.Slice.endsWith_string_iff,
        String.copy_toSlice] at ends
      obtain ⟨base, same⟩ : ∃ base, base ++ "/".toList = folder.toList := ends
      obtain rfl : folder = String.ofList base ++ "/" := by
        apply String.toList_inj.1
        simp [← same]
      have whole := names_append_slash (String.ofList base) ""
      rw [String.append_empty] at whole
      rw [names_append_slash, whole]
      simp [names]
    · exact names_append_slash folder path

/-! ## Ways into a folder -/

/-- A name other than `.` and `..` leads into the folder of that name. -/
theorem enter_eq (stays : name ≠ ".") (leaves : name ≠ "..")
    (entered : tree.enter place name = .ok folder) : folder = name :: place := by
  rw [enter, if_neg stays, if_neg leaves] at entered
  split at entered
  · cases entered
  · split at entered
    · cases entered
      rfl
    · cases entered
    · cases entered

/-- A way that ends in a name other than `.` and `..` ends in the folder of that name. -/
theorem walk_concat (stays : name ≠ ".") (leaves : name ≠ "..")
    (walked : tree.walk (names' ++ [name]) = .ok folder) :
    ∃ place, tree.walk names' = .ok place ∧ folder = name :: place := by
  rw [walk, List.foldlM_append] at walked
  obtain ⟨place, reached, entered⟩ := bind_eq_ok_iff.1 walked
  obtain ⟨last, entered, done⟩ := bind_eq_ok_iff.1 entered
  cases done
  exact ⟨place, reached, enter_eq stays leaves entered⟩

/-- In a folder that is there a folder is made, unless something is in its place. -/
theorem makeFolder_eq (stays : name ≠ ".") (leaves : name ≠ "..") :
    (tree.entry? (name :: place) = none ∧
        tree.makeFolder place name = .ok (tree.put (name :: place) .folder)) ∨
      ∃ fault, fault ≠ .notFound ∧ tree.makeFolder place name = .error fault := by
  rw [makeFolder, if_neg (by simp [stays, leaves])]
  split
  · exact .inr ⟨.nameTooLong, nofun, rfl⟩
  · split
    · exact .inr ⟨.exists, nofun, rfl⟩
    · next free => exact .inl ⟨free, rfl⟩

/-- On a way through a folder that is there, at most the last folder is made. -/
theorem makeFolders_eq (stays : name ≠ ".") (leaves : name ≠ "..")
    (walked : tree.walk names' = .ok place)
    (done : makeFolders (name :: names'.reverse) tree = .ok made) :
    made = tree ∨ tree.entry? (name :: place) = none ∧ made = tree.put (name :: place) .folder := by
  have last : tree.makeLast (name :: names'.reverse) = tree.makeFolder place name := by
    rw [makeLast, List.reverse_reverse, walked]
    rfl
  rw [makeFolders, last] at done
  rcases makeFolder_eq stays leaves with ⟨free, new⟩ | ⟨fault, other, stops⟩
  · rw [new] at done
    cases done
    exact .inr ⟨free, rfl⟩
  · rw [stops] at done
    split at done
    · next same =>
      cases same
    · next same =>
      cases same
      exact absurd rfl other
    · split at done
      · cases done
        exact .inl rfl
      · cases done

end FileTree

namespace StoragePath

/-! ## Escapes -/

/-- A character that parts of a path are made of. -/
def IsSafe (c : Char) : Prop := c.isAlphanum = true ∨ c = '_' ∨ c = '-' ∨ c = '%'

instance (c : Char) : Decidable (IsSafe c) :=
  inferInstanceAs (Decidable (c.isAlphanum = true ∨ c = '_' ∨ c = '-' ∨ c = '%'))

/-- The bytes that stand for themselves are letters, digits, `_` and `-`. -/
theorem safe_of_isPlain {byte : UInt8} (plain : isPlain byte = true) :
    IsSafe (Char.ofNat byte.toNat) ∧ Char.ofNat byte.toNat ≠ '%' ∧
      (Char.ofNat byte.toNat).toNat = byte.toNat := by
  have all : ∀ n < 256, isPlain (UInt8.ofNat n) = true →
      IsSafe (Char.ofNat n) ∧ Char.ofNat n ≠ '%' ∧ (Char.ofNat n).toNat = n := by
    decide +kernel
  exact all byte.toNat byte.toNat_lt (by rwa [UInt8.ofNat_toNat])

theorem safe_digit {value : Nat} (small : value < 16) : IsSafe (Percent.digit value) := by
  revert value
  decide

theorem digit_inj {first second : Nat} (small : first < 16) (small' : second < 16)
    (same : Percent.digit first = Percent.digit second) : first = second := by
  have all : ∀ first < 16, ∀ second < 16,
      Percent.digit first = Percent.digit second → first = second := by
    decide +kernel
  exact all first small second small' same

/-- The digits of a byte tell its value. -/
theorem escape_inj {first second : UInt8} (same : Percent.escape first = Percent.escape second) :
    first = second := by
  have bound := first.toNat_lt
  have bound' := second.toNat_lt
  have digits : Percent.digit (first.toNat / 16) = Percent.digit (second.toNat / 16) ∧
      Percent.digit (first.toNat % 16) = Percent.digit (second.toNat % 16) := by
    simpa [Percent.escape] using same
  have tens := digit_inj (by omega) (by omega) digits.1
  have ones := digit_inj (by omega) (by omega) digits.2
  apply UInt8.toNat_inj.1
  omega

/-- A byte is told by what it is escaped to, whatever follows. -/
theorem escapeByte_append_inj {first second : UInt8} {rest rest' : List Char}
    (same : escapeByte first ++ rest = escapeByte second ++ rest') :
    first = second ∧ rest = rest' := by
  unfold escapeByte at same
  split at same <;> split at same
  · next plain plain' =>
    obtain ⟨chars, rests⟩ := List.cons.inj same
    have codes := congrArg Char.toNat chars
    rw [(safe_of_isPlain plain).2.2, (safe_of_isPlain plain').2.2] at codes
    exact ⟨UInt8.toNat_inj.1 codes, rests⟩
  · next plain _ => exact absurd (List.cons.inj same).1 (safe_of_isPlain plain).2.1
  · next _ plain => exact absurd (List.cons.inj same).1.symm (safe_of_isPlain plain).2.1
  · obtain ⟨escapes, rests⟩ := List.append_inj same rfl
    exact ⟨escape_inj escapes, rests⟩

theorem escapeByte_ne_nil (byte : UInt8) : escapeByte byte ≠ [] := by
  unfold escapeByte
  split <;> exact List.cons_ne_nil _ _

/-- No byte is escaped to a percent sign alone. -/
theorem escapeByte_append_ne (byte : UInt8) (rest : List Char) :
    escapeByte byte ++ rest ≠ ['%'] := by
  unfold escapeByte
  split
  · next plain => exact fun same => (safe_of_isPlain plain).2.1 (List.cons.inj same).1
  · exact nofun

/-- The bytes of a text are told by their escapes. -/
theorem flatMap_escapeByte_inj {first second : Bytes}
    (same : first.flatMap escapeByte = second.flatMap escapeByte) : first = second := by
  induction first generalizing second with
  | nil =>
      cases second with
      | nil => rfl
      | cons byte second =>
          have empty := List.append_eq_nil_iff.1 same.symm
          exact absurd empty.1 (escapeByte_ne_nil byte)
  | cons byte first ih =>
      cases second with
      | nil =>
          have empty := List.append_eq_nil_iff.1 same
          exact absurd empty.1 (escapeByte_ne_nil byte)
      | cons other second =>
          obtain ⟨rfl, rests⟩ := escapeByte_append_inj same
          rw [ih rests]

/-- The mark of the empty text is told from every escape. -/
theorem escapePart_inj {first second : Bytes} (same : escapePart first = escapePart second) :
    first = second := by
  unfold escapePart at same
  cases first with
  | nil =>
      cases second with
      | nil => rfl
      | cons byte second => exact absurd same.symm (escapeByte_append_ne byte _)
  | cons byte first =>
      cases second with
      | nil => exact absurd same (escapeByte_append_ne byte _)
      | cons other second => exact flatMap_escapeByte_inj same

/-! ## Parts -/

/-- A part of a path: some safe characters. -/
structure IsPart (chars : List Char) : Prop where
  ne_nil : chars ≠ []
  safe : ∀ c ∈ chars, IsSafe c

theorem isPart_escapePart (bytes : Bytes) : IsPart (escapePart bytes) := by
  cases bytes with
  | nil =>
      refine ⟨List.cons_ne_nil _ _, fun c mem => ?_⟩
      obtain rfl : c = '%' := List.mem_singleton.1 mem
      decide
  | cons byte bytes =>
      constructor
      · exact fun empty => escapeByte_ne_nil byte (List.append_eq_nil_iff.1 empty).1
      · intro c mem
        obtain ⟨origin, _, mem⟩ := List.mem_flatMap.1 mem
        have bound := origin.toNat_lt
        unfold escapeByte at mem
        split at mem
        · next plain =>
          rw [List.mem_singleton.1 mem]
          exact (safe_of_isPlain plain).1
        · simp only [Percent.escape, List.mem_cons, List.not_mem_nil, or_false] at mem
          rcases mem with rfl | rfl | rfl
          · decide
          · exact safe_digit (by omega)
          · exact safe_digit (by omega)

theorem IsPart.slash_free {chars : List Char} (isPart : IsPart chars) : '/' ∉ chars :=
  fun mem => absurd (isPart.safe _ mem) (by decide)

theorem IsPart.dot_free {chars : List Char} (isPart : IsPart chars) : '.' ∉ chars :=
  fun mem => absurd (isPart.safe _ mem) (by decide)

theorem toList_part (text : String) : (part text).toList = escapePart (Text.utf8 text) :=
  String.toList_ofList

theorem isPart_part (text : String) : IsPart (part text).toList := by
  rw [toList_part]
  exact isPart_escapePart _

/-- Different texts are different parts. -/
theorem part_inj {first second : String} (same : part first = part second) : first = second := by
  apply Text.utf8_injective
  apply escapePart_inj
  rw [← toList_part, ← toList_part, same]

/-! ## Paths -/

/-- The folder of a task. -/
def folderName (task : Task) : String := part task.job

/-- The file of a task in its folder. -/
def fileName (task : Task) : String := part task.id ++ "." ++ part task.resource

variable {task first second : Task}

theorem isPart_folderName (task : Task) : IsPart (folderName task).toList := isPart_part task.job

theorem ofTask_eq (task : Task) : ofTask task = folderName task ++ "/" ++ fileName task := by
  simp [ofTask, folderName, fileName, String.append_assoc]

theorem toList_fileName (task : Task) :
    (fileName task).toList = (part task.id).toList ++ '.' :: (part task.resource).toList := by
  simp [fileName]

theorem toList_ofTask (task : Task) :
    (ofTask task).toList = (folderName task).toList ++ '/' :: (fileName task).toList := by
  simp [ofTask_eq]

theorem slash_free_fileName (task : Task) : '/' ∉ (fileName task).toList := by
  rw [toList_fileName, List.mem_append, List.mem_cons]
  rintro (mem | same | mem)
  · exact (isPart_part _).slash_free mem
  · cases same
  · exact (isPart_part _).slash_free mem

/-- The path of a task tells its three identifiers. -/
theorem ofTask_eq_iff : ofTask first = ofTask second ↔
    first.job = second.job ∧ first.id = second.id ∧ first.resource = second.resource := by
  constructor
  · intro same
    have paths := congrArg String.toList same
    rw [toList_ofTask, toList_ofTask] at paths
    obtain ⟨folders, files⟩ :=
      cut_at_first (isPart_folderName first).slash_free (isPart_folderName second).slash_free paths
    rw [toList_fileName, toList_fileName] at files
    obtain ⟨ids, resources⟩ :=
      cut_at_first (isPart_part first.id).dot_free (isPart_part second.id).dot_free files
    exact ⟨part_inj (String.toList_inj.1 folders), part_inj (String.toList_inj.1 ids),
      part_inj (String.toList_inj.1 resources)⟩
  · rintro ⟨jobs, ids, resources⟩
    rw [ofTask, ofTask, jobs, ids, resources]

/-! ## Below a folder -/

/-- The name of a folder has no dot. -/
theorem folderName_ne_dots (task : Task) :
    folderName task ≠ "" ∧ folderName task ≠ "." ∧ folderName task ≠ ".." := by
  have isPart := isPart_folderName task
  refine ⟨?_, ?_, ?_⟩ <;> intro same <;> rw [same] at isPart
  · exact isPart.ne_nil rfl
  · exact isPart.dot_free (by decide)
  · exact isPart.dot_free (by decide)

/-- The name of a file has a part on both sides of its dot. -/
theorem fileName_ne_dots (task : Task) :
    fileName task ≠ "" ∧ fileName task ≠ "." ∧ fileName task ≠ ".." := by
  have id := List.length_pos_iff.2 (isPart_part task.id).ne_nil
  have resource := List.length_pos_iff.2 (isPart_part task.resource).ne_nil
  have long : 3 ≤ (fileName task).toList.length := by
    rw [toList_fileName, List.length_append, List.length_cons]
    omega
  refine ⟨?_, ?_, ?_⟩ <;> intro same <;> rw [same] at long <;> exact absurd long (by decide)

theorem relative_ofTask (task : Task) : (ofTask task).startsWith "/" = false := by
  rw [Bool.eq_false_iff]
  intro starts
  obtain ⟨rest, same⟩ := String.startsWith_string_iff.1 starts
  rw [toList_ofTask] at same
  cases chars : (folderName task).toList with
  | nil => exact (isPart_folderName task).ne_nil chars
  | cons c cs =>
      rw [chars] at same
      obtain rfl : '/' = c := (List.cons.inj same).1
      exact (isPart_folderName task).slash_free (chars ▸ List.mem_cons_self)

/-- Joined to a folder, the path of a task names a file in a folder there. -/
theorem names_join_ofTask (task : Task) (base : String) :
    FileTree.names (FileTree.join base (ofTask task)) =
      FileTree.names base ++ [folderName task, fileName task] := by
  have folder : FileTree.names (folderName task) = [folderName task] :=
    have ⟨full, stays, _⟩ := folderName_ne_dots task
    FileTree.names_of_slash_free (isPart_folderName task).slash_free full stays
  have file : FileTree.names (fileName task) = [fileName task] :=
    have ⟨full, stays, _⟩ := fileName_ne_dots task
    FileTree.names_of_slash_free (slash_free_fileName task) full stays
  rw [FileTree.names_join base (relative_ofTask task), ofTask_eq, FileTree.names_append_slash,
    folder, file]
  rfl

theorem reverse_names_join_ofTask (task : Task) (base : String) :
    (FileTree.names (FileTree.join base (ofTask task))).reverse =
      fileName task :: folderName task :: (FileTree.names base).reverse := by
  rw [names_join_ofTask, List.reverse_append]
  rfl

variable {files left : FileTree} {base : String} {sink : DiskSink} {place path : FilePath}

/-- A file that is made for a task stands in the folder of the task, and that in the folder that
the path was joined to. -/
theorem place_of_create {made : FileTree} (created : files.create
    (FileTree.join base (ofTask task)) = .ok (made, place)) :
    ∃ folder, files.walk (FileTree.names base) = .ok folder ∧
      place = fileName task :: folderName task :: folder := by
  obtain ⟨_, name, outer, inner, named, walked, _, _, _, rfl, _⟩ :=
    FileTree.create_eq_ok_iff.1 created
  rw [reverse_names_join_ofTask] at named
  obtain ⟨rfl, rfl⟩ := List.cons.inj named
  obtain ⟨_, stays, leaves⟩ := folderName_ne_dots task
  rw [List.reverse_cons, List.reverse_reverse] at walked
  obtain ⟨folder, reached, rfl⟩ := FileTree.walk_concat stays leaves walked
  exact ⟨folder, reached, rfl⟩

/-- A sink for a task writes a file below the folder that the path was joined to. -/
theorem place_of_opened
    (opened : DiskSink.create files (FileTree.join base (ofTask task)) = (left, .ok sink)) :
    ∃ folder, left.walk (FileTree.names base) = .ok folder ∧
      sink.place = fileName task :: folderName task :: folder := by
  obtain ⟨_, _, _, created, rfl⟩ := DiskSink.create_eq_ok_iff.1 opened
  obtain ⟨folder, reached, place⟩ := place_of_create created
  exact ⟨folder, FileTree.walk_of_folders (FileTree.folders_create created) reached, place⟩

/-- Opening a sink for a task in a folder that is there changes nothing outside of it. -/
theorem entry?_of_opened
    (opened : DiskSink.create files (FileTree.join base (ofTask task)) = (left, .ok sink))
    (there : files.walk (FileTree.names base) = .ok place) (outside : ¬ place <:+ path) :
    left.entry? path = files.entry? path := by
  have apart (names : List String) : path ≠ names ++ place := by
    rintro rfl
    exact outside (List.suffix_append ..)
  have notFile : path ≠ fileName task :: folderName task :: place :=
    apart [fileName task, folderName task]
  have notFolder : path ≠ folderName task :: place := apart [folderName task]
  obtain ⟨_, _, way, created, rfl⟩ := DiskSink.create_eq_ok_iff.1 opened
  obtain ⟨folder, reached, rfl⟩ := place_of_create created
  rw [FileTree.eq_put_of_create created]
  rw [FileTree.makeWay, reverse_names_join_ofTask, List.drop_one, List.tail_cons] at way
  split at way
  · cases way
  obtain ⟨_, stays, leaves⟩ := folderName_ne_dots task
  -- The folder of the task was there, or it is new and nothing stood in its place.
  rcases FileTree.makeFolders_eq stays leaves there way with rfl | ⟨free, rfl⟩
  · obtain rfl : place = folder := Except.ok.inj (there.symm.trans reached)
    exact FileTree.entry?_put_of_ne notFile
  · have kept (path' : FilePath) (isFolder : files.entry? path' = some .folder) :
        FileTree.entry? (files.put (folderName task :: place) .folder) path' = some .folder := by
      have elsewhere : path' ≠ folderName task :: place := by
        rintro rfl
        rw [free] at isFolder
        cases isFolder
      exact (FileTree.entry?_put_of_ne elsewhere).trans isFolder
    obtain rfl : place = folder :=
      Except.ok.inj ((FileTree.walk_of_folders kept there).symm.trans reached)
    rw [FileTree.entry?_put_of_ne notFile, FileTree.entry?_put_of_ne notFolder]

/-- Where the content of a task is stored: in a file of two safe parts with a dot between them, in
a folder of one, and never outside of the folder that the path is joined to. -/
structure Confined (task : Task) : Prop where
  path : ofTask task = folderName task ++ "/" ++ fileName task
  folder : IsPart (folderName task).toList
  file : ∃ id resource, (fileName task).toList = id ++ '.' :: resource ∧
    IsPart id ∧ IsPart resource
  /-- One slash and one dot. -/
  marks : (ofTask task).toList.count '/' = 1 ∧ (ofTask task).toList.count '.' = 1
  stays : folderName task ≠ "." ∧ fileName task ≠ "."
  leaves : folderName task ≠ ".." ∧ fileName task ≠ ".."
  below : ∀ base, FileTree.names (FileTree.join base (ofTask task)) =
    FileTree.names base ++ [folderName task, fileName task]
  placed : ∀ files base left sink,
    DiskSink.create files (FileTree.join base (ofTask task)) = (left, .ok sink) →
    ∃ folder, left.walk (FileTree.names base) = .ok folder ∧
      sink.place = fileName task :: folderName task :: folder
  /-- Opening a sink in a folder that is there leaves everything else alone. -/
  inside : ∀ files base left sink place,
    DiskSink.create files (FileTree.join base (ofTask task)) = (left, .ok sink) →
    files.walk (FileTree.names base) = .ok place →
    ∀ path, ¬ place <:+ path → left.entry? path = files.entry? path

theorem count_marks (task : Task) :
    (ofTask task).toList.count '/' = 1 ∧ (ofTask task).toList.count '.' = 1 := by
  have folder := isPart_folderName task
  have id := isPart_part task.id
  have resource := isPart_part task.resource
  rw [toList_ofTask, toList_fileName]
  simp only [List.count_append, List.count_cons, List.count_eq_zero_of_not_mem folder.slash_free,
    List.count_eq_zero_of_not_mem id.slash_free, List.count_eq_zero_of_not_mem resource.slash_free,
    List.count_eq_zero_of_not_mem folder.dot_free, List.count_eq_zero_of_not_mem id.dot_free,
    List.count_eq_zero_of_not_mem resource.dot_free]
  decide

/-- Tasks share a path only if they share their three identifiers, whatever these are, and no path
leads out of the folder of all contents. -/
theorem apart_and_confined :
    (∀ first second : Task, ofTask first = ofTask second ↔
      first.job = second.job ∧ first.id = second.id ∧ first.resource = second.resource) ∧
    ∀ task : Task, Confined task := by
  refine ⟨fun first second => ofTask_eq_iff, fun task => ?_⟩
  obtain ⟨_, stays, leaves⟩ := folderName_ne_dots task
  obtain ⟨_, stays', leaves'⟩ := fileName_ne_dots task
  constructor
  · exact ofTask_eq task
  · exact isPart_folderName task
  · exact ⟨_, _, toList_fileName task, isPart_part task.id, isPart_part task.resource⟩
  · exact count_marks task
  · exact ⟨stays, stays'⟩
  · exact ⟨leaves, leaves'⟩
  · exact names_join_ofTask task
  · intro files base left sink opened
    exact place_of_opened opened
  · intro files base left sink place opened there path outside
    exact entry?_of_opened opened there outside

/-- A task with an empty identifier and others that would lead elsewhere. -/
def climbingTask : Task :=
  ⟨"", "../x", "a/b.c", none, .unconditionalDownload, .unlimited, ∅, [], ⟨"", "", "", ""⟩⟩

/-- The path of a task whose identifiers would lead elsewhere can be written below a folder that is
missing yet. -/
theorem confined_climbing :
    ofTask climbingTask = "%2E%2E%2Fx/%.a%2Fb%2Ec" ∧
      ∃ left sink,
        DiskSink.create .empty (FileTree.join "out" (ofTask climbingTask)) = (left, .ok sink) ∧
        left.walk ["out"] = .ok ["out"] ∧
        sink.place = ["%.a%2Fb%2Ec", "%2E%2E%2Fx", "out"] := by
  have path : ofTask climbingTask = "%2E%2E%2Fx/%.a%2Fb%2Ec" := by decide +kernel
  have whole : FileTree.join "out" (ofTask climbingTask) = "out/%2E%2E%2Fx/%.a%2Fb%2Ec" := by
    rw [path]
    decide +kernel
  have folder : folderName climbingTask = "%2E%2E%2Fx" := by decide +kernel
  have file : fileName climbingTask = "%.a%2Fb%2Ec" := by decide +kernel
  have base : FileTree.names "out" = ["out"] := by decide +kernel
  have names := (apart_and_confined.2 climbingTask).below "out"
  rw [whole, folder, file, base] at names
  let paved : FileTree := (FileTree.empty.put ["out"] .folder).put ["%2E%2E%2Fx", "out"] .folder
  have way : FileTree.empty.makeWay "out/%2E%2E%2Fx/%.a%2Fb%2Ec" = .ok paved := by
    rw [FileTree.makeWay, names]
    change (if ["%2E%2E%2Fx", "out"].any (·.contains '\x00') then _ else _) = _
    rw [if_neg (by simp)]
    decide +kernel
  have made : paved.create "out/%2E%2E%2Fx/%.a%2Fb%2Ec" =
      .ok (paved.put ["%.a%2Fb%2Ec", "%2E%2E%2Fx", "out"] (.file []),
        ["%.a%2Fb%2Ec", "%2E%2E%2Fx", "out"]) :=
    FileTree.create_eq_ok_iff.2 ⟨by simp, _, _, ["%2E%2E%2Fx", "out"], by rw [names]; rfl,
      by decide +kernel, by decide +kernel, by decide +kernel, by decide +kernel, rfl, rfl⟩
  rw [whole]
  exact ⟨path, _, _, DiskSink.create_eq_ok_iff.2 ⟨paved, _, way, made, rfl⟩, by decide +kernel, rfl⟩

end StoragePath

end MediaHarvest
