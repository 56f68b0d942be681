import MediaHarvest.Net.Address
import MediaHarvest.Proofs.Number.Digits

/-!
# Reading back addresses

The text of an address of either version is read as that address.  For version 6 the scanner takes
the groups in front of the double colon and those behind it; what lies between is a run of zeros,
because `longestZeroRun` only ever returns such a run.
-/

namespace MediaHarvest.Address

open MediaHarvest.Number

/-! ## Octets -/

/-- The digits of an octet are read as that octet. -/
theorem octet_toDigits (a : UInt8) {rest : List Char} (stop : Stops Char.isDigit rest) :
    octet (Nat.toDigits 10 a.toNat ++ rest) = some (a, rest) := by
  obtain ⟨taken, left⟩ := scan_append (isDigit_toDigits a.toNat) stop
  have value : (Nat.toDigits 10 a.toNat).foldl (fun n c => 10 * n + (c.toNat - 48)) 0 = a.toNat :=
    ofDigits_toDigits a.toNat
  have small : a.toNat < 256 := a.toNat_lt
  have short : (Nat.toDigits 10 a.toNat).length ≤ 3 :=
    (Nat.length_toDigits_le_iff (by decide) (by decide)).2 (by omega)
  have leading : 1 < (Nat.toDigits 10 a.toNat).length →
      (Nat.toDigits 10 a.toNat).head? ≠ some '0' := by
    intro long zero
    rw [(head?_toDigits (by decide) _).1 zero] at long
    simp at long
  rw [octet, taken, left, value, if_neg]
  · simp
  · rintro (empty | long | large | ⟨long, zero⟩)
    · exact Nat.toDigits_ne_nil empty
    · omega
    · omega
    · exact leading long zero

theorem dotted_toList (a b c d : UInt8) :
    (dotted a b c d).toList = Nat.toDigits 10 a.toNat ++ '.' :: (Nat.toDigits 10 b.toNat ++
      '.' :: (Nat.toDigits 10 c.toNat ++ '.' :: Nat.toDigits 10 d.toNat)) := by
  have point : (toString ".").toList = ['.'] := rfl
  simp [dotted, point]

/-- Four octets are read as they were written. -/
theorem octets_dotted (a b c d : UInt8) {rest : List Char} (stop : Stops Char.isDigit rest) :
    octets ((dotted a b c d).toList ++ rest) = some ((a, b, c, d), rest) := by
  have point (more : List Char) : Stops Char.isDigit ('.' :: more) := by simp
  simp [octets, dotted_toList, expect, octet_toDigits, point, stop]

theorem version4?_dotted (a b c d : UInt8) :
    version4? (dotted a b c d).toList = some (.v4 a b c d) := by
  have all := octets_dotted a b c d (stops_nil _)
  rw [List.append_nil] at all
  rw [version4?, all]
  rfl

/-- Without a point behind the digits there are no four octets. -/
theorem octets_eq_none {chars : List Char}
    (point : (chars.dropWhile Char.isDigit).head? ≠ some '.') : octets chars = none := by
  have refused (wanted : List Char) (first : wanted.head? ≠ some '.') :
      expect '.' wanted = none := by
    cases wanted with
    | nil => rfl
    | cons c rest => simpa [expect] using first
  rw [octets, octet]
  dsimp only
  split
  · rfl
  · simp [refused _ point]

/-! ## Groups -/

/-- The digits of a group. -/
def groupChars (group : UInt16) : List Char := Nat.toDigits 16 group.toNat

/-- Groups, each behind a colon. -/
def colonChars (groups : List UInt16) : List Char :=
  groups.flatMap fun group => ':' :: groupChars group

theorem colonText_cons (group : UInt16) (groups : List UInt16) :
    (colonText (group :: groups)).toList = groupChars group ++ colonChars groups := by
  induction groups generalizing group with
  | nil => simp [colonText, groupChars, colonChars, Text.hexNumeral]
  | cons next groups ih =>
      have split : colonText (group :: next :: groups) =
          Text.hexNumeral group.toNat ++ ":" ++ colonText (next :: groups) := by
        simp [colonText]
      rw [split, String.toList_append, ih next]
      simp [Text.hexNumeral, groupChars, colonChars]

theorem digitValue?_digitChar {d : Nat} (small : d < 16) : digitValue? d.digitChar = some d := by
  revert d
  decide

/-- A group stops at a colon and at the end. -/
def EndsGroup (rest : List Char) : Prop := rest = [] ∨ ∃ more, rest = ':' :: more

theorem EndsGroup.stops {rest : List Char} (ended : EndsGroup rest) :
    Stops (fun c => (digitValue? c).isSome) rest := by
  rcases ended with rfl | ⟨more, rfl⟩
  · exact stops_nil _
  · exact (stops_cons _ _ _).2 (by decide)

theorem EndsGroup.append {groups : List UInt16} {rest : List Char} (ended : EndsGroup rest) :
    EndsGroup (colonChars groups ++ rest) := by
  cases groups with
  | nil => exact ended
  | cons => exact .inr ⟨_, rfl⟩

/-- The digits of a group are read as that group. -/
theorem group_groupChars (value : UInt16) {rest : List Char} (ended : EndsGroup rest) :
    group (groupChars value ++ rest) = some (value, rest) := by
  have digits : ∀ c ∈ groupChars value, (digitValue? c).isSome = true :=
    forall_toDigits (by decide) (fun d small => by rw [digitValue?_digitChar small]; rfl) _
  obtain ⟨taken, left⟩ := scan_append digits ended.stops
  have sum :
      (groupChars value).foldl (fun n c => 16 * n + (digitValue? c).getD 0) 0 = value.toNat :=
    foldl_toDigits (by decide) (fun d small => by rw [digitValue?_digitChar small]; rfl) _
  have short : (groupChars value).length ≤ 4 :=
    (Nat.length_toDigits_le_iff (by decide) (by decide)).2 value.toNat_lt
  rw [group, taken, left, sum, if_neg]
  · simp
  · rintro (empty | long)
    · exact Nat.toDigits_ne_nil empty
    · omega

/-- A group is not taken for an octet. -/
theorem octets_groupChars (value : UInt16) {rest : List Char} (ended : EndsGroup rest) :
    octets (groupChars value ++ rest) = none := by
  have noPoint : ∀ c ∈ groupChars value, c ≠ '.' := by
    refine forall_toDigits (by decide) (fun d small => ?_) _
    revert d
    decide
  apply octets_eq_none
  rw [List.dropWhile_append]
  split
  · rcases ended with rfl | ⟨more, rfl⟩ <;> simp
  · next left =>
    intro point
    have kept : (groupChars value).dropWhile Char.isDigit ≠ [] := by simpa using left
    rw [List.head?_append, Option.or_of_isSome (List.isSome_head?.2 kept)] at point
    have mem := (List.dropWhile_sublist Char.isDigit).subset (List.mem_of_mem_head? point)
    exact noPoint '.' mem rfl

/-- The scanner takes one group and goes on behind it. -/
theorem groups_groupChars {limit : Nat} {first : Bool} {chars rest : List Char} {value : UInt16}
    (start : (if first then some chars else expect ':' chars) = some (groupChars value ++ rest))
    (ended : EndsGroup rest) {more : List UInt16} {version4 : Bool} {left : List Char}
    (others : groups limit false rest = (more, version4, left)) :
    groups (limit + 1) first chars = (value :: more, version4, left) := by
  simp only [groups, start, Option.bind_some, octets_groupChars value ended, ite_self,
    group_groupChars value ended, others]

/-! ## Version 6 -/

/-- The double colon and the end close a row of groups. -/
def Closes (rest : List Char) : Prop := rest = [] ∨ ∃ more, rest = ':' :: ':' :: more

theorem Closes.endsGroup {rest : List Char} (closed : Closes rest) : EndsGroup rest := by
  rcases closed with rfl | ⟨more, rfl⟩
  · exact .inl rfl
  · exact .inr ⟨_, rfl⟩

theorem groups_of_closes {rest : List Char} (closed : Closes rest) (limit : Nat) (first : Bool) :
    groups limit first rest = ([], false, rest) := by
  cases limit with
  | zero => rfl
  | succ limit =>
      have colon : digitValue? ':' = none := by decide
      rcases closed with rfl | ⟨more, rfl⟩ <;> cases first <;>
        simp [groups, expect, octets, octet, group, colon]

theorem groups_colonChars {rest : List Char} (closed : Closes rest) {taken : List UInt16}
    {limit : Nat} (room : taken.length ≤ limit) :
    groups limit false (colonChars taken ++ rest) = (taken, false, rest) := by
  induction taken generalizing limit with
  | nil => exact groups_of_closes closed limit false
  | cons value taken ih =>
      rw [List.length_cons] at room
      obtain ⟨limit, rfl⟩ : ∃ fewer, limit = fewer + 1 := ⟨limit - 1, by omega⟩
      have ended : EndsGroup (colonChars taken ++ rest) := closed.endsGroup.append
      exact groups_groupChars (by simp [colonChars, expect]) ended (ih (by omega))

/-- Groups with colons between them are taken up to what closes them. -/
theorem groups_colonText {rest : List Char} (closed : Closes rest) {taken : List UInt16}
    (limit : Nat) (room : taken.length ≤ limit) :
    groups limit true ((colonText taken).toList ++ rest) = (taken, false, rest) := by
  cases taken with
  | nil => exact groups_of_closes closed limit true
  | cons value taken =>
      rw [List.length_cons] at room
      obtain ⟨limit, rfl⟩ : ∃ fewer, limit = fewer + 1 := ⟨limit - 1, by omega⟩
      rw [colonText_cons, List.append_assoc]
      exact groups_groupChars (if_pos rfl) closed.endsGroup.append
        (groups_colonChars closed (by omega))

/-- A run of zeros of the given length starts at the given position. -/
def ZerosAt (groups : List UInt16) (run : Nat × Nat) : Prop :=
  (groups.drop run.1).take run.2 = List.replicate run.2 0

theorem zeroRun_spec (groups : List UInt16) :
    groups.take (zeroRun groups) = List.replicate (zeroRun groups) 0 := by
  induction groups with
  | nil => rfl
  | cons group groups ih =>
      by_cases zero : group = 0
      · subst zero
        simpa [zeroRun, List.replicate_succ] using ih
      · simp [zeroRun, zero]

theorem longestZeroRun_spec {whole rest : List UInt16} {start : Nat} {best : Nat × Nat}
    (position : whole.drop start = rest) (found : ZerosAt whole best) :
    ZerosAt whole (longestZeroRun rest start best) := by
  induction rest generalizing start best with
  | nil => exact found
  | cons group rest ih =>
      have next : whole.drop (start + 1) = rest := by
        rw [← List.drop_drop, position]
        rfl
      rw [longestZeroRun]
      apply ih next
      split
      · rw [ZerosAt, position]
        exact zeroRun_spec _
      · exact found

/-- What a double colon stands for. -/
theorem ZerosAt.fill {whole : List UInt16} {start length : Nat}
    (found : ZerosAt whole (start, length)) :
    whole.take start ++ List.replicate length 0 ++ whole.drop (start + length) = whole := by
  rw [← found, ← List.drop_drop, List.append_assoc, List.take_append_drop, List.take_append_drop]

/-- A run of zeros lies within the groups. -/
theorem ZerosAt.le {whole : List UInt16} {start length : Nat}
    (found : ZerosAt whole (start, length)) : length ≤ whole.length - start := by
  have same := congrArg List.length found
  simp only [List.length_take, List.length_drop, List.length_replicate] at same
  omega

/-- A text that starts with a group or a double colon is not of version 4. -/
theorem version4?_eq_none {chars : List Char} (none : octets chars = none) :
    version4? chars = Option.none := by
  rw [version4?, none]
  rfl

theorem ofGroups?_toList (groups : Vector UInt16 8) :
    ofGroups? groups.toList = some (.v6 groups) := by
  obtain ⟨groups, eight⟩ := groups
  simp [ofGroups?, Vector.toList, eight]

/-- Groups around a double colon are read with zeros in its place. -/
theorem version6?_doubleColon (head : List UInt16) {tail : List UInt16} {more : List Char}
    {version4 : Bool} (room : head.length < 8)
    (back : groups (7 - head.length) true more = (tail, version4, [])) :
    version6? ((colonText head).toList ++ ':' :: ':' :: more) =
      ofGroups? (head ++ List.replicate (8 - head.length - tail.length) 0 ++ tail) := by
  have front := groups_colonText (.inr ⟨more, rfl⟩) 8 (Nat.le_of_lt room)
  rw [version6?, front]
  dsimp only
  rw [if_neg (Nat.ne_of_lt room)]
  let read := groups (7 - head.length) true more
  change (do
    guard (read.2.2 = [])
    ofGroups? (head ++ List.replicate (8 - head.length - read.1.length) 0 ++ read.1)) = _
  rw [show read = _ from back]
  rfl

/-- Eight groups are read as they are. -/
theorem version6?_colonText {all : List UInt16} (eight : all.length = 8) :
    version6? (colonText all).toList = ofGroups? all := by
  have whole := groups_colonText (.inl rfl) 8 (Nat.le_of_eq eight)
  rw [List.append_nil] at whole
  rw [version6?, whole]
  dsimp only
  rw [if_pos eight]
  rfl

theorem octets_colonText (taken : List UInt16) {rest : List Char} (closed : Closes rest) :
    octets ((colonText taken).toList ++ rest) = none := by
  cases taken with
  | nil =>
      rcases closed with rfl | ⟨more, rfl⟩ <;> rfl
  | cons value taken =>
      rw [colonText_cons, List.append_assoc]
      exact octets_groupChars value closed.endsGroup.append

theorem pair_halves (group : UInt16) :
    pair (UInt8.ofNat (group.toNat / 256)) (UInt8.ofNat (group.toNat % 256)) = group := by
  have small := group.toNat_lt
  apply UInt16.toNat_inj.1
  simp only [pair, UInt16.toNat_ofNat', UInt8.toNat_ofNat']
  omega

/-- Groups that map a version 4 address are read back from its octets. -/
theorem version6?_mapped (high low : UInt16) :
    version6? ("::ffff:" ++ dotted (UInt8.ofNat (high.toNat / 256)) (UInt8.ofNat (high.toNat % 256))
      (UInt8.ofNat (low.toNat / 256)) (UInt8.ofNat (low.toNat % 256))).toList =
      ofGroups? [0, 0, 0, 0, 0, 0xffff, high, low] := by
  have all := octets_dotted (UInt8.ofNat (high.toNat / 256)) (UInt8.ofNat (high.toNat % 256))
    (UInt8.ofNat (low.toNat / 256)) (UInt8.ofNat (low.toNat % 256)) (stops_nil _)
  rw [List.append_nil] at all
  rw [String.toList_append]
  generalize (dotted _ _ _ _).toList = digits at all
  have embedded : groups 6 false (':' :: digits) = ([high, low], true, []) := by
    simp [groups, expect, all, pair_halves]
  have mark : groupChars 0xffff ++ ':' :: digits = 'f' :: 'f' :: 'f' :: 'f' :: ':' :: digits := rfl
  have start : (if true = true then some ('f' :: 'f' :: 'f' :: 'f' :: ':' :: digits)
      else expect ':' ('f' :: 'f' :: 'f' :: 'f' :: ':' :: digits)) =
      some (groupChars 0xffff ++ ':' :: digits) := if_pos rfl
  have back : groups 7 true ('f' :: 'f' :: 'f' :: 'f' :: ':' :: digits) =
      ([0xffff, high, low], true, []) :=
    groups_groupChars start (.inr ⟨digits, rfl⟩) embedded
  exact version6?_doubleColon [] (by decide) back

/-- Groups around their longest run of zeros are read back. -/
theorem parse?_shortened {all : List UInt16} (eight : all.length = 8) {start length : Nat}
    (found : ZerosAt all (start, length)) (long : 1 < length) :
    parse? (colonText (all.take start) ++ "::" ++ colonText (all.drop (start + length))) =
      ofGroups? all := by
  have within := found.le
  have head : (all.take start).length = start := by
    rw [List.length_take]
    omega
  have tail : (all.drop (start + length)).length = 8 - (start + length) := by
    rw [List.length_drop, eight]
  have back := groups_colonText (.inl rfl) (7 - (all.take start).length)
    (show (all.drop (start + length)).length ≤ 7 - (all.take start).length by omega)
  rw [List.append_nil] at back
  have read := version6?_doubleColon _ (by omega) back
  have gap : 8 - (all.take start).length - (all.drop (start + length)).length = length := by
    omega
  rw [gap, found.fill] at read
  have colons : (colonText (all.take start) ++ "::" ++
      colonText (all.drop (start + length))).toList = (colonText (all.take start)).toList ++
        ':' :: ':' :: (colonText (all.drop (start + length))).toList := by
    simp
  rw [parse?, colons, read, version4?_eq_none (octets_colonText _ (.inr ⟨_, rfl⟩))]
  rfl

/-- The text of eight groups is read as these groups, and not as an address of version 4. -/
theorem parse?_groupText {all : List UInt16} (eight : all.length = 8) :
    parse? (groupText all) = ofGroups? all := by
  unfold groupText
  split
  · next high low =>
    rw [parse?, version6?_mapped, version4?_eq_none]
    · rfl
    · rw [String.toList_append]
      exact octets_colonText [] (.inr ⟨_, rfl⟩)
  · have found : ZerosAt all (longestZeroRun all 0 (0, 0)) := longestZeroRun_spec rfl rfl
    generalize longestZeroRun all 0 (0, 0) = run at found
    obtain ⟨start, length⟩ := run
    dsimp only
    split
    · next long => exact parse?_shortened eight found long
    · have none := octets_colonText all (.inl rfl)
      rw [List.append_nil] at none
      rw [parse?, version6?_colonText eight, version4?_eq_none none]
      rfl

/-- The text of an address is read as that address. -/
@[simp]
theorem parse?_text (address : Address) : parse? address.text = some address := by
  cases address with
  | v4 a b c d =>
      rw [text, parse?, version4?_dotted]
      rfl
  | v6 groups =>
      rw [text, parse?_groupText (by simp), ofGroups?_toList]

end MediaHarvest.Address
