import MediaHarvest.ByteSize
import MediaHarvest.Proofs.Number.Rounding
import MediaHarvest.Proofs.Text.Trimming
import Mathlib.Algebra.Group.Nat.Defs
import Mathlib.Tactic.SplitIfs

/-!
# Reading sizes

A size is a run of digits and points with a unit behind it, and blanks may stand before the unit and
around the whole.  `Parts` is the one way to take a text apart so.  Which texts are accepted, which
fault the others have, and what an integral size amounts to is told of these parts
(`readsAsWritten_parse`).
-/

namespace MediaHarvest.ByteSize

open Number Text

/-! ## What a size is written as -/

/-- The spellings of the units in capitals, each with the exponent of two that it stands for. -/
def spellings : List (String × Nat) :=
  [("B", 0), ("K", 10), ("KB", 10), ("KIB", 10), ("M", 20), ("MB", 20), ("MIB", 20),
    ("G", 30), ("GB", 30), ("GIB", 30), ("T", 40), ("TB", 40), ("TIB", 40)]

/-- What stands behind the number: nothing, or blanks and a unit in letters of either case. -/
inductive Spells : Nat → List Char → Prop where
  | bare : Spells 0 []
  | unit {exponent : Nat} {blanks unit : List Char} (blank : ∀ c ∈ blanks, isBlank c = true)
      (spelled : (String.ofList (unit.map Char.toUpper), exponent) ∈ spellings) :
      Spells exponent (blanks ++ unit)

/-- The number of a text is the longest run of digits and points at its front, once the blanks
around the text are gone. -/
structure Parts (text : String) (number rest : List Char) : Prop where
  trims : Trims text.toList (number ++ rest)
  number : ∀ c ∈ number, c.isDigit = true ∨ c = '.'
  /-- The run does not go on. -/
  ends : ∀ c ∈ rest.head?, ¬ (c.isDigit = true ∨ c = '.')

/-- A number has a digit, and no more than one point. -/
structure Numeral (number : List Char) : Prop where
  digit : ∃ c ∈ number, c.isDigit = true
  points : number.count '.' ≤ 1

/-! ## Capitals -/

theorem toUpper_cases (c : Char) :
    c.toUpper = c ∨ 97 ≤ c.toNat ∧ c.toNat ≤ 122 ∧ c.toUpper.toNat = c.toNat - 32 := by
  unfold Char.toUpper
  split
  · next small =>
    have low : 97 ≤ c.val.toNat := small.1
    have high : c.val.toNat ≤ 122 := small.2
    refine .inr ⟨low, high, ?_⟩
    show (c.val + ('A'.val - 'a'.val)).toNat = c.val.toNat - 32
    have back : 'A'.val - 'a'.val = 4294967264 := by decide
    rw [back, UInt32.toNat_add]
    have : (4294967264 : UInt32).toNat = 4294967264 := rfl
    omega
  · exact .inl rfl

/-- A predicate that no ASCII letter has does not see the case of letters. -/
theorem toUpper_congr {holds : Char → Bool}
    (letters : ∀ c : Char, 65 ≤ c.toNat → c.toNat ≤ 122 → holds c = false) (c : Char) :
    holds c.toUpper = holds c := by
  rcases toUpper_cases c with same | ⟨low, high, shifted⟩
  · rw [same]
  · rw [letters c (by omega) high, letters c.toUpper (by omega) (by omega)]

theorem isBlank_toUpper (c : Char) : isBlank c.toUpper = isBlank c := by
  refine toUpper_congr (fun c low high => ?_) c
  simp only [isBlank, Bool.or_eq_false_iff, Bool.and_eq_false_iff, decide_eq_false_iff_not,
    beq_eq_false_iff_ne]
  omega

theorem isNumberChar_iff {c : Char} : isNumberChar c = true ↔ c.isDigit = true ∨ c = '.' := by
  simp [isNumberChar]

theorem isNumberChar_toUpper (c : Char) : isNumberChar c.toUpper = isNumberChar c := by
  refine toUpper_congr (fun c low high => ?_) c
  refine Bool.eq_false_iff.2 fun number => ?_
  rcases isNumberChar_iff.1 number with digit | rfl
  · simp only [Char.isDigit, Bool.and_eq_true, decide_eq_true_eq] at digit
    have small : c.toNat ≤ 57 := digit.2
    omega
  · exact absurd low (by decide)

/-- Digits and points have no case. -/
theorem toUpper_of_isNumberChar {c : Char} (number : c.isDigit = true ∨ c = '.') :
    c.toUpper = c := by
  rcases toUpper_cases c with same | ⟨low, _⟩
  · exact same
  · rcases number with digit | rfl
    · simp only [Char.isDigit, Bool.and_eq_true, decide_eq_true_eq] at digit
      have small : c.toNat ≤ 57 := digit.2
      omega
    · exact absurd low (by decide)

/-- The core of a text in capitals is the core in capitals. -/
theorem trims_map_toUpper {chars core : List Char} (trims : Trims chars core) :
    Trims (chars.map Char.toUpper) (core.map Char.toUpper) := by
  obtain ⟨front, back, rfl, blankFront, blankBack⟩ := trims.around
  refine ⟨⟨front.map Char.toUpper, back.map Char.toUpper, by simp, ?_, ?_⟩, ?_, ?_⟩
  · simpa [isBlank_toUpper] using blankFront
  · simpa [isBlank_toUpper] using blankBack
  · simpa [isBlank_toUpper] using trims.first
  · simpa [isBlank_toUpper] using trims.last

/-! ## Units -/

theorem unitExponent?_eq_some_iff {unit : String} {exponent : Nat} :
    unitExponent? unit = some exponent ↔
      unit = "" ∧ exponent = 0 ∨ (unit, exponent) ∈ spellings := by
  constructor
  · intro found
    rw [unitExponent?] at found
    split_ifs at found with bytes kilo mega giga tera <;> cases found
    · rcases bytes with rfl | rfl <;> decide
    · rcases kilo with rfl | rfl | rfl <;> decide
    · rcases mega with rfl | rfl | rfl <;> decide
    · rcases giga with rfl | rfl | rfl <;> decide
    · rcases tera with rfl | rfl | rfl <;> decide
  · have known : ∀ entry ∈ spellings, unitExponent? entry.1 = some entry.2 := by decide
    rintro (⟨rfl, rfl⟩ | spelled)
    · rfl
    · exact known _ spelled

/-- No blank is part of a unit. -/
theorem not_isBlank_of_spelled {unit : List Char} {exponent : Nat}
    (spelled : (String.ofList unit, exponent) ∈ spellings) : ∀ c ∈ unit, isBlank c = false := by
  have solid : ∀ entry ∈ spellings, ∀ c ∈ entry.1.toList, isBlank c = false := by
    simp [spellings, isBlank]
  simpa using solid _ spelled

/-- What stands behind a number spells a unit if its core in capitals is one. -/
theorem spells_iff {rest core : List Char} {exponent : Nat} (trims : Trims rest core)
    (last : ∀ c ∈ rest.getLast?, isBlank c = false) :
    Spells exponent rest ↔
      unitExponent? (String.ofList (core.map Char.toUpper)) = some exponent := by
  rw [unitExponent?_eq_some_iff]
  constructor
  · intro spells
    cases spells with
    | bare =>
        obtain rfl : [] = core := trims.eq
        exact .inl ⟨rfl, rfl⟩
    | @unit _ blanks unit blank spelled =>
        have solid : ∀ c ∈ unit, isBlank c = false := by
          simpa [isBlank_toUpper] using not_isBlank_of_spelled spelled
        have whole : Trims (blanks ++ unit) unit :=
          ⟨⟨blanks, [], (List.append_nil _).symm, blank, by simp⟩,
            fun c first => solid c (List.mem_of_mem_head? first),
            fun c last => solid c (List.mem_of_getLast? last)⟩
        rw [← trims.eq, whole.eq]
        exact .inr spelled
  · obtain ⟨blanks, rfl, blank⟩ := trims.blanks_append last
    rintro (⟨none, rfl⟩ | spelled)
    · obtain rfl : core = [] := by simpa using none
      cases blanks with
      | nil => exact .bare
      | cons c blanks =>
          obtain ⟨final, same⟩ : ∃ final, (c :: blanks ++ []).getLast? = some final :=
            Option.isSome_iff_exists.1 (by simp)
          have solid := last final same
          rw [blank final (by simpa using List.mem_of_getLast? same)] at solid
          cases solid
    · exact .unit blank spelled

/-! ## Numbers -/

theorem guard_eq_ite (condition : Prop) [Decidable condition] :
    (guard condition : Option Unit) = if condition then some () else none :=
  rfl

/-- A run of digits. -/
def Digits (chars : List Char) : Prop := ∀ c ∈ chars, c.isDigit = true

theorem Digits.points {chars : List Char} (digits : Digits chars) : chars.count '.' = 0 :=
  List.count_eq_zero.2 fun point => absurd (digits '.' point) (by decide)

/-- Digits that a point ends are cut off by a scan. -/
theorem Digits.scan {front : List Char} (digits : Digits front) (more : List Char) :
    (front ++ '.' :: more).takeWhile Char.isDigit = front ∧
      (front ++ '.' :: more).dropWhile Char.isDigit = '.' :: more :=
  scan_append digits ((stops_cons ..).2 (by decide))

/-- What consists of digits and points is a run of digits, or has one before its first point. -/
theorem digits_or_point {number : List Char} (all : ∀ c ∈ number, c.isDigit = true ∨ c = '.') :
    Digits number ∨ ∃ front more, number = front ++ '.' :: more ∧ Digits front := by
  have whole : number.takeWhile Char.isDigit ++ number.dropWhile Char.isDigit = number :=
    List.takeWhile_append_dropWhile
  have front : Digits (number.takeWhile Char.isDigit) := fun _ => List.mem_takeWhile_imp
  have stop := stops_dropWhile Char.isDigit number
  cases rest : number.dropWhile Char.isDigit with
  | nil =>
      rw [rest, List.append_nil] at whole
      exact .inl (whole ▸ front)
  | cons c more =>
      rw [rest] at whole stop
      have mem : c ∈ number := by
        rw [← whole]
        exact List.mem_append_right _ List.mem_cons_self
      obtain rfl : c = '.' := (all c mem).resolve_left (by rw [stop c rfl]; decide)
      exact .inr ⟨_, more, whole.symm, front⟩

theorem magnitude?_digits {number : List Char} (digits : Digits number) (some : number ≠ []) :
    magnitude? number = .some (ofDigits number, 0) := by
  have taken := scan_append digits (stops_nil _)
  rw [List.append_nil] at taken
  rw [magnitude?, taken.1, taken.2, guard_eq_ite]
  simp [some, exponent?]

/-- A number with one point is read if there is a digit on either side of it. -/
theorem magnitude?_point {front fraction : List Char} (digits : Digits front)
    (decimals : Digits fraction) :
    (magnitude? (front ++ '.' :: fraction)).isSome = true ↔ front ≠ [] ∨ fraction ≠ [] := by
  have taken := digits.scan fraction
  have rest := scan_append decimals (stops_nil _)
  rw [List.append_nil] at rest
  rw [magnitude?, taken.1, taken.2, guard_eq_ite]
  simp only [rest.1, rest.2]
  by_cases some : front ≠ [] ∨ fraction ≠ [] <;> simp [some, exponent?]

/-- A number with two points is not read. -/
theorem magnitude?_points {front between : List Char} (digits : Digits front)
    (decimals : Digits between) (rest : List Char) :
    magnitude? (front ++ '.' :: (between ++ '.' :: rest)) = none := by
  have taken := digits.scan (between ++ '.' :: rest)
  have cut := decimals.scan rest
  rw [magnitude?, taken.1, taken.2, guard_eq_ite]
  simp only [cut.1, cut.2]
  by_cases some : front ≠ [] ∨ between ≠ [] <;> simp [some, exponent?]

/-- No sign stands before a number. -/
theorem read?_number {number : List Char} (all : ∀ c ∈ number, c.isDigit = true ∨ c = '.') :
    Decimal.read? number = (magnitude? number).map fun m => ⟨false, m.1, m.2⟩ := by
  unfold Decimal.read?
  split
  · exact absurd (all '-' List.mem_cons_self) (by decide)
  · exact absurd (all '+' List.mem_cons_self) (by decide)
  · rfl

/-- The numerals are what is read. -/
theorem read?_isSome_iff {number : List Char} (all : ∀ c ∈ number, c.isDigit = true ∨ c = '.') :
    (Decimal.read? number).isSome = true ↔ Numeral number := by
  rw [read?_number all, Option.isSome_map]
  rcases digits_or_point all with digits | ⟨front, more, rfl, digits⟩
  · cases number with
    | nil =>
        constructor
        · rintro ⟨⟩
        · rintro ⟨⟨_, ⟨⟩, _⟩, _⟩
    | cons c number =>
        rw [magnitude?_digits digits (List.cons_ne_nil c number)]
        refine ⟨fun _ => ⟨⟨c, List.mem_cons_self, digits c List.mem_cons_self⟩, ?_⟩, fun _ => rfl⟩
        rw [digits.points]
        exact Nat.zero_le 1
  · have rest : ∀ c ∈ more, c.isDigit = true ∨ c = '.' :=
      fun c mem => all c (List.mem_append_right _ (List.mem_cons_of_mem _ mem))
    rcases digits_or_point rest with decimals | ⟨between, last, rfl, decimals⟩
    · rw [magnitude?_point digits decimals]
      have points : (front ++ '.' :: more).count '.' = 1 := by
        rw [List.count_append, List.count_cons_self, digits.points, decimals.points]
      constructor
      · intro some
        refine ⟨?_, points.le⟩
        rcases some with some | some
        · obtain ⟨c, mem⟩ := List.exists_mem_of_ne_nil _ some
          exact ⟨c, List.mem_append_left _ mem, digits c mem⟩
        · obtain ⟨c, mem⟩ := List.exists_mem_of_ne_nil _ some
          exact ⟨c, List.mem_append_right _ (List.mem_cons_of_mem _ mem), decimals c mem⟩
      · rintro ⟨⟨c, mem, digit⟩, _⟩
        rcases List.mem_append.1 mem with mem | mem
        · exact .inl (List.ne_nil_of_mem mem)
        · rcases List.mem_cons.1 mem with rfl | mem
          · exact absurd digit (by decide)
          · exact .inr (List.ne_nil_of_mem mem)
    · rw [magnitude?_points digits decimals last]
      refine ⟨fun found => absurd found (by decide), fun numeral => ?_⟩
      have points := numeral.points
      rw [List.count_append, List.count_cons_self, List.count_append, List.count_cons_self]
        at points
      omega

/-! ## Amounts -/

variable {text : String} {number rest : List Char} {exponent : Nat}

theorem natural?_digits (digits : Digits number) (some : number ≠ []) :
    natural? number = .some (ofDigits number) := by
  rw [natural?, if_pos ⟨some, List.all_eq_true.2 digits⟩]

theorem unsigned?_number (all : ∀ c ∈ number, c.isDigit = true ∨ c = '.') (bound : Nat) :
    unsigned? bound number =
      (natural? number).bind fun value => if value < bound then some value else none := by
  unfold unsigned?
  simp only [↓guard_eq_ite]
  split
  · exact absurd (all '+' List.mem_cons_self) (by decide)
  · cases natural? number with
    | none => rfl
    | some value => by_cases small : value < bound <;> simp [small]

/-- A number of 64 bits is read as a word. -/
theorem word?_digits (digits : Digits number) (some : number ≠ []) :
    word? number =
      if ofDigits number < 2 ^ 64 then .some (UInt64.ofNat (ofDigits number)) else none := by
  have word : (2 : Nat) ^ 64 = 0x10000000000000000 := rfl
  rw [word?, unsigned?_number fun c mem => .inl (digits c mem), natural?_digits digits some,
    Option.bind_some, word]
  by_cases small : ofDigits number < 0x10000000000000000
  · rw [if_pos small, if_pos small]
    rfl
  · rw [if_neg small, if_neg small]
    rfl

/-- What is read as a word is a numeral. -/
theorem numeral_of_word? (all : ∀ c ∈ number, c.isDigit = true ∨ c = '.') {word : UInt64}
    (read : word? number = some word) : Numeral number := by
  rw [word?, unsigned?_number all, natural?] at read
  split at read
  · next run =>
    obtain ⟨c, mem⟩ := List.exists_mem_of_ne_nil _ run.1
    have digits : Digits number := List.all_eq_true.1 run.2
    exact ⟨⟨c, mem, digits c mem⟩, digits.points ▸ Nat.zero_le 1⟩
  · cases read

/-- A number beyond 64 bits stays beyond them when it is rounded and scaled. -/
theorem ofFraction?_of_large (digits : Digits number) (large : 2 ^ 64 ≤ ofDigits number) :
    ofFraction? number exponent = some maxWord := by
  have some : number ≠ [] := by
    rintro rfl
    exact absurd large (by decide)
  have all : ∀ c ∈ number, c.isDigit = true ∨ c = '.' := fun c mem => .inl (digits c mem)
  have positive : ofDigits number ≠ 0 := Nat.ne_of_gt (Nat.lt_of_lt_of_le (by decide) large)
  have wide : 64 ≤ (ofDigits number).log2 := (Nat.le_log2 positive).2 large
  have rounded : ∀ x, Binary64.ofDecimal? (ofDigits number) 0 = .some x →
      maxWord ≤ Binary64.floor ⟨x.significand, x.exponent + exponent⟩ := by
    intro x found
    rw [Binary64.ofDecimal?, if_neg positive] at found
    by_cases huge : 310 < (0 : Int) + digitCount (ofDigits number)
    · rw [if_pos huge] at found
      cases found
    · rw [if_neg huge, if_neg (by omega), if_pos (Int.le_refl 0)] at found
      have whole : ofDigits number * Nat.pow 10 (0 : Int).toNat = ofDigits number :=
        Nat.mul_one _
      rw [whole] at found
      obtain ⟨scale, scaled, above⟩ := Binary64.nearest?_of_wide (by omega) found
      rw [scaled, Binary64.floor_scaled]
      calc maxWord ≤ 2 ^ 64 := by decide
        _ ≤ 2 ^ (ofDigits number).log2 := Nat.pow_le_pow_right (by decide) wide
        _ ≤ x.significand * 2 ^ scale := above
        _ ≤ _ := Nat.le_mul_of_pos_right _ (Nat.two_pow_pos _)
  rw [ofFraction?, read?_number all, magnitude?_digits digits some]
  simp only [Option.map_some, Option.bind_eq_bind, Option.bind_some]
  cases found : Binary64.ofDecimal? (ofDigits number) 0 with
  | none => rfl
  | some x => exact congrArg Option.some (Nat.min_eq_right (rounded x found))

/-- A number that is read as a decimal has an amount. -/
theorem ofFraction?_isSome_iff (all : ∀ c ∈ number, c.isDigit = true ∨ c = '.') :
    (ofFraction? number exponent).isSome = true ↔ Numeral number := by
  rw [← read?_isSome_iff all, ofFraction?]
  cases Decimal.read? number with
  | none => rfl
  | some decimal =>
      simp only [Option.bind_eq_bind, Option.bind_some]
      split <;> simp

/-! ## Texts -/

/-- A text is taken apart in one way. -/
theorem Parts.split (parts : Parts text number rest) :
    (trimEnd (trimStart text.toList)).takeWhile isNumberChar = number ∧
      (trimEnd (trimStart text.toList)).dropWhile isNumberChar = rest := by
  rw [parts.trims.eq]
  refine scan_append (fun c mem => isNumberChar_iff.2 (parts.number c mem)) fun c first => ?_
  exact Bool.eq_false_iff.2 fun more => parts.ends c first (isNumberChar_iff.1 more)

/-- Every text is taken apart. -/
theorem exists_parts (text : String) : ∃ number rest, Parts text number rest := by
  let core := trimEnd (trimStart text.toList)
  have whole : core.takeWhile isNumberChar ++ core.dropWhile isNumberChar = core :=
    List.takeWhile_append_dropWhile
  refine ⟨core.takeWhile isNumberChar, core.dropWhile isNumberChar, ?_, ?_, ?_⟩
  · rw [whole]
    exact trims_trimmed _
  · exact fun c mem => isNumberChar_iff.1 (List.mem_takeWhile_imp mem)
  · intro c first more
    have stop : isNumberChar c = false := stops_dropWhile isNumberChar core c first
    rw [isNumberChar_iff.2 more] at stop
    cases stop

/-- The rest does not end with a blank. -/
theorem Parts.last (parts : Parts text number rest) :
    ∀ c ∈ rest.getLast?, isBlank c = false := by
  intro c last
  refine parts.trims.last c ?_
  rw [List.getLast?_append, Option.mem_def.1 last]
  rfl

/-- What reading makes of the number and of what is behind it. -/
theorem Parts.parse_eq (parts : Parts text number rest) :
    parse text =
      if number = [] ∧ rest = [] then .error .empty
      else
        match unitExponent? (String.ofList ((trimEnd (trimStart rest)).map Char.toUpper)) with
        | none => .error (.invalidUnit (String.ofList (rest.map Char.toUpper)))
        | some exponent =>
            match word? number with
            | some whole => .ok ⟨UInt64.ofNat (min (whole.toNat * 2 ^ exponent) maxWord)⟩
            | none =>
                match ofFraction? number exponent with
                | some bytes => .ok ⟨UInt64.ofNat bytes⟩
                | none => .error (.invalidNumber (String.ofList number)) := by
  have plain : number.map Char.toUpper = number.map id :=
    List.map_congr_left fun c mem => toUpper_of_isNumberChar (parts.number c mem)
  have chars : (upper (trim text)).toList = number ++ rest.map Char.toUpper := by
    rw [upper, String.toList_map, trim, String.toList_ofList, parts.trims.eq, List.map_append,
      plain, List.map_id]
  have stop : Stops isNumberChar (rest.map Char.toUpper) := by
    intro c first
    rw [List.head?_map] at first
    obtain ⟨original, found, rfl⟩ := Option.map_eq_some_iff.1 first
    rw [isNumberChar_toUpper]
    exact Bool.eq_false_iff.2 fun more => parts.ends original found (isNumberChar_iff.1 more)
  have scanned := scan_append (fun c mem => isNumberChar_iff.2 (parts.number c mem)) stop
  have unit : trim (String.ofList (rest.map Char.toUpper)) =
      String.ofList ((trimEnd (trimStart rest)).map Char.toUpper) := by
    rw [trim, String.toList_ofList, (trims_map_toUpper (trims_trimmed rest)).eq]
  rw [parse, chars]
  dsimp only
  rw [scanned.1, scanned.2, unit]
  by_cases none : number = [] ∧ rest = []
  · rw [if_pos none, if_pos (by simpa using none)]
  · rw [if_neg none, if_neg (by simpa using none)]
    rfl

/-- What can become of a text that was taken apart. -/
inductive Judged (number rest : List Char) : Except SizeError ByteSize → Prop where
  | empty (none : number = [] ∧ rest = []) : Judged number rest (.error .empty)
  | invalidUnit (some : ¬ (number = [] ∧ rest = [])) (unknown : ¬ ∃ exponent, Spells exponent rest) :
      Judged number rest (.error (.invalidUnit (String.ofList (rest.map Char.toUpper))))
  | invalidNumber (some : ¬ (number = [] ∧ rest = [])) (known : ∃ exponent, Spells exponent rest)
      (other : ¬ Numeral number) :
      Judged number rest (.error (.invalidNumber (String.ofList number)))
  | size (size : ByteSize) (known : ∃ exponent, Spells exponent rest) (numeral : Numeral number) :
      Judged number rest (.ok size)

theorem Parts.spells_iff (parts : Parts text number rest) :
    Spells exponent rest ↔
      unitExponent? (String.ofList ((trimEnd (trimStart rest)).map Char.toUpper)) =
        some exponent :=
  ByteSize.spells_iff (trims_trimmed rest) parts.last

theorem Parts.judged (parts : Parts text number rest) : Judged number rest (parse text) := by
  rw [parts.parse_eq]
  by_cases none : number = [] ∧ rest = []
  · rw [if_pos none]
    exact .empty none
  · rw [if_neg none]
    cases unit : unitExponent? _ with
    | none =>
        refine .invalidUnit none fun ⟨exponent, spells⟩ => ?_
        rw [parts.spells_iff.1 spells] at unit
        cases unit
    | some exponent =>
        have known : ∃ exponent, Spells exponent rest := ⟨exponent, parts.spells_iff.2 unit⟩
        dsimp only
        split
        · next whole read => exact .size _ known (numeral_of_word? parts.number read)
        · have numeral := @ofFraction?_isSome_iff number exponent parts.number
          split
          · next bytes found =>
            rw [found] at numeral
            exact .size _ known (numeral.1 rfl)
          · next found =>
            rw [found] at numeral
            exact .invalidNumber none known fun other => absurd (numeral.2 other) (by decide)

/-- The amount of a number without a point. -/
theorem Parts.integral (parts : Parts text number rest) (some : number ≠ [])
    (digits : Digits number) (spells : Spells exponent rest) :
    ∃ size, parse text = .ok size ∧
      size.bytes.toNat = min (ofDigits number * 2 ^ exponent) (2 ^ 64 - 1) := by
  have last : maxWord = 2 ^ 64 - 1 := rfl
  rw [parts.parse_eq, if_neg fun none => some none.1, parts.spells_iff.1 spells]
  dsimp only
  rw [word?_digits digits some]
  by_cases small : ofDigits number < 2 ^ 64
  · rw [if_pos small]
    refine ⟨_, rfl, ?_⟩
    have value : (UInt64.ofNat (ofDigits number)).toNat = ofDigits number :=
      UInt64.toNat_ofNat_of_lt' small
    rw [value, last]
    exact UInt64.toNat_ofNat_of_lt' (Nat.lt_of_le_of_lt (Nat.min_le_right ..) (by decide))
  · rw [if_neg small]
    have large : 2 ^ 64 ≤ ofDigits number := Nat.le_of_not_lt small
    have above : 2 ^ 64 ≤ ofDigits number * 2 ^ exponent :=
      Nat.le_trans large (Nat.le_mul_of_pos_right _ (Nat.two_pow_pos _))
    dsimp only
    rw [ofFraction?_of_large digits large]
    refine ⟨_, rfl, ?_⟩
    rw [Nat.min_eq_right (by omega)]
    rfl

/-- What becomes of a text with a given number and a given rest. -/
structure ReadsAsWritten (text : String) (number rest : List Char) : Prop where
  /-- Sizes are a numeral with a unit or nothing behind it. -/
  accepted : (∃ size, parse text = .ok size) ↔ Numeral number ∧ ∃ exponent, Spells exponent rest
  empty : parse text = .error .empty ↔ number = [] ∧ rest = []
  /-- What is no unit is named in capitals, with the blanks before it. -/
  invalidUnit : ∀ unit, parse text = .error (.invalidUnit unit) ↔
    ¬ (number = [] ∧ rest = []) ∧ (¬ ∃ exponent, Spells exponent rest) ∧
      unit = String.ofList (rest.map Char.toUpper)
  invalidNumber : ∀ run, parse text = .error (.invalidNumber run) ↔
    ¬ (number = [] ∧ rest = []) ∧ (∃ exponent, Spells exponent rest) ∧ ¬ Numeral number ∧
      run = String.ofList number
  /-- An integral size is exact up to the last number of 64 bits, however many digits it has. -/
  integral : number ≠ [] → Digits number → ∀ exponent, Spells exponent rest →
    ∃ size, parse text = .ok size ∧
      size.bytes.toNat = min (ofDigits number * 2 ^ exponent) (2 ^ 64 - 1)

theorem Parts.readsAsWritten (parts : Parts text number rest) :
    ReadsAsWritten text number rest := by
  have bare : number = [] ∧ rest = [] → ¬ Numeral number := by
    rintro ⟨rfl, _⟩ ⟨⟨_, ⟨⟩, _⟩, _⟩
  have amount := fun some digits exponent =>
    @Parts.integral text number rest exponent parts some digits
  have judged := parts.judged
  generalize answer : parse text = result at judged
  -- each of the four outcomes excludes the conditions of the other three
  cases judged with
  | empty none =>
      have other := bare none
      refine ⟨?_, ?_, fun unit => ?_, fun run => ?_, amount⟩ <;>
        simp [answer, none.1, none.2, none.1 ▸ other]
  | invalidUnit some unknown =>
      refine ⟨?_, ?_, fun unit => ?_, fun run => ?_, amount⟩ <;>
        simp only [answer, some, unknown] <;> simp [eq_comm]
  | invalidNumber some known other =>
      refine ⟨?_, ?_, fun unit => ?_, fun run => ?_, amount⟩ <;>
        simp only [answer, some, known, other] <;> simp [eq_comm]
  | size size known numeral =>
      have some : ¬ (number = [] ∧ rest = []) := fun none => bare none numeral
      refine ⟨?_, ?_, fun unit => ?_, fun run => ?_, amount⟩ <;>
        simp only [answer, some, known, numeral] <;> simp

/-- Sizes are read by their grammar: every text has one number and one rest, and what reading makes
of it is told by these two. -/
theorem readsAsWritten_parse (text : String) :
    ∃ number rest, Parts text number rest ∧
      (∀ other last, Parts text other last → other = number ∧ last = rest) ∧
      ReadsAsWritten text number rest := by
  obtain ⟨number, rest, parts⟩ := exists_parts text
  refine ⟨number, rest, parts, fun other last same => ?_, parts.readsAsWritten⟩
  obtain ⟨front, back⟩ := parts.split
  obtain ⟨front', back'⟩ := same.split
  exact ⟨front'.symm.trans front, back'.symm.trans back⟩

end MediaHarvest.ByteSize
