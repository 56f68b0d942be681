import MediaHarvest.ByteSize
import MediaHarvest.Proofs.Number.Digits
import Mathlib.Algebra.Group.Nat.Defs
import Mathlib.Tactic.SplitIfs

/-!
# Showing sizes

A size is shown as a `Figure`: a number of tenths and a unit.  The figure is the size cut to tenths of
its largest unit, and figures grow with the sizes.  But the tenths are computed in 64 bits, so a size
has a text only as long as it fits there ten times over (`text?_eq`).
-/

namespace MediaHarvest.ByteSize

open Number

/-! ## Figures -/

/-- What a size is shown as: a number of tenths of a unit. -/
structure Figure where
  tenths : Nat
  unit : String × Nat
  known : unit ∈ ("B", 0) :: units

namespace Figure

variable {left right : Figure}

/-- The text of a figure.  The decimal is left out if it is zero. -/
def text (figure : Figure) : String :=
  if figure.tenths % 10 = 0 then s!"{figure.tenths / 10}{figure.unit.1}"
  else s!"{figure.tenths / 10}.{figure.tenths % 10}{figure.unit.1}"

/-- The amount that a figure tells, in tenths of a byte. -/
def amount (figure : Figure) : Nat := figure.tenths * 2 ^ figure.unit.2

/-- The point and the digit behind it, if there are any. -/
def decimal (figure : Figure) : List Char :=
  if figure.tenths % 10 = 0 then [] else '.' :: Nat.toDigits 10 (figure.tenths % 10)

theorem toList_text (figure : Figure) :
    figure.text.toList =
      Nat.toDigits 10 (figure.tenths / 10) ++ (figure.decimal ++ figure.unit.1.toList) := by
  rw [text, decimal]
  split <;> simp [toString]

/-- Units start with a letter. -/
theorem stops_unit {unit : String × Nat} (known : unit ∈ ("B", 0) :: units) :
    Stops Char.isDigit unit.1.toList ∧ ∀ rest, unit.1.toList ≠ '.' :: rest := by
  have letters : ∀ unit ∈ ("B", 0) :: units,
      ∃ c rest, unit.1.toList = c :: rest ∧ c.isDigit = false ∧ c ≠ '.' := by
    simp [units]
  obtain ⟨c, rest, chars, letter, noPoint⟩ := letters unit known
  rw [chars]
  refine ⟨(stops_cons ..).2 letter, fun other same => noPoint ?_⟩
  exact (List.cons.inj same).1

/-- A unit is known by its name. -/
theorem unit_inj {unit other : String × Nat} (known : unit ∈ ("B", 0) :: units)
    (known' : other ∈ ("B", 0) :: units) (same : unit.1 = other.1) : unit = other := by
  have names : ∀ unit ∈ ("B", 0) :: units, ∀ other ∈ ("B", 0) :: units,
      unit.1 = other.1 → unit = other := by
    decide
  exact names unit known other known' same

theorem stops_decimal (figure : Figure) :
    Stops Char.isDigit (figure.decimal ++ figure.unit.1.toList) := by
  rw [decimal]
  split
  · exact (stops_unit figure.known).1
  · exact (stops_cons ..).2 (by decide)

/-- The decimals and the units behind the same whole number are told apart. -/
theorem decimal_inj
    (same : left.decimal ++ left.unit.1.toList = right.decimal ++ right.unit.1.toList) :
    left.tenths % 10 = right.tenths % 10 ∧ left.unit = right.unit := by
  have named : left.unit.1.toList = right.unit.1.toList → left.unit = right.unit :=
    fun names => unit_inj left.known right.known (String.ext names)
  have first := stops_unit left.known
  have second := stops_unit right.known
  rw [decimal, decimal] at same
  split_ifs at same with none none' none'
  · exact ⟨none.trans none'.symm, named same⟩
  · exact absurd same (first.2 _)
  · exact absurd same.symm (second.2 _)
  · obtain ⟨digit, names⟩ := toDigits_append_inj first.1 second.1 (List.cons.inj same).2
    exact ⟨digit, named names⟩

/-- Different figures have different texts. -/
theorem text_inj (same : left.text = right.text) : left = right := by
  have chars := congrArg String.toList same
  rw [toList_text, toList_text] at chars
  obtain ⟨whole, rest⟩ := toDigits_append_inj left.stops_decimal right.stops_decimal chars
  obtain ⟨decimals, unit⟩ := decimal_inj rest
  have tenths : left.tenths = right.tenths := by omega
  cases left
  cases right
  cases tenths
  cases unit
  rfl

end Figure

/-! ## Cutting -/

/-- A figure is a number of bytes cut to tenths of the largest unit that is not above it. -/
structure Truncates (bytes : Nat) (figure : Figure) : Prop where
  reached : figure.unit = ("B", 0) ∨ 2 ^ figure.unit.2 ≤ bytes
  largest : ∀ unit ∈ units, 2 ^ unit.2 ≤ bytes → unit.2 ≤ figure.unit.2
  low : figure.tenths * 2 ^ figure.unit.2 ≤ 10 * bytes
  high : 10 * bytes < (figure.tenths + 1) * 2 ^ figure.unit.2

variable {bytes more : Nat} {figure other : Figure}

/-- The units go up with the number of bytes. -/
theorem Truncates.grows (cut : Truncates bytes figure) (cut' : Truncates more other)
    (le : bytes ≤ more) : figure.unit.2 ≤ other.unit.2 := by
  rcases List.mem_cons.1 figure.known with least | mem
  · rw [least]
    exact Nat.zero_le _
  · rcases cut.reached with least | reached
    · rw [least]
      exact Nat.zero_le _
    · exact cut'.largest _ mem (Nat.le_trans reached le)

/-- Larger numbers of bytes have larger figures. -/
theorem Truncates.mono (cut : Truncates bytes figure) (cut' : Truncates more other)
    (le : bytes ≤ more) : figure.amount ≤ other.amount := by
  rcases Nat.eq_or_lt_of_le (cut.grows cut' le) with same | larger
  · have low : figure.tenths * 2 ^ figure.unit.2 ≤ 10 * bytes := cut.low
    have high : 10 * more < (other.tenths + 1) * 2 ^ figure.unit.2 := same ▸ cut'.high
    have below : figure.tenths < other.tenths + 1 :=
      Nat.lt_of_mul_lt_mul_right (a := 2 ^ figure.unit.2) (by omega)
    rw [Figure.amount, Figure.amount, same]
    exact Nat.mul_le_mul_right _ (Nat.le_of_lt_succ below)
  · -- the larger figure is one of its units at least, and the smaller size is below that
    have reached : 2 ^ other.unit.2 ≤ more := by
      refine cut'.reached.resolve_left fun least => ?_
      rw [least] at larger
      cases larger
    have mem : other.unit ∈ units := by
      refine (List.mem_cons.1 other.known).resolve_left fun least => ?_
      rw [least] at larger
      cases larger
    have short : bytes < 2 ^ other.unit.2 :=
      Nat.lt_of_not_le fun long => Nat.not_le_of_lt larger (cut.largest _ mem long)
    have ten : 10 < other.tenths + 1 :=
      Nat.lt_of_mul_lt_mul_right (a := 2 ^ other.unit.2) (Nat.lt_of_le_of_lt (by omega) cut'.high)
    calc figure.amount ≤ 10 * bytes := cut.low
      _ ≤ 10 * 2 ^ other.unit.2 := Nat.mul_le_mul_left _ (Nat.le_of_lt short)
      _ ≤ other.amount := Nat.mul_le_mul_right _ (Nat.le_of_lt_succ ten)

/-! ## What is shown -/

/-- The unit in which a number of bytes is shown. -/
def unitFor (bytes : Nat) : String × Nat :=
  (units.find? fun unit => Nat.pow 2 unit.2 ≤ bytes).getD ("B", 0)

/-- The unit that is found is the largest that is not above the number of bytes. -/
theorem unitFor_spec (bytes : Nat) :
    unitFor bytes ∈ ("B", 0) :: units ∧
      (unitFor bytes = ("B", 0) ∨ 2 ^ (unitFor bytes).2 ≤ bytes) ∧
      ∀ unit ∈ units, 2 ^ unit.2 ≤ bytes → unit.2 ≤ (unitFor bytes).2 := by
  have descending : units.Pairwise fun unit next => next.2 < unit.2 := by decide
  rw [unitFor]
  cases found : units.find? fun unit => Nat.pow 2 unit.2 ≤ bytes with
  | none =>
      refine ⟨List.mem_cons_self, .inl rfl, fun unit mem reached => ?_⟩
      exact absurd (decide_eq_true reached) (List.find?_eq_none.1 found unit mem)
  | some largest =>
      refine ⟨List.mem_cons_of_mem _ (List.mem_of_find?_eq_some found),
        .inr ?_, fun unit mem reached => ?_⟩
      · have reached := List.find?_some found
        exact of_decide_eq_true reached
      obtain ⟨_, above, below, split, skipped⟩ := List.find?_eq_some_iff_append.1 found
      rw [split] at mem descending
      rcases List.mem_append.1 mem with mem | mem
      · have above : ¬ 2 ^ unit.2 ≤ bytes := by simpa using skipped unit mem
        exact absurd reached above
      · rcases List.mem_cons.1 mem with rfl | mem
        · exact Nat.le_refl _
        · have rest := (List.pairwise_append.1 descending).2.1
          exact Nat.le_of_lt (List.rel_of_pairwise_cons rest mem)

/-- What a size is shown as. -/
def shownAs (size : ByteSize) : Figure where
  tenths := 10 * size.bytes.toNat / 2 ^ (unitFor size.bytes.toNat).2
  unit := unitFor size.bytes.toNat
  known := (unitFor_spec _).1

/-- It is the size cut off. -/
theorem truncates_shownAs (size : ByteSize) : Truncates size.bytes.toNat size.shownAs := by
  have spec := unitFor_spec size.bytes.toNat
  refine ⟨spec.2.1, spec.2.2, Nat.div_mul_le_self _ _, ?_⟩
  exact Nat.lt_mul_of_div_lt (Nat.lt_succ_self _) (Nat.two_pow_pos _)

/-- A figure whose tenths are a word. -/
theorem text_word (tenths : UInt64) (unit : String × Nat) (known : unit ∈ ("B", 0) :: units) :
    (if tenths % 10 = 0 then some s!"{tenths / 10}{unit.1}"
      else some s!"{tenths / 10}.{tenths % 10}{unit.1}") =
      some (Figure.text ⟨tenths.toNat, unit, known⟩) := by
  have whole : tenths % 10 = 0 ↔ tenths.toNat % 10 = 0 := by
    rw [← UInt64.toNat_inj, UInt64.toNat_mod]
    rfl
  simp only [Figure.text, whole, toString, UInt64.toNat_div, UInt64.toNat_mod]
  split
  · rfl
  · rfl

theorem toNat_tenths {bytes : UInt64} {exponent : Nat} (fits : 10 * bytes.toNat < 2 ^ 64)
    (small : exponent < 64) :
    (bytes * 10 / UInt64.ofNat (Nat.pow 2 exponent)).toNat =
      10 * bytes.toNat / 2 ^ exponent := by
  have divisor : (UInt64.ofNat (Nat.pow 2 exponent)).toNat = 2 ^ exponent :=
    UInt64.toNat_ofNat_of_lt' (Nat.pow_lt_pow_right (by decide) small)
  have product : (bytes * 10).toNat = 10 * bytes.toNat := by
    rw [UInt64.toNat_mul, Nat.mul_comm]
    exact Nat.mod_eq_of_lt fits
  rw [UInt64.toNat_div, divisor, product]

/-- Units are below a word. -/
theorem unit_lt {unit : String × Nat} (known : unit ∈ ("B", 0) :: units) : unit.2 ≤ 40 := by
  have below : ∀ unit ∈ ("B", 0) :: units, unit.2 ≤ 40 := by decide
  exact below unit known

/-- A size that fits in 64 bits ten times over is shown cut off, and a larger one is not shown. -/
theorem text?_eq (size : ByteSize) :
    size.text? = if 10 * size.bytes.toNat < 2 ^ 64 then some size.shownAs.text else none := by
  rw [text?]
  cases found : units.find? fun unit => Nat.pow 2 unit.2 ≤ size.bytes.toNat with
  | none =>
      have chosen : unitFor size.bytes.toNat = ("B", 0) := by rw [unitFor, found]; rfl
      have short : ¬ 2 ^ 10 ≤ size.bytes.toNat := by
        simpa using List.find?_eq_none.1 found ("KB", 10) (by decide)
      have tenths : 10 * size.bytes.toNat / 2 ^ 0 = 10 * size.bytes.toNat := by omega
      have whole : 10 * size.bytes.toNat % 10 = 0 := by omega
      have back : 10 * size.bytes.toNat / 10 = size.bytes.toNat := by omega
      rw [if_pos (by omega)]
      simp only [Figure.text, shownAs, chosen, tenths, whole, back, if_true]
      rfl
  | some unit =>
      have chosen : unitFor size.bytes.toNat = unit := by rw [unitFor, found]; rfl
      have known : unit ∈ ("B", 0) :: units := chosen ▸ (unitFor_spec _).1
      by_cases fits : 10 * size.bytes.toNat < 2 ^ 64
      · have tenths := toNat_tenths fits (Nat.lt_of_le_of_lt (unit_lt known) (by decide))
        have within : ¬ maxWord < size.bytes.toNat * 10 := by
          rw [maxWord]
          omega
        have written := text_word (size.bytes * 10 / UInt64.ofNat (Nat.pow 2 unit.2)) unit known
        rw [if_pos fits]
        dsimp only
        rw [if_neg within]
        refine written.trans (congrArg (some ∘ Figure.text) ?_)
        simp only [shownAs, tenths, chosen]
      · have beyond : maxWord < size.bytes.toNat * 10 := by
          rw [maxWord]
          omega
        rw [if_neg fits]
        dsimp only
        rw [if_pos beyond]

/-- A size that is shown is shown cut off. -/
theorem eq_shownAs {size : ByteSize} {figure : Figure} (shown : size.text? = some figure.text) :
    figure = size.shownAs := by
  rw [text?_eq] at shown
  split at shown
  · exact (Figure.text_inj (Option.some.inj shown)).symm
  · cases shown

/-- How a size is shown. -/
structure ShownInTenths (size : ByteSize) : Prop where
  bytes : size.bytes.toNat < 2 ^ 10 → size.text? = some s!"{size.bytes}B"
  /-- The text is the size cut to tenths of its largest unit if the product fits in 64 bits. -/
  truncated : (∃ figure, Truncates size.bytes.toNat figure ∧ size.text? = some figure.text) ↔
    10 * size.bytes.toNat < 2 ^ 64
  /-- Otherwise there is no text at all. -/
  overflows : size.text? = none ↔ 2 ^ 64 ≤ 10 * size.bytes.toNat
  /-- A larger size is not shown as less. -/
  monotone : ∀ larger : ByteSize, size.bytes ≤ larger.bytes → ∀ figure other : Figure,
    size.text? = some figure.text → larger.text? = some other.text → figure.amount ≤ other.amount

theorem shownInTenths (size : ByteSize) : ShownInTenths size := by
  constructor
  · intro small
    have none : (units.find? fun unit => Nat.pow 2 unit.2 ≤ size.bytes.toNat) = none := by
      have above : ∀ unit ∈ units, 10 ≤ unit.2 := by decide
      refine List.find?_eq_none.2 fun unit mem reached => ?_
      have unit : 2 ^ 10 ≤ 2 ^ unit.2 := Nat.pow_le_pow_right (by decide) (above unit mem)
      exact Nat.not_lt_of_le (Nat.le_trans unit (of_decide_eq_true reached)) small
    rw [text?, none]
  · rw [text?_eq]
    split
    · next fits => exact iff_of_true ⟨size.shownAs, size.truncates_shownAs, rfl⟩ fits
    · next beyond => exact iff_of_false (fun ⟨_, _, shown⟩ => nomatch shown) beyond
  · rw [text?_eq]
    split
    · next fits => exact iff_of_false nofun (Nat.not_le_of_lt fits)
    · next beyond => exact iff_of_true rfl (Nat.le_of_not_lt beyond)
  · intro larger le figure other shown shown'
    rw [eq_shownAs shown, eq_shownAs shown']
    exact size.truncates_shownAs.mono larger.truncates_shownAs (UInt64.le_iff_toNat_le.1 le)

/-- One byte more than a tenth of a word can hold, and a size that has a figure has no text. -/
theorem text_of_overflowing :
    (∃ figure, Truncates 1844674407370955162 figure ∧ figure.text = "1677721.6TB") ∧
      text? ⟨1844674407370955162⟩ = none ∧
      text? ⟨1844674407370955161⟩ = some "1677721.5TB" := by
  refine ⟨⟨shownAs ⟨1844674407370955162⟩, ?_, by rfl⟩, by rfl, by rfl⟩
  exact truncates_shownAs ⟨1844674407370955162⟩

end MediaHarvest.ByteSize
