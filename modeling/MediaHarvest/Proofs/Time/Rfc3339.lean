import MediaHarvest.Proofs.Except
import MediaHarvest.Proofs.Number.Digits
import MediaHarvest.Proofs.Time.Calendar
import MediaHarvest.Time.Rfc3339
import Mathlib.Algebra.Group.Nat.Defs

/-!
# Reading back dates and times

The text of an instant is read as that instant.  Each part of the text is a number with zeros in
front up to its width, which the reader takes to the last digit, followed by a mark that is neither
a digit nor a blank.
-/

namespace MediaHarvest.Time

open MediaHarvest.Number MediaHarvest.Text

/-! ## Numbers of a width -/

theorem toList_padded (width n : Nat) :
    (padded width n).toList =
      List.replicate (width - (Nat.toDigits 10 n).length) '0' ++ Nat.toDigits 10 n := by
  simp [padded]

theorem isDigit_padded (width n : Nat) : ∀ c ∈ (padded width n).toList, c.isDigit = true := by
  intro c mem
  rw [toList_padded] at mem
  rcases List.mem_append.1 mem with zero | digit
  · rw [List.eq_of_mem_replicate zero]
    rfl
  · exact isDigit_toDigits n c digit

/-- Zeros in front do not change a number. -/
theorem ofDigits_padded (width n : Nat) : ofDigits (padded width n).toList = n := by
  have zeros (count : Nat) : (List.replicate count '0').foldl
      (fun value c => 10 * value + digitValue c) 0 = 0 := by
    induction count with
    | zero => rfl
    | succ count ih => exact ih
  rw [toList_padded, ofDigits, List.foldl_append, zeros]
  exact ofDigits_toDigits n

theorem padded_ne_nil (width n : Nat) : (padded width n).toList ≠ [] := by
  rw [toList_padded]
  exact List.append_ne_nil_of_right_ne_nil _ Nat.toDigits_ne_nil

/-- A number that fits into the width fills it. -/
theorem length_padded {width n : Nat} (positive : 0 < width) (fits : n < 10 ^ width) :
    (padded width n).toList.length = width := by
  have short : (Nat.toDigits 10 n).length ≤ width :=
    (Nat.length_toDigits_le_iff (by decide) positive).2 fits
  rw [toList_padded, List.length_append, List.length_replicate]
  omega

/-! ## Steps of the reader -/

/-- A run of digits is read to its end, which is set by the bound or by what follows. -/
theorem number_padded {most width n : Nat} {rest : List Char}
    (ends : most = (padded width n).toList.length ∨
      ((padded width n).toList.length ≤ most ∧ Stops Char.isDigit rest))
    (small : n < 0x8000000000000000) :
    number most ((padded width n).toList ++ rest) = .ok (n, rest) := by
  have digits := isDigit_padded width n
  have nonempty := padded_ne_nil width n
  have value := ofDigits_padded width n
  generalize (padded width n).toList = front at ends digits nonempty value ⊢
  have run : ((front ++ rest).take most).takeWhile Char.isDigit = front := by
    rcases ends with rfl | ⟨room, stop⟩
    · rw [List.take_left]
      exact List.takeWhile_eq_self_iff.2 digits
    · rw [List.take_append, List.take_of_length_le room]
      refine (scan_append digits ?_).1
      cases rest with
      | nil => simp
      | cons c rest =>
          cases most - front.length with
          | zero => exact stops_nil _
          | succ more => exact (stops_cons _ _ _).2 ((stops_cons _ _ _).1 stop)
  have some : front ++ rest ≠ [] := List.append_ne_nil_of_left_ne_nil nonempty _
  rw [number, run, if_neg some, if_neg nonempty, value, if_neg (Nat.not_le.2 small), List.drop_left]

theorem not_isBlank_of_isDigit {c : Char} (digit : c.isDigit = true) : isBlank c = false := by
  simp only [Char.isDigit, Bool.and_eq_true, decide_eq_true_eq] at digit
  have low : 48 ≤ c.toNat := digit.1
  have high : c.toNat ≤ 57 := digit.2
  simp [isBlank]
  omega

theorem trimStart_of_stops {chars : List Char} (stop : Stops isBlank chars) :
    trimStart chars = chars := by
  cases chars with
  | nil => rfl
  | cons c chars =>
      have solid : isBlank c = false := stop c rfl
      rw [trimStart, List.dropWhile_cons_of_neg (by simp [solid])]

theorem stops_padded (width n : Nat) (rest : List Char) :
    Stops isBlank ((padded width n).toList ++ rest) := by
  have digits := isDigit_padded width n
  cases found : (padded width n).toList with
  | nil => exact absurd found (padded_ne_nil width n)
  | cons c chars =>
      rw [found] at digits
      exact (stops_cons _ _ _).2 (not_isBlank_of_isDigit (digits c List.mem_cons_self))

/-- A part of two digits within its bounds is read. -/
theorem part_padded {low high n : Nat} (within : low ≤ n ∧ n ≤ high) (two : n < 100)
    (rest : List Char) : part low high ((padded 2 n).toList ++ rest) = .ok (n, rest) := by
  have length := length_padded (show 0 < 2 by decide) two
  rw [part, trimStart_of_stops (stops_padded 2 n rest),
    number_padded (.inl length.symm) (by omega), ok_bind]
  dsimp only
  rw [if_pos within]
  rfl

theorem mark_cons {wanted : Char} (solid : isBlank wanted = false) (rest : List Char) :
    mark wanted (wanted :: rest) = .ok ((), rest) := by
  rw [mark, trimStart_of_stops ((stops_cons _ _ _).2 solid)]
  dsimp only
  rw [if_pos rfl]

/-- A year of four digits is read up to the fourth. -/
theorem year_plain {n : Nat} (small : n ≤ 9999) (rest : List Char) :
    year ((padded 4 n).toList ++ rest) = .ok ((n : Int), rest) := by
  have length := length_padded (show 0 < 4 by decide) (show n < 10 ^ 4 by omega)
  have read : number 4 ((padded 4 n).toList ++ rest) = .ok (n, rest) :=
    number_padded (.inl length.symm) (by omega)
  have digits := isDigit_padded 4 n
  obtain ⟨value, same⟩ : ∃ value : Int, value = n := ⟨_, rfl⟩
  have bounds : -0x80000000 ≤ value ∧ value < 0x80000000 := by omega
  rw [year, trimStart_of_stops (stops_padded 4 _ rest), ← same]
  cases found : (padded 4 n).toList with
  | nil => exact absurd found (padded_ne_nil 4 _)
  | cons c chars =>
      rw [found] at read digits
      have digit := digits c List.mem_cons_self
      rw [List.cons_append] at read ⊢
      split
      · next heq =>
        cases heq
        cases digit
      · next heq =>
        cases heq
        cases digit
      · refine bind_eq_ok_iff.2 ⟨(n, rest), read, ?_⟩
        refine bind_eq_ok_iff.2 ⟨(value, rest), by rw [same]; rfl, ?_⟩
        exact if_pos bounds

/-- A year behind a sign is read up to the last digit. -/
theorem year_signed {value : Int} (bounds : -0x80000000 ≤ value ∧ value < 0x80000000)
    {rest : List Char} (stop : Stops Char.isDigit rest) :
    year ((if value < 0 then '-' else '+') :: ((padded 4 value.natAbs).toList ++ rest)) =
      .ok (value, rest) := by
  have small : value.natAbs < 0x8000000000000000 := by omega
  have room : (padded 4 value.natAbs).toList.length ≤
      ((padded 4 value.natAbs).toList ++ rest).length := by
    rw [List.length_append]
    exact Nat.le_add_right _ _
  have read := number_padded (.inr ⟨room, stop⟩) small
  by_cases negative : value < 0
  · have same : value = -((value.natAbs : Nat) : Int) := by omega
    rw [if_pos negative, year, trimStart_of_stops ((stops_cons _ _ _).2 (by decide))]
    refine bind_eq_ok_iff.2 ⟨(value.natAbs, rest), read, ?_⟩
    refine bind_eq_ok_iff.2 ⟨(value, rest), by rw [← same]; rfl, ?_⟩
    exact if_pos bounds
  · have same : value = ((value.natAbs : Nat) : Int) := by omega
    rw [if_neg negative, year, trimStart_of_stops ((stops_cons _ _ _).2 (by decide))]
    refine bind_eq_ok_iff.2 ⟨(value.natAbs, rest), read, ?_⟩
    refine bind_eq_ok_iff.2 ⟨(value, rest), by rw [← same]; rfl, ?_⟩
    exact if_pos bounds

/-- A year of the calendar is read in front of a mark. -/
theorem year_yearText {value : Int} (low : Date.firstYear ≤ value) (high : value ≤ Date.lastYear)
    {rest : List Char} (stop : Stops Char.isDigit rest) :
    year ((yearText value).toList ++ rest) = .ok (value, rest) := by
  rw [Date.firstYear] at low
  rw [Date.lastYear] at high
  by_cases plain : 0 ≤ value ∧ value ≤ 9999
  · have read := year_plain (n := value.toNat) (by omega) rest
    rw [Int.toNat_of_nonneg plain.1] at read
    rw [yearText, if_pos plain, read]
  · have bounds : -0x80000000 ≤ value ∧ value < 0x80000000 := by omega
    have read := year_signed bounds stop
    rw [yearText, if_neg plain, ← read]
    by_cases negative : value < 0 <;> simp [negative]

/-- The fraction of a second is read in front of what does not go on with it. -/
theorem fraction_fractionText {nanos : Nat} (small : nanos < 1000000000) {rest : List Char}
    (stop : Stops Char.isDigit rest) (point : rest.head? ≠ some '.') :
    fraction ((fractionText nanos).toList ++ rest) = .ok (nanos, rest) := by
  have digits (width n : Nat) (positive : 0 < width) (few : width ≤ 9) (fits : n < 10 ^ width) :
      fraction ('.' :: ((padded width n).toList ++ rest)) =
        .ok (n * Nat.pow 10 (9 - width), rest) := by
    have length := length_padded positive fits
    have bound : n < 0x8000000000000000 :=
      Nat.lt_of_lt_of_le fits (Nat.le_trans (Nat.pow_le_pow_right (by decide) few) (by decide))
    have read : number 9 ((padded width n).toList ++ rest) = .ok (n, rest) :=
      number_padded (.inr ⟨by rw [length]; exact few, stop⟩) bound
    have count : ((padded width n).toList ++ rest).length - rest.length = width := by
      rw [List.length_append, length]
      omega
    have left : rest.dropWhile Char.isDigit = rest := 
      (scan_append (List.forall_mem_nil _) stop).2
    simp only [fraction, read, ok_bind, count, left, pure_eq_ok]
  rw [fractionText]
  by_cases none : nanos = 0
  · rw [if_pos none, none]
    cases rest with
    | nil => rfl
    | cons c rest =>
        have other : c ≠ '.' := fun same => point (congrArg some same)
        simp [fraction, other]
  · rw [if_neg none]
    by_cases millis : nanos % 1000000 = 0
    · have value : nanos / 1000000 * Nat.pow 10 (9 - 3) = nanos := by
        show nanos / 1000000 * 1000000 = nanos
        omega
      have read := digits 3 (nanos / 1000000) (by decide) (by decide) (by omega)
      rw [value] at read
      rw [if_pos millis]
      simpa using read
    · by_cases micros : nanos % 1000 = 0
      · have value : nanos / 1000 * Nat.pow 10 (9 - 6) = nanos := by
          show nanos / 1000 * 1000 = nanos
          omega
        have read := digits 6 (nanos / 1000) (by decide) (by decide) (by omega)
        rw [value] at read
        rw [if_neg millis, if_pos micros]
        simpa using read
      · have read := digits 9 nanos (by decide) (by decide) (by omega)
        rw [if_neg millis, if_neg micros]
        simpa using read

/-! ## Instants -/

/-- The second of the minute as it is shown: the sixtieth for a leap second. -/
def shownSecond (instant : Instant) : Nat :=
  instant.secondOfDay % 60 + if 1000000000 ≤ instant.nanos then 1 else 0

theorem toList_render (instant : Instant) :
    (render instant).toList = (yearText instant.date.year).toList ++
      '-' :: ((padded 2 instant.date.month).toList ++
      '-' :: ((padded 2 instant.date.day).toList ++
      'T' :: ((padded 2 (instant.secondOfDay / 3600)).toList ++
      ':' :: ((padded 2 (instant.secondOfDay / 60 % 60)).toList ++
      ':' :: ((padded 2 (shownSecond instant)).toList ++
      ((fractionText (instant.nanos % 1000000000)).toList ++ ['Z'])))))) := by
  simp [render, clockText, shownSecond]

/-- The shown second tells a leap second from another one. -/
theorem shownSecond_cases (instant : Instant) :
    (if shownSecond instant = 60 then (59, instant.nanos % 1000000000 + 1000000000)
      else (shownSecond instant, instant.nanos % 1000000000)) =
      (instant.secondOfDay % 60, instant.nanos) := by
  have nanos := instant.nanos_lt
  by_cases leap : 1000000000 ≤ instant.nanos
  · have last : instant.secondOfDay % 60 = 59 := by
      have minute := instant.leap leap
      rw [Instant.secondOfDay, Int.fmod_eq_emod_of_nonneg _ (by decide)]
      omega
    have shown : shownSecond instant = 60 := by rw [shownSecond, if_pos leap, last]
    have part : instant.nanos % 1000000000 + 1000000000 = instant.nanos := by omega
    rw [if_pos shown, last, part]
  · have shown : shownSecond instant = instant.secondOfDay % 60 := by
      rw [shownSecond, if_neg leap, Nat.add_zero]
    have part : instant.nanos % 1000000000 = instant.nanos := by omega
    have plain : ¬ shownSecond instant = 60 := by omega
    rw [if_neg plain, shown, part]

/-- The date and the second of the day make up the seconds. -/
theorem seconds_eq (instant : Instant) :
    instant.date.toDays * 86400 + ((instant.secondOfDay / 3600 * 3600 +
      instant.secondOfDay / 60 % 60 * 60 + instant.secondOfDay % 60 : Nat) : Int) - 0 =
      instant.seconds := by
  have day : instant.date.toDays = instant.seconds / 86400 := by
    rw [Instant.date, Date.toDays_ofDays, Int.fdiv_eq_ediv_of_nonneg _ (by decide)]
  have second : (instant.secondOfDay : Int) = instant.seconds % 86400 := by
    rw [Instant.secondOfDay, Int.fmod_eq_emod_of_nonneg _ (by decide)]
    omega
  omega

theorem secondOfDay_lt (instant : Instant) : instant.secondOfDay < 86400 := by
  rw [Instant.secondOfDay, Int.fmod_eq_emod_of_nonneg _ (by decide)]
  omega

/-- The date of an instant is a day of the calendar. -/
theorem ofParts?_date (instant : Instant) :
    Date.ofParts? instant.date.year instant.date.month instant.date.day = some instant.date := by
  obtain ⟨low, high⟩ := instant.inRange
  have first : firstSecond = -96465292 * 86400 := by decide
  have days : instant.seconds.fdiv 86400 = instant.seconds / 86400 :=
    Int.fdiv_eq_ediv_of_nonneg _ (by decide)
  exact Date.ofParts?_ofDays (by rw [days]; omega) (by rw [days]; omega)

theorem ofParts?_self (instant : Instant) :
    Instant.ofParts? instant.seconds instant.nanos = some instant := by
  rw [Instant.ofParts?, dif_pos ⟨instant.inRange, instant.nanos_lt, instant.leap⟩]

/-- The text of an instant is read as that instant. -/
@[simp]
theorem parse_render (instant : Instant) : parse (render instant) = .ok instant := by
  have dateGiven := ofParts?_date instant
  have bounds := dateGiven
  rw [Date.ofParts?] at bounds
  split at bounds
  · next valid =>
    obtain ⟨yearLow, yearHigh, monthLow, monthHigh, dayLow, dayHigh⟩ := valid
    have days : instant.date.day ≤ 31 := by
      refine Nat.le_trans dayHigh ?_
      rw [Date.monthLength.eq_def]
      split
      · split <;> decide
      all_goals decide
    have second := secondOfDay_lt instant
    have shown : shownSecond instant ≤ 60 := by
      rw [shownSecond]
      split <;> omega
    rw [parse, toList_render]
    refine bind_eq_ok_iff.2 ⟨_, year_yearText yearLow yearHigh ((stops_cons _ _ _).2 (by decide)),
      ?_⟩
    refine bind_eq_ok_iff.2 ⟨_, mark_cons (by decide) _, ?_⟩
    refine bind_eq_ok_iff.2 ⟨_, part_padded ⟨monthLow, monthHigh⟩ (by omega) _, ?_⟩
    refine bind_eq_ok_iff.2 ⟨_, mark_cons (by decide) _, ?_⟩
    refine bind_eq_ok_iff.2 ⟨_, part_padded ⟨dayLow, days⟩ (by omega) _, ?_⟩
    refine bind_eq_ok_iff.2 ⟨_, rfl, ?_⟩
    refine bind_eq_ok_iff.2 ⟨_, part_padded ⟨Nat.zero_le _, by omega⟩ (by omega) _, ?_⟩
    refine bind_eq_ok_iff.2 ⟨_, mark_cons (by decide) _, ?_⟩
    refine bind_eq_ok_iff.2 ⟨_, part_padded ⟨Nat.zero_le _, by omega⟩ (by omega) _, ?_⟩
    refine bind_eq_ok_iff.2 ⟨_, mark_cons (by decide) _, ?_⟩
    refine bind_eq_ok_iff.2 ⟨_, part_padded ⟨Nat.zero_le _, shown⟩ (by omega) _, ?_⟩
    refine bind_eq_ok_iff.2 ⟨_, fraction_fractionText (Nat.mod_lt _ (by decide))
      ((stops_cons _ _ _).2 (by decide)) (by decide), ?_⟩
    refine bind_eq_ok_iff.2 ⟨_, rfl, ?_⟩
    dsimp only
    rw [if_neg (fun left => left rfl), dateGiven]
    dsimp only
    rw [if_neg (by decide), shownSecond_cases]
    dsimp only
    rw [seconds_eq, ofParts?_self]
    rfl
  · cases bounds

end MediaHarvest.Time
