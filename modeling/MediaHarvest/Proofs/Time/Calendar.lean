import MediaHarvest.Time.Instant

/-!
# Days and dates

`Date.ofDays` gives a day of the calendar, and `Date.toDays` counts it back.  The years of an era
are grouped into four centuries and those into cycles of four years; the last day of a cycle is the
leap day, which every century but the last of an era lacks.
-/

namespace MediaHarvest

/-- A day of an era as a century, a cycle of four years, a year and a day of the year, all but the
last day of the era. -/
theorem exists_parts {day : Int} (low : 0 ≤ day) (high : day < 146096) :
    ∃ century cycle single rest : Int,
      day = 36524 * century + 1461 * cycle + 365 * single + rest ∧
      (0 ≤ century ∧ century ≤ 3) ∧ (0 ≤ cycle ∧ cycle ≤ 24) ∧ (0 ≤ single ∧ single ≤ 3) ∧
      (0 ≤ rest ∧ rest ≤ 365) ∧ (rest = 365 → single = 3 ∧ cycle ≠ 24) := by
  have century : 0 ≤ day / 36524 ∧ day / 36524 ≤ 3 := by omega
  generalize part_eq : day % 36524 = part
  have partRange : 0 ≤ part ∧ part < 36524 := by omega
  have cycle : 0 ≤ part / 1461 ∧ part / 1461 ≤ 24 := by omega
  generalize rest_eq : part % 1461 = rest
  have restRange : 0 ≤ rest ∧ rest < 1461 := by omega
  by_cases leap : rest = 1460
  · exact ⟨day / 36524, part / 1461, 3, 365, by omega, century, cycle, by decide, by decide,
      fun _ => ⟨rfl, by omega⟩⟩
  · exact ⟨day / 36524, part / 1461, rest / 365, rest % 365, by omega, century, cycle, by omega,
      by omega, fun full => by omega⟩

/-- The year within an era of a day in parts. -/
theorem year_of_parts {century cycle single rest : Int} (centuries : 0 ≤ century ∧ century ≤ 3)
    (cycles : 0 ≤ cycle ∧ cycle ≤ 24) (singles : 0 ≤ single ∧ single ≤ 3)
    (rests : 0 ≤ rest ∧ rest ≤ 365) (leap : rest = 365 → single = 3 ∧ cycle ≠ 24) {day : Int}
    (split : day = 36524 * century + 1461 * cycle + 365 * single + rest) :
    (day - day / 1460 + day / 36524 - day / 146096) / 365 =
      100 * century + 4 * cycle + single := by
  have last : day / 146096 = 0 := by omega
  have front : day / 36524 = century := by omega
  -- A cycle has a day more than four times 365, so dividing by 1460 may run ahead by one.
  obtain ⟨ahead, quotient, range, late, full⟩ : ∃ ahead : Int,
      day / 1460 = 25 * century + cycle + ahead ∧ (0 ≤ ahead ∧ ahead ≤ 1) ∧
      (ahead = 1 → 1364 ≤ 365 * single + rest) ∧ (rest = 365 → ahead = 1) := by
    refine ⟨(24 * century + cycle + 365 * single + rest) / 1460, ?_, ?_, ?_, ?_⟩
    · omega
    · omega
    · omega
    · intro full
      obtain ⟨three, _⟩ := leap full
      omega
  rw [last, front, quotient]
  clear last front quotient
  omega

/-- The year of an era and the day of that year, counted from March. -/
theorem yearOfEra_spec {day year : Int} (low : 0 ≤ day) (high : day < 146097)
    (found : (day - day / 1460 + day / 36524 - day / 146096) / 365 = year) :
    (0 ≤ year ∧ year < 400) ∧
      (0 ≤ day - (365 * year + year / 4 - year / 100) ∧
        day - (365 * year + year / 4 - year / 100) ≤ 365) ∧
      (day - (365 * year + year / 4 - year / 100) = 365 →
        (year + 1) % 4 = 0 ∧ ((year + 1) % 100 ≠ 0 ∨ (year + 1) % 400 = 0)) := by
  by_cases last : day = 146096
  · subst last
    subst found
    decide
  · obtain ⟨century, cycle, single, rest, split, centuries, cycles, singles, rests, leap⟩ :=
      exists_parts low (by omega)
    rw [year_of_parts centuries cycles singles rests leap split] at found
    have four : year / 4 = 25 * century + cycle := by omega
    have hundred : year / 100 = century := by omega
    have dayOfYear : day - (365 * year + year / 4 - year / 100) = rest := by
      rw [four, hundred]
      omega
    rw [dayOfYear]
    clear four hundred dayOfYear split
    refine ⟨by omega, rests, fun full => ?_⟩
    obtain ⟨three, noLast⟩ := leap full
    constructor
    · omega
    · left
      omega

namespace Date

/-- The parts of the date of a day: the era, the year of the era, the month counted from March, and
the day of the year before and within that month. -/
structure Parts where
  era : Int
  year : Int
  month : Int
  /-- The day of the month, from zero. -/
  day : Int

namespace Parts

/-- The day of the year, counted from the first of March. -/
def dayOfYear (parts : Parts) : Int := (153 * parts.month + 2) / 5 + parts.day

/-- The days since the start of 1970. -/
def days (parts : Parts) : Int :=
  parts.era * 146097 + (365 * parts.year + parts.year / 4 - parts.year / 100 + parts.dayOfYear) -
    719468

/-- The date. -/
def date (parts : Parts) : Date :=
  if parts.month < 10 then
    ⟨parts.year + parts.era * 400, (parts.month + 3).toNat, (parts.day + 1).toNat⟩
  else ⟨parts.year + parts.era * 400 + 1, (parts.month - 9).toNat, (parts.day + 1).toNat⟩

/-- The parts are within their bounds; only the last month of a year before a leap day reaches the
day 365. -/
structure Valid (parts : Parts) : Prop where
  year : 0 ≤ parts.year ∧ parts.year < 400
  month : 0 ≤ parts.month ∧ parts.month ≤ 11
  /-- The day lies before the next month. -/
  day : 0 ≤ parts.day ∧ (153 * parts.month + 2) / 5 + parts.day < (153 * (parts.month + 1) + 2) / 5
  dayOfYear : parts.dayOfYear ≤ 365
  leap : parts.dayOfYear = 365 →
    (parts.year + 1) % 4 = 0 ∧ ((parts.year + 1) % 100 ≠ 0 ∨ (parts.year + 1) % 400 = 0)

end Parts

/-- Every day has a date with valid parts. -/
theorem exists_parts_ofDays (days : Int) :
    ∃ parts : Parts, parts.Valid ∧ parts.days = days ∧ ofDays days = parts.date := by
  have fdiv (a : Int) {b : Int} (positive : 0 ≤ b) : a.fdiv b = a / b :=
    Int.fdiv_eq_ediv_of_nonneg a positive
  simp only [ofDays, fdiv _ (show (0 : Int) ≤ 146097 by decide),
    fdiv _ (show (0 : Int) ≤ 1460 by decide), fdiv _ (show (0 : Int) ≤ 36524 by decide),
    fdiv _ (show (0 : Int) ≤ 146096 by decide), fdiv _ (show (0 : Int) ≤ 365 by decide),
    fdiv _ (show (0 : Int) ≤ 4 by decide), fdiv _ (show (0 : Int) ≤ 100 by decide),
    fdiv _ (show (0 : Int) ≤ 153 by decide), fdiv _ (show (0 : Int) ≤ 5 by decide)]
  generalize era_eq : (days + 719468) / 146097 = era
  generalize day_eq : days + 719468 - era * 146097 = dayOfEra
  generalize year_eq : (dayOfEra - dayOfEra / 1460 + dayOfEra / 36524 - dayOfEra / 146096) / 365 =
    year
  have spec := yearOfEra_spec (show 0 ≤ dayOfEra by omega) (show dayOfEra < 146097 by omega) year_eq
  clear year_eq
  generalize rest_eq : dayOfEra - (365 * year + year / 4 - year / 100) = rest at spec ⊢
  obtain ⟨years, rests, leap⟩ := spec
  generalize month_eq : (5 * rest + 2) / 153 = month
  have months : 0 ≤ month ∧ month ≤ 11 := by omega
  have next : rest < (153 * (month + 1) + 2) / 5 := by omega
  have start : (153 * month + 2) / 5 ≤ rest := by omega
  refine ⟨⟨era, year, month, rest - (153 * month + 2) / 5⟩, ⟨years, months, ?_, ?_, ?_⟩, ?_, ?_⟩
  · dsimp only
    omega
  · dsimp only [Parts.dayOfYear]
    omega
  · dsimp only [Parts.dayOfYear]
    intro full
    exact leap (by omega)
  · dsimp only [Parts.days, Parts.dayOfYear]
    omega
  · by_cases early : month < 10
    · have late : ¬ month + 3 ≤ 2 := by omega
      simp only [Parts.date, if_pos early, if_neg late, Int.add_zero]
    · have low : month - 9 ≤ 2 := by omega
      simp only [Parts.date, if_neg early, if_pos low]

/-- A date is counted back to its days. -/
theorem toDays_date {parts : Parts} (valid : parts.Valid) : toDays parts.date = parts.days := by
  obtain ⟨era, year, month, day⟩ := parts
  obtain ⟨years, months, days, _, _⟩ := valid
  dsimp only at years months days
  have fdiv (a : Int) {b : Int} (positive : 0 ≤ b) : a.fdiv b = a / b :=
    Int.fdiv_eq_ediv_of_nonneg a positive
  simp only [toDays, fdiv _ (show (0 : Int) ≤ 400 by decide), fdiv _ (show (0 : Int) ≤ 4 by decide),
    fdiv _ (show (0 : Int) ≤ 100 by decide), fdiv _ (show (0 : Int) ≤ 5 by decide), Parts.date,
    Parts.days, Parts.dayOfYear]
  by_cases early : month < 10
  · have late : ¬ (month + 3).toNat ≤ 2 := by omega
    have era_eq : (year + era * 400) / 400 = era := by omega
    have year_eq : year + era * 400 - era * 400 = year := by omega
    have month_eq : ((month + 3).toNat : Int) - 3 = month := by omega
    simp only [if_pos early, if_neg late, era_eq, year_eq, month_eq]
    omega
  · have low : (month - 9).toNat ≤ 2 := by omega
    have era_eq : (year + era * 400 + 1 - 1) / 400 = era := by omega
    have year_eq : year + era * 400 + 1 - 1 - era * 400 = year := by omega
    have month_eq : ((month - 9).toNat : Int) + 9 = month := by omega
    simp only [if_neg early, if_pos low, era_eq, year_eq, month_eq]
    omega

/-- The length of a month, counted from March, is what its start leaves up to the next one, but for
the last month of the year. -/
theorem monthLength_eq (year : Int) {month : Int} (low : 0 ≤ month) (high : month ≤ 10) :
    (monthLength year (if month < 10 then (month + 3).toNat else (month - 9).toNat) : Int) =
      (153 * (month + 1) + 2) / 5 - (153 * month + 2) / 5 := by
  have cases : month = 0 ∨ month = 1 ∨ month = 2 ∨ month = 3 ∨ month = 4 ∨ month = 5 ∨ month = 6 ∨
      month = 7 ∨ month = 8 ∨ month = 9 ∨ month = 10 := by omega
  rcases cases with rfl | rfl | rfl | rfl | rfl | rfl | rfl | rfl | rfl | rfl | rfl <;> rfl

/-- A year whose number allows it has a 29th of February. -/
theorem monthLength_february {year : Int}
    (leap : year % 4 = 0 ∧ (year % 100 ≠ 0 ∨ year % 400 = 0)) : monthLength year 2 = 29 := by
  obtain ⟨four, hundred⟩ := leap
  rcases hundred with hundred | hundred
  · simp [monthLength, isLeap, four, hundred]
  · simp [monthLength, isLeap, four, hundred]

theorem le_monthLength_february (year : Int) : 28 ≤ monthLength year 2 := by
  rw [monthLength]
  split <;> decide

/-- The date of a day is a day of its month. -/
theorem date_month_day {parts : Parts} (valid : parts.Valid) :
    (1 ≤ parts.date.month ∧ parts.date.month ≤ 12) ∧ 1 ≤ parts.date.day ∧
      parts.date.day ≤ monthLength parts.date.year parts.date.month := by
  obtain ⟨era, year, month, day⟩ := parts
  obtain ⟨years, months, days, within, leap⟩ := valid
  dsimp only [Parts.dayOfYear] at years months days within leap
  by_cases last : month = 11
  · subst last
    have bound : day + 1 ≤ monthLength (year + era * 400 + 1) 2 := by
      have short := le_monthLength_february (year + era * 400 + 1)
      by_cases full : day = 28
      · subst full
        obtain ⟨four, hundred⟩ := leap rfl
        rw [monthLength_february ⟨by omega, by omega⟩]
        decide
      · omega
    refine ⟨(by decide : 1 ≤ 2 ∧ 2 ≤ 12), ?_, ?_⟩
    · show 1 ≤ (day + 1).toNat
      omega
    · show (day + 1).toNat ≤ monthLength (year + era * 400 + 1) 2
      omega
  · by_cases early : month < 10
    · have length := monthLength_eq (year + era * 400) months.1 (by omega)
      rw [if_pos early] at length
      simp only [Parts.date, if_pos early]
      omega
    · have length := monthLength_eq (year + era * 400 + 1) months.1 (by omega)
      rw [if_neg early] at length
      simp only [Parts.date, if_neg early]
      omega

/-- The days of the calendar have dates in the years of the calendar. -/
theorem year_bounds {parts : Parts} (valid : parts.Valid) (low : firstSecond ≤ parts.days * 86400)
    (high : parts.days * 86400 ≤ lastSecond) :
    firstYear ≤ parts.date.year ∧ parts.date.year ≤ lastYear := by
  obtain ⟨era, year, month, day⟩ := parts
  obtain ⟨years, months, inMonth, within, _⟩ := valid
  rw [firstSecond] at low
  rw [lastSecond] at high
  rw [firstYear, lastYear]
  dsimp only [Parts.days, Parts.dayOfYear] at years months inMonth within low high
  generalize rest_eq : (153 * month + 2) / 5 + day = rest at low high inMonth within
  have early : month < 10 → rest ≤ 305 := by omega
  have late : 10 ≤ month → 306 ≤ rest := by omega
  have rests : 0 ≤ rest := by omega
  clear rest_eq inMonth
  have eras : -656 ≤ era ∧ era ≤ 655 := by omega
  -- Only in the first and the last era do the bounds cut into the years.
  have first : era = -656 → 256 ≤ year ∧ (year = 256 → 10 ≤ month) := by
    rintro rfl
    refine ⟨by omega, ?_⟩
    rintro rfl
    omega
  have last : era = 655 → year ≤ 142 ∧ (year = 142 → month < 10) := by
    rintro rfl
    refine ⟨by omega, ?_⟩
    rintro rfl
    omega
  clear low high
  by_cases start : month < 10
  · simp only [Parts.date, if_pos start]
    omega
  · simp only [Parts.date, if_neg start]
    omega

/-- The date of a day within the calendar is among the dates that can be given. -/
theorem ofParts?_ofDays {days : Int} (low : firstSecond ≤ days * 86400)
    (high : days * 86400 ≤ lastSecond) :
    ofParts? (ofDays days).year (ofDays days).month (ofDays days).day = some (ofDays days) := by
  obtain ⟨parts, valid, rfl, date⟩ := exists_parts_ofDays days
  obtain ⟨⟨monthLow, monthHigh⟩, dayLow, dayHigh⟩ := date_month_day valid
  obtain ⟨yearLow, yearHigh⟩ := year_bounds valid low high
  rw [date, ofParts?, if_pos ⟨yearLow, yearHigh, monthLow, monthHigh, dayLow, dayHigh⟩]

/-- Days are counted back from their date. -/
@[simp]
theorem toDays_ofDays (days : Int) : toDays (ofDays days) = days := by
  obtain ⟨parts, valid, count, date⟩ := exists_parts_ofDays days
  rw [date, toDays_date valid, count]

end Date

end MediaHarvest
