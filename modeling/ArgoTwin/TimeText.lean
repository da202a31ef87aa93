import ArgoTwin.Time
/-!
# Times written and read back

A date names its day and a day of a `datetime`'s years has a date of four
digits; so what `isoformat` writes, `fromisoformat` reads back, and a text
of a time names one instant.
-/

namespace ArgoTwin

namespace DateTime

/-! ## The calendar -/

/-- The days of an era before a year of it. -/
def yearStart (yoe : Nat) : Nat := 365 * yoe + yoe / 4 - yoe / 100

/-- The days of an era before a day of it, leap days left out. -/
def commonDays (doe : Nat) : Nat := doe - doe / 1460 + doe / 36524 - doe / 146096

theorem commonDays_mono {a b : Nat} (h : a ≤ b) : commonDays a ≤ commonDays b := by
  unfold commonDays
  have hquarter : ∀ n, n / 146096 = n / 36524 / 4 := fun n => by rw [Nat.div_div_eq_div_mul]
  have hfirst : a - a / 1460 ≤ b - b / 1460 := by omega
  have hsecond : a / 36524 ≤ b / 36524 := Nat.div_le_div_right h
  rw [hquarter, hquarter]
  generalize a / 36524 = x at *
  generalize b / 36524 = y at *
  omega

theorem yearOfEra {doe : Nat} (h : doe < 146097) :
    commonDays doe / 365 < 400 ∧ yearStart (commonDays doe / 365) ≤ doe ∧
      (doe < yearStart (commonDays doe / 365 + 1) ∨ (commonDays doe / 365 = 399 ∧ doe = 146096)) := by
  have hstarts : ∀ y < 400, (y = 0 ∨ commonDays (yearStart y - 1) < 365 * y) ∧
      (y = 399 ∨ 365 * (y + 1) ≤ commonDays (yearStart (y + 1))) := by decide +kernel
  have hlast : commonDays 146096 = 145999 := by decide
  have hmax : commonDays doe ≤ commonDays 146096 := commonDays_mono (by omega)
  have hlt : commonDays doe / 365 < 400 := by omega
  obtain ⟨hbefore, hafter⟩ := hstarts _ hlt
  generalize hy : commonDays doe / 365 = y at *
  have hlow : 365 * y ≤ commonDays doe := by omega
  have hhigh : commonDays doe < 365 * (y + 1) := by omega
  refine ⟨hlt, ?_, ?_⟩
  · by_contra hnot
    rcases hbefore with rfl | hbefore
    · simp [yearStart] at hnot
    · have hle := commonDays_mono (show doe ≤ yearStart y - 1 by omega)
      omega
  · rcases hafter with rfl | hafter
    · have hend : yearStart 400 = 146096 := by decide
      by_cases hd : doe = 146096
      · exact .inr ⟨rfl, hd⟩
      · refine .inl ?_
        simp only [hend]
        omega
    · refine .inl ?_
      by_contra hnot
      have hle := commonDays_mono (show yearStart (y + 1) ≤ doe by omega)
      omega

/-- The month, counted from March, and the day of a day of the year. -/
theorem monthOfYear {doy : Nat} (h : doy < 366) :
    (5 * doy + 2) / 153 ≤ 11 ∧ (153 * ((5 * doy + 2) / 153) + 2) / 5 ≤ doy ∧
      doy - (153 * ((5 * doy + 2) / 153) + 2) / 5 <
        [31, 30, 31, 30, 31, 31, 30, 31, 30, 31, 31, 29].getD ((5 * doy + 2) / 153) 0 := by
  have hall : ∀ doy < 366, (5 * doy + 2) / 153 ≤ 11 ∧
      (153 * ((5 * doy + 2) / 153) + 2) / 5 ≤ doy ∧
      doy - (153 * ((5 * doy + 2) / 153) + 2) / 5 <
        [31, 30, 31, 30, 31, 31, 30, 31, 30, 31, 31, 29].getD ((5 * doy + 2) / 153) 0 := by
    decide +kernel
  exact hall doy h

/-- The month of the calendar, of one counted from March. -/
def fromMarch (mp : Nat) : Nat := if mp < 10 then mp + 3 else mp - 9

/-- **A day of the calendar** is a day of a year, counted from March, of
an era. -/
theorem civil_eq (days : Int) : ∃ (era : Int) (yoe doy : Nat), yoe < 400 ∧ doy < 366 ∧
    (doy = 365 → (yoe + 1) % 4 = 0 ∧ ((yoe + 1) % 100 ≠ 0 ∨ (yoe + 1) % 400 = 0)) ∧
    days + 306 = era * 146097 + (yearStart yoe + doy : Nat) ∧
    civil days = ((yoe : Int) + era * 400 + (if fromMarch ((5 * doy + 2) / 153) ≤ 2 then 1 else 0),
      fromMarch ((5 * doy + 2) / 153), doy - (153 * ((5 * doy + 2) / 153) + 2) / 5 + 1) := by
  have hdoe : ((days + 306) % 146097).toNat < 146097 := by omega
  obtain ⟨hyoe, hstart, hend⟩ := yearOfEra hdoe
  refine ⟨(days + 306) / 146097, commonDays ((days + 306) % 146097).toNat / 365,
    ((days + 306) % 146097).toNat - yearStart (commonDays ((days + 306) % 146097).toNat / 365),
    hyoe, ?_, ?_, ?_, rfl⟩
  · generalize commonDays ((days + 306) % 146097).toNat / 365 = yoe at *
    simp only [yearStart] at *
    omega
  · have hleap : ∀ y < 400, yearStart y + 365 < yearStart (y + 1) ∨ y = 399 →
        (y + 1) % 4 = 0 ∧ ((y + 1) % 100 ≠ 0 ∨ (y + 1) % 400 = 0) := by decide +kernel
    intro hlast
    refine hleap _ hyoe ?_
    omega
  · omega

set_option maxRecDepth 4000 in
/-- **A date names its day.** -/
theorem ordinal_civil (days : Int) :
    ordinal (civil days).1 (civil days).2.1 (civil days).2.2 = days ∧
      (1 ≤ (civil days).2.1 ∧ (civil days).2.1 ≤ 12) ∧
      1 ≤ (civil days).2.2 ∧ (civil days).2.2 ≤ daysInMonth (civil days).1 (civil days).2.1 := by
  obtain ⟨era, yoe, doy, hyoe, hdoy, hleap, hdays, hcivil⟩ := civil_eq days
  obtain ⟨hmp, hday, hlength⟩ := monthOfYear hdoy
  rw [hcivil]
  simp only
  generalize (5 * doy + 2) / 153 = mp at *
  refine ⟨?_, ?_, ?_, ?_⟩
  · have hyear : ∀ one : Int, (yoe : Int) + era * 400 + one - one = yoe + era * 400 := by
      intro one
      omega
    have hera : ((yoe : Int) + era * 400) / 400 = era := by omega
    have hmod : ((yoe : Int) + era * 400) % 400 = yoe := by omega
    simp only [ordinal, fromMarch, yearStart] at *
    interval_cases mp <;> simp [hera, hmod] <;> omega
  · simp only [fromMarch]
    split <;> omega
  · omega
  · have hfebruary : 28 ≤ daysInMonth ((yoe : Int) + era * 400 + 1) 2 ∧
        (doy = 365 → daysInMonth ((yoe : Int) + era * 400 + 1) 2 = 29) := by
      simp only [daysInMonth, if_true]
      constructor
      · split <;> omega
      · intro hlast
        have hyear := hleap hlast
        rw [if_pos]
        omega
    have hmonths : ∀ m, m ≠ 2 → ∀ year, daysInMonth year m =
        if m = 4 ∨ m = 6 ∨ m = 9 ∨ m = 11 then 30 else 31 := fun m hm year => by
      rw [daysInMonth, if_neg hm]
    by_cases hmp11 : mp = 11
    · subst hmp11
      have hlast : doy - 337 < 29 := hlength
      show doy - 337 + 1 ≤ daysInMonth ((yoe : Int) + era * 400 + 1) 2
      omega
    · rw [hmonths _ (by simp only [fromMarch]; split <;> omega)]
      simp only [fromMarch]
      interval_cases mp <;> simp at hlength ⊢ <;> omega

theorem civil_year {days : Int} (h : 0 ≤ days) (h' : days < dayCount) :
    1 ≤ (civil days).1 ∧ (civil days).1 ≤ 9999 := by
  obtain ⟨era, yoe, doy, hyoe, hdoy, -, hdays, hcivil⟩ := civil_eq days
  obtain ⟨hmp, hday, -⟩ := monthOfYear hdoy
  rw [hcivil]
  simp only [dayCount, fromMarch, yearStart] at *
  constructor
  · split <;> split at * <;> omega
  · split <;> split at * <;> omega

/-! ## Reading what was written -/

theorem toList_padded (width n : Nat) : (padded width n).toList =
    List.replicate (width - (Nat.toDigits 10 n).length) '0' ++ Nat.toDigits 10 n := by
  have hlength : n.repr.length = (Nat.toDigits 10 n).length := by
    rw [← String.length_toList, Nat.toList_repr]
  simp [padded, String.toList_append, hlength]

theorem isDigit_of_mem_padded {width n : Nat} {c : Char} (hc : c ∈ (padded width n).toList) :
    c.isDigit = true := by
  rw [toList_padded, List.mem_append] at hc
  rcases hc with hzero | hdigit
  · rw [List.eq_of_mem_replicate hzero]
    decide
  · exact Nat.isDigit_of_mem_toDigits (by decide) (by decide) hdigit

theorem length_padded {width n : Nat} (hwidth : 0 < width) (hn : n < 10 ^ width) :
    (padded width n).toList.length = width := by
  have hle := (Nat.length_toDigits_le_iff (by decide : 1 < 10) hwidth).2 hn
  rw [toList_padded, List.length_append, List.length_replicate]
  omega

/-- The digits of a number, from the first. -/
theorem foldl_padded (width n : Nat) :
    (padded width n).toList.foldl (fun n c => 10 * n + (c.toNat - 48)) 0 = n := by
  have hdigits : Nat.ofDigitChars 10 (padded width n).toList 0 = n := by
    rw [toList_padded, Nat.ofDigitChars_append, Nat.ofDigitChars_replicate_zero, Nat.mul_zero,
      Nat.ofDigitChars_ten_toDigits]
  rwa [Nat.ofDigitChars_eq_foldl] at hdigits

/-- **A number with leading zeros is read back.** -/
theorem takeNumber_padded {width n : Nat} (rest : List Char) (hwidth : 0 < width)
    (hn : n < 10 ^ width) : takeNumber width ((padded width n).toList ++ rest) = some (n, rest) := by
  have hlength := length_padded hwidth hn
  have htake : ((padded width n).toList ++ rest).take width = (padded width n).toList := by
    rw [List.take_append_of_le_length (by omega), List.take_of_length_le (by omega)]
  have hdrop : ((padded width n).toList ++ rest).drop width = rest := by
    rw [List.drop_append_of_le_length (by omega), List.drop_of_length_le (by omega), List.nil_append]
  have hall : (padded width n).toList.all Char.isDigit = true :=
    List.all_eq_true.2 fun c hc => isDigit_of_mem_padded hc
  rw [takeNumber, htake, hdrop]
  simp only [hlength, hall, and_self, if_true, foldl_padded]

/-- The digits of a text are the number's, where no digit follows. -/
theorem takeWhile_padded (width n : Nat) {rest : List Char}
    (hrest : ∀ c ∈ rest.head?, c.isDigit = false) :
    ((padded width n).toList ++ rest).takeWhile Char.isDigit = (padded width n).toList := by
  rw [List.takeWhile_append_of_pos fun c hc => isDigit_of_mem_padded hc]
  cases rest with
  | nil => simp
  | cons c rest => simp [hrest c rfl]

/-- A fraction of six digits is read back. -/
theorem takeFraction_padded {n : Nat} {rest : List Char} (hn : n < 10 ^ 6)
    (hrest : ∀ c ∈ rest.head?, c.isDigit = false) :
    takeFraction ((padded 6 n).toList ++ rest) = some (n, rest) := by
  have hlength : (padded 6 n).toList.length = 6 := length_padded (by decide) hn
  have hne : (padded 6 n).toList ≠ [] := by
    intro hnil
    simp [hnil] at hlength
  have htake : (padded 6 n).toList.take 6 = (padded 6 n).toList :=
    List.take_of_length_le (by omega)
  simp only [takeFraction, takeWhile_padded 6 n hrest, if_neg hne, htake, foldl_padded]
  simp [hlength]

/-- The hours, minutes, seconds and microseconds of a span. -/
def clockOf (micros : Nat) : Clock :=
  (micros / 1000000 / 3600, micros / 1000000 / 60 % 60, micros / 1000000 % 60, micros % 1000000)

theorem micros_clockOf (micros : Nat) : (clockOf micros).micros = micros := by
  simp only [clockOf, Clock.micros]
  omega

/-- **A clock is read back**, with its seconds and its fraction or without. -/
theorem parseClock_clockText {micros : Nat} (full : Bool) (hmicros : micros < 86400 * 1000000) :
    parseClock (clockText micros full).toList = some (clockOf micros) := by
  have hhour : ∀ tail, takeNumber 2 ((padded 2 (micros / 1000000 / 3600)).toList ++ tail) =
      some (micros / 1000000 / 3600, tail) := fun tail => takeNumber_padded tail (by decide) (by omega)
  have hminute : ∀ tail, takeNumber 2 ((padded 2 (micros / 1000000 / 60 % 60)).toList ++ tail) =
      some (micros / 1000000 / 60 % 60, tail) := fun tail => takeNumber_padded tail (by decide) (by omega)
  have hsecond : ∀ tail, takeNumber 2 ((padded 2 (micros / 1000000 % 60)).toList ++ tail) =
      some (micros / 1000000 % 60, tail) := fun tail => takeNumber_padded tail (by decide) (by omega)
  have hlastMinute := hminute []
  have hlastSecond := hsecond []
  have hmicro : takeFraction ((padded 6 (micros % 1000000)).toList ++ []) =
      some (micros % 1000000, []) :=
    takeFraction_padded (by omega) fun c hc => by cases hc
  rw [List.append_nil] at hlastMinute hlastSecond hmicro
  by_cases hfraction : micros % 1000000 = 0
  · by_cases hshown : full = true ∨ ¬ micros / 1000000 % 60 = 0
    · have htext : (clockText micros full).toList =
          (padded 2 (micros / 1000000 / 3600)).toList ++ ':' ::
            ((padded 2 (micros / 1000000 / 60 % 60)).toList ++ ':' ::
              (padded 2 (micros / 1000000 % 60)).toList) := by
        simp [clockText, hfraction, hshown]
      rw [htext]
      simp [parseClock, takeSeparator, takeChar, hhour, hminute, hlastSecond, clockOf, hfraction]
    · have htext : (clockText micros full).toList =
          (padded 2 (micros / 1000000 / 3600)).toList ++ ':' ::
            (padded 2 (micros / 1000000 / 60 % 60)).toList := by
        simp [clockText, hfraction, hshown]
      rw [not_or, not_not] at hshown
      rw [htext]
      simp [parseClock, takeSeparator, takeChar, hhour, hlastMinute, clockOf, hfraction, hshown.2]
  · have htext : (clockText micros full).toList =
        (padded 2 (micros / 1000000 / 3600)).toList ++ ':' ::
          ((padded 2 (micros / 1000000 / 60 % 60)).toList ++ ':' ::
            ((padded 2 (micros / 1000000 % 60)).toList ++ '.' ::
              (padded 6 (micros % 1000000)).toList)) := by
      simp [clockText, hfraction]
    rw [htext]
    simp [parseClock, takeSeparator, takeChar, hhour, hminute, hsecond, hmicro, clockOf]

/-- `YYYY-MM-DDT`, the date of a wall clock. -/
def dateText (wall : Int) : String :=
  let (year, month, day) := civil (wall / microsPerDay)
  padded 4 year.toNat ++ "-" ++ padded 2 month ++ "-" ++ padded 2 day ++ "T"

/-- The offset as `isoformat` writes it. -/
def offsetText : Option Int → String
  | none => ""
  | some offset => (if offset < 0 then "-" else "+") ++ clockText offset.natAbs false

theorem isoformat_eq (d : DateTime) : d.isoformat =
    dateText d.wall ++ (clockText (d.wall % microsPerDay).toNat true ++ offsetText d.utcoffset) := by
  unfold isoformat dateText offsetText
  rcases d.utcoffset with _ | offset <;> simp [String.append_assoc]

/-- The calendar date at the head of a text, and what follows it. -/
def takeDate (cs : List Char) : Option (Int × List Char) := do
  let (year, cs) ← takeNumber 4 cs
  let cs ← takeChar '-' cs
  let (month, cs) ← takeNumber 2 cs
  let cs ← takeChar '-' cs
  let (day, cs) ← takeNumber 2 cs
  if year = 0 ∨ month = 0 ∨ 12 < month ∨ day = 0 ∨ daysInMonth year month < day then none
  some (ordinal year month day, cs)

/-- **A date is read back.** -/
theorem takeDate_dateText {wall : Int} (hwall : Representable wall) (rest : List Char) :
    takeDate ((dateText wall).toList ++ rest) = some (wall / microsPerDay, 'T' :: rest) := by
  obtain ⟨hdays, hlast⟩ : 0 ≤ wall / microsPerDay ∧ wall / microsPerDay < dayCount := by
    obtain ⟨hlow, hhigh⟩ := hwall
    simp only [dayCount, microsPerDay, microsPerSecond] at *
    omega
  obtain ⟨hnames, hmonth, hday⟩ := ordinal_civil (wall / microsPerDay)
  obtain ⟨hyear, hyear'⟩ := civil_year hdays hlast
  unfold dateText
  generalize civil (wall / microsPerDay) = date at *
  obtain ⟨year, month, day⟩ := date
  obtain ⟨y, rfl⟩ : ∃ y : Nat, year = y := ⟨year.toNat, by omega⟩
  simp only [Int.toNat_natCast] at *
  have hlength : daysInMonth y month ≤ 31 := by
    unfold daysInMonth
    split_ifs <;> omega
  have htext : (padded 4 y ++ "-" ++ padded 2 month ++ "-" ++ padded 2 day ++ "T").toList ++ rest =
      (padded 4 y).toList ++ '-' :: ((padded 2 month).toList ++ '-' ::
        ((padded 2 day).toList ++ 'T' :: rest)) := by
    simp
  have hnever : ¬ (y = 0 ∨ month = 0 ∨ 12 < month ∨ day = 0 ∨ daysInMonth y month < day) := by
    omega
  rw [htext]
  simp [takeDate, takeChar, takeNumber_padded _ (by decide : 0 < 4) (show y < 10 ^ 4 by omega),
    takeNumber_padded _ (by decide : 0 < 2) (show month < 10 ^ 2 by omega),
    takeNumber_padded _ (by decide : 0 < 2) (show day < 10 ^ 2 by omega), hnever, hnames]

/-- A number that was read stands before what is left, whatever that is. -/
theorem takeNumber_split {width n : Nat} {cs rest : List Char}
    (h : takeNumber width cs = some (n, rest)) : ∃ digits, cs = digits ++ rest ∧
      digits.length = width ∧ (∀ c ∈ digits, c.isDigit = true) ∧
      ∀ tail, takeNumber width (digits ++ tail) = some (n, tail) := by
  unfold takeNumber at h
  dsimp only at h
  split_ifs at h with hdigits
  obtain ⟨hlength, hall⟩ := hdigits
  obtain ⟨hn, hrest⟩ := Prod.mk.inj (Option.some.inj h)
  refine ⟨cs.take width, by rw [← hrest, List.take_append_drop], hlength, List.all_eq_true.1 hall,
    fun tail => ?_⟩
  have htake : (cs.take width ++ tail).take width = cs.take width := List.take_left' hlength
  have hdrop : (cs.take width ++ tail).drop width = tail := List.drop_left' hlength
  unfold takeNumber
  rw [htake, hdrop, if_pos ⟨hlength, hall⟩, hn]

theorem takeChar_eq_some {c : Char} {cs rest : List Char} :
    takeChar c cs = some rest ↔ cs = c :: rest := by
  cases cs with
  | nil => simp [takeChar]
  | cons d cs => simp [takeChar]

/-- A calendar date at the head of a text is the date `fromisoformat` reads
there. -/
theorem parseDate_of_takeDate {cs rest : List Char} {days : Int}
    (h : takeDate cs = some (days, rest)) :
    parseDate (cs.take (dateLength cs)) = some days ∧ cs.drop (dateLength cs) = rest := by
  unfold takeDate at h
  simp only [bind, Option.bind_eq_some_iff] at h
  obtain ⟨⟨year, afterYear⟩, hyear, h⟩ := h
  obtain ⟨afterDash, hdash, ⟨month, afterMonth⟩, hmonth, h⟩ := h
  obtain ⟨afterDash', hdash', ⟨day, afterDay⟩, hday, h⟩ := h
  simp only at h hdash hmonth hdash' hday
  by_cases hvalid : year = 0 ∨ month = 0 ∨ 12 < month ∨ day = 0 ∨ daysInMonth year month < day
  · rw [if_pos hvalid] at h
    cases h
  rw [if_neg hvalid] at h
  obtain ⟨rfl, rfl⟩ : ordinal year month day = days ∧ afterDay = rest := by simpa [pure] using h
  obtain ⟨years, rfl, hyears, -, hreadYear⟩ := takeNumber_split hyear
  obtain rfl := takeChar_eq_some.1 hdash
  obtain ⟨months, rfl, hmonths, hdigits, hreadMonth⟩ := takeNumber_split hmonth
  obtain rfl := takeChar_eq_some.1 hdash'
  obtain ⟨dates, rfl, hdates, -, hreadDay⟩ := takeNumber_split hday
  obtain ⟨tens, ones, rfl⟩ := List.length_eq_two.1 hmonths
  -- no week date: a digit follows the dash
  have hweek : tens ≠ 'W' := by
    rintro rfl
    exact absurd (hdigits 'W' List.mem_cons_self) (by decide)
  have hlength : dateLength (years ++ '-' :: ([tens, ones] ++ '-' :: (dates ++ afterDay))) = 10 := by
    have hlong : (years ++ '-' :: ([tens, ones] ++ '-' :: (dates ++ afterDay))).length ≠ 7 := by
      simp only [List.length_append, List.length_cons, List.length_nil]
      omega
    have hfourth : (years ++ '-' :: ([tens, ones] ++ '-' :: (dates ++ afterDay)))[4]? = some '-' := by
      rw [List.getElem?_append_right (by omega), hyears]
      rfl
    have hfifth : (years ++ '-' :: ([tens, ones] ++ '-' :: (dates ++ afterDay)))[5]? = some tens := by
      rw [List.getElem?_append_right (by omega), hyears]
      rfl
    rw [dateLength, if_neg hlong, if_pos hfourth, hfifth, if_neg (by simpa using hweek)]
  have hparts : years ++ '-' :: ([tens, ones] ++ '-' :: (dates ++ afterDay)) =
      (years ++ '-' :: ([tens, ones] ++ '-' :: dates)) ++ afterDay := by simp
  have hten : (years ++ '-' :: ([tens, ones] ++ '-' :: dates)).length = 10 := by
    simp [hyears, hdates]
  rw [hlength, hparts, List.take_left' hten, List.drop_left' hten]
  have hlast := hreadDay []
  rw [List.append_nil] at hlast
  refine ⟨?_, rfl⟩
  have hyear' := hreadYear ('-' :: ([tens, ones] ++ '-' :: dates))
  have hmonth' := hreadMonth ('-' :: dates)
  simp only [List.cons_append, List.nil_append] at hyear' hmonth'
  simp [parseDate, takeSeparator, takeChar, hyear', hmonth', hlast, hweek, hvalid]

/-- A wall clock is a day and a time of that day. -/
theorem day_and_clock (wall : Int) : (wall % microsPerDay).toNat < 86400 * 1000000 ∧
    wall / microsPerDay * microsPerDay + max (wall % microsPerDay) 0 = wall := by
  simp only [microsPerDay, microsPerSecond]
  omega

/-- The characters of a clock. -/
theorem mem_clockText {micros : Nat} {full : Bool} {c : Char}
    (hc : c ∈ (clockText micros full).toList) : c.isDigit = true ∨ c = ':' ∨ c = '.' := by
  have hdigit : ∀ width n, c ∈ (padded width n).toList → c.isDigit = true ∨ c = ':' ∨ c = '.' :=
    fun _ _ h => .inl (isDigit_of_mem_padded h)
  simp only [clockText, String.toList_append, List.mem_append] at hc
  rcases hc with ((hc | hc) | hc) | hc
  · rcases hc with hc | hc
    · exact hdigit _ _ hc
    · exact .inr (.inl (by simpa using hc))
  · exact hdigit _ _ hc
  · split_ifs at hc
    · rcases List.mem_append.1 (String.toList_append ▸ hc) with hc | hc
      · exact .inr (.inl (by simpa using hc))
      · exact hdigit _ _ hc
    · cases hc
  · split_ifs at hc
    · rcases List.mem_append.1 (String.toList_append ▸ hc) with hc | hc
      · exact .inr (.inr (by simpa using hc))
      · exact hdigit _ _ hc
    · cases hc

/-- No clock has a sign or a `Z`. -/
theorem not_sign_of_mem_clockText {micros : Nat} {full : Bool} {c : Char}
    (hc : c ∈ (clockText micros full).toList) : c ≠ '+' ∧ c ≠ '-' ∧ c ≠ 'Z' := by
  rcases mem_clockText hc with hdigit | rfl | rfl
  · refine ⟨?_, ?_, ?_⟩ <;> · rintro rfl; revert hdigit; decide
  · decide
  · decide

/-- The clock ends where the offset begins. -/
theorem span_clockText (micros : Nat) (offset : Option Int) :
    ((clockText micros true).toList ++ (offsetText offset).toList).takeWhile
        (fun c : Char => c ≠ '+' ∧ c ≠ '-' ∧ c ≠ 'Z') = (clockText micros true).toList ∧
      ((clockText micros true).toList ++ (offsetText offset).toList).dropWhile
        (fun c : Char => c ≠ '+' ∧ c ≠ '-' ∧ c ≠ 'Z') = (offsetText offset).toList := by
  have hclock : ∀ c ∈ (clockText micros true).toList,
      decide (c ≠ '+' ∧ c ≠ '-' ∧ c ≠ 'Z') = true := fun c hc =>
    decide_eq_true (not_sign_of_mem_clockText hc)
  rw [List.takeWhile_append_of_pos hclock, List.dropWhile_append_of_pos hclock]
  rcases offset with _ | offset
  · simp [offsetText]
  · by_cases hneg : offset < 0 <;> simp [offsetText, hneg]

/-- An offset of less than a day is read back. -/
theorem parseOffset_offsetText {utcoffset : Option Int}
    (h : ∀ offset ∈ utcoffset, offset.natAbs < 86400 * 1000000) :
    parseOffset (offsetText utcoffset).toList = some utcoffset := by
  rcases utcoffset with _ | offset
  · rfl
  have hday : ¬ 86400 * 1000000 ≤ offset.natAbs := not_le.2 (h offset rfl)
  have hread := parseClock_clockText false (h offset rfl)
  have hparse : ∀ sign, sign ≠ 'Z' → parseOffset (sign :: (clockText offset.natAbs false).toList) =
      some (some (if sign = '-' then -(offset.natAbs : Int) else offset.natAbs)) := by
    intro sign hsign
    simp only [parseOffset, if_neg hsign, hread, bind, Option.bind, micros_clockOf, if_neg hday]
  by_cases hneg : offset < 0
  · have htext : (offsetText (some offset)).toList = '-' :: (clockText offset.natAbs false).toList := by
      simp [offsetText, hneg]
    have habs : -(offset.natAbs : Int) = offset := by omega
    rw [htext, hparse _ (by decide), if_pos rfl, habs]
  · have htext : (offsetText (some offset)).toList = '+' :: (clockText offset.natAbs false).toList := by
      simp [offsetText, hneg]
    have habs : (offset.natAbs : Int) = offset := by omega
    rw [htext, hparse _ (by decide), if_neg (by decide), habs]

/-- **A time is read back from its text**, its offset included. -/
theorem fromIsoformat_isoformat {d : DateTime} (hwall : Representable d.wall)
    (hoffset : ∀ offset ∈ d.utcoffset, offset.natAbs < 86400 * 1000000) :
    fromIsoformat d.isoformat = some d := by
  obtain ⟨hclock, hwhole⟩ := day_and_clock d.wall
  have hdate := takeDate_dateText hwall
    (clockText (d.wall % microsPerDay).toNat true ++ offsetText d.utcoffset).toList
  rw [← String.toList_append, ← isoformat_eq] at hdate
  obtain ⟨hparse, hdrop⟩ := parseDate_of_takeDate hdate
  have hsplit := span_clockText (d.wall % microsPerDay).toNat d.utcoffset
  have hread := parseClock_clockText true hclock
  have hshown : ¬ (23 < (clockOf (d.wall % microsPerDay).toNat).1 ∨
      59 < (clockOf (d.wall % microsPerDay).toNat).2.1 ∨
      59 < (clockOf (d.wall % microsPerDay).toNat).2.2.1) := by
    simp only [clockOf]
    omega
  simp only [fromIsoformat, hparse, hdrop, bind, Option.bind, String.toList_append, hsplit.1,
    hsplit.2, hread, parseOffset_offsetText hoffset]
  rw [if_neg hshown]
  show some (⟨_ + ((clockOf (d.wall % microsPerDay).toNat).micros : Int), d.utcoffset⟩ : DateTime) =
    some d
  rw [micros_clockOf, Int.toNat_eq_max, hwhole]

/-! ## With `Z` for the offset -/

theorem expandZ_append (a b : String) : expandZ (a ++ b) = expandZ a ++ expandZ b := by
  simp [expandZ]

/-- A text without `Z`. -/
def Plain (value : String) : Prop := ∀ c ∈ value.toList, c ≠ 'Z'

instance (value : String) : Decidable (Plain value) :=
  List.decidableBAll (fun c => c ≠ 'Z') value.toList

theorem Plain.append {a b : String} (ha : Plain a) (hb : Plain b) : Plain (a ++ b) := by
  intro c hc
  rw [String.toList_append, List.mem_append] at hc
  rcases hc with hc | hc
  · exact ha c hc
  · exact hb c hc

theorem Plain.expandZ {value : String} (h : Plain value) : DateTime.expandZ value = value := by
  have hsame : ∀ cs : List Char, (∀ c ∈ cs, c ≠ 'Z') →
      (cs.flatMap fun c => if c = 'Z' then ['+', '0', '0', ':', '0', '0'] else [c]) = cs := by
    intro cs
    induction cs with
    | nil => simp
    | cons c cs ih =>
      intro hcs
      rw [List.flatMap_cons, if_neg (hcs c (by simp)), ih fun d hd => hcs d (by simp [hd])]
      rfl
  rw [DateTime.expandZ, hsame _ h, String.ofList_toList]

theorem plain_padded (width n : Nat) : Plain (padded width n) := by
  intro c hc habsurd
  have hdigit := isDigit_of_mem_padded hc
  subst habsurd
  revert hdigit
  decide

theorem plain_clockText (micros : Nat) (full : Bool) : Plain (clockText micros full) :=
  fun _ hc => (not_sign_of_mem_clockText hc).2.2

theorem plain_dateText (wall : Int) : Plain (dateText wall) := by
  have hdash : Plain "-" := by decide
  have hseparator : Plain "T" := by decide
  unfold dateText
  exact ((((plain_padded _ _).append hdash).append (plain_padded _ _)).append hdash).append
    (plain_padded _ _) |>.append hseparator

theorem plain_isoformat (d : DateTime) : Plain d.isoformat := by
  have hplus : Plain "+" := by decide
  have hminus : Plain "-" := by decide
  have hempty : Plain "" := by decide
  rw [isoformat_eq]
  refine (plain_dateText _).append ((plain_clockText _ _).append ?_)
  rcases d.utcoffset with _ | offset
  · exact hempty
  · unfold offsetText
    refine Plain.append ?_ (plain_clockText _ _)
    split_ifs
    · exact hminus
    · exact hplus

theorem expandZ_isoformat (d : DateTime) : expandZ d.isoformat = d.isoformat :=
  (plain_isoformat d).expandZ

theorem expandZ_toPrimitive (d : DateTime) :
    expandZ d.toPrimitive = d.astimezoneUtc.isoformat := by
  have hzone : offsetText (some 0) = "+00:00" := by decide
  have hnone : offsetText none = "" := rfl
  rw [toPrimitive, expandZ_append, expandZ_isoformat, isoformat_eq, isoformat_eq]
  simp only [astimezoneUtc, utc, hzone, hnone, String.append_empty, String.append_assoc]
  rfl

/-- An instant a `datetime` can show is read back from its UTC text. -/
theorem fromIsoformat_utc {t : Instant} (ht : Representable t) :
    fromIsoformat (utc t).isoformat = some (utc t) := by
  refine fromIsoformat_isoformat ht fun offset hoffset => ?_
  cases hoffset
  decide

/-- **A canonical text names one instant.** -/
theorem toPrimitive_inj {a b : DateTime} (ha : Representable a.instant)
    (hb : Representable b.instant) : a.toPrimitive = b.toPrimitive ↔ a.instant = b.instant := by
  constructor
  · intro htext
    have hexpanded := congrArg expandZ htext
    rw [expandZ_toPrimitive, expandZ_toPrimitive] at hexpanded
    have hread := congrArg fromIsoformat hexpanded
    rw [astimezoneUtc, astimezoneUtc, fromIsoformat_utc ha, fromIsoformat_utc hb] at hread
    simpa [utc] using hread
  · intro hsame
    rw [toPrimitive, toPrimitive, astimezoneUtc, astimezoneUtc, hsame]

end DateTime

/-- **A stored time is read back**: what `isoformat` writes of an aware
time, `parse_time` reads as the same instant. -/
theorem parseTime_isoformat {d : DateTime} (hwall : DateTime.Representable d.wall)
    (hutc : DateTime.Representable d.instant) {offset : Int} (hoffset : d.utcoffset = some offset)
    (hday : offset.natAbs < 86400 * 1000000) : parseTime d.isoformat = .ok d.astimezoneUtc := by
  have hread : DateTime.fromIsoformat d.isoformat = some d := by
    refine DateTime.fromIsoformat_isoformat hwall fun o ho => ?_
    obtain rfl : offset = o := by simpa [hoffset] using ho
    exact hday
  have haware : d.naive = false := by simp [DateTime.naive, hoffset]
  simp [parseTime, DateTime.expandZ_isoformat, hread, haware, hutc]

/-- What `to_primitive` writes of a time, `parse_time` reads back. -/
theorem parseTime_toPrimitive {d : DateTime} (hutc : DateTime.Representable d.instant) :
    parseTime d.toPrimitive = .ok d.astimezoneUtc := by
  have hread : DateTime.fromIsoformat d.astimezoneUtc.isoformat = some d.astimezoneUtc :=
    DateTime.fromIsoformat_utc hutc
  simp [parseTime, DateTime.expandZ_toPrimitive, hread, hutc]

end ArgoTwin
