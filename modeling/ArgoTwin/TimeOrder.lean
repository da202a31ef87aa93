import ArgoTwin.Library.TextOrder
import ArgoTwin.TimeText
/-!
# Times compared as texts

The store compares its time columns as text. On UTC times of the calendar
the texts are in the order of the instants: the fields stand from the
largest to the smallest at a fixed width, and a time without microseconds
goes on with `+`, which comes before the `.` of one that has them.
-/

namespace ArgoTwin

namespace DateTime

open Library

variable {width a b : Nat} {x y : List Char}

/-- The smaller number comes first. -/
theorem below_padded (hwidth : 0 < width) (ha : a < 10 ^ width) (hb : b < 10 ^ width)
    (h : a < b) : Below ((padded width a).toList ++ x) ((padded width b).toList ++ y) := by
  have hlength : (padded width a).toList.length = (padded width b).toList.length := by
    rw [length_padded hwidth ha, length_padded hwidth hb]
  have hdigits := below_of_digits (n := 0) (m := 0) hlength
    (fun c hc => isDigit_of_mem_padded hc) (fun c hc => isDigit_of_mem_padded hc)
  rw [foldl_padded, foldl_padded] at hdigits
  rcases hdigits h with hlt | ⟨-, hbelow⟩
  · exact absurd hlt (Nat.lt_irrefl 0)
  · exact hbelow.append_right x y

/-- The day of a year counted from March, as month and day of the calendar
with the January and February of the next year past the others. -/
def dayKey (doy : Nat) : Nat :=
  let month := fromMarch ((5 * doy + 2) / 153)
  (if month ≤ 2 then 10000 else 0) + month * 100 +
    (doy - (153 * ((5 * doy + 2) / 153) + 2) / 5 + 1)

theorem dayKey_lt {d d' : Nat} (hd' : d' < 366) (h : d < d') :
    dayKey d < dayKey d' ∧ 301 ≤ dayKey d ∧ dayKey d' ≤ 10229 := by
  have hstep : ∀ d < 366, 301 ≤ dayKey d ∧ dayKey d ≤ 10229 ∧
      (d + 1 < 366 → dayKey d < dayKey (d + 1)) := by decide +kernel
  have hmono : ∀ n, d + n + 1 < 366 → dayKey d < dayKey (d + n + 1) := by
    intro n
    induction n with
    | zero => exact fun hn => (hstep d (by omega)).2.2 hn
    | succ n ih =>
      intro hn
      have hbefore := ih (by omega)
      have hlast := (hstep (d + n + 1) (by omega)).2.2 hn
      exact hbefore.trans hlast
  have hkey := hmono (d' - d - 1) (by omega)
  rw [show d + (d' - d - 1) + 1 = d' by omega] at hkey
  exact ⟨hkey, (hstep d (by omega)).1, (hstep d' hd').2.1⟩

theorem dayKey_bounds {d : Nat} (hd : d < 366) : 301 ≤ dayKey d ∧ dayKey d ≤ 10229 := by
  have hall : ∀ d < 366, 301 ≤ dayKey d ∧ dayKey d ≤ 10229 := by decide +kernel
  exact hall d hd

/-- **Later days have later dates.** -/
theorem civil_lt {m n : Int} (h : m < n) :
    (civil m).1 < (civil n).1 ∨ ((civil m).1 = (civil n).1 ∧
      ((civil m).2.1 < (civil n).2.1 ∨
        ((civil m).2.1 = (civil n).2.1 ∧ (civil m).2.2 < (civil n).2.2))) := by
  obtain ⟨⟨hmonth, hmonth'⟩, hday, hlength⟩ := (ordinal_civil m).2
  obtain ⟨⟨hmonthn, hmonthn'⟩, hdayn, hlengthn⟩ := (ordinal_civil n).2
  have hdays : ∀ year month, daysInMonth year month ≤ 31 := by
    intro year month
    unfold daysInMonth
    split_ifs <;> omega
  have hm31 := hlength.trans (hdays _ _)
  have hn31 := hlengthn.trans (hdays _ _)
  -- year, month and day as one number
  suffices hnumber : (civil m).1 * 10000 + (civil m).2.1 * 100 + (civil m).2.2 <
      (civil n).1 * 10000 + (civil n).2.1 * 100 + (civil n).2.2 by omega
  obtain ⟨era, yoe, doy, hyoe, hdoy, hleap, hera, hcivil⟩ := civil_eq m
  obtain ⟨era', yoe', doy', hyoe', hdoy', hleap', hera', hcivil'⟩ := civil_eq n
  have hkey : ∀ (era : Int) (yoe doy : Nat) (days : Int),
      civil days = ((yoe : Int) + era * 400 +
          (if fromMarch ((5 * doy + 2) / 153) ≤ 2 then 1 else 0),
        fromMarch ((5 * doy + 2) / 153), doy - (153 * ((5 * doy + 2) / 153) + 2) / 5 + 1) →
      (civil days).1 * 10000 + (civil days).2.1 * 100 + (civil days).2.2 =
        ((yoe : Int) + era * 400) * 10000 + (dayKey doy : Nat) := by
    intro era yoe doy days hdate
    rw [hdate, dayKey]
    simp only
    split <;> omega
  rw [hkey era yoe doy m hcivil, hkey era' yoe' doy' n hcivil']
  have hbounds := dayKey_bounds hdoy
  have hbounds' := dayKey_bounds hdoy'
  by_cases hyear : (yoe : Int) + era * 400 = yoe' + era' * 400
  · have hlt : doy < doy' := by
      obtain ⟨rfl, rfl⟩ : era = era' ∧ yoe = yoe' := by omega
      omega
    have hkeys := dayKey_lt hdoy' hlt
    omega
  · have hlt : (yoe : Int) + era * 400 < yoe' + era' * 400 := by
      simp only [yearStart] at *
      by_contra hnot
      have hlater : era' < era ∨ (era' = era ∧ yoe' < yoe) := by omega
      rcases hlater with hlater | ⟨rfl, hlater⟩ <;> omega
    omega

variable {m n : Int}

/-- **Later dates are written later.** -/
theorem below_dateText (hm : Representable m) (hn : Representable n)
    (h : m / microsPerDay < n / microsPerDay) :
    Below ((dateText m).toList ++ x) ((dateText n).toList ++ y) := by
  have hrange : ∀ {w : Int}, Representable w → 0 ≤ w / microsPerDay ∧ w / microsPerDay < dayCount := by
    intro w ⟨hlow, hhigh⟩
    simp only [dayCount, microsPerDay, microsPerSecond] at *
    omega
  have hyear := civil_year (hrange hm).1 (hrange hm).2
  have hyear' := civil_year (hrange hn).1 (hrange hn).2
  have hmonth := (ordinal_civil (m / microsPerDay)).2
  have hmonth' := (ordinal_civil (n / microsPerDay)).2
  have hdays : ∀ year month, daysInMonth year month ≤ 31 := by
    intro year month
    unfold daysInMonth
    split_ifs <;> omega
  have hday := hmonth.2.2.trans (hdays _ _)
  have hday' := hmonth'.2.2.trans (hdays _ _)
  have hlt := civil_lt h
  unfold dateText
  generalize civil (m / microsPerDay) = date at *
  generalize civil (n / microsPerDay) = date' at *
  obtain ⟨year, month, day⟩ := date
  obtain ⟨year', month', day'⟩ := date'
  simp only at *
  simp only [String.toList_append, List.append_assoc]
  rcases hlt with hlt | ⟨rfl, hlt | ⟨rfl, hlt⟩⟩
  · exact below_padded (by decide) (by omega) (by omega) (by omega)
  · refine ((below_padded (by decide) (by omega) (by omega) hlt).append_left _).append_left _
  · refine Below.append_left (Below.append_left (Below.append_left (Below.append_left ?_ _) _) _) _
    exact below_padded (by decide) (by omega) (by omega) hlt

/-- **Later clocks are written later**, where what follows the earlier one
starts with a character before the point of a fraction. -/
theorem below_clockText {c : Char} (hc : c < '.') (ha : a < 86400 * 1000000)
    (hb : b < 86400 * 1000000) (h : a < b) :
    Below ((clockText a true).toList ++ c :: x) ((clockText b true).toList ++ y) := by
  have htext : ∀ micros, (clockText micros true).toList =
      (padded 2 (micros / 1000000 / 3600)).toList ++ ([':'] ++
        ((padded 2 (micros / 1000000 / 60 % 60)).toList ++ ([':'] ++
          ((padded 2 (micros / 1000000 % 60)).toList ++
            if micros % 1000000 = 0 then [] else ['.'] ++ (padded 6 (micros % 1000000)).toList)))) := by
    intro micros
    by_cases hfraction : micros % 1000000 = 0 <;> simp [clockText, hfraction]
  rw [htext, htext]
  simp only [List.append_assoc]
  by_cases hhour : a / 1000000 / 3600 = b / 1000000 / 3600
  swap
  · exact below_padded (by decide) (by omega) (by omega) (by omega)
  rw [hhour]
  refine Below.append_left (Below.append_left ?_ _) _
  by_cases hminute : a / 1000000 / 60 % 60 = b / 1000000 / 60 % 60
  swap
  · exact below_padded (by decide) (by omega) (by omega) (by omega)
  rw [hminute]
  refine Below.append_left (Below.append_left ?_ _) _
  by_cases hsecond : a / 1000000 % 60 = b / 1000000 % 60
  swap
  · exact below_padded (by decide) (by omega) (by omega) (by omega)
  rw [hsecond]
  refine Below.append_left ?_ _
  -- the same second: the later one has a fraction
  have hfraction : a % 1000000 < b % 1000000 := by omega
  rw [if_neg (by omega : ¬ b % 1000000 = 0)]
  by_cases hwhole : a % 1000000 = 0
  · rw [if_pos hwhole, List.nil_append, List.append_assoc, List.singleton_append]
    exact below_of_char hc
  · rw [if_neg hwhole, List.append_assoc, List.append_assoc]
    exact (below_padded (by decide) (by omega) (by omega) hfraction).append_left ['.']

variable {t u offset : Int} {d e : DateTime}

theorem toList_isoformat (d : DateTime) : d.isoformat.toList = (dateText d.wall).toList ++
    ((clockText (d.wall % microsPerDay).toNat true).toList ++ (offsetText d.utcoffset).toList) := by
  rw [isoformat_eq, String.toList_append, String.toList_append]

/-- An offset starts with its sign, which comes before the point. -/
theorem offsetText_cons (offset : Int) :
    ∃ c x, (offsetText (some offset)).toList = c :: x ∧ c < '.' := by
  by_cases hsign : offset < 0
  · exact ⟨'-', (clockText offset.natAbs false).toList, by simp [offsetText, hsign], by decide⟩
  · exact ⟨'+', (clockText offset.natAbs false).toList, by simp [offsetText, hsign], by decide⟩

/-- **Later wall clocks are written later**, whatever the offsets. -/
theorem isoformat_lt_of_wall (hoffset : d.utcoffset = some offset) (hd : Representable d.wall)
    (he : Representable e.wall) (h : d.wall < e.wall) : d.isoformat < e.isoformat := by
  obtain ⟨c, x, htext, hc⟩ := offsetText_cons offset
  rw [String.lt_iff, toList_isoformat, toList_isoformat, hoffset, htext]
  have hclock : ∀ w : Int, (w % microsPerDay).toNat < 86400 * 1000000 := by
    intro w
    simp only [microsPerDay, microsPerSecond]
    omega
  by_cases hday : d.wall / microsPerDay = e.wall / microsPerDay
  · have hsame : dateText d.wall = dateText e.wall := by rw [dateText, dateText, hday]
    rw [hsame]
    refine (Below.append_left (below_clockText hc (hclock d.wall) (hclock e.wall) ?_) _).lt
    simp only [microsPerDay, microsPerSecond] at *
    omega
  · have hlt : d.wall / microsPerDay < e.wall / microsPerDay := by
      simp only [microsPerDay, microsPerSecond] at *
      omega
    exact (below_dateText hd he hlt).lt

/-- **Later times are written later.** -/
theorem isoformat_lt (ht : Representable t) (hu : Representable u) (h : t < u) :
    (utc t).isoformat < (utc u).isoformat := isoformat_lt_of_wall rfl ht hu h

/-- The offset of UTC is written first of all offsets. -/
theorem utc_offsetText_lt (hne : offset ≠ 0) (hday : offset.natAbs < 86400 * 1000000) :
    (offsetText (some 0)).toList < (offsetText (some offset)).toList := by
  have hzero : (offsetText (some 0)).toList = '+' :: "00:00".toList := by decide
  by_cases hsign : offset < 0
  · have hminus : (offsetText (some offset)).toList =
        '-' :: (clockText offset.natAbs false).toList := by simp [offsetText, hsign]
    rw [hzero, hminus]
    exact (below_of_char (by decide)).lt
  have hplus : (offsetText (some offset)).toList =
      '+' :: (clockText offset.natAbs false).toList := by simp [offsetText, hsign]
  have hpositive : 0 < offset.natAbs := by omega
  rw [hzero, hplus, List.cons_lt_cons_iff]
  refine .inr ⟨rfl, ?_⟩
  generalize offset.natAbs = micros at *
  have hmidnight : "00:00".toList =
      (padded 2 0).toList ++ ([':'] ++ ((padded 2 0).toList ++ [])) := by decide
  have hclock : (clockText micros false).toList = (padded 2 (micros / 1000000 / 3600)).toList ++
      ([':'] ++ ((padded 2 (micros / 1000000 / 60 % 60)).toList ++
        ((if micros / 1000000 % 60 ≠ 0 ∨ micros % 1000000 ≠ 0 then
            ':' :: (padded 2 (micros / 1000000 % 60)).toList else []) ++
          if micros % 1000000 ≠ 0 then '.' :: (padded 6 (micros % 1000000)).toList else []))) := by
    by_cases hseconds : micros / 1000000 % 60 = 0 <;>
      by_cases hfraction : micros % 1000000 = 0 <;> simp [clockText, hseconds, hfraction]
  rw [hmidnight, hclock]
  by_cases hhours : micros / 1000000 / 3600 = 0
  swap
  · exact (below_padded (by decide) (by decide) (by omega) (by omega)).lt
  rw [hhours]
  refine List.append_left_lt (List.append_left_lt ?_)
  by_cases hminutes : micros / 1000000 / 60 % 60 = 0
  swap
  · exact (below_padded (by decide) (by decide) (by omega) (by omega)).lt
  rw [hminutes]
  refine List.append_left_lt ?_
  -- less than a minute, so the seconds are written
  have hrest : micros / 1000000 % 60 ≠ 0 ∨ micros % 1000000 ≠ 0 := by omega
  rw [if_pos hrest]
  exact List.nil_lt_cons _ _

/-- **A time of UTC against any other time**: the texts compare the wall
clocks, and at the same wall clock UTC comes first. -/
theorem utc_isoformat_lt_iff (ht : Representable t) (hd : Representable d.wall)
    (hoffset : d.utcoffset = some offset) (hday : offset.natAbs < 86400 * 1000000) :
    (utc t).isoformat < d.isoformat ↔ t < d.wall ∨ (t = d.wall ∧ offset ≠ 0) := by
  rcases lt_trichotomy t d.wall with hlt | rfl | hgt
  · exact iff_of_true (isoformat_lt_of_wall (d := utc t) rfl ht hd hlt) (.inl hlt)
  · by_cases hzero : offset = 0
    · subst hzero
      have hsame : d = utc d.wall := by
        cases d
        simp only at hoffset
        rw [hoffset]
        rfl
      refine iff_of_false ?_ (by omega)
      rw [← hsame]
      exact String.lt_irrefl _
    · refine iff_of_true ?_ (.inr ⟨rfl, hzero⟩)
      rw [String.lt_iff, toList_isoformat, toList_isoformat, hoffset]
      exact List.append_left_lt (List.append_left_lt (utc_offsetText_lt hzero hday))
  · refine iff_of_false ?_ (by omega)
    exact String.lt_asymm (isoformat_lt_of_wall hoffset hd ht hgt)

/-- **The order of the texts is the order of the instants.** -/
theorem isoformat_le_iff (ht : Representable t) (hu : Representable u) :
    (utc t).isoformat ≤ (utc u).isoformat ↔ t ≤ u := by
  constructor
  · intro hle
    by_contra hnot
    have hlt := isoformat_lt hu ht (not_le.1 hnot)
    exact String.not_lt.2 hle hlt
  · intro hle
    rcases lt_or_eq_of_le hle with hlt | rfl
    · exact String.not_lt.1 (String.lt_asymm (isoformat_lt ht hu hlt))
    · exact String.not_lt.1 (String.lt_irrefl _)

end DateTime

end ArgoTwin
