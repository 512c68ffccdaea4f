import MerkleDir.FileSystem.TimeRange
import MerkleDir.Proofs.Hashing.TimestampText
import MerkleDir.Report.Calendar

/-!
# Calendar times told apart

A date is a day of a year that starts in March, and the number of days since 1970 can be read back
from it. So the calendar covers one stretch of days, and within it no two times have one text.
-/
namespace MerkleDir.Calendar

def daysBefore (yearOfEra : Nat) : Nat := 365 * yearOfEra + yearOfEra / 4 - yearOfEra / 100

/-- The date of a day of a year that starts in March. -/
def ofMarch (year : Int) (dayOfYear : Nat) : Date :=
  let monthFromMarch := (5 * dayOfYear + 2) / 153
  let day := dayOfYear - (153 * monthFromMarch + 2) / 5 + 1
  let month := if monthFromMarch < 10 then monthFromMarch + 3 else monthFromMarch - 9
  ⟨year + (if month ≤ 2 then 1 else 0), month, day⟩

/-- Within the first hundred years of a century there is a leap year in four, and 24 before each
century. -/
theorem yearOfCentury_bounds {century day skipped year : Nat} (hcentury : century < 4)
    (hday : day < 36524) (hskipped : skipped = (24 * century + day) / 1460)
    (hyear : year = (day - skipped) / 365) :
    year < 100 ∧ 365 * year + year / 4 ≤ day ∧ day ≤ 365 * year + year / 4 + 365 := by
  have hquarter : year / 4 = (day - skipped) / 1460 := by omega
  -- The four-year cycle of a day is that of the year, unless the leap day has moved it back.
  by_cases hback : day % 1460 < skipped
  · have hcycle : year / 4 = day / 1460 - 1 := by omega
    omega
  · have hcycle : year / 4 = day / 1460 := by omega
    omega

theorem yearOfEra_bounds {day year : Nat} (hday : day < 146097)
    (hyear : year = (day - day / 1460 + day / 36524 - day / 146096) / 365) :
    year < 400 ∧ daysBefore year ≤ day ∧ day ≤ daysBefore year + 365 := by
  rcases Nat.lt_or_ge day 146096 with hlt | hge
  · have hcentury : day / 36524 < 4 := by omega
    have hcount : day - day / 1460 + day / 36524 - day / 146096 = 36500 * (day / 36524) +
        (day % 36524 - (24 * (day / 36524) + day % 36524) / 1460) := by omega
    obtain ⟨hlow, hmost, hleast⟩ := yearOfCentury_bounds hcentury (Nat.mod_lt day (by decide))
      rfl rfl
    rw [hcount] at hyear
    generalize (24 * (day / 36524) + day % 36524) / 1460 = skipped at *
    generalize hrest : (day % 36524 - skipped) / 365 = rest at *
    have hsum : year = 100 * (day / 36524) + rest := by omega
    have hhundred : year / 100 = day / 36524 := by omega
    have hquarter : year / 4 = 25 * (day / 36524) + rest / 4 := by omega
    rw [daysBefore, hhundred, hquarter]
    omega
  · obtain rfl : day = 146096 := by omega
    rw [hyear]
    decide

theorem exists_dateOfDays_eq (days : Int) : ∃ (era : Int) (yearOfEra dayOfYear : Nat),
    yearOfEra < 400 ∧ dayOfYear ≤ 365 ∧
      days + 719468 = 146097 * era + daysBefore yearOfEra + dayOfYear ∧
      dateOfDays days = ofMarch (era * 400 + yearOfEra) dayOfYear := by
  have hera : ((days + 719468) % 146097).toNat < 146097 := by omega
  obtain ⟨hyear, hstart, hend⟩ := yearOfEra_bounds hera rfl
  refine ⟨(days + 719468) / 146097, _, _, hyear, Nat.sub_le_iff_le_add'.mpr hend, ?_, rfl⟩
  omega

def daysOfDate (date : Date) : Int :=
  let year := date.year - (if date.month ≤ 2 then 1 else 0)
  let dayOfYear := (153 * ((date.month + 9) % 12) + 2) / 5 + (date.day - 1)
  146097 * (year / 400) + daysBefore (year % 400).toNat + dayOfYear - 719468

theorem ofMarch_month {year : Int} {dayOfYear : Nat} (hday : dayOfYear ≤ 365) :
    ((ofMarch year dayOfYear).month + 9) % 12 = (5 * dayOfYear + 2) / 153 ∧
      ((ofMarch year dayOfYear).month ≤ 2 ↔ 306 ≤ dayOfYear) := by
  simp only [ofMarch]
  split_ifs <;> omega

theorem ofMarch_year {year : Int} {dayOfYear : Nat} (hday : dayOfYear ≤ 365) :
    (ofMarch year dayOfYear).year = year + if 306 ≤ dayOfYear then 1 else 0 := by
  rw [← if_congr (@ofMarch_month year dayOfYear hday).2 rfl rfl]
  rfl

theorem daysOfDate_ofMarch {era : Int} {yearOfEra dayOfYear : Nat} (hyear : yearOfEra < 400)
    (hday : dayOfYear ≤ 365) : daysOfDate (ofMarch (era * 400 + yearOfEra) dayOfYear) =
      146097 * era + daysBefore yearOfEra + dayOfYear - 719468 := by
  have hyears : (ofMarch (era * 400 + yearOfEra) dayOfYear).year -
      (if (ofMarch (era * 400 + yearOfEra) dayOfYear).month ≤ 2 then 1 else 0) =
        era * 400 + yearOfEra := Int.add_sub_cancel _ _
  have hdays : (153 * ((5 * dayOfYear + 2) / 153) + 2) / 5 +
      ((ofMarch (era * 400 + yearOfEra) dayOfYear).day - 1) = dayOfYear := by
    simp only [ofMarch]
    omega
  have hera : (era * 400 + yearOfEra) / 400 = era := by omega
  have hrest : ((era * 400 + yearOfEra) % 400).toNat = yearOfEra := by omega
  simp only [daysOfDate, hyears, (ofMarch_month hday).1, hdays, hera, hrest]

theorem daysOfDate_dateOfDays (days : Int) : daysOfDate (dateOfDays days) = days := by
  obtain ⟨era, yearOfEra, dayOfYear, hyear, hday, hdays, hdate⟩ := exists_dateOfDays_eq days
  rw [hdate, daysOfDate_ofMarch hyear hday, ← hdays, Int.add_sub_cancel]

theorem dateOfDays_injective : Function.Injective dateOfDays :=
  Function.LeftInverse.injective daysOfDate_dateOfDays

theorem daysBefore_add_le {year year' : Nat} (h : year < year') :
    daysBefore year + 365 ≤ daysBefore year' := by
  -- Of the years with a leap day the centuries are every 25th.
  have hcentury (year : Nat) : year / 100 = year / 4 / 25 := by omega
  have hquarter : year / 4 ≤ year' / 4 := by omega
  rw [daysBefore, daysBefore, hcentury, hcentury]
  generalize year / 4 = leap at *
  generalize year' / 4 = leap' at *
  omega

theorem days_add_le_of_year_lt {era era' : Int} {year year' : Nat} (hyear : year < 400)
    (hyear' : year' < 400) (hlt : era * 400 + year < era' * 400 + year') :
    146097 * era + daysBefore year + 365 ≤ 146097 * era' + daysBefore year' := by
  rcases lt_or_eq_of_le (show era ≤ era' by omega) with hera | rfl
  · have hmost : daysBefore year ≤ 145731 := by rw [daysBefore]; omega
    omega
  · have hdays := daysBefore_add_le (show year < year' by omega)
    omega

/-- A year has begun after the 306 days from March to December of the year before. -/
theorem lt_year_iff (era : Int) {year : Nat} (hyear : year < 400) (days : Int) :
    era * 400 + year < (dateOfDays days).year ↔
      146097 * era + daysBefore year + 306 ≤ days + 719468 := by
  obtain ⟨era', year', dayOfYear, hyear', hday, hdays, hdate⟩ := exists_dateOfDays_eq days
  rw [hdate, ofMarch_year hday, hdays]
  rcases lt_trichotomy (era * 400 + year) (era' * 400 + year') with hlt | heq | hgt
  · have hstart := days_add_le_of_year_lt hyear hyear' hlt
    split_ifs <;> omega
  · obtain ⟨rfl, rfl⟩ : era = era' ∧ year = year' := by omega
    split_ifs <;> omega
  · have hstart := days_add_le_of_year_lt hyear' hyear hgt
    split_ifs <;> omega

theorem isInRange_dateOfDays_iff {days : Int} :
    isInRange (dateOfDays days) = true ↔ -96465292 ≤ days ∧ days ≤ 95026236 := by
  have hleast := @lt_year_iff (-656) 256 (by decide) days
  have hgreatest := @lt_year_iff 655 142 (by decide) days
  have hstart : daysBefore 256 = 93502 := rfl
  have hend : daysBefore 142 = 51864 := rfl
  rw [hstart] at hleast
  rw [hend] at hgreatest
  rw [isInRange, Bool.and_eq_true, decide_eq_true_eq, decide_eq_true_eq, leastYear, greatestYear]
  omega

section Text

open Timestamp (padLeft)

variable {s t : List Char} {c : Char}

/-- A number ends where no digit follows. -/
theorem padLeft_append_inj (hc : c.isDigit = false) {v w m n : Nat}
    (h : padLeft v (Nat.toDigits 10 m) ++ c :: s = padLeft w (Nat.toDigits 10 n) ++ c :: t) :
    m = n ∧ s = t := by
  have htake (w n : Nat) (t : List Char) :
      (padLeft w (Nat.toDigits 10 n) ++ c :: t).takeWhile Char.isDigit =
        padLeft w (Nat.toDigits 10 n) := by
    rw [List.takeWhile_append_of_pos fun _ => Timestamp.isDigit_of_mem_padLeft,
      List.takeWhile_cons_of_neg (Bool.eq_false_iff.mp hc), List.append_nil]
  have hdigits : padLeft v (Nat.toDigits 10 m) = padLeft w (Nat.toDigits 10 n) := by
    rw [← htake v m s, h, htake]
  rw [hdigits] at h
  exact ⟨Timestamp.padLeft_toDigits_inj hdigits, (List.cons.inj (List.append_cancel_left h)).2⟩

theorem padLeft_append_ne_cons (hc : c.isDigit = false) (w n : Nat) :
    padLeft w (Nat.toDigits 10 n) ++ s ≠ c :: t := by
  obtain ⟨d, digits, hdigits⟩ :=
    List.exists_cons_of_ne_nil (Timestamp.padLeft_toDigits_ne_nil w n)
  have hd : d.isDigit = true := Timestamp.isDigit_of_mem_padLeft (hdigits ▸ List.mem_cons_self)
  rw [hdigits, List.cons_append]
  intro h
  rw [(List.cons.inj h).1, hc] at hd
  cases hd

/-- A sign tells the years that have one from those of four digits, and early ones from late ones. -/
theorem yearText_append_inj {year year' : Int}
    (h : (yearText year).toList ++ '-' :: s = (yearText year').toList ++ '-' :: t) :
    year = year' ∧ s = t := by
  have hsigned (year : Int) (h : ¬ (0 ≤ year ∧ year ≤ 9999)) : (yearText year).toList =
      (if year < 0 then '-' else '+') :: padLeft 4 (Nat.toDigits 10 year.natAbs) := by
    rw [yearText, if_neg h, String.toList_append, Timestamp.decimals, String.toList_ofList]
    split_ifs <;> rfl
  have hplain (year : Int) (h : 0 ≤ year ∧ year ≤ 9999) :
      (yearText year).toList = padLeft 4 (Nat.toDigits 10 year.toNat) := by
    rw [yearText, if_pos h, Timestamp.decimals, String.toList_ofList]
  have hsign (year : Int) : (if year < 0 then '-' else '+').isDigit = false := by
    split_ifs <;> rfl
  by_cases hyear : 0 ≤ year ∧ year ≤ 9999 <;> by_cases hyear' : 0 ≤ year' ∧ year' ≤ 9999
  · rw [hplain year hyear, hplain year' hyear'] at h
    obtain ⟨heq, hrest⟩ := padLeft_append_inj rfl h
    exact ⟨by omega, hrest⟩
  · rw [hplain year hyear, hsigned year' hyear'] at h
    exact absurd h (padLeft_append_ne_cons (hsign year') _ _)
  · rw [hsigned year hyear, hplain year' hyear'] at h
    exact absurd h.symm (padLeft_append_ne_cons (hsign year) _ _)
  · rw [hsigned year hyear, hsigned year' hyear'] at h
    obtain ⟨hsame, hdigits⟩ := List.cons.inj h
    obtain ⟨heq, hrest⟩ := padLeft_append_inj rfl hdigits
    refine ⟨?_, hrest⟩
    split_ifs at hsame
    · omega
    · cases hsame
    · cases hsame
    · omega

theorem toList_render (date : Date) (secondOfDay nanos : Nat) :
    (render date secondOfDay nanos).toList = (yearText date.year).toList ++
      '-' :: (padLeft 2 (Nat.toDigits 10 date.month) ++
      '-' :: (padLeft 2 (Nat.toDigits 10 date.day) ++
      'T' :: (padLeft 2 (Nat.toDigits 10 (secondOfDay / 3600)) ++
      ':' :: (padLeft 2 (Nat.toDigits 10 (secondOfDay / 60 % 60)) ++
      ':' :: (padLeft 2 (Nat.toDigits 10 (secondOfDay % 60)) ++
      '.' :: (padLeft 9 (Nat.toDigits 10 nanos) ++ ['Z'])))))) := by
  simp [render, Timestamp.decimals]

/-- The date, the second of the day and the nanoseconds can be read back. -/
theorem render_inj {date date' : Date} {second second' nanos nanos' : Nat}
    (h : render date second nanos = render date' second' nanos') :
    date = date' ∧ second = second' ∧ nanos = nanos' := by
  have hlist := congrArg String.toList h
  rw [toList_render, toList_render] at hlist
  obtain ⟨hyear, hlist⟩ := yearText_append_inj hlist
  obtain ⟨hmonth, hlist⟩ := padLeft_append_inj rfl hlist
  obtain ⟨hday, hlist⟩ := padLeft_append_inj rfl hlist
  obtain ⟨hhour, hlist⟩ := padLeft_append_inj rfl hlist
  obtain ⟨hminute, hlist⟩ := padLeft_append_inj rfl hlist
  obtain ⟨hsecond, hlist⟩ := padLeft_append_inj rfl hlist
  obtain ⟨hnanos, -⟩ := padLeft_append_inj rfl hlist
  obtain ⟨year, month, day⟩ := date
  obtain ⟨year', month', day'⟩ := date'
  simp only at hyear hmonth hday
  exact ⟨by rw [hyear, hmonth, hday], by omega, hnanos⟩

end Text

/-- The seconds of the days from the first of the least year to the last of the greatest. -/
def Covers (t : Timestamp) : Prop := -8334601228800 ≤ t.seconds ∧ t.seconds ≤ 8210266876799

instance (t : Timestamp) : Decidable (Covers t) := inferInstanceAs (Decidable (_ ∧ _))

/-- The first and the last of the times are covered. -/
def CoversRange (times : TimeRange) : Prop :=
  Covers ⟨times.least, 0⟩ ∧ Covers ⟨times.greatest, 0⟩

instance (times : TimeRange) : Decidable (CoversRange times) :=
  inferInstanceAs (Decidable (_ ∧ _))

theorem covers_of_holds {times : TimeRange} {t : Timestamp} (h : CoversRange times)
    (ht : times.holds t = true) : Covers t := by
  obtain ⟨hleast, hgreatest⟩ := TimeRange.seconds_of_holds ht
  exact ⟨h.1.1.trans hleast, hgreatest.trans h.2.2⟩

theorem text?_eq (t : Timestamp) (h : Covers t) : text? t =
    some (render (dateOfDays (t.seconds / 86400)) (t.seconds % 86400).toNat t.nanos) := by
  have hrange : isInRange (dateOfDays (t.seconds / 86400)) = true := by
    rw [isInRange_dateOfDays_iff]
    rw [Covers] at h
    omega
  rw [text?, if_pos hrange]

theorem covers_of_text? {t : Timestamp} {text : String} (h : text? t = some text) : Covers t := by
  rw [text?] at h
  split_ifs at h with hrange
  rw [isInRange_dateOfDays_iff] at hrange
  rw [Covers]
  omega

theorem exists_text?_iff {t : Timestamp} : (∃ text, text? t = some text) ↔ Covers t :=
  ⟨fun ⟨_, h⟩ => covers_of_text? h, fun h => ⟨_, text?_eq t h⟩⟩

/-- No two times that the calendar covers have one text. -/
theorem eq_of_text?_eq {s t : Timestamp} {text : String} (hs : text? s = some text)
    (ht : text? t = some text) : s = t := by
  rw [text?_eq s (covers_of_text? hs)] at hs
  rw [text?_eq t (covers_of_text? ht)] at ht
  obtain ⟨hdate, hsecond, hnanos⟩ :=
    render_inj ((Option.some.inj hs).trans (Option.some.inj ht).symm)
  have hdays := dateOfDays_injective hdate
  obtain ⟨seconds, nanos⟩ := s
  obtain ⟨seconds', nanos'⟩ := t
  simp only at hdays hsecond
  obtain rfl : seconds = seconds' := by omega
  obtain rfl : nanos = nanos' := Fin.ext hnanos
  rfl

/-- The last time of the calendar and the first after it. -/
example : text? ⟨8210266876799, 999999999⟩ = some "+262142-12-31T23:59:59.999999999Z" ∧
    text? ⟨8210266876800, 0⟩ = none := by cbv

end MerkleDir.Calendar
