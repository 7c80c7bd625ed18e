import MeshSettle.Lib.Text

/-!
# The proleptic Gregorian calendar

Day ordinals (1 is the first of January of year 1) and instants counted in
microseconds from the start of year 1, rendered as ISO 8601 text.
`isoformat_inj`: the text determines the instant.
-/

namespace Lib.Calendar

open Lib.Text

/-- Leap years. -/
def isLeap (y : Nat) : Bool := y % 4 = 0 && (y % 100 ≠ 0 || y % 400 = 0)

/-- Days before the first of January of year `y`. -/
def daysBeforeYear (y : Nat) : Nat :=
  (y - 1) * 365 + (y - 1) / 4 - (y - 1) / 100 + (y - 1) / 400

/-- Days in month `m`. -/
def daysInMonth (leap : Bool) (m : Nat) : Nat :=
  match m with
  | 2 => if leap then 29 else 28
  | 4 | 6 | 9 | 11 => 30
  | _ => 31

/-- Days of the year before the first of month `m`. -/
def daysBeforeMonth (leap : Bool) (m : Nat) : Nat :=
  ((List.range (m - 1)).map fun k => daysInMonth leap (k + 1)).sum

/-- A calendar date. -/
structure Date where
  year : Nat
  month : Nat
  day : Nat
  deriving DecidableEq, Repr

/-- The ordinal of a date. -/
def Date.toOrdinal (d : Date) : Nat :=
  daysBeforeYear d.year + daysBeforeMonth (isLeap d.year) d.month + d.day

/-- Month and day of the `n`th day of a year, counted from zero: the month is
estimated from above and corrected once. -/
def monthDay (leap : Bool) (n : Nat) : Nat × Nat :=
  let month := (n + 50) / 32
  if daysBeforeMonth leap month > n then (month - 1, n - daysBeforeMonth leap (month - 1) + 1)
  else (month, n - daysBeforeMonth leap month + 1)

/-- The date of an ordinal: 400-, 100-, 4- and 1-year cycles are split off; the
last day of a 4- or 400-year cycle is the 31st of December. -/
def Date.ofOrdinal (ordinal : Nat) : Date :=
  let n := ordinal - 1
  let n400 := n / 146097
  let n100 := n % 146097 / 36524
  let n4 := n % 146097 % 36524 / 1461
  let n1 := n % 146097 % 36524 % 1461 / 365
  let rest := n % 146097 % 36524 % 1461 % 365
  let year := n400 * 400 + 1 + n100 * 100 + n4 * 4 + n1
  if n1 = 4 ∨ n100 = 4 then ⟨year - 1, 12, 31⟩
  else
    let md := monthDay (n1 = 3 && (n4 ≠ 24 || n100 = 3)) rest
    ⟨year, md.1, md.2⟩

/-- Splitting a day of the year into month and day loses nothing. -/
theorem monthDay_spec (leap : Bool) : ∀ n < 365,
    daysBeforeMonth leap (monthDay leap n).1 + (monthDay leap n).2 = n + 1 ∧
      (1 ≤ (monthDay leap n).1 ∧ (monthDay leap n).1 ≤ 12) ∧
      1 ≤ (monthDay leap n).2 ∧ (monthDay leap n).2 ≤ daysInMonth leap (monthDay leap n).1 := by
  cases leap <;> decide +kernel

theorem daysInMonth_le (leap : Bool) (m : Nat) : daysInMonth leap m ≤ 31 := by
  unfold daysInMonth
  split
  · split <;> decide
  all_goals decide

theorem daysBeforeMonth_december (leap : Bool) :
    daysBeforeMonth leap 12 + 31 = if leap then 366 else 365 := by
  cases leap <;> decide

/-- The year of an ordinal, in cycles. -/
theorem daysBeforeYear_cycles {a b c d : Nat} (hb : b ≤ 3) (hc : c ≤ 24) (hd : d ≤ 3) :
    daysBeforeYear (a * 400 + 1 + b * 100 + c * 4 + d) =
      a * 146097 + b * 36524 + c * 1461 + d * 365 := by
  unfold daysBeforeYear
  have e : a * 400 + 1 + b * 100 + c * 4 + d - 1 = a * 400 + b * 100 + c * 4 + d := by omega
  rw [e]
  have h4 : (a * 400 + b * 100 + c * 4 + d) / 4 = a * 100 + b * 25 + c := by omega
  have h100 : (a * 400 + b * 100 + c * 4 + d) / 100 = a * 4 + b := by omega
  have h400 : (a * 400 + b * 100 + c * 4 + d) / 400 = a := by omega
  rw [h4, h100, h400]
  omega

theorem isLeap_cycles {a b c d : Nat} (hb : b ≤ 3) (hc : c ≤ 24) (hd : d ≤ 3) :
    isLeap (a * 400 + 1 + b * 100 + c * 4 + d) = (d = 3 && (c ≠ 24 || b = 3)) := by
  unfold isLeap
  rw [Bool.eq_iff_iff]
  simp only [Bool.and_eq_true, Bool.or_eq_true, decide_eq_true_eq, ne_eq]
  omega

/-- Date and ordinal are inverse on positive ordinals. -/
theorem toOrdinal_ofOrdinal {n : Nat} (hn : 0 < n) : (Date.ofOrdinal n).toOrdinal = n := by
  unfold Date.ofOrdinal
  simp only []
  generalize ha : (n - 1) / 146097 = a
  generalize hb : (n - 1) % 146097 / 36524 = b
  generalize hc : (n - 1) % 146097 % 36524 / 1461 = c
  generalize hd : (n - 1) % 146097 % 36524 % 1461 / 365 = d
  generalize hr : (n - 1) % 146097 % 36524 % 1461 % 365 = r
  have hsum : n = a * 146097 + b * 36524 + c * 1461 + d * 365 + r + 1 := by omega
  have hc24 : c ≤ 24 := by omega
  have hr365 : r < 365 := by omega
  split
  · rename_i h
    rcases h with rfl | rfl
    · -- the leap day that ends a four-year cycle
      have hb3 : b ≤ 3 := by omega
      have e : a * 400 + 1 + b * 100 + c * 4 + 4 - 1 =
          a * 400 + 1 + b * 100 + c * 4 + 3 := by omega
      have hleap : isLeap (a * 400 + 1 + b * 100 + c * 4 + 3) = true := by
        rw [isLeap_cycles hb3 hc24 (Nat.le_refl 3)]
        simp only [decide_true, Bool.true_and, Bool.or_eq_true, decide_eq_true_eq, ne_eq]
        omega
      have hdec := daysBeforeMonth_december true
      simp only [Date.toOrdinal, e, hleap, daysBeforeYear_cycles hb3 hc24 (Nat.le_refl 3)]
      simp only [if_true] at hdec
      omega
    · -- the leap day that ends a four-hundred-year cycle
      have hc0 : c = 0 := by omega
      have hd0 : d = 0 := by omega
      subst hc0 hd0
      have e : a * 400 + 1 + 4 * 100 + 0 * 4 + 0 - 1 =
          a * 400 + 1 + 3 * 100 + 24 * 4 + 3 := by omega
      have hleap : isLeap (a * 400 + 1 + 3 * 100 + 24 * 4 + 3) = true := by
        rw [isLeap_cycles (Nat.le_refl 3) (Nat.le_refl 24) (Nat.le_refl 3)]
        decide
      have hdec := daysBeforeMonth_december true
      simp only [Date.toOrdinal, e, hleap,
        daysBeforeYear_cycles (Nat.le_refl 3) (Nat.le_refl 24) (Nat.le_refl 3)]
      simp only [if_true] at hdec
      omega
  · rename_i h
    have hb3 : b ≤ 3 := by omega
    have hd3 : d ≤ 3 := by omega
    have hmd := (monthDay_spec (d = 3 && (c ≠ 24 || b = 3)) r hr365).1
    simp only [Date.toOrdinal, daysBeforeYear_cycles hb3 hc24 hd3, isLeap_cycles hb3 hc24 hd3]
    omega

/-! ## Instants -/

/-- Microseconds from the start of year 1 to the end of year 9999. -/
def maxMicros : Nat := 3652059 * 86400000000

/-- A date that the calendar has, from year 1 to year 9999. -/
structure Date.Valid (d : Date) : Prop where
  year : 1 ≤ d.year ∧ d.year ≤ 9999
  month : 1 ≤ d.month ∧ d.month ≤ 12
  day : 1 ≤ d.day ∧ d.day ≤ daysInMonth (isLeap d.year) d.month

instance (d : Date) : Decidable d.Valid :=
  decidable_of_iff ((1 ≤ d.year ∧ d.year ≤ 9999) ∧ (1 ≤ d.month ∧ d.month ≤ 12) ∧
      1 ≤ d.day ∧ d.day ≤ daysInMonth (isLeap d.year) d.month)
    ⟨fun ⟨hy, hm, hd⟩ => ⟨hy, hm, hd⟩, fun h => ⟨h.year, h.month, h.day⟩⟩

theorem Date.Valid.day_le {d : Date} (h : d.Valid) : d.day ≤ 31 :=
  h.day.2.trans (daysInMonth_le _ _)

/-- An ordinal is that of a date in the calendar. -/
theorem ofOrdinal_valid {n : Nat} (hn : n ≤ 3652059) : (Date.ofOrdinal n).Valid := by
  unfold Date.ofOrdinal
  simp only []
  generalize ha : (n - 1) / 146097 = a
  generalize hb : (n - 1) % 146097 / 36524 = b
  generalize hc : (n - 1) % 146097 % 36524 / 1461 = c
  generalize hd : (n - 1) % 146097 % 36524 % 1461 / 365 = d
  generalize hr : (n - 1) % 146097 % 36524 % 1461 % 365 = r
  have hr365 : r < 365 := by omega
  have hc24 : c ≤ 24 := by omega
  split
  · exact ⟨⟨by simp only []; omega, by simp only []; omega⟩, by simp, by simp [daysInMonth]⟩
  · rename_i h
    have hleap := isLeap_cycles (a := a) (b := b) (c := c) (d := d) (by omega) hc24 (by omega)
    obtain ⟨-, hmonth, hday⟩ := monthDay_spec (d = 3 && (c ≠ 24 || b = 3)) r hr365
    refine ⟨⟨by simp only []; omega, by simp only []; omega⟩, hmonth, ?_⟩
    dsimp only
    rw [hleap]
    exact hday

/-- Year, month, day and time of day to the second, at fixed width. -/
def dateTimeText (d : Date) (second : Nat) : List Char :=
  pad 10 4 d.year ++ ('-' :: (pad 10 2 d.month ++ ('-' :: (pad 10 2 d.day ++ ('T' ::
    (pad 10 2 (second / 3600) ++ (':' :: (pad 10 2 (second / 60 % 60) ++ (':' ::
      pad 10 2 (second % 60))))))))))

/-- A UTC instant in the fields of ISO 8601. -/
structure Fields where
  date : Date
  hour : Nat
  minute : Nat
  second : Nat
  micro : Nat
  deriving DecidableEq, Repr

/-- The fields are in their ranges. -/
structure Fields.Valid (f : Fields) : Prop where
  date : f.date.Valid
  hour : f.hour < 24
  minute : f.minute < 60
  second : f.second < 60
  micro : f.micro < 1000000

instance (f : Fields) : Decidable f.Valid :=
  decidable_of_iff
    (f.date.Valid ∧ f.hour < 24 ∧ f.minute < 60 ∧ f.second < 60 ∧ f.micro < 1000000)
    ⟨fun ⟨hd, hh, hm, hs, hu⟩ => ⟨hd, hh, hm, hs, hu⟩,
      fun h => ⟨h.date, h.hour, h.minute, h.second, h.micro⟩⟩

/-- The instant, in microseconds from the start of year 1. -/
def Fields.micros (f : Fields) : Nat :=
  (((f.date.toOrdinal - 1) * 24 + f.hour) * 60 + f.minute) * 60000000 + f.second * 1000000 + f.micro

/-- The text of an instant: `YYYY-MM-DDThh:mm:ss`, the fraction if there is one,
and the offset. -/
def Fields.text (f : Fields) : List Char :=
  pad 10 4 f.date.year ++ ('-' :: (pad 10 2 f.date.month ++ ('-' :: (pad 10 2 f.date.day ++ ('T' ::
    (pad 10 2 f.hour ++ (':' :: (pad 10 2 f.minute ++ (':' :: (pad 10 2 f.second ++
      ((if f.micro = 0 then [] else '.' :: pad 10 6 f.micro) ++
        ['+', '0', '0', ':', '0', '0'])))))))))))

/-- The fraction of a second, left out when it is zero. -/
def fractionText (micros : Nat) : List Char :=
  if micros = 0 then [] else '.' :: pad 10 6 micros

/-- `datetime.isoformat` of a UTC instant. -/
def isoformat (micros : Nat) : List Char :=
  dateTimeText (Date.ofOrdinal (micros / 86400000000 + 1)) (micros % 86400000000 / 1000000) ++
    (fractionText (micros % 1000000) ++ "+00:00".toList)

theorem dateTimeText_length (d : Date) (s : Nat) : (dateTimeText d s).length = 19 := by
  simp [dateTimeText]

theorem dateTimeText_inj {d d' : Date} {s s' : Nat} (hd : d.Valid) (hd' : d'.Valid)
    (hs : s < 86400) (hs' : s' < 86400) (h : dateTimeText d s = dateTimeText d' s') :
    d = d' ∧ s = s' := by
  have hyear := hd.year
  have hmonth := hd.month
  have hday31 := hd.day_le
  have hyear' := hd'.year
  have hmonth' := hd'.month
  have hday31' := hd'.day_le
  unfold dateTimeText at h
  obtain ⟨hy, h⟩ := List.append_inj h (by simp)
  obtain ⟨hm, h⟩ := List.append_inj (List.cons.inj h).2 (by simp)
  obtain ⟨hday, h⟩ := List.append_inj (List.cons.inj h).2 (by simp)
  obtain ⟨hh, h⟩ := List.append_inj (List.cons.inj h).2 (by simp)
  obtain ⟨hmin, h⟩ := List.append_inj (List.cons.inj h).2 (by simp)
  have hsec := (List.cons.inj h).2
  have inj {w a b : Nat} (ha : a < 10 ^ w) (hb : b < 10 ^ w) (e : pad 10 w a = pad 10 w b) :
      a = b := pad_inj (by decide) (by decide) ha hb e
  have ey := inj (by omega) (by omega) hy
  have em := inj (by omega) (by omega) hm
  have ed := inj (by omega) (by omega) hday
  have eh := inj (by omega) (by omega) hh
  have emin := inj (by omega) (by omega) hmin
  have es := inj (by omega) (by omega) hsec
  refine ⟨?_, by omega⟩
  cases d; cases d'
  simp_all

theorem fractionText_inj {a b : Nat} (ha : a < 1000000) (hb : b < 1000000)
    (h : fractionText a ++ "+00:00".toList = fractionText b ++ "+00:00".toList) : a = b := by
  have h' := List.append_cancel_right h
  unfold fractionText at h'
  split at h' <;> split at h'
  · omega
  · cases h'
  · cases h'
  · exact pad_inj (by decide) (by decide) (by omega) (by omega) (List.cons.inj h').2

/-- The fields of an instant. -/
def Fields.ofMicros (micros : Nat) : Fields where
  date := Date.ofOrdinal (micros / 86400000000 + 1)
  hour := micros % 86400000000 / 3600000000
  minute := micros % 3600000000 / 60000000
  second := micros % 60000000 / 1000000
  micro := micros % 1000000

/-- The fields of an instant are in their ranges, -/
theorem ofMicros_valid {micros : Nat} (h : micros < maxMicros) :
    (Fields.ofMicros micros).Valid := by
  unfold maxMicros at h
  refine ⟨ofOrdinal_valid (by omega), ?_, ?_, ?_, ?_⟩ <;> unfold Fields.ofMicros <;> dsimp only <;>
    omega

/-- are those of the instant, -/
theorem micros_ofMicros (micros : Nat) : (Fields.ofMicros micros).micros = micros := by
  unfold Fields.micros Fields.ofMicros
  dsimp only
  rw [toOrdinal_ofOrdinal (Nat.succ_pos _)]
  omega

/-- and what `isoformat` writes. -/
theorem text_ofMicros (micros : Nat) : (Fields.ofMicros micros).text = isoformat micros := by
  have hhour : micros % 86400000000 / 3600000000 = micros % 86400000000 / 1000000 / 3600 := by omega
  have hminute : micros % 3600000000 / 60000000 = micros % 86400000000 / 1000000 / 60 % 60 := by
    omega
  have hsecond : micros % 60000000 / 1000000 = micros % 86400000000 / 1000000 % 60 := by omega
  unfold Fields.text Fields.ofMicros isoformat dateTimeText fractionText
  dsimp only
  rw [hhour, hminute, hsecond]
  simp only [List.append_assoc, List.cons_append]
  rfl

/-- The text of an instant determines it. -/
theorem isoformat_inj {a b : Nat} (ha : a < maxMicros) (hb : b < maxMicros)
    (h : isoformat a = isoformat b) : a = b := by
  unfold maxMicros at ha hb
  obtain ⟨hdt, hfrac⟩ := List.append_inj h (by simp [dateTimeText_length])
  obtain ⟨hdate, hsec⟩ := dateTimeText_inj (ofOrdinal_valid (by omega)) (ofOrdinal_valid (by omega))
    (by omega) (by omega) hdt
  have hord : a / 86400000000 + 1 = b / 86400000000 + 1 := by
    have ha' := toOrdinal_ofOrdinal (n := a / 86400000000 + 1) (by omega)
    have hb' := toOrdinal_ofOrdinal (n := b / 86400000000 + 1) (by omega)
    rw [← ha', ← hb', hdate]
  have hmicro : a % 1000000 = b % 1000000 := fractionText_inj (by omega) (by omega) hfrac
  omega

end Lib.Calendar
