import Mathlib.Tactic.Common
import Mathlib.Tactic.NormNum

/-! The proleptic Gregorian calendar of years 1 to 9999 with its day numbers:
day 1 is 0001-01-01. Day numbers are strictly increasing in the lexicographic
order of dates, every number up to 9999-12-31 has a date, and a time of day in
microseconds extends both statements to instants. -/

namespace AgentTrust.Gregorian

def isLeap (y : Nat) : Bool := y % 4 = 0 && (y % 100 != 0 || y % 400 = 0)

def daysInMonth (leap : Bool) : Nat → Nat
  | 2 => if leap then 29 else 28
  | 4 | 6 | 9 | 11 => 30
  | _ => 31

def daysBeforeMonth (leap : Bool) : Nat → Nat
  | 0 => 0
  | 1 => 0
  | m + 1 => daysBeforeMonth leap m + daysInMonth leap m

def daysBeforeYear (y : Nat) : Nat := (y - 1) * 365 + (y - 1) / 4 - (y - 1) / 100 + (y - 1) / 400

def yearLength (leap : Bool) : Nat := if leap then 366 else 365

@[ext] structure Date where
  year : Nat
  month : Nat
  day : Nat
  year_range : 1 ≤ year ∧ year ≤ 9999
  month_range : 1 ≤ month ∧ month ≤ 12
  day_range : 1 ≤ day ∧ day ≤ daysInMonth (isLeap year) month
  deriving DecidableEq

def Date.toordinal (d : Date) : Nat :=
  daysBeforeYear d.year + daysBeforeMonth (isLeap d.year) d.month + d.day

def maxOrdinal : Nat := 3652059

section Order

theorem leap_step (n : Nat) :
    (if 4 ∣ n then 1 else 0) + (if 400 ∣ n then 1 else 0) =
      (if 100 ∣ n then 1 else 0) + (if isLeap n then 1 else 0) := by
  have quarter : 100 ∣ n → 4 ∣ n := fun h => (by decide : 4 ∣ 100).trans h
  have century : 400 ∣ n → 100 ∣ n := fun h => (by decide : 100 ∣ 400).trans h
  simp only [isLeap, ← Nat.dvd_iff_mod_eq_zero, bne_iff_ne, ne_eq, Bool.and_eq_true,
    decide_eq_true_eq, Bool.or_eq_true]
  by_cases h400 : 400 ∣ n
  · simp [h400, century h400, quarter (century h400)]
  · by_cases h100 : 100 ∣ n
    · simp [h400, h100, quarter h100]
    · by_cases h4 : 4 ∣ n <;> simp [h400, h100, h4]

theorem daysBeforeYear_succ {y : Nat} (h : 1 ≤ y) :
    daysBeforeYear (y + 1) = daysBeforeYear y + yearLength (isLeap y) := by
  obtain ⟨n, rfl⟩ : ∃ n, y = n + 1 := ⟨y - 1, by omega⟩
  have step := leap_step (n + 1)
  have order : n / 100 ≤ n / 4 := Nat.div_le_div_left (by decide) (by decide)
  simp only [daysBeforeYear, yearLength, Nat.add_sub_cancel, Nat.succ_div]
  split at step <;> split at step <;> split at step <;> split at step <;> simp_all <;> omega

theorem daysBeforeYear_mono {x y : Nat} (hx : 1 ≤ x) (h : x ≤ y) :
    daysBeforeYear x ≤ daysBeforeYear y := by
  induction y, h using Nat.le_induction with
  | base => exact le_refl _
  | succ y hxy ih =>
    rw [daysBeforeYear_succ (hx.trans hxy)]
    omega

theorem daysBeforeMonth_succ (leap : Bool) {m : Nat} (h : 1 ≤ m) :
    daysBeforeMonth leap (m + 1) = daysBeforeMonth leap m + daysInMonth leap m := by
  cases m with
  | zero => omega
  | succ m => rfl

theorem daysBeforeMonth_mono (leap : Bool) {m n : Nat} (hm : 1 ≤ m) (h : m ≤ n) :
    daysBeforeMonth leap m ≤ daysBeforeMonth leap n := by
  induction n, h using Nat.le_induction with
  | base => exact le_refl _
  | succ n hmn ih =>
    rw [daysBeforeMonth_succ leap (hm.trans hmn)]
    omega

theorem daysBeforeMonth_year (leap : Bool) : daysBeforeMonth leap 13 = yearLength leap := by
  cases leap <;> rfl

theorem Date.dayOfYear_le (d : Date) :
    daysBeforeMonth (isLeap d.year) d.month + d.day ≤ yearLength (isLeap d.year) := by
  have month := d.month_range
  have day := d.day_range
  have later := daysBeforeMonth_mono (isLeap d.year) (m := d.month + 1) (n := 13)
    (by omega) (by omega)
  rw [daysBeforeMonth_succ _ month.1, daysBeforeMonth_year] at later
  omega

theorem Date.day_le (d : Date) : d.day ≤ 31 := by
  have length : ∀ leap m, daysInMonth leap m ≤ 31 := by
    intro leap m
    unfold daysInMonth
    split <;> (try split) <;> omega
  exact d.day_range.2.trans (length _ _)

def Date.Before (a b : Date) : Prop :=
  a.year < b.year ∨ a.year = b.year ∧ (a.month < b.month ∨ a.month = b.month ∧ a.day < b.day)

theorem Date.toordinal_lt {a b : Date} (h : a.Before b) : a.toordinal < b.toordinal := by
  rcases h with years | ⟨year, months | ⟨month, days⟩⟩
  · have first := a.dayOfYear_le
    have second := b.day_range
    have next := daysBeforeYear_succ a.year_range.1
    have later := daysBeforeYear_mono (Nat.le_add_left 1 a.year) years
    simp only [toordinal]
    omega
  · have day := a.day_range
    have second := b.day_range
    have next := daysBeforeMonth_succ (isLeap a.year) a.month_range.1
    have later := daysBeforeMonth_mono (isLeap a.year) (Nat.le_add_left 1 a.month) months
    simp only [toordinal, ← year]
    omega
  · simp only [toordinal, year, month]
    omega

theorem Date.trichotomy (a b : Date) : a.Before b ∨ a = b ∨ b.Before a := by
  have equal : a.year = b.year → a.month = b.month → a.day = b.day → a = b :=
    fun y m d => Date.ext y m d
  simp only [Before]
  by_cases y : a.year = b.year <;> by_cases m : a.month = b.month <;>
    by_cases d : a.day = b.day
  · exact .inr (.inl (equal y m d))
  all_goals omega

theorem Date.toordinal_injective : Function.Injective Date.toordinal := by
  intro a b same
  rcases a.trichotomy b with h | h | h
  · exact absurd same (Nat.ne_of_lt (toordinal_lt h))
  · exact h
  · exact absurd same.symm (Nat.ne_of_lt (toordinal_lt h))

theorem Date.toordinal_pos (d : Date) : 0 < d.toordinal := by
  have day := d.day_range
  simp only [toordinal]
  omega

theorem Date.toordinal_le (d : Date) : d.toordinal ≤ maxOrdinal := by
  have day := d.dayOfYear_le
  have next := daysBeforeYear_succ d.year_range.1
  have last := daysBeforeYear_mono (y := 10000) (Nat.le_add_left 1 d.year)
    (by have := d.year_range; omega)
  have bound : daysBeforeYear 10000 = maxOrdinal := by decide
  simp only [toordinal]
  omega

end Order

section Inverse

/-- Month and day of the zero-based day `n` counted from the first of month `m`,
with at most `left` further months to look at. -/
def monthDayFrom (leap : Bool) : Nat → Nat → Nat → Nat × Nat
  | 0, m, n => (m, n + 1)
  | left + 1, m, n =>
    if n < daysInMonth leap m then (m, n + 1)
    else monthDayFrom leap left (m + 1) (n - daysInMonth leap m)

def monthDay (leap : Bool) (n : Nat) : Nat × Nat := monthDayFrom leap 11 1 n

theorem monthDayFrom_spec (leap : Bool) (left : Nat) {m n : Nat} (first : 1 ≤ m)
    (bound : daysBeforeMonth leap m + n < daysBeforeMonth leap (m + left + 1)) :
    (m ≤ (monthDayFrom leap left m n).1 ∧ (monthDayFrom leap left m n).1 ≤ m + left) ∧
    (1 ≤ (monthDayFrom leap left m n).2 ∧
      (monthDayFrom leap left m n).2 ≤ daysInMonth leap (monthDayFrom leap left m n).1) ∧
    daysBeforeMonth leap (monthDayFrom leap left m n).1 + (monthDayFrom leap left m n).2 =
      daysBeforeMonth leap m + n + 1 := by
  induction left generalizing m n with
  | zero =>
    have next := daysBeforeMonth_succ leap first
    simp only [monthDayFrom]
    rw [Nat.add_zero] at bound ⊢
    omega
  | succ left ih =>
    have next := daysBeforeMonth_succ leap first
    simp only [monthDayFrom]
    split
    · dsimp only
      omega
    · have rest := ih (m := m + 1) (n := n - daysInMonth leap m) (by omega)
        (by rw [show m + 1 + left + 1 = m + (left + 1) + 1 by omega]; omega)
      omega

theorem monthDay_spec (leap : Bool) {n : Nat} (h : n < yearLength leap) :
    (1 ≤ (monthDay leap n).1 ∧ (monthDay leap n).1 ≤ 12) ∧
    (1 ≤ (monthDay leap n).2 ∧
      (monthDay leap n).2 ≤ daysInMonth leap (monthDay leap n).1) ∧
    daysBeforeMonth leap (monthDay leap n).1 + (monthDay leap n).2 = n + 1 := by
  have bound : daysBeforeMonth leap 1 + n < daysBeforeMonth leap (1 + 11 + 1) := by
    rw [daysBeforeMonth_year]
    simpa [daysBeforeMonth] using h
  have spec := monthDayFrom_spec leap 11 (le_refl 1) bound
  rw [show daysBeforeMonth leap 1 = 0 from rfl, Nat.zero_add] at spec
  exact spec

/-- Year and zero-based day of the year of the day `n + 1`. The cycles of 400, 100,
4 and 1 years are taken off in turn; the last day of a 4- or 400-year cycle is a
fifth part of its own. -/
def yearDay (n : Nat) : Nat × Nat :=
  let n400 := n / 146097
  let r400 := n % 146097
  let n100 := r400 / 36524
  let r100 := r400 % 36524
  let n4 := r100 / 1461
  let r4 := r100 % 1461
  let n1 := r4 / 365
  let r1 := r4 % 365
  let year := n400 * 400 + n100 * 100 + n4 * 4 + n1 + 1
  if n1 = 4 ∨ n100 = 4 then (year - 1, 365) else (year, r1)

theorem daysBeforeYear_cycles {q a b c : Nat} (ha : a ≤ 3) (hb : b ≤ 24) (hc : c ≤ 3) :
    daysBeforeYear (q * 400 + a * 100 + b * 4 + c + 1) =
      146097 * q + 36524 * a + 1461 * b + 365 * c := by
  have quarter : (q * 400 + a * 100 + b * 4 + c) / 4 = 100 * q + 25 * a + b := by omega
  have century : (q * 400 + a * 100 + b * 4 + c) / 100 = 4 * q + a := by omega
  have era : (q * 400 + a * 100 + b * 4 + c) / 400 = q := by omega
  simp only [daysBeforeYear, Nat.add_sub_cancel, quarter, century, era]
  omega

theorem isLeap_cycles {q a b : Nat} (hb : b ≤ 24) (last : b = 24 → a = 3) :
    isLeap (q * 400 + a * 100 + b * 4 + 3 + 1) = true := by
  simp only [isLeap, Bool.and_eq_true, decide_eq_true_eq, Bool.or_eq_true, bne_iff_ne]
  refine ⟨by omega, ?_⟩
  by_cases h : b = 24
  · exact .inr (by have := last h; omega)
  · exact .inl (by omega)

theorem yearDay_spec (n : Nat) :
    1 ≤ (yearDay n).1 ∧ (yearDay n).2 < yearLength (isLeap (yearDay n).1) ∧
      daysBeforeYear (yearDay n).1 + (yearDay n).2 = n := by
  have parts : n = 146097 * (n / 146097) + 36524 * (n % 146097 / 36524) +
      1461 * (n % 146097 % 36524 / 1461) + 365 * (n % 146097 % 36524 % 1461 / 365) +
      n % 146097 % 36524 % 1461 % 365 := by omega
  have short : ∀ leap, 365 ≤ yearLength leap := by decide
  have century : n % 146097 / 36524 ≤ 4 := by omega
  have four : n % 146097 % 36524 / 1461 ≤ 24 := by omega
  have one : n % 146097 % 36524 % 1461 / 365 ≤ 4 := by omega
  have day : n % 146097 % 36524 % 1461 % 365 < 365 := Nat.mod_lt _ (by decide)
  have lastCentury : n % 146097 / 36524 = 4 → n % 146097 % 36524 = 0 := by omega
  have lastFour : n % 146097 % 36524 % 1461 / 365 = 4 →
      n % 146097 % 36524 % 1461 % 365 = 0 ∧ n % 146097 % 36524 / 1461 ≤ 23 := by omega
  simp only [yearDay]
  generalize n / 146097 = q at *
  generalize n % 146097 / 36524 = a at *
  generalize n % 146097 % 36524 = r at *
  split
  · next last =>
    obtain ⟨a', b', start, ha, hb, leap, total⟩ : ∃ a' b',
        q * 400 + a * 100 + r / 1461 * 4 + r % 1461 / 365 + 1 - 1 =
          q * 400 + a' * 100 + b' * 4 + 3 + 1 ∧ a' ≤ 3 ∧ b' ≤ 24 ∧ (b' = 24 → a' = 3) ∧
          n = 146097 * q + 36524 * a' + 1461 * b' + 365 * 3 + 365 := by
      by_cases h : a = 4
      · have zero := lastCentury h
        exact ⟨3, 24, by subst zero; omega, by omega, by omega, by omega, by
          subst zero; omega⟩
      · have four := lastFour (by omega)
        exact ⟨a, r / 1461, by omega, by omega, by omega, by omega, by omega⟩
    dsimp only
    rw [start, isLeap_cycles hb leap, daysBeforeYear_cycles ha hb (le_refl 3)]
    exact ⟨by omega, by decide, by omega⟩
  · next inner =>
    have later := short (isLeap (q * 400 + a * 100 + r / 1461 * 4 + r % 1461 / 365 + 1))
    dsimp only
    rw [daysBeforeYear_cycles (by omega) four (by omega)]
    exact ⟨by omega, by omega, parts.symm⟩

theorem yearDay_le {n : Nat} (h : n < maxOrdinal) : (yearDay n).1 ≤ 9999 := by
  have spec := yearDay_spec n
  by_contra large
  have later := daysBeforeYear_mono (x := 10000) (y := (yearDay n).1) (by decide) (by omega)
  have bound : daysBeforeYear 10000 = maxOrdinal := by decide
  omega

def Date.fromordinal (n : Nat) (h : 1 ≤ n ∧ n ≤ maxOrdinal) : Date where
  year := (yearDay (n - 1)).1
  month := (monthDay (isLeap (yearDay (n - 1)).1) (yearDay (n - 1)).2).1
  day := (monthDay (isLeap (yearDay (n - 1)).1) (yearDay (n - 1)).2).2
  year_range := ⟨(yearDay_spec _).1, yearDay_le (by omega)⟩
  month_range := (monthDay_spec _ (yearDay_spec _).2.1).1
  day_range := (monthDay_spec _ (yearDay_spec _).2.1).2.1

@[simp] theorem Date.toordinal_fromordinal (n : Nat) (h : 1 ≤ n ∧ n ≤ maxOrdinal) :
    (Date.fromordinal n h).toordinal = n := by
  have year := yearDay_spec (n - 1)
  have day := (monthDay_spec _ year.2.1).2.2
  simp only [toordinal, fromordinal]
  omega

@[simp] theorem Date.fromordinal_toordinal (d : Date) :
    Date.fromordinal d.toordinal ⟨d.toordinal_pos, d.toordinal_le⟩ = d :=
  Date.toordinal_injective (Date.toordinal_fromordinal _ _)

end Inverse

section TimeOfDay

@[ext] structure Time where
  hour : Fin 24
  minute : Fin 60
  second : Fin 60
  microsecond : Fin 1000000
  deriving DecidableEq

def dayMicros : Nat := 86400000000

def Time.micros (t : Time) : Nat :=
  ((t.hour.val * 60 + t.minute.val) * 60 + t.second.val) * 1000000 + t.microsecond.val

def Time.ofMicros (n : Nat) : Time where
  hour := ⟨n / 3600000000 % 24, Nat.mod_lt _ (by decide)⟩
  minute := ⟨n / 60000000 % 60, Nat.mod_lt _ (by decide)⟩
  second := ⟨n / 1000000 % 60, Nat.mod_lt _ (by decide)⟩
  microsecond := ⟨n % 1000000, Nat.mod_lt _ (by decide)⟩

theorem Time.micros_lt (t : Time) : t.micros < dayMicros := by
  have h := t.hour.isLt
  have m := t.minute.isLt
  have s := t.second.isLt
  have u := t.microsecond.isLt
  simp only [micros, dayMicros]
  omega

theorem Time.micros_ofMicros {n : Nat} (h : n < dayMicros) : (Time.ofMicros n).micros = n := by
  simp only [dayMicros] at h
  simp only [micros, ofMicros]
  omega

theorem Time.micros_injective : Function.Injective Time.micros := by
  intro a b same
  have ha := a.hour.isLt
  have ma := a.minute.isLt
  have sa := a.second.isLt
  have ua := a.microsecond.isLt
  have hb := b.hour.isLt
  have mb := b.minute.isLt
  have sb := b.second.isLt
  have ub := b.microsecond.isLt
  simp only [micros] at same
  ext <;> omega

/-- A date with a time of day, and its number of microseconds since day 0. -/
@[ext] structure Wall where
  date : Date
  time : Time
  deriving DecidableEq

def Wall.micros (w : Wall) : Nat := w.date.toordinal * dayMicros + w.time.micros

theorem Wall.micros_split (w : Wall) :
    w.micros / dayMicros = w.date.toordinal ∧ w.micros % dayMicros = w.time.micros := by
  have time := w.time.micros_lt
  simp only [micros, dayMicros] at *
  omega

theorem Wall.micros_injective : Function.Injective Wall.micros := by
  intro a b same
  have sa := a.micros_split
  have sb := b.micros_split
  rw [same] at sa
  exact Wall.ext (Date.toordinal_injective (sa.1.symm.trans sb.1))
    (Time.micros_injective (sa.2.symm.trans sb.2))

def Wall.ofMicros (n : Int) : Option Wall :=
  if h : 1 ≤ n / dayMicros ∧ n / dayMicros ≤ maxOrdinal then
    some ⟨Date.fromordinal (n / dayMicros).toNat (by omega),
      Time.ofMicros (n % dayMicros).toNat⟩
  else none

theorem Wall.micros_of_ofMicros {n : Int} {w : Wall} (h : Wall.ofMicros n = some w) :
    (w.micros : Int) = n := by
  unfold ofMicros at h
  split at h
  · next range =>
    rw [Option.some.injEq] at h
    subst h
    have inside : (n % dayMicros).toNat < dayMicros := by
      simp only [dayMicros] at *
      omega
    simp only [micros, Date.toordinal_fromordinal, Time.micros_ofMicros inside]
    simp only [dayMicros] at *
    omega
  · simp at h

theorem Wall.ofMicros_micros (w : Wall) : Wall.ofMicros w.micros = some w := by
  have split := w.micros_split
  have low := w.date.toordinal_pos
  have high := w.date.toordinal_le
  have days : (w.micros : Int) / dayMicros = w.date.toordinal := by
    rw [← split.1]
    exact (Int.natCast_div _ _).symm
  have found : ∃ v, Wall.ofMicros w.micros = some v := by
    unfold ofMicros
    rw [dif_pos (by rw [days]; omega)]
    exact ⟨_, rfl⟩
  obtain ⟨v, hv⟩ := found
  rw [hv, Wall.micros_injective (Int.natCast_inj.mp (Wall.micros_of_ofMicros hv))]

end TimeOfDay

end AgentTrust.Gregorian
