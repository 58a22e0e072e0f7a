import AgentTrust.Gregorian
import AgentTrust.PyText

/-! Python datetimes with an optional UTC offset, their shift to UTC, and the two
texts the program writes: `isoformat` with the offset spelt out, and the bare wall
reading with a stripped fraction and a final `Z`. -/

namespace AgentTrust.PyDateTime

open TextCode PyText Gregorian

/-- A UTC offset in microseconds, strictly less than a day either way. -/
abbrev Offset := { o : Int // -(dayMicros : Int) < o ∧ o < dayMicros }

def utcOffset : Offset := ⟨0, by decide⟩

/-- A `datetime`; the offset is absent when it is naive. -/
@[ext] structure DateTime where
  wall : Wall
  offset : Option Offset
  deriving DecidableEq

def utcAt (w : Wall) : DateTime := ⟨w, some utcOffset⟩

/-- Microseconds of the instant a datetime denotes, a naive one read as UTC. -/
def DateTime.instant (d : DateTime) : Int :=
  (d.wall.micros : Int) - (match d.offset with | some o => o.val | none => 0)

/-- The wall reading of `d.astimezone(UTC)`, or of `d` itself when it is naive;
`none` is the `OverflowError` outside years 1 to 9999. -/
def DateTime.utcWall (d : DateTime) : Option Wall :=
  match d.offset with
  | some o => Wall.ofMicros ((d.wall.micros : Int) - o.val)
  | none => some d.wall

theorem DateTime.micros_utcWall {d : DateTime} {w : Wall} (h : d.utcWall = some w) :
    (w.micros : Int) = d.instant := by
  unfold utcWall at h
  unfold instant
  cases offset : d.offset with
  | none =>
    simp only [offset, Option.some.injEq] at h
    rw [h, Int.sub_zero]
  | some o =>
    simp only [offset] at h
    exact Wall.micros_of_ofMicros h

@[simp] theorem instant_utcAt (w : Wall) : (utcAt w).instant = w.micros := by
  simp [DateTime.instant, utcAt, utcOffset]

@[simp] theorem utcWall_utcAt (w : Wall) : (utcAt w).utcWall = some w := by
  simp [DateTime.utcWall, utcAt, utcOffset, Wall.ofMicros_micros]

section Texts

def dateText (d : Date) : Text :=
  zfill 4 d.year ++ '-' :: (zfill 2 d.month ++ '-' :: zfill 2 d.day)

def clockText (t : Time) : Text :=
  zfill 2 t.hour.val ++ ':' :: (zfill 2 t.minute.val ++ ':' :: zfill 2 t.second.val)

/-- `%Y-%m-%dT%H:%M:%S`. -/
def secondsText (w : Wall) : Text := dateText w.date ++ 'T' :: clockText w.time

/-- The fraction of `isoformat`: six digits, or nothing. -/
def microText (n : Nat) : Text := if n = 0 then [] else '.' :: zfill 6 n

/-- The size of an offset: `HH:MM`, seconds and their fraction when present. -/
def zoneText (m : Nat) : Text :=
  zfill 2 (m / 3600000000) ++ ':' :: (zfill 2 (m / 60000000 % 60) ++
    if m % 60000000 = 0 then []
    else ':' :: (zfill 2 (m / 1000000 % 60) ++ microText (m % 1000000)))

def offsetText (o : Offset) : Text := (if o.val < 0 then '-' else '+') :: zoneText o.val.natAbs

def isoformat (d : DateTime) : Text :=
  secondsText d.wall ++ (microText d.wall.time.microsecond.val ++
    match d.offset with
    | some o => offsetText o
    | none => [])

/-- `f"{us:06d}".rstrip("0")`. -/
def fracText (n : Nat) : Text := (zfill 6 n).rdropWhile (· = '0')

/-- The wall reading with its fraction stripped of trailing zeros, and `Z`:
`strftime("%Y-%m-%dT%H:%M:%SZ")`, or `strftime(f"%Y-%m-%dT%H:%M:%S.{frac}Z")`. -/
def zuluText (w : Wall) : Text :=
  secondsText w ++
    if w.time.microsecond.val = 0 then ['Z']
    else '.' :: (fracText w.time.microsecond.val ++ ['Z'])

end Texts

section Uniqueness

theorem dateText_length (d : Date) : (dateText d).length = 10 := by simp [dateText]

theorem clockText_length (t : Time) : (clockText t).length = 8 := by simp [clockText]

@[simp] theorem secondsText_length (w : Wall) : (secondsText w).length = 19 := by
  simp [secondsText, dateText_length, clockText_length]

theorem dateText_injective : Function.Injective dateText := by
  intro a b same
  have ya := a.year_range
  have yb := b.year_range
  have ma := a.month_range
  have mb := b.month_range
  have da := a.day_le
  have db := b.day_le
  obtain ⟨year, rest⟩ := List.append_inj same (by simp)
  obtain ⟨month, day⟩ := List.append_inj (List.cons.inj rest).2 (by simp)
  exact Date.ext (zfill_inj (by omega) (by omega) year)
    (zfill_inj (by omega) (by omega) month)
    (zfill_inj (by omega) (by omega) (List.cons.inj day).2)

theorem clockText_inj {s t : Time} (same : clockText s = clockText t) :
    s.hour = t.hour ∧ s.minute = t.minute ∧ s.second = t.second := by
  have small : ∀ {n : Nat} (i : Fin n), n ≤ 100 → i.val < 10 ^ 2 := fun i h =>
    lt_of_lt_of_le i.isLt h
  obtain ⟨hour, rest⟩ := List.append_inj same (by simp)
  obtain ⟨minute, second⟩ := List.append_inj (List.cons.inj rest).2 (by simp)
  exact ⟨Fin.ext (zfill_inj (small _ (by decide)) (small _ (by decide)) hour),
    Fin.ext (zfill_inj (small _ (by decide)) (small _ (by decide)) minute),
    Fin.ext (zfill_inj (small _ (by decide)) (small _ (by decide)) (List.cons.inj second).2)⟩

theorem secondsText_inj {v w : Wall} (same : secondsText v = secondsText w) :
    v.date = w.date ∧ v.time.hour = w.time.hour ∧ v.time.minute = w.time.minute ∧
      v.time.second = w.time.second := by
  obtain ⟨date, rest⟩ := List.append_inj same (by simp [dateText_length])
  exact ⟨dateText_injective date, clockText_inj (List.cons.inj rest).2⟩

theorem fracText_inj {m n : Nat} (hm : m < 1000000) (hn : n < 1000000)
    (same : fracText m = fracText n) : m = n :=
  zfill_inj hm hn (rdropWhile_inj_of_length '0' (by simp) same)

theorem zuluText_injective : Function.Injective zuluText := by
  intro v w same
  obtain ⟨seconds, rest⟩ := List.append_inj same (by simp)
  obtain ⟨date, hour, minute, second⟩ := secondsText_inj seconds
  have micro : v.time.microsecond = w.time.microsecond := by
    have bv := v.time.microsecond.isLt
    have bw := w.time.microsecond.isLt
    apply Fin.ext
    split at rest <;> split at rest
    · omega
    · simp at rest
    · simp at rest
    · exact fracText_inj bv bw (List.append_cancel_right (List.cons.inj rest).2)
  exact Wall.ext date (Time.ext hour minute second micro)

theorem isoformat_utcAt (w : Wall) :
    isoformat (utcAt w) =
      secondsText w ++ (microText w.time.microsecond.val ++ "+00:00".toList) := rfl

end Uniqueness

end AgentTrust.PyDateTime
