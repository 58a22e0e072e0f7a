import AgentTrust.PyDateTime

/-! `datetime.fromisoformat` as CPython computes it: calendar and week dates in extended or
basic form, an optional time after any one separator, an optional fraction of a second of
which six digits count, and `Z` or a numeric offset. Every field is ASCII digits; `none` is
`ValueError`. What `isoformat` and the `Z` form write is read back, but for an offset of less
than a second, which is read as UTC. -/

namespace AgentTrust.IsoFormat

open TextCode PyText Gregorian PyDateTime

section Parser

/-- A field of exactly `w` digits and the rest. -/
def readNumber (w : Nat) (s : Text) : Option (Nat × Text) :=
  if (s.take w).length = w ∧ (s.take w).all Char.isDigit then
    some (Nat.ofDigitChars 10 (s.take w) 0, s.drop w)
  else none

def expect (c : Char) : Text → Option Text
  | [] => none
  | d :: s => if d = c then some s else none

def expectIf (extended : Bool) (c : Char) (s : Text) : Option Text :=
  if extended then expect c s else some s

def ofYmd (y m d : Nat) : Option Date :=
  if h : (1 ≤ y ∧ y ≤ 9999) ∧ (1 ≤ m ∧ m ≤ 12) ∧ (1 ≤ d ∧ d ≤ daysInMonth (isLeap y) m) then
    some ⟨y, m, d, h.1, h.2.1, h.2.2⟩
  else none

/-- `_isoweek1monday`: the day number of the Monday of week 1. -/
def isoWeek1Monday (y : Nat) : Nat :=
  let firstday := daysBeforeYear y + 1
  let firstweekday := (firstday + 6) % 7
  if firstweekday > 3 then firstday - firstweekday + 7 else firstday - firstweekday

/-- `_isoweek_to_gregorian`. -/
def ofIsoWeek (y week day : Nat) : Option Date :=
  let firstWeekday := (daysBeforeYear y + 1) % 7
  let long := firstWeekday = 4 ∨ firstWeekday = 3 ∧ isLeap y
  let ord := isoWeek1Monday y + (week - 1) * 7 + (day - 1)
  if h : (1 ≤ ord ∧ ord ≤ maxOrdinal) ∧ (1 ≤ y ∧ y ≤ 9999) ∧
      (1 ≤ week ∧ (week < 53 ∨ week = 53 ∧ long)) ∧ (1 ≤ day ∧ day ≤ 7) then
    some (Date.fromordinal ord h.1)
  else none

/-- `_parse_isoformat_date` on a text of 7, 8 or 10 characters. -/
def parseDate (s : Text) : Option Date := do
  let (y, r) ← readNumber 4 s
  let extended := r.head? = some '-'
  let r ← expectIf extended '-' r
  match r with
  | 'W' :: r =>
    let (week, r) ← readNumber 2 r
    if r = [] then ofIsoWeek y week 1
    else
      let r ← expectIf extended '-' r
      let (day, r) ← readNumber 1 r
      if r = [] then ofIsoWeek y week day else none
  | r =>
    let (m, r) ← readNumber 2 r
    let r ← expectIf extended '-' r
    let (d, r) ← readNumber 2 r
    if r = [] then ofYmd y m d else none

/-- The terminator of a C string, which a text may also hold as a character. -/
def nul : Char := Char.ofNat 0

/-- Whether reading stops short of a terminator, in a text that `next` follows. -/
def leftover (next : Char) (s : Text) : Bool := s.head?.getD next ≠ nul

/-- Microseconds of a fraction, of which six digits count. -/
def parseFraction (next : Char) (f : Text) : Option (Nat × Bool) :=
  if (f.take 6).all Char.isDigit then
    some (Nat.ofDigitChars 10 ((f ++ List.replicate 6 '0').take 6) 0,
      leftover next ((f.drop 6).dropWhile Char.isDigit))
  else none

inductive Follow where
  | stop (rest : Bool)
  | field (s : Text)
  | fraction (s : Text)
  | malformed

/-- A last character of one byte is not looked at, unless it is the terminator. -/
def follow (extended : Bool) (next : Char) : Text → Follow
  | [] => .stop (leftover next [])
  | [c] => if c.toNat < 0x80 then .stop (leftover next [c]) else .malformed
  | c :: d :: s =>
    if extended ∧ c = ':' then .field (d :: s)
    else if c = '.' ∨ c = ',' then .fraction (d :: s)
    else if extended then .malformed
    else .field (c :: d :: s)

/-- After the seconds a fraction may start with any separator that a field may have. -/
def parseTail (extended : Bool) (next : Char) (s : Text) : Option (Nat × Bool) :=
  match follow extended next s with
  | .stop rest => some (0, rest)
  | .field f => parseFraction next f
  | .fraction f => parseFraction next f
  | .malformed => none

/-- `parse_hh_mm_ss_ff`: `HH[:?MM[:?SS[{.,}f+]]]`, and whether something is left. -/
def parseClock (next : Char) (s : Text) : Option ((Nat × Nat × Nat × Nat) × Bool) := do
  let (h, r) ← readNumber 2 s
  let extended := r.head? = some ':'
  match follow extended next r with
  | .stop rest => return ((h, 0, 0, 0), rest)
  | .malformed => none
  | .fraction f =>
    let (us, rest) ← parseFraction next f
    return ((h, 0, 0, us), rest)
  | .field r =>
    let (m, r) ← readNumber 2 r
    match follow extended next r with
    | .stop rest => return ((h, m, 0, 0), rest)
    | .malformed => none
    | .fraction f =>
      let (us, rest) ← parseFraction next f
      return ((h, m, 0, us), rest)
    | .field r =>
      let (sec, r) ← readNumber 2 r
      let (us, rest) ← parseTail extended next r
      return ((h, m, sec, us), rest)

def ofClock : Nat × Nat × Nat × Nat → Option Time
  | (h, m, s, us) =>
    if bound : h < 24 ∧ m < 60 ∧ s < 60 ∧ us < 1000000 then
      some ⟨⟨h, bound.1⟩, ⟨m, bound.2.1⟩, ⟨s, bound.2.2.1⟩, ⟨us, bound.2.2.2⟩⟩
    else none

/-- `tzinfo_from_isoformat_results`: without whole seconds the zone is UTC, whatever its
microseconds; `none` is the `ValueError` of `timezone`. -/
def ofOffset (sign : Int) : Nat × Nat × Nat × Nat → Option Offset
  | (h, m, s, us) =>
    let seconds := (h * 60 + m) * 60 + s
    let o := sign * ((seconds * 1000000 + us : Nat) : Int)
    if seconds = 0 then some utcOffset
    else if bound : -(dayMicros : Int) < o ∧ o < dayMicros then some ⟨o, bound⟩ else none

def zoneMark (c : Char) : Bool := c = '+' || c = '-' || c = 'Z'

def parseZone (mark : Char) (zone : Text) : Option Offset :=
  if mark = 'Z' then if leftover nul zone then none else some utcOffset
  else do
    let (fields, rest) ← parseClock nul zone
    if rest then none else ofOffset (if mark = '-' then -1 else 1) fields

/-- `parse_isoformat_time`: up to the first zone mark something may be left. -/
def parseTime (s : Text) : Option (Time × Option Offset) :=
  match s.dropWhile fun c => !zoneMark c with
  | [] => do
    let (fields, rest) ← parseClock nul s
    if rest then none else (ofClock fields).map fun time => (time, none)
  | mark :: zone => do
    let (fields, _) ← parseClock mark (s.takeWhile fun c => !zoneMark c)
    let time ← ofClock fields
    (parseZone mark zone).map fun o => (time, some o)

def isDigitAt (s : Text) (i : Nat) : Bool := (s[i]?).any Char.isDigit

/-- `_find_isoformat_datetime_separator`: where the date part ends. -/
def separatorLocation (s : Text) : Option Nat :=
  if s.length = 7 then some 7
  else if s[4]? = some '-' then
    if s[5]? = some 'W' then
      if 8 < s.length ∧ s[8]? = some '-' then
        if s.length = 9 then none
        else if 10 < s.length ∧ isDigitAt s 10 then some 8
        else some 10
      else some 8
    else some 10
  else if s[4]? = some 'W' then
    let index := 7 + ((s.drop 7).takeWhile Char.isDigit).length
    if index < 9 then some index else if index % 2 = 0 then some 7 else some 8
  else some 8

def parseIso (s : Text) : Option DateTime := do
  if s.length < 7 then none
  let at_ ← separatorLocation s
  let date ← parseDate (s.take at_)
  if s.length ≤ at_ then return ⟨⟨date, ⟨0, 0, 0, 0⟩⟩, none⟩
  let (time, offset) ← parseTime (s.drop (at_ + 1))
  return ⟨⟨date, time⟩, offset⟩

/-- `_sanitize_isoformat_str`: a lone surrogate where a separator may stand becomes `T`. -/
def sanitize (s : PyStr) : PyStr :=
  match [7, 8, 10].find? fun i => (s[i]?).any fun c => !isScalar c with
  | some i => s.set i (ofChar 'T')
  | none => s

/-- `datetime.fromisoformat(s)`. -/
def fromisoformat (s : PyStr) : Option DateTime := (encode (sanitize s)).bind parseIso

end Parser

section ReadBack

theorem readNumber_zfill {w n : Nat} (h : n < 10 ^ w) (r : Text) :
    readNumber w (zfill w n ++ r) = some (n, r) := by
  have front : (zfill w n ++ r).take w = zfill w n := List.take_left' (zfill_length w n)
  have back : (zfill w n ++ r).drop w = r := List.drop_left' (zfill_length w n)
  have digits : (zfill w n).all Char.isDigit = true :=
    List.all_eq_true.mpr fun c hc => digit_of_mem_zfill hc
  rw [readNumber, front, back, if_pos ⟨zfill_length w n, digits⟩, ofDigitChars_zfill h]

theorem sanitize_raw (t : Text) : sanitize (raw t) = raw t := by
  have plain : ∀ i : Nat, ((raw t)[i]?).any (fun c => !isScalar c) = false := by
    intro i
    rw [raw, List.getElem?_map]
    cases t[i]? <;> simp [isScalar_ofChar]
  simp [sanitize, plain]

theorem fromisoformat_raw (t : Text) : fromisoformat (raw t) = parseIso t := by
  rw [fromisoformat, sanitize_raw, encode_raw, Option.bind_some]

theorem expect_self (c : Char) (r : Text) : expect c (c :: r) = some r := if_pos rfl

theorem ofYmd_date (d : Date) : ofYmd d.year d.month d.day = some d := by
  rw [ofYmd, dif_pos ⟨d.year_range, d.month_range, d.day_range⟩]

theorem zfill_head (w n : Nat) : ∃ c t, zfill (w + 1) n = c :: t ∧ c.isDigit := by
  cases same : zfill (w + 1) n with
  | nil => simpa [same] using zfill_length (w + 1) n
  | cons c t => exact ⟨c, t, rfl, digit_of_mem_zfill (by rw [same]; simp)⟩

theorem parseDate_dateText (d : Date) : parseDate (dateText d) = some d := by
  have year := d.year_range
  have month := d.month_range
  have day := d.day_le
  obtain ⟨c, t, head, digit⟩ := zfill_head 1 d.month
  have mark : c ≠ 'W' := by
    rintro rfl
    exact absurd digit (by decide)
  have last : readNumber 2 (zfill 2 d.day) = some (d.day, []) := by
    simpa using readNumber_zfill (w := 2) (n := d.day) (by omega) []
  have middle := readNumber_zfill (w := 2) (n := d.month) (by omega) ('-' :: zfill 2 d.day)
  rw [head, List.cons_append] at middle
  rw [parseDate, dateText, readNumber_zfill (by omega), head]
  simp [expectIf, expect_self, mark, middle, last, ofYmd_date]

theorem follow_colon (next : Char) {s : Text} (nonempty : s ≠ []) :
    follow true next (':' :: s) = .field s := by
  cases s with
  | nil => exact absurd rfl nonempty
  | cons c s => simp [follow]

theorem follow_point (next : Char) {s : Text} (nonempty : s ≠ []) :
    follow true next ('.' :: s) = .fraction s := by
  cases s with
  | nil => exact absurd rfl nonempty
  | cons c s => simp [follow]

theorem parseClock_clockText (next : Char) (t : Time) (f : Text) :
    parseClock next (clockText t ++ f) = (parseTail true next f).map fun p =>
      ((t.hour.val, t.minute.val, t.second.val, p.1), p.2) := by
  have small : ∀ {n : Nat} (i : Fin n), n ≤ 100 → i.val < 10 ^ 2 := fun i h =>
    lt_of_lt_of_le i.isLt h
  have present : ∀ (n : Nat) (r : Text), zfill 2 n ++ r ≠ [] := fun n r =>
    List.ne_nil_of_length_pos (by simp)
  rw [parseClock, clockText]
  simp only [List.append_assoc, List.cons_append]
  rw [readNumber_zfill (small _ (by decide))]
  simp [follow_colon next (present _ _), readNumber_zfill (small t.minute (by decide)),
    readNumber_zfill (small t.second (by decide)), Option.map_eq_bind]

theorem ofClock_time (t : Time) (us : Nat) (h : us = t.microsecond.val) :
    ofClock (t.hour.val, t.minute.val, t.second.val, us) = some t := by
  subst h
  rw [ofClock, dif_pos ⟨t.hour.isLt, t.minute.isLt, t.second.isLt, t.microsecond.isLt⟩]

theorem parseFraction_digits (next : Char) {f : Text} (digits : ∀ c ∈ f, c.isDigit) :
    parseFraction next f =
      some (Nat.ofDigitChars 10 ((f ++ List.replicate 6 '0').take 6) 0, decide (next ≠ nul)) := by
  have front : (f.take 6).all Char.isDigit = true :=
    List.all_eq_true.mpr fun c hc => digits c (List.mem_of_mem_take hc)
  have back : (f.drop 6).dropWhile Char.isDigit = [] :=
    List.dropWhile_eq_nil_iff.mpr fun c hc => digits c (List.mem_of_mem_drop hc)
  rw [parseFraction, if_pos front, back]
  rfl

theorem parseTail_digits (next : Char) {f : Text} (nonempty : f ≠ [])
    (digits : ∀ c ∈ f, c.isDigit) : parseTail true next ('.' :: f) =
      some (Nat.ofDigitChars 10 ((f ++ List.replicate 6 '0').take 6) 0, decide (next ≠ nul)) := by
  rw [parseTail, follow_point next nonempty]
  exact parseFraction_digits next digits

theorem parseTail_microText (next : Char) {n : Nat} (h : n < 1000000) :
    parseTail true next (microText n) = some (n, decide (next ≠ nul)) := by
  unfold microText
  split
  · next zero => rw [zero]; rfl
  · rw [parseTail_digits next (List.ne_nil_of_length_pos (by simp))
      fun c hc => digit_of_mem_zfill hc, List.take_left' (zfill_length 6 n),
      ofDigitChars_zfill (by simpa using h)]

theorem zfill_add_take (a b n : Nat) : (zfill (a + b) n).take a = zfill a (n / 10 ^ b) := by
  induction b generalizing n with
  | zero =>
    simp only [Nat.add_zero, Nat.pow_zero, Nat.div_one]
    exact List.take_of_length_le (by simp)
  | succ b ih =>
    rw [← Nat.add_assoc, zfill, List.take_append_of_le_length (by simp), ih, Nat.div_div_eq_div_mul,
      Nat.pow_succ, Nat.mul_comm]

/-- Digits stripped of trailing zeros and padded again agree on their first digits. -/
theorem take_stripped {w k : Nat} {l : Text} (len : l.length = w + k) :
    (l.rdropWhile (· = '0') ++ List.replicate w '0').take w = l.take w := by
  have padded := rdropWhile_append_replicate '0' l
  generalize l.rdropWhile (· = '0') = s at padded ⊢
  rw [← padded, len]
  simp only [List.take_append, List.take_replicate]
  congr 2
  omega

theorem zfill_zero (w : Nat) : zfill w 0 = List.replicate w '0' := by
  induction w with
  | zero => rfl
  | succ w ih => simp [zfill, ih, List.replicate_succ', Nat.digitChar]

theorem stripped_ne_nil {w n : Nat} (h : n < 10 ^ w) (nonzero : n ≠ 0) :
    (zfill w n).rdropWhile (· = '0') ≠ [] := by
  intro empty
  have zeros : zfill w n = zfill w 0 := by
    rw [← rdropWhile_append_replicate '0' (zfill w n), empty, zfill_zero]
    simp
  exact nonzero (zfill_inj h (Nat.pow_pos (by decide)) zeros)

theorem parseTail_stripped (next : Char) {k n : Nat} (h : n < 10 ^ (6 + k)) (nonzero : n ≠ 0) :
    parseTail true next ('.' :: (zfill (6 + k) n).rdropWhile (· = '0')) =
      some (n / 10 ^ k, decide (next ≠ nul)) := by
  have digits : ∀ c ∈ (zfill (6 + k) n).rdropWhile (· = '0'), c.isDigit := fun c hc =>
    digit_of_mem_zfill ((List.rdropWhile_prefix _ _).subset hc)
  have size : n / 10 ^ k < 10 ^ 6 := by
    rw [Nat.div_lt_iff_lt_mul (Nat.pow_pos (by decide)), ← Nat.pow_add]
    exact h
  rw [parseTail_digits next (stripped_ne_nil h nonzero) digits, take_stripped (zfill_length _ n),
    zfill_add_take 6 k n, ofDigitChars_zfill size]

def clockChar (c : Char) : Bool := c.isDigit || c = ':' || c = '.'

theorem clockText_chars (t : Time) : ∀ c ∈ clockText t, clockChar c := by
  intro c hc
  simp only [clockText, List.mem_append, List.mem_cons] at hc
  simp only [clockChar, Bool.or_eq_true, decide_eq_true_eq]
  rcases hc with h | h | h | h | h
  · exact .inl (.inl (digit_of_mem_zfill h))
  · exact .inl (.inr h)
  · exact .inl (.inl (digit_of_mem_zfill h))
  · exact .inl (.inr h)
  · exact .inl (.inl (digit_of_mem_zfill h))

theorem microText_chars (n : Nat) : ∀ c ∈ microText n, clockChar c := by
  intro c hc
  unfold microText at hc
  split at hc
  · simp at hc
  · simp only [clockChar, Bool.or_eq_true, decide_eq_true_eq]
    rcases List.mem_cons.mp hc with h | h
    · exact .inr h
    · exact .inl (.inl (digit_of_mem_zfill h))

theorem separatorLocation_dateText (d : Date) (sep : Char) (r : Text) :
    separatorLocation (dateText d ++ sep :: r) = some 10 := by
  obtain ⟨c, t, head, digit⟩ := zfill_head 1 d.month
  have mark : c ≠ 'W' := by
    rintro rfl
    exact absurd digit (by decide)
  have long : (dateText d ++ sep :: r).length ≠ 7 := by
    simp only [List.length_append, dateText_length]
    omega
  have dash : (dateText d ++ sep :: r)[4]? = some '-' := by
    simp [dateText]
  have next : (dateText d ++ sep :: r)[5]? = some c := by
    simp [dateText, List.getElem?_append, head]
  rw [separatorLocation, if_neg long, if_pos dash, next, if_neg (by simpa using mark)]

theorem parseIso_dateText (d : Date) (sep : Char) (r : Text) :
    parseIso (dateText d ++ sep :: r) =
      (parseTime r).map fun p => ⟨⟨d, p.1⟩, p.2⟩ := by
  have front : (dateText d ++ sep :: r).take 10 = dateText d :=
    List.take_left' (dateText_length d)
  have back : (dateText d ++ sep :: r).drop (10 + 1) = r := by
    rw [← List.drop_drop, List.drop_left' (dateText_length d)]
    rfl
  have long : ¬ (dateText d ++ sep :: r).length ≤ 10 := by
    simp only [List.length_append, dateText_length, List.length_cons]
    omega
  have enough : ¬ (dateText d ++ sep :: r).length < 7 := by omega
  rw [parseIso, if_neg enough, separatorLocation_dateText]
  simp only [Option.bind_eq_bind, Option.bind_some, front, back, if_neg long,
    parseDate_dateText]
  cases parseTime r <;> rfl

theorem parseClock_zoneText {m : Nat} (h : m < dayMicros) :
    parseClock nul (zoneText m) =
      some ((m / 3600000000, m / 60000000 % 60, m / 1000000 % 60, m % 1000000), false) := by
  simp only [dayMicros] at h
  have minute : m / 60000000 % 60 < 10 ^ 2 := by omega
  have second : m / 1000000 % 60 < 10 ^ 2 := by omega
  have present : ∀ (n : Nat) (r : Text), zfill 2 n ++ r ≠ [] := fun n r =>
    List.ne_nil_of_length_pos (by simp)
  rw [parseClock, zoneText, readNumber_zfill (by omega)]
  simp only [Option.bind_eq_bind, Option.bind_some, List.head?_cons, decide_true,
    follow_colon nul (present _ _)]
  rw [readNumber_zfill minute]
  split
  · next whole =>
    have zeros : m / 1000000 % 60 = 0 ∧ m % 1000000 = 0 := by omega
    simp [zeros, follow, leftover]
  · simp [follow_colon nul (present _ _), readNumber_zfill second,
      parseTail_microText nul (Nat.mod_lt m (by decide))]

theorem zoneText_chars (m : Nat) : ∀ c ∈ zoneText m, clockChar c := by
  have digits : ∀ {w n : Nat} {c : Char}, c ∈ zfill w n → clockChar c := fun h => by
    simp [clockChar, digit_of_mem_zfill h]
  intro c hc
  unfold zoneText at hc
  rcases List.mem_append.mp hc with h | h
  · exact digits h
  · rcases List.mem_cons.mp h with rfl | h
    · rfl
    · rcases List.mem_append.mp h with h | h
      · exact digits h
      · split at h
        · simp at h
        · rcases List.mem_cons.mp h with rfl | h
          · rfl
          · exact (List.mem_append.mp h).elim digits (microText_chars _ c)

theorem offset_natAbs_lt (o : Offset) : o.val.natAbs < dayMicros := by
  have range := o.property
  omega

/-- An offset as its text is read: without whole seconds it is UTC. -/
def readOffset (o : Offset) : Offset := if o.val.natAbs < 1000000 then utcOffset else o

theorem ofOffset_offset (o : Offset) :
    ofOffset (if o.val < 0 then -1 else 1)
      (o.val.natAbs / 3600000000, o.val.natAbs / 60000000 % 60,
        o.val.natAbs / 1000000 % 60, o.val.natAbs % 1000000) = some (readOffset o) := by
  have seconds : (o.val.natAbs / 3600000000 * 60 + o.val.natAbs / 60000000 % 60) * 60 +
      o.val.natAbs / 1000000 % 60 = o.val.natAbs / 1000000 := by
    omega
  have size : o.val.natAbs / 1000000 * 1000000 + o.val.natAbs % 1000000 = o.val.natAbs := by
    omega
  have value : (if o.val < 0 then -1 else 1) * (o.val.natAbs : Int) = o.val := by
    split <;> omega
  have none : o.val.natAbs / 1000000 = 0 ↔ o.val.natAbs < 1000000 := by omega
  simp only [ofOffset, readOffset, seconds, size, value, none, o.property, and_self, dite_true]
  split <;> rfl

theorem not_zoneMark {c : Char} (clock : clockChar c) : zoneMark c = false := by
  simp only [clockChar, Bool.or_eq_true, decide_eq_true_eq] at clock
  have ne : ∀ d, d.isDigit = false → d ≠ ':' → d ≠ '.' → c ≠ d := by
    rintro d other colon point rfl
    rcases clock with (digit | rfl) | rfl
    · simp [digit] at other
    · exact colon rfl
    · exact point rfl
  simp [zoneMark, ne '+' (by decide) (by decide) (by decide),
    ne '-' (by decide) (by decide) (by decide), ne 'Z' (by decide) (by decide) (by decide)]

theorem parseTime_zone {a z : Text} {mark : Char} {o : Offset} (clock : ∀ c ∈ a, clockChar c)
    (marks : zoneMark mark) (offset : parseZone mark z = some o) :
    parseTime (a ++ mark :: z) =
      (parseClock mark a).bind fun p => (ofClock p.1).map fun time => (time, some o) := by
  have plain : ∀ c ∈ a, (!zoneMark c) = true := fun c hc => by simp [not_zoneMark (clock c hc)]
  rw [parseTime, List.dropWhile_append_of_pos plain, List.takeWhile_append_of_pos plain]
  simp [marks, offset, Option.map_eq_bind]

theorem parseZone_zoneText (o : Offset) :
    parseZone (if o.val < 0 then '-' else '+') (zoneText o.val.natAbs) = some (readOffset o) := by
  have read := ofOffset_offset o
  by_cases negative : o.val < 0
  · rw [if_pos negative] at read ⊢
    simp [parseZone, parseClock_zoneText (offset_natAbs_lt o), read]
  · rw [if_neg negative] at read ⊢
    simp [parseZone, parseClock_zoneText (offset_natAbs_lt o), read]

theorem parseTime_naive {a : Text} (clock : ∀ c ∈ a, clockChar c) :
    parseTime a = (parseClock nul a).bind fun p =>
      if p.2 then none else (ofClock p.1).map fun time => (time, none) := by
  have plain : a.dropWhile (fun c => !zoneMark c) = [] :=
    List.dropWhile_eq_nil_iff.mpr fun c hc => by simp [not_zoneMark (clock c hc)]
  rw [parseTime, plain]
  rfl

theorem parseClock_time (next : Char) (t : Time) :
    parseClock next (clockText t ++ microText t.microsecond.val) =
      some ((t.hour.val, t.minute.val, t.second.val, t.microsecond.val), decide (next ≠ nul)) := by
  rw [parseClock_clockText, parseTail_microText next t.microsecond.isLt]
  rfl

def readBack (d : DateTime) : DateTime := ⟨d.wall, d.offset.map readOffset⟩

@[simp] theorem readBack_utcAt (w : Wall) : readBack (utcAt w) = utcAt w := rfl

theorem isoformat_text (w : Wall) (z : Text) :
    secondsText w ++ (microText w.time.microsecond.val ++ z) =
      dateText w.date ++ 'T' :: (clockText w.time ++ microText w.time.microsecond.val ++ z) := by
  simp [secondsText]

theorem fromisoformat_isoformat (d : DateTime) :
    fromisoformat (raw (isoformat d)) = some (readBack d) := by
  obtain ⟨wall, offset⟩ := d
  have plain : ∀ c ∈ clockText wall.time ++ microText wall.time.microsecond.val, clockChar c := by
    intro c hc
    exact (List.mem_append.mp hc).elim (clockText_chars _ c) (microText_chars _ c)
  have time := ofClock_time wall.time _ rfl
  rw [fromisoformat_raw]
  cases offset with
  | none =>
    rw [isoformat, isoformat_text, parseIso_dateText, List.append_nil, parseTime_naive plain,
      parseClock_time]
    simp [time, readBack]
  | some o =>
    have marks : zoneMark (if o.val < 0 then '-' else '+') := by
      split <;> rfl
    have text : isoformat ⟨wall, some o⟩ = secondsText wall ++
        (microText wall.time.microsecond.val ++ offsetText o) := rfl
    rw [text, isoformat_text, parseIso_dateText, offsetText,
      parseTime_zone plain marks (parseZone_zoneText o), parseClock_time]
    simp [time, readBack]

/-- A `Z` reading with any number of digits in its fraction: six of them count. -/
theorem fromisoformat_zulu (w : Wall) {f : Text} {b : Bool} (plain : ∀ c ∈ f, clockChar c)
    (fraction : parseTail true 'Z' f = some (w.time.microsecond.val, b)) :
    fromisoformat (raw (secondsText w ++ (f ++ ['Z']))) = some (utcAt w) := by
  have clock : ∀ c ∈ clockText w.time ++ f, clockChar c := by
    intro c hc
    exact (List.mem_append.mp hc).elim (clockText_chars _ c) (plain c)
  have text : secondsText w ++ (f ++ ['Z']) =
      dateText w.date ++ 'T' :: (clockText w.time ++ f ++ ['Z']) := by
    simp [secondsText]
  have zulu : parseZone 'Z' [] = some utcOffset := rfl
  rw [fromisoformat_raw, text, parseIso_dateText, parseTime_zone clock rfl zulu,
    parseClock_clockText, fraction]
  simp [ofClock_time w.time _ rfl, utcAt]

theorem stripped_chars (w n : Nat) : ∀ c ∈ (zfill w n).rdropWhile (· = '0'), clockChar c := by
  intro c hc
  simp [clockChar, digit_of_mem_zfill ((List.rdropWhile_prefix _ _).subset hc)]

theorem fromisoformat_zuluText (w : Wall) :
    fromisoformat (raw (zuluText w)) = some (utcAt w) := by
  have micro := w.time.microsecond.isLt
  rw [zuluText]
  split
  · next zero =>
    refine fromisoformat_zulu w (f := []) (b := true) (by simp) ?_
    rw [zero]
    rfl
  · next nonzero =>
    have fraction := parseTail_stripped 'Z' (k := 0) micro nonzero
    refine fromisoformat_zulu w (f := '.' :: fracText w.time.microsecond.val)
      (b := decide ('Z' ≠ nul)) ?_ ?_
    · rw [List.forall_mem_cons]
      exact ⟨rfl, stripped_chars 6 _⟩
    · simpa [fracText] using fraction

theorem offsetText_injective : Function.Injective offsetText := by
  intro o p same
  obtain ⟨sign, zone⟩ := List.cons.inj same
  have fields := congrArg (parseClock nul) zone
  rw [parseClock_zoneText (offset_natAbs_lt o), parseClock_zoneText (offset_natAbs_lt p)] at fields
  simp only [Option.some.injEq, Prod.mk.injEq] at fields
  have sizes : o.val.natAbs = p.val.natAbs := by omega
  apply Subtype.ext
  split at sign <;> split at sign
  · omega
  · simp at sign
  · simp at sign
  · omega

theorem isoformat_injective : Function.Injective isoformat := by
  intro a b same
  have read := congrArg (fun t => fromisoformat (raw t)) same
  simp only [fromisoformat_isoformat, Option.some.injEq] at read
  have walls := congrArg DateTime.wall read
  have wall : a.wall = b.wall := walls
  refine DateTime.ext wall ?_
  rw [isoformat, isoformat, wall, List.append_cancel_left_eq, List.append_cancel_left_eq] at same
  cases first : a.offset with
  | none =>
    cases second : b.offset with
    | none => rfl
    | some p => simp [first, second, offsetText] at same
  | some o =>
    cases second : b.offset with
    | none => simp [first, second, offsetText] at same
    | some p =>
      rw [first, second] at same
      rw [offsetText_injective same]

end ReadBack

end AgentTrust.IsoFormat
