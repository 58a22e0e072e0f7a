import AgentTrust.IsoFormat

/-! The order of ISO texts. Texts are compared byte by byte, which for UTF-8 is by code
points. On texts that `isoformat` writes the order is that of the wall readings, and
of the zones where the readings are one; instants are ordered so only in one zone. -/

namespace AgentTrust.IsoOrder

open TextCode PyText Gregorian PyDateTime IsoFormat

/-- `a < b` on `TEXT` values under the default binary collation. -/
def textBefore (a b : Text) : Bool := a.lex b fun c d => decide (c.toNat < d.toNat)

theorem textBefore_iff {a b : Text} :
    textBefore a b ↔ List.Lex (fun c d : Char => c.toNat < d.toNat) a b := by
  rw [textBefore, List.lex_eq_true_iff_lex]
  simp only [decide_eq_true_eq]

theorem textBefore_irrefl (a : Text) : textBefore a a = false := by
  rw [Bool.eq_false_iff]
  intro h
  exact List.lex_irrefl (fun c => Nat.lt_irrefl c.toNat) a (textBefore_iff.mp h)

theorem textBefore_asymm {a b : Text} (h : textBefore a b) : textBefore b a = false := by
  rw [Bool.eq_false_iff]
  intro back
  have asymm : ∀ {c d : Char}, c.toNat < d.toNat → ¬ d.toNat < c.toNat := Nat.lt_asymm
  exact List.lex_asymm asymm (textBefore_iff.mp h) (textBefore_iff.mp back)

theorem textBefore_append {a b : Text} (h : textBefore a b) (len : a.length = b.length)
    (r s : Text) : textBefore (a ++ r) (b ++ s) :=
  textBefore_iff.mpr (lex_append_of_length (textBefore_iff.mp h) len r s)

theorem textBefore_append_left (c : Text) {a b : Text} (h : textBefore a b) :
    textBefore (c ++ a) (c ++ b) :=
  textBefore_iff.mpr (List.Lex.append_left _ (textBefore_iff.mp h) c)

theorem textBefore_cons (c : Char) {a b : Text} (h : textBefore a b) :
    textBefore (c :: a) (c :: b) := textBefore_append_left [c] h

theorem textBefore_head {c d : Char} (h : c.toNat < d.toNat) (a b : Text) :
    textBefore (c :: a) (d :: b) := textBefore_iff.mpr (.rel h)

theorem textBefore_zfill {w m n : Nat} (hn : n < 10 ^ w) (h : m < n) :
    textBefore (zfill w m) (zfill w n) := textBefore_iff.mpr (zfill_lt hn h)

section Readings

theorem textBefore_dateText {a b : Date} (h : a.Before b) :
    textBefore (dateText a) (dateText b) := by
  have year := b.year_range
  have month := b.month_range
  have day := b.day_le
  rcases h with years | ⟨year_eq, months | ⟨month_eq, days⟩⟩
  · exact textBefore_append (textBefore_zfill (by omega) years) (by simp) _ _
  · rw [dateText, dateText, year_eq]
    exact textBefore_append_left _ (textBefore_cons '-'
      (textBefore_append (textBefore_zfill (by omega) months) (by simp) _ _))
  · rw [dateText, dateText, year_eq, month_eq]
    exact textBefore_append_left _ (textBefore_cons '-' (textBefore_append_left _
      (textBefore_cons '-' (textBefore_zfill (by omega) days))))

theorem textBefore_clockText {s t : Time}
    (h : s.hour.val < t.hour.val ∨ s.hour.val = t.hour.val ∧ (s.minute.val < t.minute.val ∨
      s.minute.val = t.minute.val ∧ s.second.val < t.second.val)) :
    textBefore (clockText s) (clockText t) := by
  have hour := t.hour.isLt
  have minute := t.minute.isLt
  have second := t.second.isLt
  rcases h with hours | ⟨hour_eq, minutes | ⟨minute_eq, seconds⟩⟩
  · exact textBefore_append (textBefore_zfill (by omega) hours) (by simp) _ _
  · rw [clockText, clockText, hour_eq]
    exact textBefore_append_left _ (textBefore_cons ':'
      (textBefore_append (textBefore_zfill (by omega) minutes) (by simp) _ _))
  · rw [clockText, clockText, hour_eq, minute_eq]
    exact textBefore_append_left _ (textBefore_cons ':' (textBefore_append_left _
      (textBefore_cons ':' (textBefore_zfill (by omega) seconds))))

/-- A fraction goes before the one of a later microsecond, whichever zones follow: a
sign is smaller than the point that a fraction starts with. -/
theorem textBefore_micro {m n : Nat} (hn : n < 1000000) (h : m < n) {c d : Char} (r s : Text)
    (sign : c.toNat < '.'.toNat) :
    textBefore (microText m ++ c :: r) (microText n ++ d :: s) := by
  rw [microText, microText, if_neg (by omega : n ≠ 0)]
  split
  · exact textBefore_head sign _ _
  · exact textBefore_cons '.' (textBefore_append (textBefore_zfill hn h) (by simp) _ _)

theorem textBefore_reading {v w : Wall} (h : v.micros < w.micros) {c d : Char} (r s : Text)
    (sign : c.toNat < '.'.toNat) :
    textBefore (secondsText v ++ (microText v.time.microsecond.val ++ c :: r))
      (secondsText w ++ (microText w.time.microsecond.val ++ d :: s)) := by
  have early := v.time.micros_lt
  have late := w.time.micros_lt
  simp only [Wall.micros] at h
  rcases v.date.trichotomy w.date with days | day | days
  · refine textBefore_append ?_ (by simp) _ _
    exact textBefore_append (textBefore_dateText days) (by simp [dateText_length]) _ _
  · rw [day] at h
    have times : v.time.micros < w.time.micros := by omega
    simp only [Time.micros] at times
    have minute := v.time.minute.isLt
    have minute' := w.time.minute.isLt
    have second := v.time.second.isLt
    have second' := w.time.second.isLt
    have micro := v.time.microsecond.isLt
    have micro' := w.time.microsecond.isLt
    by_cases clock : v.time.hour.val = w.time.hour.val ∧ v.time.minute.val = w.time.minute.val ∧
        v.time.second.val = w.time.second.val
    · obtain ⟨hour, minute, second⟩ := clock
      have seconds : secondsText v = secondsText w := by
        rw [secondsText, secondsText, clockText, clockText, day, hour, minute, second]
      rw [seconds]
      exact textBefore_append_left _ (textBefore_micro micro' (by omega) r s sign)
    · refine textBefore_append ?_ (by simp) _ _
      rw [secondsText, secondsText, day]
      refine textBefore_append_left _ (textBefore_cons 'T' (textBefore_clockText ?_))
      omega
  · have earlier := Date.toordinal_lt days
    simp only [dayMicros] at *
    omega

end Readings

section Zones

theorem isoformat_zone (w : Wall) (o : Offset) :
    ∃ c z, (c = '+' ∨ c = '-') ∧ isoformat ⟨w, some o⟩ =
      secondsText w ++ (microText w.time.microsecond.val ++ c :: z) := by
  refine ⟨_, zoneText o.val.natAbs, ?_, rfl⟩
  split
  · exact .inr rfl
  · exact .inl rfl

theorem textBefore_isoformat {v w : Wall} (o p : Offset) (h : v.micros < w.micros) :
    textBefore (isoformat ⟨v, some o⟩) (isoformat ⟨w, some p⟩) := by
  obtain ⟨c, r, sign, left⟩ := isoformat_zone v o
  obtain ⟨d, s, _, right⟩ := isoformat_zone w p
  rw [left, right]
  exact textBefore_reading h r s (by rcases sign with rfl | rfl <;> decide)

theorem textBefore_utcZone {o : Offset} (other : o ≠ utcOffset) :
    textBefore (offsetText utcOffset) (offsetText o) := by
  have nonzero : o.val ≠ 0 := fun zero => other (Subtype.ext zero)
  have bound := offset_natAbs_lt o
  simp only [dayMicros] at bound
  have utc : offsetText utcOffset = '+' :: (zfill 2 0 ++ ':' :: (zfill 2 0 ++ [])) := rfl
  rw [utc, offsetText]
  split
  · exact textBefore_head (by decide) _ _
  · refine textBefore_cons '+' ?_
    rw [zoneText]
    by_cases hours : o.val.natAbs / 3600000000 = 0
    · rw [hours]
      refine textBefore_append_left _ (textBefore_cons ':' ?_)
      by_cases minutes : o.val.natAbs / 60000000 % 60 = 0
      · rw [minutes]
        refine textBefore_append_left _ ?_
        rw [if_neg (by omega)]
        rfl
      · exact textBefore_append (textBefore_zfill (by omega) (by omega)) (by simp) _ _
    · exact textBefore_append (textBefore_zfill (by omega) (by omega)) (by simp) _ _

theorem textBefore_now {w now : Wall} {o : Offset} :
    textBefore (isoformat ⟨w, some o⟩) (isoformat (utcAt now)) ↔ w.micros < now.micros := by
  constructor
  · intro h
    by_contra late
    rcases Nat.lt_or_eq_of_le (not_lt.mp late) with later | same
    · rw [utcAt, textBefore_asymm (textBefore_isoformat utcOffset o later)] at h
      simp at h
    · obtain rfl := Wall.micros_injective same
      by_cases utc : o = utcOffset
      · rw [utc, ← utcAt, textBefore_irrefl] at h
        simp at h
      · have zone := textBefore_asymm (textBefore_append_left (secondsText now)
          (textBefore_append_left (microText now.time.microsecond.val) (textBefore_utcZone utc)))
        exact absurd (zone.symm.trans h) (by simp)
  · exact textBefore_isoformat o utcOffset

theorem now_textBefore {w now : Wall} {o : Offset} :
    textBefore (isoformat (utcAt now)) (isoformat ⟨w, some o⟩) ↔
      now.micros < w.micros ∨ now.micros = w.micros ∧ o ≠ utcOffset := by
  constructor
  · intro h
    rcases Nat.lt_trichotomy now.micros w.micros with earlier | same | later
    · exact .inl earlier
    · refine .inr ⟨same, ?_⟩
      rintro rfl
      obtain rfl := Wall.micros_injective same
      rw [← utcAt, textBefore_irrefl] at h
      simp at h
    · exact absurd h (by rw [textBefore_asymm (textBefore_now.mpr later)]; simp)
  · rintro (earlier | ⟨same, other⟩)
    · exact textBefore_isoformat utcOffset o earlier
    · obtain rfl := Wall.micros_injective same
      exact textBefore_append_left _ (textBefore_append_left _ (textBefore_utcZone other))

end Zones

end AgentTrust.IsoOrder
