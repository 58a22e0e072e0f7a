import AgentTrust.IsoOrder
import AgentTrust.DependencyForms
import AgentTrust.ProofHash

/-! What the two texts of a datetime say about its instant. In UTC the ISO texts are
ordered as the instants are; the canonical text is read back as the instant, and its
fraction ends in a digit that counts. -/

namespace AgentTrust.InstantTexts

open TextCode PyText Gregorian PyDateTime IsoFormat IsoOrder Models Hashing ProofHash
  DependencyForms

section Iso

/-- Of two UTC datetimes, with or without a fraction, the earlier one has the smaller text,
and only one datetime has a given text. -/
theorem isoformat_order (v w : Wall) :
    (textBefore (isoformat (utcAt v)) (isoformat (utcAt w)) ↔
      (utcAt v).instant < (utcAt w).instant) ∧
    (isoformat (utcAt v) = isoformat (utcAt w) ↔ (utcAt v).instant = (utcAt w).instant) := by
  simp only [instant_utcAt, Int.ofNat_lt, Int.ofNat_inj]
  refine ⟨textBefore_now, ?_⟩
  constructor
  · intro same
    have walls := congrArg DateTime.wall (isoformat_injective same)
    exact congrArg Wall.micros walls
  · intro same
    rw [Wall.micros_injective same]

end Iso

section Canonical

def FourDigitYear (d : DateTime) : Prop := ∃ w, d.utcWall = some w ∧ 1000 ≤ w.date.year

def StrippedFraction (t : Text) : Prop :=
  ∀ seconds fraction, t = seconds ++ '.' :: (fraction ++ ['Z']) →
    ∃ c, fraction.getLast? = some c ∧ c ≠ '0' ∧ c ≠ '.'

theorem point_not_mem_secondsText (w : Wall) : '.' ∉ secondsText w := by
  have digits : ∀ {k n : Nat}, '.' ∉ zfill k n := fun h => absurd (digit_of_mem_zfill h) (by decide)
  simp [secondsText, dateText, clockText, digits]

theorem fracText_last {n : Nat} (h : n < 1000000) (nonzero : n ≠ 0) :
    ∃ c, (fracText n).getLast? = some c ∧ c ≠ '0' ∧ c ≠ '.' := by
  have present : fracText n ≠ [] := stripped_ne_nil h nonzero
  refine ⟨_, List.getLast?_eq_some_getLast present, ?_, ?_⟩
  · have stop := List.rdropWhile_last_not (fun c => decide (c = '0')) (zfill 6 n) present
    exact fun zero => stop (decide_eq_true zero)
  · intro point
    have digit := digit_of_mem_zfill ((List.rdropWhile_prefix _ _).subset
      (List.getLast_mem present))
    rw [point] at digit
    exact absurd digit (by decide)

theorem strippedFraction_zuluText (w : Wall) : StrippedFraction (zuluText w) := by
  intro seconds fraction whole
  have micro := w.time.microsecond.isLt
  rw [zuluText] at whole
  split at whole
  · have point : '.' ∈ secondsText w ++ ['Z'] := by simp [whole]
    simp [point_not_mem_secondsText] at point
  · next nonzero =>
    have plain : '.' ∉ fracText w.time.microsecond.val ++ ['Z'] := by
      intro h
      rcases List.mem_append.mp h with digit | zulu
      · exact absurd (digit_of_mem_zfill ((List.rdropWhile_prefix _ _).subset digit)) (by decide)
      · simp at zulu
    obtain ⟨_, rest⟩ := append_sep_inj_once (point_not_mem_secondsText w) plain whole
    rw [← List.append_cancel_right rest]
    exact fracText_last micro nonzero

/-- The canonical text of a datetime is read back as its instant; datetimes have one text
exactly where they denote one instant. -/
theorem formatDatetime_faithful {d e : DateTime} (hd : FourDigitYear d) (he : FourDigitYear e) :
    ∃ t u, formatDatetimeRfc3339nano d = .ok t ∧ formatDatetimeRfc3339nano e = .ok u ∧
      (∃ back, fromisoformat (raw t) = some back ∧ back.instant = d.instant) ∧
      (t = u ↔ d.instant = e.instant) ∧ StrippedFraction t := by
  obtain ⟨v, shifted, _⟩ := hd
  obtain ⟨w, other, _⟩ := he
  have texts := zuluDate_eq_iff (t := e) shifted
  rw [shifted, other] at texts
  refine ⟨zuluText v, zuluText w, by rw [formatDatetimeRfc3339nano, shifted],
    by rw [formatDatetimeRfc3339nano, other], ⟨utcAt v, fromisoformat_zuluText v, ?_⟩, texts,
    strippedFraction_zuluText v⟩
  rw [instant_utcAt, DateTime.micros_utcWall shifted]

theorem formatDatetime_east :
    ∃ t u, formatDatetimeRfc3339nano noonEast = .ok t ∧ formatDatetimeRfc3339nano noon = .ok u ∧
      (∃ back, fromisoformat (raw t) = some back ∧ back.instant = noonEast.instant) ∧
      (t = u ↔ noonEast.instant = noon.instant) ∧ StrippedFraction t :=
  formatDatetime_faithful ⟨january 12, by decide, by decide⟩ ⟨january 12, by decide, by decide⟩

end Canonical

end AgentTrust.InstantTexts
