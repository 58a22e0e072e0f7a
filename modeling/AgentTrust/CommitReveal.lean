import Mathlib.Tactic.Common

/-! A check of revealed content against a committed digest. The verifier has the digest
recomputed from the content, the digest declared beside it, and the record that a
registry holds, if the registry can be consulted. What it finds is one of five
things; a ruling turns the finding into a report, or into none. -/

namespace AgentTrust.CommitReveal

inductive Finding where
  | mismatch
  | unavailable
  | conflict
  | unconfirmed
  | confirmed
  deriving DecidableEq

structure Record (δ : Type) where
  digest : δ
  confirmed : Bool

section Findings

variable {δ ε : Type} {agrees : δ → ε → Bool} {recomputed : δ} {declared : ε}
  {record : Option (Record δ)}

def recordFinding (agrees : δ → ε → Bool) (declared : ε) : Option (Record δ) → Finding
  | none => .unavailable
  | some r =>
    if agrees r.digest declared then
      if r.confirmed then .confirmed else .unconfirmed
    else .conflict

/-- The content is checked first, then the record. -/
def finding (agrees : δ → ε → Bool) (recomputed : δ) (declared : ε)
    (record : Option (Record δ)) : Finding :=
  if agrees recomputed declared then recordFinding agrees declared record else .mismatch

/-- Something was found that cannot be the committed content. -/
def Finding.Grounds (f : Finding) : Prop := f = .mismatch ∨ f = .conflict

def Finding.Open (f : Finding) : Prop := f = .unavailable ∨ f = .unconfirmed

theorem recordFinding_eq_confirmed :
    recordFinding agrees declared record = .confirmed ↔
      ∃ r, record = some r ∧ agrees r.digest declared = true ∧ r.confirmed = true := by
  unfold recordFinding
  cases record with
  | none => simp
  | some r => cases agree : agrees r.digest declared <;> cases final : r.confirmed <;>
      simp [agree, final]

theorem finding_eq_confirmed :
    finding agrees recomputed declared record = .confirmed ↔
      agrees recomputed declared = true ∧
        ∃ r, record = some r ∧ agrees r.digest declared = true ∧ r.confirmed = true := by
  unfold finding
  cases content : agrees recomputed declared with
  | false => simp
  | true => simp [recordFinding_eq_confirmed]

theorem grounds_recordFinding :
    (recordFinding agrees declared record).Grounds ↔
      ∃ r, record = some r ∧ agrees r.digest declared = false := by
  unfold recordFinding Finding.Grounds
  cases record with
  | none => simp
  | some r => cases agree : agrees r.digest declared <;> cases final : r.confirmed <;>
      simp [agree, final]

theorem open_recordFinding :
    (recordFinding agrees declared record).Open ↔
      ∀ r, record = some r → agrees r.digest declared = true ∧ r.confirmed = false := by
  unfold recordFinding Finding.Open
  cases record with
  | none => simp
  | some r => cases agree : agrees r.digest declared <;> cases final : r.confirmed <;>
      simp [agree, final]

theorem grounds_finding :
    (finding agrees recomputed declared record).Grounds ↔
      agrees recomputed declared = false ∨
        ∃ r, record = some r ∧ agrees r.digest declared = false := by
  unfold finding
  cases content : agrees recomputed declared with
  | false => simp [Finding.Grounds]
  | true => simp [grounds_recordFinding]

theorem open_finding :
    (finding agrees recomputed declared record).Open ↔
      agrees recomputed declared = true ∧
        ∀ r, record = some r → agrees r.digest declared = true ∧ r.confirmed = false := by
  unfold finding
  cases content : agrees recomputed declared with
  | false => simp [Finding.Open]
  | true => simp [open_recordFinding]

end Findings

section Rulings

variable {ρ : Type} {accept accuse : ρ}

/-- Accuse on grounds only. -/
def just (accept accuse : ρ) : Finding → Option ρ
  | .confirmed => some accept
  | .mismatch => some accuse
  | .conflict => some accuse
  | .unavailable => none
  | .unconfirmed => none

/-- Accuse whenever the content is not confirmed. -/
def hasty (accept accuse : ρ) (f : Finding) : Option ρ :=
  some (if f = .confirmed then accept else accuse)

theorem just_eq_accuse (apart : accept ≠ accuse) {f : Finding} :
    just accept accuse f = some accuse ↔ f.Grounds := by
  cases f <;> simp [just, Finding.Grounds, apart]

theorem just_eq_none {f : Finding} : just accept accuse f = none ↔ f.Open := by
  cases f <;> simp [just, Finding.Open]

theorem hasty_eq_accuse (apart : accept ≠ accuse) {f : Finding} :
    hasty accept accuse f = some accuse ↔ f.Grounds ∨ f.Open := by
  cases f <;> simp [hasty, Finding.Grounds, Finding.Open, apart]

/-- The finding once content other than the expected one counts as a conflict. -/
def Finding.expecting (unexpected : Bool) : Finding → Finding
  | .confirmed => if unexpected then .conflict else .confirmed
  | .unconfirmed => if unexpected then .conflict else .unconfirmed
  | f => f

@[simp] theorem Finding.expecting_false (f : Finding) : f.expecting false = f := by
  cases f <;> rfl

theorem Finding.expecting_eq_confirmed {f : Finding} {unexpected : Bool} :
    f.expecting unexpected = .confirmed ↔ f = .confirmed ∧ unexpected = false := by
  cases f <;> cases unexpected <;> simp [expecting]

/-- With some content expected, a record leaves a doubt only where it agrees, is not
confirmed, and nothing unexpected was revealed. -/
theorem not_open_expecting {δ ε : Type} {agrees : δ → ε → Bool} {declared : ε}
    {record : Option (Record δ)} {unexpected : Bool} :
    ¬ ((recordFinding agrees declared record).expecting unexpected).Open ↔
      ∃ r, record = some r ∧
        (agrees r.digest declared = false ∨ unexpected = true ∨ r.confirmed = true) := by
  unfold recordFinding Finding.Open
  cases record with
  | none => simp [Finding.expecting]
  | some r =>
    cases agree : agrees r.digest declared <;> cases final : r.confirmed <;>
      cases unexpected <;> simp [agree, final, Finding.expecting]

end Rulings

end AgentTrust.CommitReveal
