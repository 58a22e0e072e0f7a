import AgentTrust.Publication

/-! The JSON text of a stored proof. Text in the order of the keys is exact on values
whose strings are Unicode, so a library that writes it and reads it back behaves as
documented; the dump of a proof is such a value as far as its contents are. -/

namespace AgentTrust.StoredJson

open JsonTree JsonTree.Json JsonText PyText PyJson PyDateTime PyValue Models Publication

section Strings

theorem scalarStrings_dependency (d : Dependency) : scalarStrings d.dump := by
  have evaluations : scalarStrings (list DependencyEvaluationOf.dump d.evaluations) :=
    scalarStrings_list fun e _ => scalarStrings_record (by simp)
  exact scalarStrings_record (by simp [evaluations])

theorem scalarStrings_storedProof {p : StoredProof}
    (invocation : scalarStrings (.obj p.proofData.task.invocation))
    (outcome : scalarStrings (.obj p.proofData.task.outcome)) : scalarStrings p.dump := by
  have task : scalarStrings p.proofData.task.dump :=
    scalarStrings_record (by simp [invocation, outcome])
  have dependencies : scalarStrings (list DependencyOf.dump p.proofData.dependencies) :=
    scalarStrings_list fun d _ => scalarStrings_dependency d
  have data : scalarStrings p.proofData.dump :=
    scalarStrings_record (by simp [task, dependencies])
  exact scalarStrings_record (by simp [data])

end Strings

section Text

/-- Compact JSON text with the keys in the order that they are stored in. -/
def jsonText (v : JsonValue) : Text := render asciiLexicon (v.map utf16)

theorem jsonText_inj {v w : JsonValue} (hv : scalarStrings v) (hw : scalarStrings w)
    (same : jsonText v = jsonText w) : v = w :=
  map_inj_of_stringsAll (fun _ _ hs ht => utf16_inj_of_scalar hs ht) hv hw
    (render_injective asciiLexicon same)

open Classical in
/-- A library that writes JSON as `jsonText` and reads exactly that, as deep as it reads. -/
noncomputable def textLibrary : Library :=
  { minuteLibrary with
    dumpJson := fun v => if scalarStrings v then some (jsonText v) else none
    parseJson := fun t =>
      if h : ∃ v, scalarStrings v ∧ v.depth ≤ minuteLibrary.nesting ∧ jsonText v = t then
        some h.choose
      else none }

theorem textLibrary_dumpJson {v : JsonValue} (h : scalarStrings v) :
    textLibrary.dumpJson v = some (jsonText v) := if_pos h

theorem textLibrary_dumpable (v : JsonValue) : textLibrary.dumpable v = scalarStrings v := rfl

theorem rowOf_textLibrary {p : StoredProof} (h : scalarStrings p.dump) :
    Storage.SQLiteProofStore.rowOf textLibrary p =
      some ⟨jsonText p.dump, isoformat p.expiresAt⟩ := by
  rw [Storage.SQLiteProofStore.rowOf, textLibrary_dumpJson h]
  rfl

theorem scalar_of_textLibrary {v : JsonValue} {t : Text} (h : textLibrary.dumpJson v = some t) :
    scalarStrings v ∧ jsonText v = t := by
  by_cases scalar : scalarStrings v
  · exact ⟨scalar, Option.some.inj ((textLibrary_dumpJson scalar).symm.trans h)⟩
  · rw [show textLibrary.dumpJson v = none from if_neg scalar] at h
    simp at h

theorem textLibrary_parseJson {v : JsonValue} {t : Text} (h : textLibrary.dumpJson v = some t)
    (shallow : v.depth ≤ textLibrary.nesting) : textLibrary.parseJson t = some v := by
  obtain ⟨scalar, rfl⟩ := scalar_of_textLibrary h
  have known : ∃ w, scalarStrings w ∧ w.depth ≤ minuteLibrary.nesting ∧ jsonText w = jsonText v :=
    ⟨v, scalar, shallow, rfl⟩
  have parsed : textLibrary.parseJson (jsonText v) = some known.choose := dif_pos known
  rw [parsed, jsonText_inj known.choose_spec.1 scalar known.choose_spec.2.2]

theorem textLibrary_parseJson_deep {v : JsonValue} {t : Text}
    (h : textLibrary.dumpJson v = some t) (deep : textLibrary.nesting < v.depth) :
    textLibrary.parseJson t = none := by
  obtain ⟨scalar, rfl⟩ := scalar_of_textLibrary h
  refine dif_neg ?_
  rintro ⟨w, scalar', shallow, same⟩
  rw [jsonText_inj scalar' scalar same] at shallow
  exact absurd deep (not_lt.mpr shallow)

theorem reads_textLibrary {d : DateTime} (whole : MinuteZone d) : Reads textLibrary d :=
  readsIso_minuteLibrary.reads d whole

theorem readsIso_textLibrary : ReadsIso textLibrary :=
  ⟨readsIso_minuteLibrary.reads, readsIso_minuteLibrary.rejects⟩

theorem textLibrary_documented : Documented textLibrary where
  reads := fun w => reads_textLibrary (minuteZone_utcAt w)
  json := fun _ _ _ shallow dumped => textLibrary_parseJson dumped shallow

end Text

end AgentTrust.StoredJson
