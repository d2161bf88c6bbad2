import RowLedger.Proofs.Codec.RoundTrip

/-!
An enumeration that is stored by its labels. A label is written exactly and read ignoring case, so
an ordinal is read back as the first one whose label is the same up to case: its own, unless a
variant before it has such a label.
-/

namespace RowLedger

namespace EnumType

variable {e : EnumType} {n : Sized .i64} {label : String}

/-- No two variants have the same ordinal. -/
def OrdinalsDistinct (e : EnumType) : Prop := (e.variants.map Prod.snd).Nodup

/-- The later one of two variants with the same label up to case is shadowed by the earlier one. -/
theorem shadowed_of_sameName (h : e.OrdinalsDistinct) {i j : ℕ} (hij : i < j)
    (hj : j < e.variants.length)
    (hsame : Text.sameName e.variants[i].1 e.variants[j].1 = true) :
    e.Shadowed e.variants[j].2 := by
  have hsplit : e.variants = e.variants.take j ++ e.variants[j] :: e.variants.drop (j + 1) := by
    rw [← List.drop_eq_getElem_cons hj, List.take_append_drop]
  refine ⟨_, _, _, hsplit, rfl, fun u hu heq => ?_, e.variants[i],
    List.mem_take_iff_getElem.2 ⟨i, by omega, rfl⟩, hsame⟩
  rw [OrdinalsDistinct, hsplit, List.map_append, List.map_cons, List.nodup_append] at h
  exact h.2.2 _ (List.mem_map_of_mem hu) _ (List.mem_cons_self ..) heq

theorem labelsDistinct_iff (h : e.OrdinalsDistinct) :
    e.LabelsDistinct ↔ ∀ n, ¬e.Shadowed n := by
  refine ⟨fun hlabels _ => hlabels.not_shadowed, fun hnone => ?_⟩
  rw [LabelsDistinct, List.Nodup, List.pairwise_map, List.pairwise_iff_getElem]
  intro i j _ hj hij heq
  exact hnone _ (shadowed_of_sameName h hij hj (Text.sameName_iff.2 heq))

theorem Shadowed.labelled (h : e.Shadowed n) : ∃ label, e.label? n = some label :=
  h.read.imp fun _ hread => hread.choose_spec.1

end EnumType

namespace Value

variable {e : EnumType} {n : Sized .i64} {label : String}

/-- What is read is the ordinal itself unless a variant before it has the label up to case. -/
theorem exists_ofSql_label (htext : e.asText = true) (h : e.label? n = some label) :
    ∃ m, e.ordinal? label = some m ∧ (enum e n).toSql = .ok (.text label) ∧
      ofSql (.enum e) (.text label) = .ok (enum e m) ∧ (m = n ↔ ¬e.Shadowed n) := by
  have hread := EnumType.restored_of_label? htext h
  refine ⟨e.restored n, hread, toSql_label htext h, ofSql_label hread, ?_⟩
  rw [EnumType.restored_eq_iff, htext, eq_self, true_and]

/-- An ordinal with a label is stored as the label, and read back as the first ordinal of the label
up to case. That is its own one unless a variant before it has the label, so all of them are read
back where the labels differ in more than case, and only there. -/
theorem ofSql_toSql_label (htext : e.asText = true) (hordinals : e.OrdinalsDistinct) :
    (∀ n label, e.label? n = some label →
      ∃ m, e.ordinal? label = some m ∧ (enum e n).toSql = .ok (.text label) ∧
        ofSql (.enum e) (.text label) = .ok (enum e m) ∧ (m = n ↔ ¬e.Shadowed n)) ∧
    ((∀ n label, e.label? n = some label →
        ∃ x, (enum e n).toSql = .ok x ∧ ofSql (.enum e) x = .ok (enum e n)) ↔
      e.LabelsDistinct) := by
  refine ⟨fun n label h => exists_ofSql_label htext h, ?_⟩
  rw [EnumType.labelsDistinct_iff hordinals]
  constructor
  · intro hall n hn
    obtain ⟨label, hlabel⟩ := hn.labelled
    obtain ⟨m, -, hstored, hread, heq⟩ := exists_ofSql_label htext hlabel
    obtain ⟨x, hx, hsame⟩ := hall n label hlabel
    cases hstored.symm.trans hx
    cases hread.symm.trans hsame
    exact heq.1 rfl hn
  · intro hnone n label hlabel
    obtain ⟨m, -, hstored, hread, heq⟩ := exists_ofSql_label htext hlabel
    exact ⟨_, hstored, by rw [hread, heq.2 (hnone n)]⟩

end Value

namespace Samples

def grade : EnumType := enumOf "Grade" true [("Ab", 0), ("AB", 1)]

/-- Two labels that differ in case alone: the second ordinal is read back as the first one. -/
theorem grade_not_read_back :
    grade.label? (ordinal 1) = some "AB" ∧
      (Value.enum grade (ordinal 1)).toSql = .ok (.text "AB") ∧
      Value.ofSql (.enum grade) (.text "AB") = .ok (.enum grade (ordinal 0)) := by
  have hlabel : grade.label? (ordinal 1) = some "AB" := by decide
  have hfirst : grade.ordinal? "AB" = some (ordinal 0) := by decide
  have hordinals : grade.OrdinalsDistinct := by
    unfold EnumType.OrdinalsDistinct
    decide
  obtain ⟨hback, -⟩ := Value.ofSql_toSql_label rfl hordinals
  obtain ⟨m, hm, hstored, hread, -⟩ := hback _ _ hlabel
  cases hfirst.symm.trans hm
  exact ⟨hlabel, hstored, hread⟩

end Samples

end RowLedger
