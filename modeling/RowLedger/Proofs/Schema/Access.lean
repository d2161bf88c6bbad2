import RowLedger.Proofs.Codec.RoundTrip
import RowLedger.Proofs.Schema.Fields

/-!
Records as a mapping writes and reads them. Every column has a field of its own or none, so that a
write to one column leaves what the others hold.
-/

namespace RowLedger

theorem FieldType.readKind_eq {k : Kind} {v w : Value} (hkind : v.kind? = some k)
    (h : readKind k v = .ok w) : w = v := by
  unfold readKind at h
  split at h
  · -- an enumeration takes its own ordinals and those of others
    cases v with
    | enum e n =>
      cases hkind
      rw [Value.int?] at h
      dsimp only at h
      split at h
      · cases h
        rfl
      · cases h
    | _ => cases hkind
  · rw [if_pos hkind] at h
    cases h
    rfl

/-- A value of the kind of a field is held as it is. -/
theorem FieldType.eq_of_read {t : FieldType} {v w : Value} (hkind : v.kind? = some t.kind)
    (h : t.read v = .ok w) : w = v := by
  unfold read at h
  split at h
  · cases h
    rfl
  · exact readKind_eq hkind h

/-- A record with one value for each field. -/
def Entity.Complete (e : Entity) : Prop := e.values.length = e.type.slots.length

/-- Two records of one type that hold the same in some of their fields. -/
structure Entity.Alike (kept : Nat → Prop) (e e' : Entity) : Prop where
  type : e'.type = e.type
  length : e'.values.length = e.values.length
  get : ∀ p, kept p → e'.get p = e.get p

namespace Entity

variable {e e₁ e₂ : Entity} {kept kept' : Nat → Prop}

theorem Alike.refl (kept : Nat → Prop) (e : Entity) : Alike kept e e := ⟨rfl, rfl, fun _ _ => rfl⟩

theorem Alike.trans (h₁ : Alike kept e e₁) (h₂ : Alike kept e₁ e₂) : Alike kept e e₂ :=
  ⟨h₂.type.trans h₁.type, h₂.length.trans h₁.length,
    fun p hp => (h₂.get p hp).trans (h₁.get p hp)⟩

theorem Alike.mono (h : Alike kept e e₁) (hkept : ∀ p, kept' p → kept p) : Alike kept' e e₁ :=
  ⟨h.type, h.length, fun p hp => h.get p (hkept p hp)⟩

theorem Alike.complete (h : Alike kept e e₁) (he : e.Complete) : e₁.Complete := by
  rw [Complete, h.length, h.type]
  exact he

theorem alike_of_set {i : Nat} {v : Value} (h : e.set i v = .ok e₁) : Alike (· ≠ i) e e₁ := by
  unfold set at h
  split at h
  · cases h
    exact .refl _ e
  · obtain ⟨w, -, h⟩ := except_bind_ok.1 h
    cases h
    refine ⟨rfl, List.length_set .., fun p hp => ?_⟩
    rw [get, get, List.getElem?_set_ne (Ne.symm hp)]

/-- A value that is written is there as the field takes it. -/
theorem read_of_set {i : Nat} {f : Field} {v : Value} (he : e.Complete)
    (hf : e.type.fields[i]? = some f) (h : e.set i v = .ok e₁) :
    f.type.read v = .ok (e₁.get i) := by
  rw [set, hf] at h
  obtain ⟨w, hw, h⟩ := except_bind_ok.1 h
  cases h
  have hlt : i < e.values.length := by
    obtain ⟨hlt, -⟩ := List.getElem?_eq_some_iff.1 hf
    rw [RecordType.fields, List.length_map] at hlt
    rw [he]
    exact hlt
  rw [get, List.getElem?_set_self hlt, Option.getD_some]
  exact hw

/-- A value of the kind of the field is there once it is written. -/
theorem get_of_set {i : Nat} {f : Field} {v : Value} (he : e.Complete)
    (hf : e.type.fields[i]? = some f) (hkind : v.kind? = some f.type.kind)
    (h : e.set i v = .ok e₁) : e₁.get i = v :=
  FieldType.eq_of_read hkind (read_of_set he hf h)

end Entity

namespace Mapping

/-- The position of the field behind a column. -/
def field? (m : Mapping) (i : Nat) : Option Nat := (m.column? i).bind Column.field

theorem field?_of_column? {m : Mapping} {i : Nat} {c : Column} (hc : m.column? i = some c) :
    m.field? i = c.field := by
  rw [field?, hc, Option.bind_some]

theorem get_of_field? {m : Mapping} {i p : Nat} (hp : m.field? i = some p) (e : Entity) :
    m.get e i = e.get p := by
  unfold field? at hp
  rw [get, hp]

theorem get_of_field?_eq_none {m : Mapping} {i : Nat} (hp : m.field? i = none) (e : Entity) :
    m.get e i = .null := by
  unfold field? at hp
  rw [get, hp]

theorem set_of_field? {m : Mapping} {i p : Nat} (hp : m.field? i = some p) (e : Entity)
    (v : Value) : m.set e i v = e.set p v := by
  unfold field? at hp
  rw [set, hp]

theorem set_of_field?_eq_none {m : Mapping} {i : Nat} (hp : m.field? i = none) (e : Entity)
    (v : Value) : m.set e i v = .ok e := by
  unfold field? at hp
  rw [set, hp]

theorem alike_of_set {m : Mapping} {i : Nat} {v : Value} {e e' : Entity}
    (h : m.set e i v = .ok e') : Entity.Alike (fun p => m.field? i ≠ some p) e e' := by
  cases hp : m.field? i with
  | none =>
    rw [set_of_field?_eq_none hp] at h
    cases h
    exact .refl _ e
  | some p =>
    rw [set_of_field? hp] at h
    exact (Entity.alike_of_set h).mono fun q hq hqp => hq (congrArg some hqp.symm)

/-! Which field is behind a column. -/

theorem pairwise_kept (fields : List Field) : (kept fields).Pairwise fun p q => p.2 < q.2 := by
  have hpositions : fields.zipIdx.Pairwise fun p q => p.2 < q.2 := by
    rw [← List.pairwise_map, List.zipIdx_map_snd]
    exact List.pairwise_lt_range'
  exact hpositions.sublist List.filter_sublist

theorem getElem?_of_mem_kept {fields : List Field} {p : Field × Nat} (hp : p ∈ kept fields) :
    fields[p.2]? = some p.1 :=
  List.mem_zipIdx_iff_getElem?.1 (List.mem_of_mem_filter hp)

/-- A position is that of one kept field only. -/
theorem kept_index_inj {fields : List Field} {i j : Nat} {p q : Field × Nat}
    (hp : (kept fields)[i]? = some p) (hq : (kept fields)[j]? = some q) (hpq : p.2 = q.2) :
    i = j := by
  have hnodup : ((kept fields).map Prod.snd).Nodup := by
    rw [List.Nodup, List.pairwise_map]
    exact (pairwise_kept fields).imp Nat.ne_of_lt
  have hi : ((kept fields).map Prod.snd)[i]? = some p.2 := by rw [List.getElem?_map, hp]; rfl
  have hj : ((kept fields).map Prod.snd)[j]? = some q.2 := by rw [List.getElem?_map, hq]; rfl
  refine (List.getElem?_inj (List.getElem?_eq_some_iff.1 hi).1 hnodup).1 ?_
  rw [hi, hj, hpq]

namespace Represents

variable {m : Mapping} {fields : List Field} {i j : Nat} {c : Column}

/-- An added column has no field, and any other has that of the kept field at its place. -/
theorem behind (h : m.Represents fields) (hc : m.column? i = some c) :
    (i = m.sync ∧ c.field = none) ∨ ∃ p, (kept fields)[i]? = some p ∧ c.Shows p.1 p.2 := by
  obtain ⟨shown, added, hcolumns, hshown, hadded⟩ := h.columns
  have hc' : (shown ++ added)[i]? = some c := by
    rw [← hcolumns]
    exact hc
  -- only past the shown columns can the added one stand
  by_cases hi : i < shown.length
  · rw [List.getElem?_append_left hi] at hc'
    obtain ⟨hlt, rfl⟩ := List.getElem?_eq_some_iff.1 hc'
    have hlt' : i < (kept fields).length := by
      rw [hshown.length_eq]
      exact hlt
    exact .inr ⟨_, List.getElem?_eq_getElem hlt', hshown.get hlt' hlt⟩
  · rw [List.getElem?_append_right (Nat.le_of_not_lt hi)] at hc'
    have hmem := List.mem_of_getElem? hc'
    rw [hadded] at hmem
    split at hmem
    · cases hmem
    · obtain rfl := List.mem_singleton.1 hmem
      exact .inl ⟨(h.marked i _ hc).1 rfl, rfl⟩

theorem field?_inj (h : m.Represents fields) {p : Nat} (hi : m.field? i = some p)
    (hj : m.field? j = some p) : i = j := by
  obtain ⟨c, hc, hcp⟩ := Option.bind_eq_some_iff.1 hi
  obtain ⟨d, hd, hdp⟩ := Option.bind_eq_some_iff.1 hj
  obtain ⟨-, hnone⟩ | ⟨a, ha, hca⟩ := h.behind hc
  · rw [hnone] at hcp
    cases hcp
  obtain ⟨-, hnone⟩ | ⟨b, hb, hdb⟩ := h.behind hd
  · rw [hnone] at hdp
    cases hdp
  rw [hca.field] at hcp
  rw [hdb.field] at hdp
  exact kept_index_inj ha hb ((Option.some.inj hcp).trans (Option.some.inj hdp).symm)

theorem exists_field (h : m.Represents fields) (hc : m.column? i = some c) {p : Nat}
    (hp : m.field? i = some p) : ∃ f, fields[p]? = some f ∧ c.kind = f.type.kind := by
  rw [field?_of_column? hc] at hp
  obtain ⟨-, hnone⟩ | ⟨q, hq, hshows⟩ := h.behind hc
  · rw [hnone] at hp
    cases hp
  · rw [hshows.field] at hp
    cases hp
    exact ⟨q.1, getElem?_of_mem_kept (List.mem_of_getElem? hq), hshows.kind⟩

theorem field?_of_ne (h : m.Represents fields) (hc : m.column? i = some c) (hi : i ≠ m.sync) :
    ∃ p, m.field? i = some p := by
  obtain ⟨hsync, -⟩ | ⟨p, -, hshows⟩ := h.behind hc
  · exact absurd hsync hi
  · exact ⟨p.2, (field?_of_column? hc).trans hshows.field⟩

/-- The identifying column is a GUID, which does not count up. -/
theorem ne_sync (h : m.Represents fields) (hc : m.column? i = some c)
    (hcounts : c.autoIncrement = true) : i ≠ m.sync := by
  rintro rfl
  obtain ⟨d, hd, hidentifies⟩ := h.sync
  obtain rfl := Option.some.inj (hc.symm.trans hd)
  rw [h.guids c (List.mem_of_getElem? hc) hidentifies.kind] at hcounts
  cases hcounts

/-! Writing to a column. -/

variable {e e' : Entity} {v : Value}

theorem get_of_set (h : m.Represents e.type.fields) (he : e.Complete)
    (hc : m.column? i = some c) (hkind : v.kind? = some c.kind) {p : Nat}
    (hp : m.field? i = some p) (hset : m.set e i v = .ok e') : m.get e' i = v := by
  obtain ⟨f, hf, hck⟩ := h.exists_field hc hp
  rw [set_of_field? hp] at hset
  rw [hck] at hkind
  rw [get_of_field? hp]
  exact Entity.get_of_set he hf hkind hset

theorem get_of_set_ne (h : m.Represents fields) (hij : j ≠ i) (hset : m.set e i v = .ok e') :
    m.get e' j = m.get e j := by
  cases hj : m.field? j with
  | none => rw [get_of_field?_eq_none hj, get_of_field?_eq_none hj]
  | some q =>
    rw [get_of_field? hj, get_of_field? hj]
    refine (alike_of_set hset).get q fun hi => hij ?_
    exact h.field?_inj hj hi

end Represents

end Mapping

end RowLedger
