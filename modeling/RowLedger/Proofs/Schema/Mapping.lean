import Mathlib.Data.List.Nodup
import RowLedger.Proofs.Outcome
import RowLedger.Schema.Mapping

/-! What every mapping has that is made from fields. -/

namespace RowLedger.Mapping

structure WellFormed (m : Mapping) : Prop where
  names : (m.columns.map Column.name).Nodup
  sync : m.column? m.sync = some m.syncColumn
  kind : m.syncColumn.kind = .guid
  counts : m.syncColumn.autoIncrement = false
  key : ∀ i, m.key = some i → (m.column? i).isSome

/-- Columns of fields, each name once. -/
def OfFields (flags : Flags) (fields : List Field) (cs : List Column) : Prop :=
  (cs.map Column.name).Nodup ∧
    ∀ c ∈ cs, ∃ f i, fields[i]? = some f ∧ c = Column.ofField f i flags

theorem OfFields.snoc {flags : Flags} {fields : List Field} {cs : List Column}
    (h : OfFields flags fields cs) {f : Field} {i : Nat} (hf : fields[i]? = some f)
    (hnew : cs.any (fun c => c.name == f.name) = false) :
    OfFields flags fields (cs ++ [Column.ofField f i flags]) := by
  constructor
  · rw [List.map_append, List.nodup_append]
    refine ⟨h.1, List.nodup_singleton _, fun a ha b hb => ?_⟩
    obtain ⟨c, hc, rfl⟩ := List.mem_map.1 ha
    rw [List.map_singleton, List.mem_singleton] at hb
    rw [hb]
    rw [List.any_eq_false] at hnew
    exact fun hname => hnew c hc (beq_iff_eq.2 hname)
  · intro c hc
    rcases List.mem_append.1 hc with hc | hc
    · exact h.2 c hc
    · exact ⟨f, i, hf, List.mem_singleton.1 hc⟩

theorem ofFields_columnsOf (flags : Flags) (fields : List Field) :
    OfFields flags fields (columnsOf flags fields) := by
  unfold columnsOf
  refine List.foldlRecOn (motive := OfFields flags fields) _ _ (by simp [OfFields]) ?_
  rintro cs hcs ⟨f, i⟩ hf
  dsimp only
  split
  · exact hcs
  · next hnew =>
    rw [Bool.not_eq_true, Bool.or_eq_false_iff] at hnew
    exact hcs.snoc (List.mem_zipIdx_iff_getElem?.1 hf) hnew.2

/-- A declared identifier does not count up. -/
theorem autoIncrement_of_mem_columnsOf {flags : Flags} {fields : List Field} {c : Column}
    (h : c ∈ columnsOf flags fields) (hkind : c.kind = .guid) : c.autoIncrement = false := by
  obtain ⟨f, i, -, rfl⟩ := (ofFields_columnsOf flags fields).2 c h
  have hguid : (f.type.kind == Kind.guid) = true := beq_iff_eq.2 hkind
  simp [Column.ofField, hguid]

/-- The identifying column is a declared one or an added one at the end. -/
theorem withSync_ok {table : String} {cs columns : List Column} {sync : Nat}
    (h : withSync table cs = .ok (columns, sync)) :
    (columns = cs ++ [Column.sync] ∧ sync = cs.length ∧
      ∀ c ∈ cs, Text.sameName c.name syncName = false) ∨
    (columns = cs.modify sync Column.markSync ∧
      ∃ c, cs[sync]? = some c ∧ c.kind = .guid ∧ Text.sameName c.name syncName = true) := by
  unfold withSync at h
  split at h
  · next hnone =>
    cases h
    refine .inl ⟨rfl, rfl, fun c hc => ?_⟩
    simpa using List.findIdx?_eq_none_iff.1 hnone c hc
  · next i hsome =>
    obtain ⟨hlt, hname, -⟩ := List.findIdx?_eq_some_iff_getElem.1 hsome
    rw [List.getElem?_eq_getElem hlt] at h
    dsimp only at h
    split at h
    · next hkind =>
      cases h
      exact .inr ⟨rfl, _, List.getElem?_eq_getElem hlt, hkind, hname⟩
    · cases h

/-- Marking a column changes nothing that the mark is not about. -/
theorem map_modify_markSync {α : Type} {g : Column → α} (hg : ∀ c, g c.markSync = g c)
    (cs : List Column) (i : Nat) : (cs.modify i Column.markSync).map g = cs.map g := by
  refine List.ext_getElem? fun j => ?_
  rw [List.getElem?_map, List.getElem?_map, List.getElem?_modify]
  cases cs[j]? with
  | none => rfl
  | some c =>
    by_cases hij : i = j
    · simp [hij, hg]
    · simp [hij]

theorem lastIdx?_eq_some_iff {α : Type} {p : α → Bool} {xs : List α} {i : Nat} :
    lastIdx? p xs = some i ↔
      ∃ x, xs[i]? = some x ∧ p x = true ∧ ∀ j y, i < j → xs[j]? = some y → p y = false := by
  rw [lastIdx?, Option.map_eq_some_iff]
  constructor
  · rintro ⟨k, hk, rfl⟩
    obtain ⟨hlt, hp, hrest⟩ := List.findIdx?_eq_some_iff_getElem.1 hk
    rw [List.length_reverse] at hlt
    rw [List.getElem_reverse] at hp
    refine ⟨_, List.getElem?_eq_getElem (by omega), hp, fun j y hj hy => ?_⟩
    -- what stands later is met earlier from the end
    obtain ⟨hj', rfl⟩ := List.getElem?_eq_some_iff.1 hy
    have hnot := hrest (xs.length - 1 - j) (by omega)
    simp only [List.getElem_reverse, show xs.length - 1 - (xs.length - 1 - j) = j by omega] at hnot
    exact Bool.eq_false_iff.2 hnot
  · rintro ⟨x, hx, hp, hrest⟩
    obtain ⟨hlt, rfl⟩ := List.getElem?_eq_some_iff.1 hx
    refine ⟨xs.length - 1 - i, List.findIdx?_eq_some_iff_getElem.2 ⟨?_, ?_, ?_⟩, by omega⟩
    · rw [List.length_reverse]
      omega
    · simpa only [List.getElem_reverse, show xs.length - 1 - (xs.length - 1 - i) = i by omega]
    · intro j hj
      rw [List.getElem_reverse]
      exact Bool.eq_false_iff.1
        (hrest (xs.length - 1 - j) _ (by omega) (List.getElem?_eq_getElem (by omega)))

/-- The identifying column stands at its place, declared by a field or added. -/
theorem sync_of_withSync {table : String} {flags : Flags} {fields : List Field}
    {columns : List Column} {sync : Nat}
    (h : withSync table (columnsOf flags fields) = .ok (columns, sync)) :
    (columns.map Column.name).Nodup ∧
      ∃ c, columns[sync]? = some c ∧ c.kind = .guid ∧ c.autoIncrement = false ∧
        ((c.field = none ∧ c.primaryKey = false) ∨
          ∃ f i, c.field = some i ∧ fields[i]? = some f ∧ f.type.kind = .guid) := by
  have hnames := (ofFields_columnsOf flags fields).1
  obtain ⟨rfl, rfl, hnew⟩ | ⟨rfl, c, hc, hkind, -⟩ := withSync_ok h
  · constructor
    · rw [List.map_append, List.nodup_append]
      refine ⟨hnames, List.nodup_singleton _, fun a ha b hb => ?_⟩
      obtain ⟨c, hc, rfl⟩ := List.mem_map.1 ha
      rw [List.map_singleton, List.mem_singleton] at hb
      rintro hname
      have hsame := hnew c hc
      rw [hname, hb, Column.sync, Text.sameName_refl] at hsame
      cases hsame
    · exact ⟨Column.sync, by simp, rfl, rfl, .inl ⟨rfl, rfl⟩⟩
  · have hmem := List.mem_of_getElem? hc
    have hcounts := autoIncrement_of_mem_columnsOf hmem hkind
    obtain ⟨f, i, hf, hfield⟩ := (ofFields_columnsOf flags fields).2 c hmem
    refine ⟨by rw [map_modify_markSync fun _ => rfl]; exact hnames, c.markSync, by simp [hc], hkind, hcounts,
      .inr ⟨f, i, ?_, hf, ?_⟩⟩
    · rw [hfield]
      rfl
    · rw [hfield] at hkind
      exact hkind

theorem ofFields_ok {typeName table : String} {fields : List Field} {flags : Flags} {m : Mapping}
    (h : ofFields typeName table fields flags = .ok m) :
    ∃ columns sync, withSync table (columnsOf flags fields) = .ok (columns, sync) ∧
      m = ⟨typeName, table, columns, flags, lastIdx? Column.primaryKey columns,
        columns.findIdx? fun c => c.primaryKey && c.autoIncrement, sync⟩ := by
  unfold ofFields at h
  dsimp only at h
  split at h
  · cases h
  · split at h
    · cases h
    · obtain ⟨⟨columns, sync⟩, hsync, h⟩ := except_bind_ok.1 h
      cases h
      exact ⟨columns, sync, hsync, rfl⟩

theorem wellFormed_ofRecord {t : RecordType} {flags : Flags} {m : Mapping}
    (h : ofRecord t flags = .ok m) : m.WellFormed := by
  obtain ⟨columns, sync, hsync, rfl⟩ := ofFields_ok h
  obtain ⟨hnames, c, hc, hkind, hcounts, -⟩ := sync_of_withSync hsync
  have hcolumn : (columns[sync]?).getD Column.sync = c := by rw [hc]; rfl
  have hkey (i : Nat) (hi : lastIdx? Column.primaryKey columns = some i) : columns[i]?.isSome := by
    obtain ⟨c, hc, -⟩ := lastIdx?_eq_some_iff.1 hi
    rw [hc]
    rfl
  refine ⟨hnames, ?_, ?_, ?_, hkey⟩
  · exact hc.trans (congrArg some hcolumn.symm)
  · exact (congrArg Column.kind hcolumn).trans hkind
  · exact (congrArg Column.autoIncrement hcolumn).trans hcounts

/-- Identifiers are written into a field that takes them, if there is one. -/
theorem syncField_ofRecord {t : RecordType} {flags : Flags} {m : Mapping}
    (h : ofRecord t flags = .ok m) :
    (m.syncColumn.field = none ∧ m.syncColumn.primaryKey = false) ∨
      ∃ f i, m.syncColumn.field = some i ∧ t.fields[i]? = some f ∧ f.type.kind = .guid := by
  obtain ⟨columns, sync, hsync, rfl⟩ := ofFields_ok h
  obtain ⟨-, c, hc, -, -, hfield⟩ := sync_of_withSync hsync
  have hcolumn : (columns[sync]?).getD Column.sync = c := by rw [hc]; rfl
  rw [← hcolumn] at hfield
  exact hfield

/-- The key is a primary key column. -/
theorem primaryKey_ofRecord {t : RecordType} {flags : Flags} {m : Mapping}
    (h : ofRecord t flags = .ok m) {c : Column} (hc : m.keyColumn? = some c) :
    c.primaryKey = true := by
  obtain ⟨columns, sync, -, rfl⟩ := ofFields_ok h
  obtain ⟨i, hi, hc⟩ := Option.bind_eq_some_iff.1 hc
  obtain ⟨d, hd, hkey, -⟩ := lastIdx?_eq_some_iff.1 hi
  obtain rfl : d = c := Option.some.inj (hd.symm.trans hc)
  exact hkey

/-! Positions of columns. -/

theorem mem_positionsWhere {m : Mapping} {p : Nat → Column → Bool} {i : Nat} :
    i ∈ m.positionsWhere p ↔ ∃ c, m.column? i = some c ∧ p i c = true := by
  constructor
  · intro h
    obtain ⟨⟨c, j⟩, hc, rfl⟩ := List.mem_map.1 h
    obtain ⟨hc, hp⟩ := List.mem_filter.1 hc
    exact ⟨c, List.mem_zipIdx_iff_getElem?.1 hc, hp⟩
  · rintro ⟨c, hc, hp⟩
    refine List.mem_map.2 ⟨(c, i), List.mem_filter.2 ⟨?_, hp⟩, rfl⟩
    exact List.mem_zipIdx_iff_getElem?.2 hc

theorem mem_insertColumns {m : Mapping} {i : Nat} :
    i ∈ m.insertColumns ↔ ∃ c, m.column? i = some c ∧ c.autoIncrement = false := by
  rw [insertColumns, mem_positionsWhere]
  simp only [Bool.not_eq_true']

theorem mem_updateColumns {m : Mapping} {i : Nat} :
    i ∈ m.updateColumns ↔ (m.column? i).isSome = true ∧ m.key ≠ some i ∧ i ≠ m.sync := by
  rw [updateColumns, mem_positionsWhere, Option.isSome_iff_exists]
  simp only [Bool.and_eq_true, bne_iff_ne, exists_and_right, ne_comm]

theorem isSome_of_mem_positionsWhere {m : Mapping} {p : Nat → Column → Bool} {i : Nat}
    (h : i ∈ m.positionsWhere p) : (m.column? i).isSome := by
  obtain ⟨c, hc, -⟩ := mem_positionsWhere.1 h
  exact Option.isSome_iff_exists.2 ⟨c, hc⟩

theorem WellFormed.sync_mem_insertColumns {m : Mapping} (h : m.WellFormed) :
    m.sync ∈ m.insertColumns :=
  mem_insertColumns.2 ⟨m.syncColumn, h.sync, h.counts⟩

theorem WellFormed.sync_mem_replaceColumns {m : Mapping} (h : m.WellFormed) :
    m.sync ∈ m.replaceColumns :=
  mem_positionsWhere.2 ⟨m.syncColumn, h.sync, rfl⟩

theorem not_mem_updateColumns {m : Mapping} {i : Nat} (h : m.key = some i ∨ i = m.sync) :
    i ∉ m.updateColumns := by
  intro hmem
  obtain ⟨-, hkey, hsync⟩ := mem_updateColumns.1 hmem
  exact h.elim hkey hsync

theorem WellFormed.eq_of_name {m : Mapping} (h : m.WellFormed) {i j : Nat} {c d : Column}
    (hi : m.column? i = some c) (hj : m.column? j = some d) (hname : c.name = d.name) : i = j := by
  have hi' : (m.columns.map Column.name)[i]? = some c.name := by
    rw [List.getElem?_map, show m.columns[i]? = some c from hi]
    rfl
  have hj' : (m.columns.map Column.name)[j]? = some d.name := by
    rw [List.getElem?_map, show m.columns[j]? = some d from hj]
    rfl
  refine (List.getElem?_inj (List.getElem?_eq_some_iff.1 hi').1 h.names).1 ?_
  rw [hi', hj', hname]

theorem WellFormed.name_not_mem {m : Mapping} (h : m.WellFormed) {positions : List Nat} {j : Nat}
    {d : Column} (hj : m.column? j = some d) (hpositions : j ∉ positions) :
    d.name ∉ (m.columnsAt positions).map Column.name := by
  intro hmem
  obtain ⟨c, hc, hname⟩ := List.mem_map.1 hmem
  obtain ⟨i, hi, hc⟩ := List.mem_filterMap.1 hc
  rw [h.eq_of_name hc hj hname] at hi
  exact hpositions hi

theorem columnsAt_positionsWhere (m : Mapping) (p : Nat → Column → Bool) :
    m.columnsAt (m.positionsWhere p) =
      (m.columns.zipIdx.filter fun (c, i) => p i c).map Prod.fst := by
  rw [columnsAt, positionsWhere, List.filterMap_map, ← List.filterMap_eq_map]
  refine List.filterMap_congr fun ⟨c, i⟩ h => ?_
  exact List.mem_zipIdx_iff_getElem?.1 (List.mem_of_mem_filter h)

theorem WellFormed.names_nodup {m : Mapping} (h : m.WellFormed) (p : Nat → Column → Bool) :
    ((m.columnsAt (m.positionsWhere p)).map Column.name).Nodup := by
  rw [columnsAt_positionsWhere]
  refine h.names.sublist (List.Sublist.map _ ?_)
  have hsub : ((m.columns.zipIdx.filter fun (c, i) => p i c).map Prod.fst).Sublist
      (m.columns.zipIdx.map Prod.fst) := List.filter_sublist.map _
  rwa [List.zipIdx_map_fst] at hsub

/-! What records hold in the identifying column. -/

theorem type_of_set {m : Mapping} {e e' : Entity} {i : Nat} {v : Value}
    (h : m.set e i v = .ok e') : e'.type = e.type := by
  unfold set at h
  split at h
  · unfold Entity.set at h
    split at h
    · cases h
      rfl
    · obtain ⟨v', -, h⟩ := except_bind_ok.1 h
      cases h
      rfl
  · cases h
    rfl

end RowLedger.Mapping

namespace RowLedger

/-- Every field has a value of its type. -/
def Entity.Typed (e : Entity) : Prop :=
  ∀ (i : Nat) (f : Field), e.type.fields[i]? = some f → f.type.read (e.get i) = .ok (e.get i)

theorem FieldType.guid_of_read {t : FieldType} {v : Value} (ht : t.kind = .guid)
    (h : t.read v = .ok v) : v = .null ∨ ∃ g, v = .guid g := by
  unfold FieldType.read at h
  rw [ht] at h
  cases v <;> simp [FieldType.readKind, Value.kind?, Value.isNull] at h ⊢

theorem Mapping.get_sync {e : Entity} {flags : Flags} {m : Mapping}
    (h : Mapping.ofRecord e.type flags = .ok m) (he : e.Typed) :
    m.get e m.sync = .null ∨ ∃ g, m.get e m.sync = .guid g := by
  rw [Mapping.get, (wellFormed_ofRecord h).sync, Option.bind_some]
  obtain ⟨hnone, -⟩ | ⟨f, i, hi, hf, hkind⟩ := syncField_ofRecord h
  · rw [hnone]
    exact .inl rfl
  · rw [hi]
    exact FieldType.guid_of_read hkind (he i f hf)

end RowLedger
