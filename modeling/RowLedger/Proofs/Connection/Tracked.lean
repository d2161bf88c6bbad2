import RowLedger.Proofs.Connection.Run
import RowLedger.Proofs.Ledger.Mapping

/-!
Connections that track tables: what they remember belongs to the mappings that the tables were
created by, and the ledger is there when they take it to be.
-/

namespace RowLedger

/-- A record type with the mapping that its table was created by. -/
structure Tracked where
  type : RecordType
  mapping : Mapping
  flags : Flags
  mapped : Mapping.ofRecord type flags = .ok mapping
  single : (mapping.columns.filter Column.primaryKey).length ≤ 1
  type_ne : type.name ≠ Ledger.recordType.name
  table_ne : mapping.table ≠ Ledger.tableName

namespace Tracked

theorem wellFormed (t : Tracked) : t.mapping.WellFormed := Mapping.wellFormed_ofRecord t.mapped

theorem not_isLedger (t : Tracked) : Act.isLedger t.mapping = false := beq_false_of_ne t.table_ne

/-- The key column is the only one of the primary key. -/
theorem primaryKeys (t : Tracked) {c : Column} (hc : t.mapping.keyColumn? = some c) :
    t.mapping.columns.filter Column.primaryKey = [c] := by
  have hkey := Mapping.primaryKey_ofRecord t.mapped hc
  obtain ⟨i, -, hi⟩ := Option.bind_eq_some_iff.1 hc
  have hmem : c ∈ t.mapping.columns.filter Column.primaryKey :=
    List.mem_filter.2 ⟨List.mem_of_getElem? hi, hkey⟩
  have hsingle := t.single
  obtain ⟨d, hd⟩ := List.length_eq_one_iff.1
    (Nat.le_antisymm hsingle (List.length_pos_of_mem hmem))
  rw [hd, List.mem_singleton] at hmem
  rw [hd, hmem]

/-- No two of the types share a name or a table. -/
structure Apart (ts : List Tracked) : Prop where
  types : (ts.map fun t => t.type.name).Nodup
  tables : (ts.map fun t => t.mapping.table).Nodup

/-- The tracked types and that of the ledger. -/
def known (ts : List Tracked) : List (RecordType × Mapping) :=
  (Ledger.recordType, Ledger.mapping) :: ts.map fun t => (t.type, t.mapping)

def mappings (ts : List Tracked) : List Mapping := (known ts).map Prod.snd

theorem ledger_mem_known (ts : List Tracked) : (Ledger.recordType, Ledger.mapping) ∈ known ts :=
  List.mem_cons_self

theorem mem_known {ts : List Tracked} {t : Tracked} (h : t ∈ ts) :
    (t.type, t.mapping) ∈ known ts :=
  List.mem_cons_of_mem _ (List.mem_map_of_mem h)

theorem mappings_eq (ts : List Tracked) :
    mappings ts = Ledger.mapping :: ts.map Tracked.mapping := by
  simp [mappings, known]

theorem wellFormed_of_mem_mappings {ts : List Tracked} {m : Mapping} (h : m ∈ mappings ts) :
    m.WellFormed := by
  rw [mappings_eq] at h
  rcases List.mem_cons.1 h with rfl | h
  · exact Mapping.wellFormed_ofRecord Ledger.ofRecord_recordType
  · obtain ⟨t, -, rfl⟩ := List.mem_map.1 h
    exact t.wellFormed

theorem mem_mappings {ts : List Tracked} {a : RecordType × Mapping} (h : a ∈ known ts) :
    a.2 ∈ mappings ts :=
  List.mem_map_of_mem h

theorem Apart.eq_of_name {ts : List Tracked} (h : Apart ts) {a b : RecordType × Mapping}
    (ha : a ∈ known ts) (hb : b ∈ known ts) (hname : a.1.name = b.1.name) : a = b := by
  have hnodup : ((known ts).map fun a => a.1.name).Nodup := by
    rw [known, List.map_cons, List.map_map, List.nodup_cons]
    refine ⟨fun hmem => ?_, h.types⟩
    obtain ⟨t, -, ht⟩ := List.mem_map.1 hmem
    exact t.type_ne ht
  exact List.inj_on_of_nodup_map hnodup ha hb hname

theorem Apart.eq_of_table {ts : List Tracked} (h : Apart ts) {t u : Tracked} (ht : t ∈ ts)
    (hu : u ∈ ts) (htable : t.mapping.table = u.mapping.table) : t = u :=
  List.inj_on_of_nodup_map h.tables ht hu htable

end Tracked

namespace Registry

/-- The mapping that the registry has, or will make on first use. -/
def Uses (r : Registry) (t : RecordType) (m : Mapping) : Prop :=
  match r.find? t with
  | some s => s.value = m
  | none => Mapping.ofRecord t .none = .ok m

/-- Asking for a mapping changes none of those in use. -/
theorem Uses.mapping {r : Registry} {t : RecordType} {m : Mapping} (h : r.Uses t m) :
    ∃ s r', r.mapping t = .ok (s, r') ∧ s.mapping = m ∧
      ∀ u n, (u = t → n = m) → r.Uses u n → r'.Uses u n := by
  unfold Uses at h
  unfold Registry.mapping
  cases hc : r.find? t with
  | some s =>
    rw [hc] at h
    exact ⟨s, r, Cache.serve_of_find? hc _, h, fun _ _ _ => id⟩
  | none =>
    rw [hc] at h
    dsimp only at h
    refine ⟨(r.put t m).1, (r.put t m).2, ?_, rfl, fun u n hn hu => ?_⟩
    · rw [Cache.serve_of_none hc, h]
      rfl
    · by_cases ht : u = t
      · subst ht
        rw [Uses, Cache.find?_put_self]
        exact (hn rfl).symm
      · rw [Uses, Cache.find?_put_of_ne ht]
        exact hu

end Registry

end RowLedger
