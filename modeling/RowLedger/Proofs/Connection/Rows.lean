import RowLedger.Connection.Rows
import RowLedger.Proofs.Schema.Access
import RowLedger.Samples

/-!
A row read as a record beside the same row read as a list of values. Either way a mapped column
holds what the last cell was decoded to of those that stand under its name and are not null.
-/

namespace RowLedger

namespace RowPlan

variable {m : Mapping} {columns : List ResultColumn} {row : Row} {j : Nat}

/-- The cells that stand under a name of a mapped column and are not null, in their order. -/
def cellsAt (m : Mapping) (columns : List ResultColumn) (row : Row) (j : Nat) : List SqlValue :=
  (columns.zip row).filterMap fun (c, x) =>
    if m.position? c.name = some j ∧ x.isNull = false then some x else none

/-- The cells of one column among those of all. -/
def own (j : Nat) (cs : List (Nat × SqlValue)) : List SqlValue :=
  (cs.filter fun c => c.1 == j).map Prod.snd

theorem own_concat_self (cs : List (Nat × SqlValue)) (x : SqlValue) :
    own j (cs ++ [(j, x)]) = own j cs ++ [x] := by
  simp [own]

theorem own_concat_of_ne {p : Nat × SqlValue} (hp : p.1 ≠ j) (cs : List (Nat × SqlValue)) :
    own j (cs ++ [p]) = own j cs := by
  simp [own, hp]

theorem own_cells (m : Mapping) (columns : List ResultColumn) (row : Row) (j : Nat) :
    own j (cells (targets m columns) row) = cellsAt m columns row j := by
  rw [own, cells, targets, cellsAt, List.zip_map_left, List.filterMap_map, List.filter_filterMap,
    List.map_filterMap]
  apply List.filterMap_congr
  rintro ⟨c, x⟩ -
  dsimp only [Function.comp_apply, Prod.map_apply, id_eq]
  by_cases hx : x.isNull = true
  · simp [hx]
  · cases hi : m.position? c.name with
    | none => simp [hx]
    | some i => by_cases hij : i = j <;> simp [hx, hij]

theorem isNull_of_mem_cells {targets : List (Option Nat)} {p : Nat × SqlValue}
    (hp : p ∈ cells targets row) : p.2.isNull = false := by
  obtain ⟨⟨t, x⟩, -, hx⟩ := List.mem_filterMap.1 hp
  dsimp only at hx
  split at hx
  · cases hx
  · next hnull =>
    obtain ⟨i, -, rfl⟩ := Option.map_eq_some_iff.1 hx
    exact Bool.eq_false_iff.2 hnull

theorem isNull_of_mem_cellsAt {x : SqlValue} (hx : x ∈ cellsAt m columns row j) :
    x.isNull = false := by
  rw [← own_cells] at hx
  obtain ⟨p, hp, rfl⟩ := List.mem_map.1 hx
  exact isNull_of_mem_cells (List.mem_of_mem_filter hp)

/-- What a column holds once its cells were written. -/
def Latest (m : Mapping) (j : Nat) (cs : List SqlValue) (before after : Value) : Prop :=
  match cs.getLast? with
  | none => after = before
  | some x => decode m j x = .ok after

theorem latest_concat {cs : List SqlValue} {x : SqlValue} {before after : Value} :
    Latest m j (cs ++ [x]) before after ↔ decode m j x = .ok after := by
  rw [Latest, List.getLast?_concat]

/-- Where each step writes one cell to its column and leaves the others alone, the last cell of a
column stays. -/
theorem latest_of_foldlM {S : Type} {step : S → Nat × SqlValue → Except Error S} (get : S → Value)
    (Sound : S → Prop) (hsound : ∀ a p b, Sound a → step a p = .ok b → Sound b)
    (hother : ∀ a p b, p.1 ≠ j → step a p = .ok b → get b = get a)
    (hown : ∀ a x b, Sound a → x.isNull = false → step a (j, x) = .ok b →
      decode m j x = .ok (get b))
    {cs : List (Nat × SqlValue)} (hcs : ∀ p ∈ cs, p.2.isNull = false) {a b : S} (ha : Sound a)
    (h : cs.foldlM step a = .ok b) : Sound b ∧ Latest m j (own j cs) (get a) (get b) := by
  induction cs using List.reverseRecOn generalizing b with
  | nil =>
    cases h
    exact ⟨ha, rfl⟩
  | append_singleton cs p ih =>
    rw [List.foldlM_append] at h
    obtain ⟨a₁, h₁, hstep⟩ := except_bind_ok.1 h
    rw [List.foldlM_cons] at hstep
    obtain ⟨b₁, hstep, hb⟩ := except_bind_ok.1 hstep
    cases hb
    obtain ⟨hsound₁, hlatest⟩ := ih (fun q hq => hcs q (List.mem_append_left _ hq)) h₁
    refine ⟨hsound a₁ p b hsound₁ hstep, ?_⟩
    by_cases hp : p.1 = j
    · obtain ⟨i, x⟩ := p
      obtain rfl : i = j := hp
      have hx := hcs (i, x) (List.mem_append_right _ (List.mem_singleton_self _))
      rw [own_concat_self, latest_concat]
      exact hown a₁ x b hsound₁ hx hstep
    · rw [own_concat_of_ne hp, hother a₁ p b hp hstep]
      exact hlatest

/-- A list of values has one value for each column. -/
theorem latest_values {vs : List Value} (j : Nat)
    (h : values m (targets m columns) row = .ok vs) :
    vs.length = m.columns.length ∧
      Latest m j (cellsAt m columns row j) .null ((vs[j]?).getD .null) := by
  have hfold := latest_of_foldlM (m := m) (j := j) (fun vs => (vs[j]?).getD .null)
    (fun vs => vs.length = m.columns.length) ?_ ?_ ?_
    (fun p => isNull_of_mem_cells) List.length_replicate h
  · have hbefore : ((List.replicate m.columns.length Value.null)[j]?).getD .null = .null := by
      rw [List.getElem?_replicate]
      split <;> rfl
    rwa [own_cells, hbefore] at hfold
  · intro vs p vs' hlength hstep
    obtain ⟨v, -, hv⟩ := except_bind_ok.1 hstep
    cases hv
    rw [List.length_set, hlength]
  · intro vs p vs' hne hstep
    obtain ⟨v, -, hv⟩ := except_bind_ok.1 hstep
    cases hv
    rw [List.getElem?_set_ne hne]
  · intro vs x vs' hlength _ hstep
    obtain ⟨v, hdecoded, hv⟩ := except_bind_ok.1 hstep
    cases hv
    rw [hdecoded]
    by_cases hj : j < vs.length
    · rw [List.getElem?_set_self hj, Option.getD_some]
    · -- past the last column null is decoded and nothing is written
      have hpast : m.column? j = none := List.getElem?_eq_none (by omega)
      rw [decode, hpast] at hdecoded
      rw [List.set_eq_of_length_le (by omega), List.getElem?_eq_none (by omega)]
      exact hdecoded.symm

theorem decode_of_column? {c : Column} (hc : m.column? j = some c) (x : SqlValue) :
    decode m j x = Value.ofSql c.kind x := by
  rw [decode, hc]

/-- A record holds the decoded cells in the fields behind the columns. -/
theorem latest_materialize {t : RecordType} {e : Entity} (h : m.Represents t.fields) {c : Column}
    (hc : m.column? j = some c) {p : Nat} (hp : m.field? j = some p)
    (he : materialize t m (targets m columns) row = .ok e) :
    Latest m j (cellsAt m columns row j) (m.get (Entity.fresh t) j) (m.get e j) := by
  have hfresh : (Entity.fresh t).Complete := by simp [Entity.Complete, Entity.fresh,
    RecordType.initial]
  have hfold := latest_of_foldlM (m := m) (j := j) (fun e => m.get e j)
    (fun e => e.type = t ∧ e.Complete) ?_ ?_ ?_
    (fun p => isNull_of_mem_cells) ⟨rfl, hfresh⟩ he
  · rw [own_cells] at hfold
    exact hfold.2
  · rintro e q e' ⟨rfl, hcomplete⟩ hstep
    obtain ⟨v, -, hset⟩ := except_bind_ok.1 hstep
    have halike := Mapping.alike_of_set hset
    exact ⟨halike.type, halike.complete hcomplete⟩
  · intro e q e' hne hstep
    obtain ⟨v, -, hset⟩ := except_bind_ok.1 hstep
    exact h.get_of_set_ne hne.symm hset
  · rintro e x e' ⟨rfl, hcomplete⟩ hx hstep
    obtain ⟨v, hdecoded, hset⟩ := except_bind_ok.1 hstep
    have hkind : v.kind? = some c.kind := by
      rw [decode_of_column? hc] at hdecoded
      exact Value.kind?_of_ofSql_stored hdecoded hx
    rw [h.get_of_set hcomplete hc hkind hp hset]
    exact hdecoded

/-- A value of the list is what the last cell of its column was decoded to. -/
theorem value_of_values {vs : List Value} (hvs : values m (targets m columns) row = .ok vs)
    {c : Column} (hc : m.column? j = some c) :
    ∃ v, vs[j]? = some v ∧
      match (cellsAt m columns row j).getLast? with
      | none => v = .null
      | some x => Value.ofSql c.kind x = .ok v := by
  obtain ⟨hlength, hlatest⟩ := latest_values j hvs
  have hlt : j < vs.length := hlength ▸ (List.getElem?_eq_some_iff.1 hc).1
  rw [List.getElem?_eq_getElem hlt, Option.getD_some, Latest] at hlatest
  refine ⟨vs[j], List.getElem?_eq_getElem hlt, ?_⟩
  cases hlast : (cellsAt m columns row j).getLast? with
  | none =>
    rw [hlast] at hlatest
    exact hlatest
  | some x =>
    rw [hlast] at hlatest
    exact (decode_of_column? hc x).symm.trans hlatest

/-- The typed and the untyped reading of one row. A value of the list is what the last cell under
the name of its column was decoded to, or null where the row has none; the record has the same
value in the field behind the column, or what a fresh record has there in the place of null. -/
theorem values_agree {t : RecordType} {flags : Flags} (h : Mapping.ofRecord t flags = .ok m)
    {vs : List Value} (hvs : values m (targets m columns) row = .ok vs) :
    vs.length = m.columns.length ∧
    (∀ j c, m.column? j = some c → ∃ v, vs[j]? = some v ∧
      match (cellsAt m columns row j).getLast? with
      | none => v = .null
      | some x => Value.ofSql c.kind x = .ok v) ∧
    ∀ e, materialize t m (targets m columns) row = .ok e →
      ∀ j v, m.hasField j = true → vs[j]? = some v →
        m.get e j = if v = .null then m.get (Entity.fresh t) j else v := by
  refine ⟨(latest_values 0 hvs).1, fun j c => value_of_values hvs, fun e he j v hfield hv => ?_⟩
  obtain ⟨p, hp⟩ := Option.isSome_iff_exists.1 hfield
  obtain ⟨c, hc, -⟩ := Option.bind_eq_some_iff.1 hp
  obtain ⟨v', hv', hvalue⟩ := value_of_values hvs hc
  obtain rfl : v = v' := Option.some.inj (hv.symm.trans hv')
  have hrecord := latest_materialize (Mapping.ofFields_represents h) hc hp he
  unfold Latest at hrecord
  cases hlast : (cellsAt m columns row j).getLast? with
  | none =>
    rw [hlast] at hvalue hrecord
    rw [hrecord, if_pos hvalue]
  | some x =>
    rw [hlast] at hvalue hrecord
    dsimp only at hvalue hrecord
    -- both have decoded the same cell, and a cell that is not null is not read as null
    have hx : x.isNull = false := isNull_of_mem_cellsAt (List.mem_of_getLast? hlast)
    have hsame : m.get e j = v :=
      Except.ok.inj (hrecord.symm.trans ((decode_of_column? hc x).trans hvalue))
    have hne : v ≠ .null := by
      rintro rfl
      cases Value.kind?_of_ofSql_stored hvalue hx
    rw [hsame, if_neg hne]

end RowPlan

/-! Shades in a row with a foreign column, a name that comes twice and a cell that is missing. -/

def Samples.shadeMapping : Mapping where
  typeName := "Shade"
  table := "Shade"
  columns := (Samples.shade.fields.zipIdx.map fun f => Column.ofField f.1 f.2 .none) ++
    [Column.sync]
  flags := .none
  key := some 0
  autoKey := none
  sync := 4

def Samples.shadeColumns : List ResultColumn :=
  [⟨"COLOR", .text⟩, ⟨"Hue", .integer⟩, ⟨"Level", .integer⟩, ⟨"color", .text⟩, ⟨"Color", .text⟩,
    ⟨"Maybe", .text⟩]

def Samples.shadeRow : Row :=
  [.text "Red", .int ⟨9, by decide⟩, .int ⟨10, by decide⟩, .text "blue", .null]

/-- The last colour that is not null is read, and what the row leaves out starts as it does in a
fresh record. -/
theorem Samples.shadeRow_agrees :
    Mapping.ofRecord Samples.shade .none = .ok Samples.shadeMapping ∧
      ∃ vs e,
        RowPlan.values Samples.shadeMapping
          (RowPlan.targets Samples.shadeMapping Samples.shadeColumns) Samples.shadeRow = .ok vs ∧
        RowPlan.materialize Samples.shade Samples.shadeMapping
          (RowPlan.targets Samples.shadeMapping Samples.shadeColumns) Samples.shadeRow = .ok e ∧
        vs.length = 5 ∧ vs[3]? = some .null ∧
        Samples.shadeMapping.get e 0 = .enum Samples.color (Samples.ordinal 2) ∧
        Samples.shadeMapping.get e 3 = .enum Samples.signed (Samples.ordinal 0) := by
  have hmade : Mapping.ofRecord Samples.shade .none = .ok Samples.shadeMapping := by
    decide +kernel
  have hvs : RowPlan.values Samples.shadeMapping
      (RowPlan.targets Samples.shadeMapping Samples.shadeColumns) Samples.shadeRow =
        .ok [.enum Samples.color (Samples.ordinal 2), .enum Samples.level (Samples.ordinal 10),
          .null, .null, .null] := by
    decide +kernel
  have he : RowPlan.materialize Samples.shade Samples.shadeMapping
      (RowPlan.targets Samples.shadeMapping Samples.shadeColumns) Samples.shadeRow =
        .ok ⟨Samples.shade, [.enum Samples.color (Samples.ordinal 2),
          .enum Samples.level (Samples.ordinal 10), .null,
          .enum Samples.signed (Samples.ordinal 0)]⟩ := by
    decide +kernel
  obtain ⟨hlength, -, hagrees⟩ := RowPlan.values_agree hmade hvs
  exact ⟨hmade, _, _, hvs, he, hlength, rfl,
    hagrees _ he 0 (.enum Samples.color (Samples.ordinal 2)) rfl rfl,
    hagrees _ he 3 .null rfl rfl⟩

end RowLedger
