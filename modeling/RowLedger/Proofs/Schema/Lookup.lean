import Mathlib.Data.List.Pairwise
import RowLedger.Proofs.Connection.Rows

/-!
Columns looked up by their own names. Fields are told apart by exact names and columns are looked up
ignoring ASCII case, so that a column can be hidden behind an earlier one.
-/

namespace RowLedger

namespace Mapping

variable {m : Mapping} {typeName table : String} {fields : List Field} {flags : Flags}

/-- No two fields that are not ignored have names that differ in their case only. -/
def NamesApart (fields : List Field) : Prop :=
  ∀ f ∈ fields, ∀ g ∈ fields, f.ignored = false → g.ignored = false →
    Text.sameName f.name g.name = true → f.name = g.name

/-- The first column that has a name, up to ASCII case. -/
structure FirstNamed (m : Mapping) (name : String) (i : Nat) : Prop where
  named : ∃ c, m.column? i = some c ∧ Text.sameName c.name name = true
  first : ∀ j c, j < i → m.column? j = some c → Text.sameName c.name name = false

theorem position?_eq_some_iff {name : String} {i : Nat} :
    m.position? name = some i ↔ m.FirstNamed name i := by
  rw [position?, findIdx?_eq_some_iff]
  exact ⟨fun h => ⟨h.1, h.2⟩, fun h => ⟨h.named, h.first⟩⟩

/-- A column's name leads to the column or to one before it. -/
theorem exists_firstNamed {i : Nat} {c : Column} (hc : m.column? i = some c) :
    ∃ k, k ≤ i ∧ m.FirstNamed c.name k := by
  cases hk : m.position? c.name with
  | none =>
    have hnone := List.findIdx?_eq_none_iff.1 hk c (List.mem_of_getElem? hc)
    rw [Text.sameName_refl] at hnone
    cases hnone
  | some k =>
    have hfirst := position?_eq_some_iff.1 hk
    refine ⟨k, Nat.le_of_not_lt fun hik => ?_, hfirst⟩
    have hnot := hfirst.first i c hik hc
    rw [Text.sameName_refl] at hnot
    cases hnot

/-- A column that another one of its name stands before is not found by any name. -/
theorem not_position?_of_hidden {i k : Nat} {c : Column} (hc : m.column? i = some c)
    (hk : m.FirstNamed c.name k) (hki : k < i) (name : String) : m.position? name ≠ some i := by
  intro hname
  obtain ⟨⟨c', hc', hnamed⟩, hfirst⟩ := position?_eq_some_iff.1 hname
  obtain rfl := Option.some.inj (hc.symm.trans hc')
  obtain ⟨d, hd, hsame⟩ := hk.named
  have hnot := hfirst k d hki hd
  rw [← Bool.not_eq_true, Text.sameName_iff, Text.sameName_iff.1 hsame,
    Text.sameName_iff.1 hnamed] at hnot
  exact hnot rfl

/-- Every column is found by its own name exactly if no two names are the same up to case. -/
theorem finds_iff_pairwise :
    (∀ i c, m.column? i = some c → m.position? c.name = some i) ↔
      (m.columns.map Column.name).Pairwise fun a b => Text.sameName a b = false := by
  rw [List.pairwise_map, List.pairwise_iff_getElem]
  constructor
  · intro hfinds i j hi hj hij
    have hfirst := position?_eq_some_iff.1 (hfinds j _ (List.getElem?_eq_getElem hj))
    exact hfirst.first i _ hij (List.getElem?_eq_getElem hi)
  · intro hapart i c hc
    apply position?_eq_some_iff.2
    refine ⟨⟨c, hc, Text.sameName_refl _⟩, fun j d hji hd => ?_⟩
    obtain ⟨hi, rfl⟩ := List.getElem?_eq_some_iff.1 hc
    obtain ⟨hj, rfl⟩ := List.getElem?_eq_some_iff.1 hd
    exact hapart j i hj hi hji

/-! The names of the kept fields. -/

/-- A field that is not ignored shares its name with one that is kept. -/
theorem exists_kept {f : Field} (hf : f ∈ fields) (hnot : f.ignored = false) :
    ∃ p ∈ kept fields, p.1.name = f.name := by
  have hdeclared : declares fields f.name = true := by
    rw [declares, List.any_eq_true]
    exact ⟨f, hf, by simp [hnot]⟩
  rw [← any_columnsOf .none, columnsOf_eq, List.any_map, List.any_eq_true] at hdeclared
  obtain ⟨p, hp, hname⟩ := hdeclared
  exact ⟨p, hp, beq_iff_eq.1 hname⟩

theorem mem_of_mem_kept {p : Field × Nat} (hp : p ∈ kept fields) :
    p.1 ∈ fields ∧ p.1.ignored = false := by
  refine ⟨List.mem_of_getElem? (getElem?_of_mem_kept hp), ?_⟩
  have hkept := (Bool.and_eq_true_iff.1 (List.mem_filter.1 hp).2).1
  simpa using hkept

theorem names_columnsOf (flags : Flags) (fields : List Field) :
    (columnsOf flags fields).map Column.name = (kept fields).map fun p => p.1.name := by
  rw [columnsOf_eq, List.map_map]
  rfl

theorem pairwise_kept_iff :
    ((kept fields).map fun p => p.1.name).Pairwise (fun a b => Text.sameName a b = false) ↔
      NamesApart fields := by
  constructor
  · intro hpairwise f hf g hg hf' hg' hsame
    obtain ⟨p, hp, hpf⟩ := exists_kept hf hf'
    obtain ⟨q, hq, hqg⟩ := exists_kept hg hg'
    by_contra hne
    rw [← hpf, ← hqg] at hne hsame
    have hsymm : Std.Symm fun a b => Text.sameName a b = false := by
      constructor
      intro a b hab
      rwa [Text.sameName_comm]
    have hnot := hpairwise.forall (List.mem_map_of_mem hp) (List.mem_map_of_mem hq) hne
    rw [hsame] at hnot
    cases hnot
  · intro hapart
    have hnodup : ((kept fields).map fun p => p.1.name).Nodup := by
      rw [← names_columnsOf .none]
      exact (ofFields_columnsOf .none fields).1
    apply List.Pairwise.imp_of_mem _ hnodup
    intro a b ha hb hne
    obtain ⟨p, hp, rfl⟩ := List.mem_map.1 ha
    obtain ⟨q, hq, rfl⟩ := List.mem_map.1 hb
    rw [← Bool.not_eq_true]
    intro hsame
    obtain ⟨hpf, hpi⟩ := mem_of_mem_kept hp
    obtain ⟨hqf, hqi⟩ := mem_of_mem_kept hq
    exact hne (hapart p.1 hpf q.1 hqf hpi hqi hsame)

/-- An added column has a name of its own, and a marked one keeps its name. -/
theorem pairwise_names_iff (h : ofFields typeName table fields flags = .ok m) :
    (m.columns.map Column.name).Pairwise (fun a b => Text.sameName a b = false) ↔
      NamesApart fields := by
  rw [← pairwise_kept_iff, ← names_columnsOf flags]
  obtain ⟨columns, sync, hsync, rfl⟩ := ofFields_ok h
  obtain ⟨rfl, -, hnew⟩ | ⟨rfl, -⟩ := withSync_ok hsync
  · rw [List.map_append, List.pairwise_append]
    refine ⟨fun hpairwise => hpairwise.1, fun hpairwise => ⟨hpairwise, ?_, ?_⟩⟩
    · exact List.pairwise_singleton _ _
    · intro a ha b hb
      obtain ⟨c, hc, rfl⟩ := List.mem_map.1 ha
      obtain rfl := List.mem_singleton.1 hb
      exact hnew c hc
  · rw [map_modify_markSync fun _ => rfl]

end Mapping

namespace RowPlan

variable {m : Mapping} {order : List Nat} {columns : List ResultColumn} {row : Row}

/-- A result has the columns of a mapping, each once and in some order. -/
structure Lists (m : Mapping) (order : List Nat) (columns : List ResultColumn) : Prop where
  perm : order.Perm (List.range m.columns.length)
  names : columns.map ResultColumn.name = (m.columnsAt order).map Column.name

theorem Lists.nodup (h : Lists m order columns) : order.Nodup :=
  h.perm.nodup_iff.2 List.nodup_range

theorem Lists.isSome (h : Lists m order columns) {i : Nat} (hi : i ∈ order) :
    (m.column? i).isSome = true := by
  have hlt := List.mem_range.1 (h.perm.mem_iff.1 hi)
  rw [Mapping.column?, List.getElem?_eq_getElem hlt, Option.isSome_some]

/-- Where columns are found by their own names, each column of the result goes to its own. -/
theorem targets_of_lists
    (hfinds : ∀ i c, m.column? i = some c → m.position? c.name = some i)
    (h : Lists m order columns) : targets m columns = order.map some := by
  have hnames : targets m columns = (columns.map ResultColumn.name).map m.position? := by
    rw [targets, List.map_map]
    rfl
  have hisSome := fun i => h.isSome (i := i)
  rw [hnames, h.names, Mapping.columnsAt]
  clear hnames h
  induction order with
  | nil => rfl
  | cons i order ih =>
    obtain ⟨c, hc⟩ := Option.isSome_iff_exists.1 (hisSome i List.mem_cons_self)
    rw [List.filterMap_cons_some hc, List.map_cons, List.map_cons, List.map_cons, hfinds i c hc]
    rw [ih fun j hj => hisSome j (List.mem_cons_of_mem i hj)]

theorem map_fst_zip_sublist {α β : Type} (as : List α) (bs : List β) :
    ((as.zip bs).map Prod.fst).Sublist as := by
  induction as generalizing bs with
  | nil => exact List.Sublist.refl _
  | cons a as ih =>
    cases bs with
    | nil => exact List.nil_sublist _
    | cons b bs => exact (ih bs).cons_cons a

/-- Each column has the one cell under its name, unless that is null. -/
theorem cellsAt_of_targets (hnodup : order.Nodup) (htargets : targets m columns = order.map some)
    {k j : Nat} {x : SqlValue} (hj : order[k]? = some j) (hx : row[k]? = some x) :
    cellsAt m columns row j = if x.isNull = true then [] else [x] := by
  have hcells : cells (order.map some) row = (order.zip row).filter fun p => !p.2.isNull := by
    rw [cells, List.zip_map_left, List.filterMap_map, ← List.filterMap_eq_filter]
    apply List.filterMap_congr
    rintro ⟨i, y⟩ -
    cases hy : y.isNull <;> simp [hy, Option.guard]
  have hmem : (j, x) ∈ order.zip row :=
    List.mem_of_getElem? (List.getElem?_zip_eq_some.2 ⟨hj, hx⟩)
  have hone := filter_eq_singleton (hnodup.sublist (map_fst_zip_sublist order row)) hmem
  rw [← own_cells, htargets, hcells, own, List.filter_comm, hone]
  cases hnull : x.isNull <;> simp [hnull]

/-- A result with the columns of a mapping is read in place: every cell is decoded for the column
that it is of, a null one to null. -/
theorem read_in_place (hfinds : ∀ i c, m.column? i = some c → m.position? c.name = some i)
    (hlists : Lists m order columns) {vs : List Value}
    (hvs : values m (targets m columns) row = .ok vs) {k j : Nat} {c : Column} {x : SqlValue}
    (hj : order[k]? = some j) (hc : m.column? j = some c) (hx : row[k]? = some x) :
    ∃ v, vs[j]? = some v ∧ Value.ofSql c.kind x = .ok v := by
  obtain ⟨v, hv, hdecoded⟩ := value_of_values hvs hc
  refine ⟨v, hv, ?_⟩
  rw [cellsAt_of_targets hlists.nodup (targets_of_lists hfinds hlists) hj hx] at hdecoded
  cases hnull : x.isNull with
  | true =>
    rw [hnull, if_pos rfl] at hdecoded
    obtain rfl : v = .null := hdecoded
    unfold Value.ofSql
    rw [if_pos hnull]
  | false =>
    rw [hnull, if_neg Bool.false_ne_true] at hdecoded
    exact hdecoded

end RowPlan

/-- Columns by their own names, for every list of fields that a mapping is made from. A column's
name leads to the first column that has it up to ASCII case, and the ones behind that are found by
no name. Every column is found by its own name exactly if no two fields that are not ignored have
names that differ in case only; each column of a result that has the columns of the mapping in any
order is then taken for its own, and every cell is decoded for it. -/
theorem Mapping.ofFields_finds {typeName table : String} {fields : List Field} {flags : Flags}
    {m : Mapping} (h : ofFields typeName table fields flags = .ok m) :
    (∀ i c, m.column? i = some c → ∃ k, k ≤ i ∧ m.position? c.name = some k ∧
      (k < i → ∀ name, m.position? name ≠ some i)) ∧
    ((∀ i c, m.column? i = some c → m.position? c.name = some i) ↔ NamesApart fields) ∧
    (NamesApart fields → ∀ (order : List Nat) (columns : List ResultColumn),
      RowPlan.Lists m order columns →
        RowPlan.targets m columns = order.map some ∧
        ∀ (row : Row) (vs : List Value),
          RowPlan.values m (RowPlan.targets m columns) row = .ok vs →
            ∀ (k j : Nat) (c : Column) (x : SqlValue), order[k]? = some j →
              m.column? j = some c → row[k]? = some x →
                ∃ v, vs[j]? = some v ∧ Value.ofSql c.kind x = .ok v) := by
  have hfinds := finds_iff_pairwise.trans (pairwise_names_iff h)
  refine ⟨fun i c hc => ?_, hfinds, ?_⟩
  · obtain ⟨k, hki, hfirst⟩ := exists_firstNamed hc
    exact ⟨k, hki, position?_eq_some_iff.2 hfirst,
      fun hlt name => not_position?_of_hidden hc hfirst hlt name⟩
  · intro hapart order columns hlists
    refine ⟨RowPlan.targets_of_lists (hfinds.2 hapart) hlists, ?_⟩
    intro row vs hvs k j c x hj hc hx
    exact RowPlan.read_in_place (hfinds.2 hapart) hlists hvs hj hc hx

/-! Two fields whose names differ in case. -/

def Samples.twinFields : List Field :=
  [{ name := "Name", property := "Name", type := ⟨.text, false⟩ },
    { name := "name", property := "name", type := ⟨.text, false⟩ }]

def Samples.twinMapping : Mapping where
  typeName := "T"
  table := "T"
  columns := (Samples.twinFields.zipIdx.map fun f => Column.ofField f.1 f.2 .none) ++ [Column.sync]
  flags := .none
  key := none
  autoKey := none
  sync := 2

/-- The second column is not found by its own name, and what the row has for it is read into the
first one. -/
theorem Samples.twinFields_hidden :
    Mapping.ofFields "T" "T" Samples.twinFields .none = .ok Samples.twinMapping ∧
      (¬∀ i c, Samples.twinMapping.column? i = some c →
        Samples.twinMapping.position? c.name = some i) ∧
      RowPlan.values Samples.twinMapping
          (RowPlan.targets Samples.twinMapping [⟨"Name", .text⟩, ⟨"name", .text⟩])
          [.text "a", .text "b"] = .ok [.text "b", .null, .null] := by
  have hmade : Mapping.ofFields "T" "T" Samples.twinFields .none = .ok Samples.twinMapping := by
    decide +kernel
  refine ⟨hmade, fun hfinds => ?_, by decide +kernel⟩
  have hapart := (Mapping.ofFields_finds hmade).2.1.1 hfinds
  exact absurd (hapart _ List.mem_cons_self _ (List.mem_cons_of_mem _ List.mem_cons_self) rfl rfl
    (by decide)) (by decide)

end RowLedger
