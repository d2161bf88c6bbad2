import Mathlib.Data.List.Pairwise
import RowLedger.Sql.Definition

/-!
What a migration adds to a table, and what is there in the end when some stop on the way before one
is completed.
-/

namespace RowLedger

theorem Text.foldAscii_append (a b : String) : foldAscii (a ++ b) = foldAscii a ++ foldAscii b := by
  simp [foldAscii]

/-- A part of a sequence of pieces ends between two pieces or within one. -/
theorem prefix_flatMap_append {α β : Type} {f : α → List β} {xs : List α} {ys p : List β}
    (h : p <+: xs.flatMap f ++ ys) :
    (∃ q, q <+: ys ∧ p = xs.flatMap f ++ q) ∨
    ∃ before x rest q, xs = before ++ x :: rest ∧ q <+: f x ∧ q ≠ f x ∧
      p = before.flatMap f ++ q := by
  induction xs generalizing p with
  | nil => exact .inl ⟨p, h, rfl⟩
  | cons x xs ih =>
    rw [List.flatMap_cons, List.append_assoc] at h
    by_cases hshort : p <+: f x ∧ p ≠ f x
    · exact .inr ⟨[], x, xs, p, rfl, hshort.1, hshort.2, rfl⟩
    · have hlong : f x <+: p := by
        rcases List.prefix_or_prefix_of_prefix h (List.prefix_append (f x) _) with hp | hp
        · exact (not_and_not_right.1 hshort hp).symm ▸ List.prefix_rfl
        · exact hp
      obtain ⟨p, rfl⟩ := hlong
      rcases ih ((List.prefix_append_right_inj _).1 h) with
        ⟨q, hq, rfl⟩ | ⟨before, y, rest, q, rfl, hq, hne, rfl⟩
      · exact .inl ⟨q, hq, by rw [List.flatMap_cons, List.append_assoc]⟩
      · exact .inr ⟨x :: before, y, rest, q, rfl, hq, hne,
          by rw [List.flatMap_cons, List.append_assoc]⟩

namespace Index

/-- The first index of a name. -/
def named? (is : List Index) (name : String) : Option Index :=
  is.find? fun i => Text.sameName i.name name

/-- An index whose name is taken is not made. -/
def add (is : List Index) (i : Index) : List Index :=
  match named? is i.name with
  | none => is ++ [i]
  | some _ => is

variable {is js : List Index} {i j : Index} {a b : String}

theorem named?_congr (is : List Index) (h : Text.sameName a b = true) :
    named? is a = named? is b := by
  unfold named? Text.sameName
  rw [Text.sameName_iff.1 h]

theorem named?_append (is js : List Index) (a : String) :
    named? (is ++ js) a = (named? is a).or (named? js a) := List.find?_append

theorem named?_cons (i : Index) (is : List Index) (a : String) :
    named? (i :: is) a = (named? [i] a).or (named? is a) := named?_append [i] is a

theorem named?_eq_none (h : ∀ i ∈ is, Text.sameName i.name a = false) : named? is a = none := by
  rw [named?, List.find?_eq_none]
  intro i hi
  rw [h i hi]
  exact Bool.false_ne_true

theorem named?_self (i : Index) : named? [i] i.name = some i :=
  List.find?_cons_of_pos (Text.sameName_refl i.name)

theorem named?_ne_none (h : i ∈ is) : named? is i.name ≠ none := by
  intro hnone
  exact List.find?_eq_none.1 hnone i h (Text.sameName_refl i.name)

theorem sameName_of_named? (h : named? is a = some i) : Text.sameName i.name a = true := by
  have hname := List.find?_some h
  exact hname

theorem eq_of_named?_singleton (h : named? [i] a = some j) : j = i :=
  List.mem_singleton.1 (List.mem_of_find?_eq_some h)

theorem named?_add (is : List Index) (i : Index) (a : String) :
    named? (add is i) a = (named? is a).or (named? [i] a) := by
  unfold add
  split
  · exact named?_append is [i] a
  · next k hk =>
    by_cases hname : Text.sameName i.name a = true
    · rw [← named?_congr is hname, hk]
      rfl
    · have hother : named? [i] a = none := by
        refine named?_eq_none fun j hj => ?_
        rw [List.mem_singleton.1 hj]
        exact Bool.not_eq_true _ ▸ hname
      rw [hother, Option.or_none]

theorem mem_add : j ∈ add is i ↔
    j ∈ is ∨ named? is j.name = none ∧ named? [i] j.name = some j := by
  unfold add
  split
  · next hfree =>
    rw [List.mem_append, List.mem_singleton]
    refine or_congr_right ⟨?_, fun h => eq_of_named?_singleton h.2⟩
    rintro rfl
    exact ⟨hfree, named?_self j⟩
  · next k hk =>
    refine ⟨.inl, ?_⟩
    rintro (h | ⟨hfree, h⟩)
    · exact h
    · obtain rfl := eq_of_named?_singleton h
      cases hk.symm.trans hfree

/-- Of the indexes to be made those are there in the end that are the first of a new name. -/
theorem mem_foldl_add : i ∈ js.foldl add is ↔
    i ∈ is ∨ named? is i.name = none ∧ named? js i.name = some i := by
  induction js generalizing is with
  | nil => simp [named?]
  | cons j js ih =>
    rw [List.foldl_cons, ih, mem_add, named?_add, named?_cons j js]
    -- whichever of the two has the name first
    cases named? is i.name <;> cases named? [j] i.name <;> simp

end Index

def Column.Apart (c c' : Column) : Prop := Text.sameName c.name c'.name = false

instance (c c' : Column) : Decidable (c.Apart c') :=
  inferInstanceAs (Decidable (Text.sameName c.name c'.name = false))

instance : Std.Symm Column.Apart := ⟨fun _ _ h => (Text.sameName_comm _ _).trans h⟩

/-- The columns of one table, and the indexes of the database that it is in. -/
structure Catalog where
  columns : List String
  indexes : List Index

/-- What a migration adds with one statement. -/
inductive Alteration
  | column (c : Column)
  | index (i : Index)
  deriving DecidableEq

namespace Alteration

def sql (d : Dialect) (table : String) : Alteration → Sql
  | column c => d.addColumn table c
  | index i => d.createIndex i

def column? : Alteration → Option Column
  | column c => some c
  | index _ => none

def index? : Alteration → Option Index
  | column _ => none
  | index i => some i

theorem filterMap_column?_index (is : List Index) : (is.map index).filterMap column? = [] := by
  simp [List.filterMap_map, Function.comp_def, column?]

theorem filterMap_index?_index (is : List Index) : (is.map index).filterMap index? = is := by
  simp [List.filterMap_map, Function.comp_def, index?]

end Alteration

namespace Catalog

def has (C : Catalog) (column : String) : Bool := C.columns.any fun n => Text.sameName n column

def alter (C : Catalog) : Alteration → Catalog
  | .column c => { C with columns := C.columns ++ [c.name] }
  | .index i => { C with indexes := Index.add C.indexes i }

def after (C : Catalog) (as : List Alteration) : Catalog := as.foldl alter C

/-- There are no two columns of one name. -/
def Allows (C : Catalog) : Alteration → Prop
  | .column c => C.has c.name = false
  | .index _ => True

def Admits : Catalog → List Alteration → Prop
  | _, [] => True
  | C, a :: as => C.Allows a ∧ (C.alter a).Admits as

variable {C : Catalog} {as bs : List Alteration}

theorem after_append (C : Catalog) (as bs : List Alteration) :
    C.after (as ++ bs) = (C.after as).after bs := List.foldl_append

theorem admits_append : C.Admits (as ++ bs) ↔ C.Admits as ∧ (C.after as).Admits bs := by
  induction as generalizing C with
  | nil => exact ⟨fun h => ⟨trivial, h⟩, And.right⟩
  | cons a as ih => exact (and_congr_right fun _ => ih).trans and_assoc.symm

theorem columns_after (C : Catalog) (as : List Alteration) :
    (C.after as).columns = C.columns ++ (as.filterMap Alteration.column?).map Column.name := by
  induction as generalizing C with
  | nil => exact (List.append_nil _).symm
  | cons a as ih =>
    cases a with
    | column c => exact (ih _).trans (List.append_assoc _ [c.name] _)
    | index i => exact ih _

theorem indexes_after (C : Catalog) (as : List Alteration) :
    (C.after as).indexes = (as.filterMap Alteration.index?).foldl Index.add C.indexes := by
  induction as generalizing C with
  | nil => rfl
  | cons a as ih =>
    cases a with
    | column c => exact ih _
    | index i => exact ih _

/-- The same unique indexes are there. -/
def SameUnique (C C' : Catalog) : Prop :=
  ∀ i : Index, i.unique = true → (i ∈ C.indexes ↔ i ∈ C'.indexes)

/-- The columns that are added have names of their own. -/
theorem Admits.apart (h : C.Admits as) :
    (∀ c ∈ as.filterMap Alteration.column?, C.has c.name = false) ∧
    (as.filterMap Alteration.column?).Pairwise Column.Apart := by
  induction as generalizing C with
  | nil => exact ⟨fun c hc => absurd hc List.not_mem_nil, .nil⟩
  | cons a as ih =>
    obtain ⟨hnew, hapart⟩ := ih h.2
    cases a with
    | index i => exact ⟨hnew, hapart⟩
    | column c =>
      have hlater : ∀ c' ∈ as.filterMap Alteration.column?,
          C.has c'.name = false ∧ c.Apart c' := by
        intro c' hc'
        have := hnew c' hc'
        simpa [has, alter, Column.Apart] using this
      refine ⟨?_, List.pairwise_cons.2 ⟨fun c' hc' => (hlater c' hc').2, hapart⟩⟩
      intro c' hc'
      rcases List.mem_cons.1 hc' with rfl | hc'
      · exact h.1
      · exact (hlater c' hc').1

end Catalog

namespace Mapping

variable (m : Mapping)

/-- The index that makes a column unique. -/
def ownIndex (c : Column) : Index := ⟨Index.defaultName m.table c.name, m.table, true, [c.name]⟩

/-- The indexes that belong to columns. -/
def ownIndexes (cs : List Column) : List Index := (cs.filter Column.isUnique).map m.ownIndex

/-- What adds a column. -/
def adding (c : Column) : List Alteration :=
  .column c :: if c.isUnique then [.index (m.ownIndex c)] else []

/-- The indexes that every migration asks for. -/
def declared : List Index := m.indexes.toOption.getD []

def lacking (C : Catalog) : List Column := m.columns.filter fun c => !C.has c.name

/-- What is added to a table, one after the other. -/
def migration (C : Catalog) : List Alteration :=
  (m.lacking C).flatMap m.adding ++ m.declared.map .index

def migrate (C : Catalog) : Catalog := C.after (m.migration C)

/-- All that may be added to it. -/
def alterations : List Alteration := m.columns.flatMap m.adding ++ m.declared.map .index

variable {m} {C C₁ : Catalog} {c : Column} {cs before rest : List Column} {as : List Alteration}

@[simp] theorem ownIndexes_append (cs cs' : List Column) :
    m.ownIndexes (cs ++ cs') = m.ownIndexes cs ++ m.ownIndexes cs' := by
  simp [ownIndexes]

theorem sameName_ownIndex (c c' : Column) :
    Text.sameName (m.ownIndex c).name (m.ownIndex c').name = Text.sameName c.name c'.name := by
  simp [Text.sameName, ownIndex, Index.defaultName, Text.foldAscii_append]

theorem filterMap_column?_adding (cs : List Column) :
    (cs.flatMap m.adding).filterMap Alteration.column? = cs := by
  induction cs with
  | nil => rfl
  | cons c cs ih =>
    rw [List.flatMap_cons, List.filterMap_append, ih, adding]
    cases c.isUnique <;> rfl

theorem filterMap_index?_adding (cs : List Column) :
    (cs.flatMap m.adding).filterMap Alteration.index? = m.ownIndexes cs := by
  induction cs with
  | nil => rfl
  | cons c cs ih =>
    rw [List.flatMap_cons, List.filterMap_append, ih, adding, ownIndexes, ownIndexes,
      List.filter_cons]
    cases c.isUnique <;> rfl

theorem eq_ownIndex_of_named? {a : String} {i : Index}
    (h : Index.named? (m.ownIndexes cs) a = some i) :
    ∃ c ∈ cs, c.isUnique = true ∧ m.ownIndex c = i ∧
      Text.sameName (m.ownIndex c).name a = true := by
  obtain ⟨c, hc, rfl⟩ := List.mem_map.1 (List.mem_of_find?_eq_some h)
  obtain ⟨hc, hunique⟩ := List.mem_filter.1 hc
  exact ⟨c, hc, hunique, rfl, Index.sameName_of_named? h⟩

theorem ownIndex_mem (h : c ∈ cs) (hunique : c.isUnique = true) :
    m.ownIndex c ∈ m.ownIndexes cs :=
  List.mem_map_of_mem (List.mem_filter.2 ⟨h, hunique⟩)

/-- The name of a column's index tells the column. -/
theorem eq_of_sameName (hapart : cs.Pairwise Column.Apart) (hc : c ∈ cs) {c' : Column}
    (hc' : c' ∈ cs) (h : Text.sameName (m.ownIndex c).name (m.ownIndex c').name = true) :
    c = c' := by
  rw [sameName_ownIndex] at h
  by_contra hne
  exact Bool.false_ne_true ((hapart.forall hc hc' hne).symm.trans h)

theorem named?_ownIndexes (hapart : cs.Pairwise Column.Apart) (h : c ∈ cs)
    (hunique : c.isUnique = true) :
    Index.named? (m.ownIndexes cs) (m.ownIndex c).name = some (m.ownIndex c) := by
  cases hnamed : Index.named? (m.ownIndexes cs) (m.ownIndex c).name with
  | none => exact absurd hnamed (Index.named?_ne_none (ownIndex_mem h hunique))
  | some i =>
    obtain ⟨c', hc', -, rfl, hname⟩ := eq_ownIndex_of_named? hnamed
    rw [eq_of_sameName hapart hc' h hname]

theorem apart_lacking (h : C.Admits (m.migration C)) : (m.lacking C).Pairwise Column.Apart := by
  have hapart := h.apart.2
  rwa [migration, List.filterMap_append, filterMap_column?_adding,
    Alteration.filterMap_column?_index, List.append_nil] at hapart

/-- A migration that stops has added some columns and the indexes of all of these, or of all but the
last one. Declared indexes come once no column is lacking. -/
theorem prefix_migration (h : as <+: m.migration C) :
    ∃ before rest made is, m.lacking C = before ++ rest ∧ made <+: before ∧ is <+: m.declared ∧
      (is = [] ∨ rest = []) ∧ as.filterMap Alteration.column? = before ∧
      as.filterMap Alteration.index? = m.ownIndexes made ++ is := by
  rcases prefix_flatMap_append h with ⟨q, hq, rfl⟩ | ⟨before, c, rest, q, hsplit, hq, hne, rfl⟩
  · obtain ⟨is, his, rfl⟩ := List.prefix_map_iff.1 hq
    refine ⟨_, [], _, is, (List.append_nil _).symm, List.prefix_rfl, his, .inr rfl, ?_, ?_⟩
    · rw [List.filterMap_append, filterMap_column?_adding, Alteration.filterMap_column?_index,
        List.append_nil]
    · rw [List.filterMap_append, filterMap_index?_adding, Alteration.filterMap_index?_index]
  · rcases List.prefix_cons_iff.1 hq with rfl | ⟨q, rfl, hindex⟩
    · rw [List.append_nil]
      exact ⟨before, c :: rest, before, [], hsplit, List.prefix_rfl, List.nil_prefix, .inl rfl,
        filterMap_column?_adding _, (filterMap_index?_adding _).trans (List.append_nil _).symm⟩
    · -- only the index of the last column can be left
      have hnil : q = [] := by
        have hpart : q ≠ if c.isUnique then [.index (m.ownIndex c)] else [] :=
          fun h => hne (congrArg _ h)
        cases hunique : c.isUnique with
        | false =>
          rw [hunique] at hindex
          exact List.prefix_nil.1 hindex
        | true =>
          rw [hunique] at hindex hpart
          rcases List.prefix_cons_iff.1 hindex with hnil | ⟨q, rfl, hnil⟩
          · exact hnil
          · exact absurd (congrArg _ (List.prefix_nil.1 hnil)) hpart
      refine ⟨before ++ [c], rest, before, [], ?_, List.prefix_append _ _, List.nil_prefix,
        .inl rfl, ?_, ?_⟩
      · rw [hsplit, List.append_assoc]
        rfl
      · rw [hnil, List.filterMap_append, filterMap_column?_adding]
        rfl
      · rw [hnil, List.filterMap_append, filterMap_index?_adding]
        rfl

/-- Columns that were added are not lacking any more. -/
theorem lacking_eq (hsplit : m.lacking C = before ++ rest)
    (hapart : (m.lacking C).Pairwise Column.Apart)
    (hcolumns : C₁.columns = C.columns ++ before.map Column.name) : m.lacking C₁ = rest := by
  have hfilter : m.lacking C₁ =
      (m.lacking C).filter fun c => !(before.any fun c' => Text.sameName c'.name c.name) := by
    rw [lacking, lacking, List.filter_filter]
    refine List.filter_congr fun c _ => ?_
    rw [Catalog.has, hcolumns, List.any_append, List.any_map, Bool.not_or, Bool.and_comm]
    rfl
  have hbefore :
      before.filter (fun c => !(before.any fun c' => Text.sameName c'.name c.name)) = [] := by
    rw [List.filter_eq_nil_iff]
    intro c hc
    simpa using ⟨c, hc, Text.sameName_refl _⟩
  have hrest :
      rest.filter (fun c => !(before.any fun c' => Text.sameName c'.name c.name)) = rest := by
    rw [hsplit] at hapart
    rw [List.filter_eq_self]
    intro c hc
    have hother : ∀ c' ∈ before, Text.sameName c'.name c.name = false :=
      fun c' hc' => (List.pairwise_append.1 hapart).2.2 c' hc' c hc
    simpa using hother
  rw [hfilter, hsplit, List.filter_append, hbefore, hrest, List.nil_append]

variable (m) in
/-- What interrupted migrations have made of a catalog. -/
structure Part (C C₁ : Catalog) (before rest : List Column) (made : List Index) : Prop where
  split : m.lacking C = before ++ rest
  columns : C₁.columns = C.columns ++ before.map Column.name
  indexes : C₁.indexes = made.foldl Index.add C.indexes
  /-- An index is made for a column, or it is declared and no column is lacking. -/
  named {a : String} {i : Index} : Index.named? made a = some i →
    (∃ c ∈ before, c.isUnique = true ∧ m.ownIndex c = i) ∨
    rest = [] ∧ Index.named? m.declared a = some i

theorem Part.start (C : Catalog) : m.Part C C [] (m.lacking C) [] :=
  ⟨rfl, (List.append_nil _).symm, rfl, fun h => by cases h⟩

/-- One more migration that is interrupted. -/
theorem Part.interrupted {made : List Index} (h : m.Part C C₁ before rest made)
    (hapart : (m.lacking C).Pairwise Column.Apart) (has : as <+: m.migration C₁) :
    ∃ before rest made, m.Part C (C₁.after as) before rest made := by
  obtain ⟨more, rest', owned, is, hsplit, howned, his, hnone, hcolumns, hindexes⟩ :=
    prefix_migration has
  have hrest : rest = more ++ rest' := (lacking_eq h.split hapart h.columns).symm.trans hsplit
  refine ⟨before ++ more, rest', made ++ (m.ownIndexes owned ++ is), ?_, ?_, ?_, ?_⟩
  · rw [h.split, hrest, List.append_assoc]
  · rw [Catalog.columns_after, hcolumns, h.columns, List.map_append, List.append_assoc]
  · rw [Catalog.indexes_after, hindexes, h.indexes, ← List.foldl_append]
  · intro a i hi
    -- made before, or now for a column, or now because it is declared
    rw [Index.named?_append, Option.or_eq_some_iff] at hi
    rcases hi with hmade | ⟨-, hi⟩
    · rcases h.named hmade with ⟨c, hc, hunique, hown⟩ | ⟨hall, hdeclared⟩
      · exact .inl ⟨c, List.mem_append_left _ hc, hunique, hown⟩
      · exact .inr ⟨(List.append_eq_nil_iff.1 (hrest.symm.trans hall)).2, hdeclared⟩
    · rw [Index.named?_append, Option.or_eq_some_iff] at hi
      rcases hi with hi | ⟨-, hi⟩
      · obtain ⟨c, hc, hunique, hown, -⟩ := eq_ownIndex_of_named? hi
        exact .inl ⟨c, List.mem_append_right _ (howned.subset hc), hunique, hown⟩
      · rcases hnone with rfl | hall
        · cases hi
        · obtain ⟨later, hlater⟩ := his
          refine .inr ⟨hall, ?_⟩
          rw [← hlater, Index.named?_append, hi]
          rfl

variable (m) in
/-- A column that has to be unique was added, and its index was not made although its name was
free. -/
structure Strands (C C₁ : Catalog) (c : Column) : Prop where
  lacking : c ∈ m.lacking C
  unique : c.isUnique = true
  added : C₁.has c.name = true
  free : Index.named? C.indexes (m.ownIndex c).name = none
  missing : m.ownIndex c ∉ C₁.indexes

/-- The columns are those of a migration that is not interrupted. -/
theorem Part.columns_migrate {made : List Index} (h : m.Part C C₁ before rest made)
    (hapart : (m.lacking C).Pairwise Column.Apart) :
    (m.migrate C₁).columns = (m.migrate C).columns := by
  have hcolumns (C' : Catalog) : (m.migrate C').columns =
      C'.columns ++ (m.lacking C').map Column.name := by
    rw [migrate, Catalog.columns_after, migration, List.filterMap_append, filterMap_column?_adding,
      Alteration.filterMap_column?_index, List.append_nil]
  rw [hcolumns, hcolumns, lacking_eq h.split hapart h.columns, h.columns, h.split, List.map_append,
    List.append_assoc]

/-- What is there when a last migration is not interrupted. -/
theorem Part.mem_indexes_migrate {made : List Index} (h : m.Part C C₁ before rest made)
    (hapart : (m.lacking C).Pairwise Column.Apart) {i : Index} : i ∈ (m.migrate C₁).indexes ↔
    i ∈ C.indexes ∨ Index.named? C.indexes i.name = none ∧
      Index.named? (made ++ (m.ownIndexes rest ++ m.declared)) i.name = some i := by
  rw [migrate, Catalog.indexes_after, migration, List.filterMap_append, filterMap_index?_adding,
    Alteration.filterMap_index?_index, lacking_eq h.split hapart h.columns, h.indexes,
    ← List.foldl_append, Index.mem_foldl_add]

theorem Part.strands_iff {made : List Index} (h : m.Part C C₁ before rest made)
    (hapart : (m.lacking C).Pairwise Column.Apart) : m.Strands C C₁ c ↔
    c ∈ before ∧ c.isUnique = true ∧ Index.named? C.indexes (m.ownIndex c).name = none ∧
      Index.named? made (m.ownIndex c).name ≠ some (m.ownIndex c) := by
  constructor
  · intro hc
    refine ⟨?_, hc.unique, hc.free, fun hmade => ?_⟩
    · refine (List.mem_append.1 (h.split ▸ hc.lacking)).resolve_right fun hrest => ?_
      rw [← lacking_eq h.split hapart h.columns] at hrest
      have hlacks := (List.mem_filter.1 hrest).2
      rw [hc.added] at hlacks
      exact Bool.false_ne_true hlacks
    · exact hc.missing (h.indexes ▸ Index.mem_foldl_add.2 (.inr ⟨hc.free, hmade⟩))
  · rintro ⟨hc, hunique, hfree, hmade⟩
    refine ⟨h.split ▸ List.mem_append_left _ hc, hunique, ?_, hfree, ?_⟩
    · rw [Catalog.has, h.columns, List.any_eq_true]
      exact ⟨c.name, List.mem_append_right _ (List.mem_map_of_mem hc), Text.sameName_refl _⟩
    · rw [h.indexes, Index.mem_foldl_add]
      rintro (hold | ⟨-, hnew⟩)
      · exact Index.named?_ne_none hold hfree
      · exact hmade hnew

/-- Under the name of a column that was added, there is its index if it was made; otherwise what is
declared. -/
theorem Part.named?_added {made : List Index} (h : m.Part C C₁ before rest made)
    (hapart : (m.lacking C).Pairwise Column.Apart) (hc : c ∈ before)
    (hmade : Index.named? made (m.ownIndex c).name ≠ some (m.ownIndex c)) :
    Index.named? (made ++ (m.ownIndexes rest ++ m.declared)) (m.ownIndex c).name =
      Index.named? m.declared (m.ownIndex c).name := by
  have hmem : c ∈ m.lacking C := h.split ▸ List.mem_append_left _ hc
  have hrest : Index.named? (m.ownIndexes rest) (m.ownIndex c).name = none := by
    rw [Option.eq_none_iff_forall_not_mem]
    intro i hi
    obtain ⟨c', hc', -, -, hname⟩ := eq_ownIndex_of_named? hi
    rw [h.split, List.pairwise_append] at hapart
    rw [sameName_ownIndex, Text.sameName_comm] at hname
    exact Bool.false_ne_true ((hapart.2.2 c hc c' hc').symm.trans hname)
  rw [Index.named?_append, Index.named?_append, hrest, Option.none_or]
  cases hi : Index.named? made (m.ownIndex c).name with
  | none => exact Option.none_or
  | some i =>
    rcases h.named hi with ⟨c', hc', hunique, rfl⟩ | ⟨-, hdeclared⟩
    · have hmem' : c' ∈ m.lacking C := h.split ▸ List.mem_append_left _ hc'
      rw [eq_of_sameName hapart hmem' hmem (Index.sameName_of_named? hi)] at hi
      exact absurd hi hmade
    · rw [hdeclared]
      rfl

/-- Under another name there is what an uninterrupted migration makes. -/
theorem Part.named?_eq {made : List Index} (h : m.Part C C₁ before rest made) {a : String}
    (hmade : ∀ c ∈ before, c.isUnique = true → Text.sameName (m.ownIndex c).name a = true →
      Index.named? made a = some (m.ownIndex c)) :
    Index.named? (made ++ (m.ownIndexes rest ++ m.declared)) a =
      Index.named? (m.ownIndexes (m.lacking C) ++ m.declared) a := by
  rw [h.split, ownIndexes_append, List.append_assoc, Index.named?_append,
    Index.named?_append (m.ownIndexes before)]
  cases hbefore : Index.named? (m.ownIndexes before) a with
  | some i =>
    obtain ⟨c, hc, hunique, rfl, hname⟩ := eq_ownIndex_of_named? hbefore
    rw [hmade c hc hunique hname]
  | none =>
    cases hi : Index.named? made a with
    | none => rfl
    | some i =>
      rcases h.named hi with ⟨c, hc, hunique, rfl⟩ | ⟨rfl, hdeclared⟩
      · have hname := Index.sameName_of_named? hi
        rw [← Index.named?_congr _ hname] at hbefore
        exact absurd hbefore (Index.named?_ne_none (ownIndex_mem hc hunique))
      · exact hdeclared.symm

/-- The unique indexes are those of a migration that is not interrupted, but for that of a stranded
column: it is there only if the mapping declares it once more, ahead of others of its name. -/
theorem Part.sameUnique_iff {made : List Index} (h : m.Part C C₁ before rest made)
    (hapart : (m.lacking C).Pairwise Column.Apart) :
    (m.migrate C₁).SameUnique (m.migrate C) ↔
      ∀ c, m.Strands C C₁ c →
        Index.named? m.declared (m.ownIndex c).name = some (m.ownIndex c) := by
  have honce {i : Index} := (Part.start C).mem_indexes_migrate hapart (i := i)
  have hown (c : Column) (hc : c ∈ m.lacking C) (hunique : c.isUnique = true) :
      Index.named? (m.ownIndexes (m.lacking C) ++ m.declared) (m.ownIndex c).name =
        some (m.ownIndex c) := by
    rw [Index.named?_append, named?_ownIndexes hapart hc hunique]
    rfl
  constructor
  · intro hsame c hc
    obtain ⟨hadded, hunique, hfree, hmade⟩ := (h.strands_iff hapart).1 hc
    have hmem := (hsame _ rfl).2 (honce.2 (.inr ⟨hfree, hown c hc.lacking hunique⟩))
    rcases (h.mem_indexes_migrate hapart).1 hmem with hold | ⟨-, hagain⟩
    · exact absurd hfree (Index.named?_ne_none hold)
    · exact (h.named?_added hapart hadded hmade).symm.trans hagain
  · intro hdeclared i _
    rw [h.mem_indexes_migrate hapart, honce]
    refine or_congr_right (and_congr_right fun hfree => ?_)
    -- the two migrations differ at most under the name of a stranded column
    by_cases hlost : ∃ c ∈ before, c.isUnique = true ∧
        Text.sameName (m.ownIndex c).name i.name = true ∧
        Index.named? made i.name ≠ some (m.ownIndex c)
    · obtain ⟨c, hc, hunique, hname, hmade⟩ := hlost
      rw [← Index.named?_congr _ hname] at hfree hmade
      have hstrands := (h.strands_iff hapart).2 ⟨hc, hunique, hfree, hmade⟩
      have hagain := (h.named?_added hapart hc hmade).trans (hdeclared c hstrands)
      rw [← Index.named?_congr _ hname, ← Index.named?_congr _ hname, hagain, List.nil_append,
        hown c hstrands.lacking hunique]
    · have hkept := h.named?_eq fun c hc hunique hname => by
        by_contra hmade
        exact hlost ⟨c, hc, hunique, hname, hmade⟩
      rw [hkept]
      rfl

end Mapping

end RowLedger
