import RowLedger.Proofs.Schema.Indexes
import RowLedger.Proofs.Schema.Lookup

/-!
The identifying column, declared by a plain field or added by the mapping. Both make the same
mapping apart from that column, and the two columns differ in one thing: where columns are indexed
by the end of their names, the declared one gets an index of its own besides being unique.
-/

namespace RowLedger

/-- A plain field under the identifying name. -/
def Field.sync (property : String) (optional : Bool) : Field :=
  { name := syncName, property, type := ⟨.guid, optional⟩ }

/-- The identifying column that such a field makes. -/
def Column.declaredSync (property : String) (position : Nat) (flags : Flags) : Column :=
  { Column.sync with
    property := some property
    field := some position
    indices := if flags.implicitIndex then [{}, .onColumn] else [.onColumn] }

theorem Column.isUnique_declaredSync (property : String) (position : Nat) (flags : Flags) :
    (declaredSync property position flags).isUnique = true := by
  obtain ⟨implicitKey, implicitIndex, autoKey⟩ := flags
  cases implicitIndex <;> rfl

/-- The name is not that of a key, but it ends in `Id` up to case. -/
theorem Column.markSync_ofField_sync (property : String) (optional : Bool) (position : Nat)
    (flags : Flags) : (Column.ofField (Field.sync property optional) position flags).markSync =
      .declaredSync property position flags := by
  have hkey : Text.sameName syncName "Id" = false := by decide
  have hends : Column.endsInId syncName = true := by decide
  obtain ⟨implicitKey, implicitIndex, autoKey⟩ := flags
  cases implicitIndex <;>
    simp [Column.ofField, Field.sync, Column.markSync, Column.isUnique, Column.declaredSync,
      Column.sync, IndexAttr.isOnColumn, hkey, hends]

namespace Mapping

/-- No field that makes a column has the identifying name, in any case. -/
def LacksSync (fields : List Field) : Prop :=
  ∀ f ∈ fields, f.ignored = false → Text.sameName f.name syncName = false

variable {typeName table : String} {fields : List Field} {flags : Flags} {m m' : Mapping}
  {cs columns : List Column} {sync : Nat}

/-! One column more, under the identifying name. -/

theorem LacksSync.columnsOf (h : LacksSync fields) (flags : Flags) :
    ∀ c ∈ columnsOf flags fields, Text.sameName c.name syncName = false := by
  intro c hc
  rw [columnsOf_eq] at hc
  obtain ⟨p, hp, rfl⟩ := List.mem_map.1 hc
  obtain ⟨hmem, hnot⟩ := mem_of_mem_kept hp
  exact h p.1 hmem hnot

theorem LacksSync.columnsOf_concat (h : LacksSync fields) (flags : Flags) (property : String)
    (optional : Bool) : Mapping.columnsOf flags (fields ++ [Field.sync property optional]) =
      Mapping.columnsOf flags fields ++
        [Column.ofField (Field.sync property optional) fields.length flags] := by
  rw [Mapping.columnsOf_concat, if_neg]
  intro htaken
  obtain ⟨c, hc, hname⟩ := List.any_eq_true.1 htaken
  have hnot := h.columnsOf flags c hc
  rw [beq_iff_eq.1 hname] at hnot
  exact absurd (Text.sameName_refl syncName) (Bool.eq_false_iff.1 hnot)

theorem withSync_of_lacks (h : ∀ c ∈ cs, Text.sameName c.name syncName = false) :
    withSync table cs = .ok (cs ++ [Column.sync], cs.length) := by
  have hnone : cs.findIdx? (fun c => Text.sameName c.name syncName) = none :=
    List.findIdx?_eq_none_iff.2 h
  rw [withSync, hnone]

theorem modify_concat {α : Type} (g : α → α) (xs : List α) (x : α) :
    (xs ++ [x]).modify xs.length g = xs ++ [g x] := by
  induction xs with
  | nil => rfl
  | cons y xs ih => exact congrArg (y :: ·) ih

theorem withSync_concat (table : String)
    (h : ∀ c ∈ cs, Text.sameName c.name syncName = false) (c : Column) (hname : c.name = syncName)
    (hkind : c.kind = .guid) :
    withSync table (cs ++ [c]) = .ok (cs ++ [c.markSync], cs.length) := by
  have hnone : cs.findIdx? (fun c => Text.sameName c.name syncName) = none :=
    List.findIdx?_eq_none_iff.2 h
  have hsome : (cs ++ [c]).findIdx? (fun c => Text.sameName c.name syncName) = some cs.length := by
    rw [List.findIdx?_append, hnone, List.findIdx?_singleton, hname, Text.sameName_refl]
    simp
  rw [withSync, hsome]
  simp [hkind, modify_concat]

/-! A column at the end that is no key does not move the positions of keys. -/

theorem findIdx?_concat_of_not {α : Type} {p : α → Bool} {x : α} (h : p x = false) (xs : List α) :
    (xs ++ [x]).findIdx? p = xs.findIdx? p := by
  rw [List.findIdx?_append, List.findIdx?_singleton, h]
  simp

theorem lastIdx?_concat_of_not {α : Type} {p : α → Bool} {x : α} (h : p x = false) (xs : List α) :
    lastIdx? p (xs ++ [x]) = lastIdx? p xs := by
  have hlen (i : Nat) : (xs ++ [x]).length - 1 - (i + 1) = xs.length - 1 - i := by
    rw [List.length_append, List.length_singleton]
    omega
  rw [lastIdx?, lastIdx?, List.reverse_append, List.reverse_singleton, List.singleton_append,
    List.findIdx?_cons, h, if_neg Bool.false_ne_true, Option.map_map]
  exact Option.map_congr fun i _ => hlen i

/-! The mapping. -/

/-- A mapping is made where there are columns, at most one of which counts up. -/
theorem ofFields_eq (hne : columnsOf flags fields ≠ [])
    (hfew : (columnsOf flags fields).countP Column.autoIncrement ≤ 1)
    (hsync : withSync table (columnsOf flags fields) = .ok (columns, sync)) :
    ofFields typeName table fields flags =
      .ok ⟨typeName, table, columns, flags, lastIdx? Column.primaryKey columns,
        columns.findIdx? fun c => c.primaryKey && c.autoIncrement, sync⟩ := by
  rw [List.countP_eq_length_filter] at hfew
  have hempty : ¬(columnsOf flags fields).isEmpty = true := by rwa [List.isEmpty_iff]
  unfold ofFields
  dsimp only
  rw [if_neg hempty, if_neg (Nat.not_lt.2 hfew), hsync]
  rfl

/-- The mapping of fields with a column for the identifying name at the end. -/
def ending (typeName table : String) (flags : Flags) (cs : List Column) (c : Column) : Mapping where
  typeName := typeName
  table := table
  columns := cs ++ [c]
  flags := flags
  key := lastIdx? Column.primaryKey cs
  autoKey := cs.findIdx? fun c => c.primaryKey && c.autoIncrement
  sync := cs.length

theorem syncColumn_ending (typeName table : String) (flags : Flags) (cs : List Column)
    (c : Column) : (ending typeName table flags cs c).syncColumn = c := by
  rw [syncColumn, column?, ending, List.getElem?_concat_length]
  rfl

theorem ofFields_of_lacks (h : ofFields typeName table fields flags = .ok m)
    (hlacks : LacksSync fields) :
    m = ending typeName table flags (columnsOf flags fields) Column.sync := by
  obtain ⟨columns, sync, hsync, rfl⟩ := ofFields_ok h
  rw [withSync_of_lacks (hlacks.columnsOf flags)] at hsync
  cases hsync
  rw [lastIdx?_concat_of_not rfl, findIdx?_concat_of_not rfl]
  rfl

theorem ofFields_concat_sync (h : ofFields typeName table fields flags = .ok m)
    (hlacks : LacksSync fields) (property : String) (optional : Bool) :
    ofFields typeName table (fields ++ [Field.sync property optional]) flags =
      .ok (ending typeName table flags (columnsOf flags fields)
        (.declaredSync property fields.length flags)) := by
  have hfew := countP_autoIncrement_columnsOf h
  have hcolumns := hlacks.columnsOf_concat flags property optional
  have hguid : (Column.ofField (Field.sync property optional) fields.length flags).autoIncrement =
      false := Bool.and_false _
  have hsync := withSync_concat table (hlacks.columnsOf flags)
    (Column.ofField (Field.sync property optional) fields.length flags) rfl rfl
  rw [Column.markSync_ofField_sync, ← hcolumns] at hsync
  rw [ofFields_eq _ _ hsync, lastIdx?_concat_of_not rfl, findIdx?_concat_of_not rfl]
  · rfl
  · rw [hcolumns]
    exact List.concat_ne_nil _ _
  · rw [hcolumns, List.countP_append, List.countP_singleton, hguid]
    exact hfew

end Mapping

/-! The indexes of a mapping that has one attribute more than another one. -/

namespace Index

variable {name : String} {unique : Bool} {member : Int × String} {gs gs' : List Group}

/-- All groups together have one place more. -/
theorem length_members_insertMember (h : insertMember name unique member gs = .ok gs') :
    (gs'.flatMap Group.members).length = (gs.flatMap Group.members).length + 1 := by
  induction gs generalizing gs' with
  | nil =>
    cases h
    rfl
  | cons k gs ih =>
    rcases insertMember_cons_ok h with ⟨-, -, rfl⟩ | ⟨-, rfl⟩ | ⟨-, rest, hput, rfl⟩
    · simp only [List.flatMap_cons, List.length_append, List.length_singleton]
      omega
    · simp only [List.flatMap_cons, List.length_append, List.length_singleton]
      omega
    · have hrest := ih hput
      simp only [List.flatMap_cons, List.length_append]
      omega

theorem length_columns_ofGroup (table : String) (gs : List Group) :
    ((gs.map (ofGroup table)).flatMap Index.columns).length =
      (gs.flatMap Group.members).length := by
  induction gs with
  | nil => rfl
  | cons g gs ih =>
    rw [List.map_cons, List.flatMap_cons, List.flatMap_cons, List.length_append, ih,
      List.length_append]
    simp [ofGroup, List.length_mergeSort]

theorem map_ofGroup_insertMember_ne (h : insertMember name unique member gs = .ok gs')
    (table : String) : gs'.map (ofGroup table) ≠ gs.map (ofGroup table) := by
  intro heq
  have hlen := length_members_insertMember h
  rw [← length_columns_ofGroup table, ← length_columns_ofGroup table gs, heq] at hlen
  omega

/-- The index of the name has the column of the member. -/
theorem exists_mem_of_insertMember (hgs : Ascending gs)
    (h : insertMember name unique member gs = .ok gs') (table : String) :
    ∃ i ∈ gs'.map (ofGroup table), i.name = name ∧ i.unique = unique ∧ member.2 ∈ i.columns := by
  have hmem := (mem_insertMember h hgs).2 (.inr rfl)
  refine ⟨_, List.mem_map_of_mem hmem, rfl, rfl, ?_⟩
  apply List.mem_map_of_mem
  rw [List.mem_mergeSort]
  exact List.mem_append_right _ (List.mem_singleton_self member)

end Index

namespace Mapping

section

variable {m m' : Mapping} {gs : List Index.Group}

theorem indexes_of_groups (h : Index.groups m = .ok gs) :
    m.indexes = .ok (gs.map (Index.ofGroup m.table)) := by
  unfold indexes
  rw [h]
  rfl

theorem indexes_of_groups_error {e : Error} (h : Index.groups m = .error e) :
    m.indexes = .error e := by
  unfold indexes
  rw [h]
  rfl

theorem ascending_groups (h : Index.groups m = .ok gs) : Index.Ascending gs := by
  have hall := Index.Gathered.nil.foldlM (m.members.map Prod.snd)
  rw [List.nil_append, ← groups_eq, h] at hall
  exact hall.ascending

theorem indexes_congr (htable : m'.table = m.table)
    (hattributes : Index.attributes m' = Index.attributes m) : m'.indexes = m.indexes := by
  rw [indexes, indexes, Index.groups, Index.groups, hattributes, htable]

variable {a : IndexAttr} {column : String} (htable : m'.table = m.table)
  (hattributes : Index.attributes m' = Index.attributes m ++ [(a, column)])
include htable hattributes

/-- The last attribute is put after all others. -/
theorem groups_concat :
    Index.groups m' = (Index.groups m >>= fun gs =>
      Index.insertMember (a.name.getD (Index.defaultName m.table column)) a.unique
        (a.order, column) gs) := by
  rw [Index.groups, hattributes, htable, List.foldlM_append, ← Index.groups]
  congr 1
  funext gs
  rw [List.foldlM_cons]
  exact bind_pure _

/-- The indexes are others, wherever they could be told before. -/
theorem indexes_concat_eq_iff : m'.indexes = m.indexes ↔ ∃ e, m.indexes = .error e := by
  have hgroups := groups_concat htable hattributes
  cases hold : Index.groups m with
  | error e =>
    rw [hold] at hgroups
    rw [indexes_of_groups_error hold, indexes_of_groups_error hgroups]
    exact iff_of_true rfl ⟨e, rfl⟩
  | ok gs =>
    rw [indexes_of_groups hold]
    refine iff_of_false (fun heq => ?_) nofun
    obtain ⟨gs', hgs', hmap⟩ := except_bind_ok.1 heq
    rw [hgroups, hold] at hgs'
    rw [htable] at hmap
    exact Index.map_ofGroup_insertMember_ne hgs' m.table (Except.ok.inj hmap)

/-- Where they can be told, the index of the attribute has its column. -/
theorem exists_index_concat {is : List Index} (h : m'.indexes = .ok is) :
    ∃ i ∈ is, i.name = a.name.getD (Index.defaultName m.table column) ∧ i.unique = a.unique ∧
      column ∈ i.columns := by
  obtain ⟨gs', hgs', hmap⟩ := except_bind_ok.1 h
  cases hmap
  rw [groups_concat htable hattributes] at hgs'
  obtain ⟨gs, hgs, hput⟩ := except_bind_ok.1 hgs'
  exact Index.exists_mem_of_insertMember (ascending_groups hgs) hput m'.table

end

/-! The index attributes of the identifying column. -/

theorem attributes_ending (typeName table : String) (flags : Flags) (cs : List Column)
    (c : Column) : Index.attributes (ending typeName table flags cs c) =
      cs.flatMap (fun c => (c.indices.filter fun a => !a.isOnColumn).map fun a => (a, c.name)) ++
        (c.indices.filter fun a => !a.isOnColumn).map fun a => (a, c.name) := by
  rw [Index.attributes, ending, List.flatMap_append, List.flatMap_singleton]

/-- What is declared on the column itself makes no index. -/
theorem attributes_declared (typeName table : String) (flags : Flags) (cs : List Column)
    (property : String) (position : Nat) :
    Index.attributes (ending typeName table flags cs (.declaredSync property position flags)) =
      Index.attributes (ending typeName table flags cs Column.sync) ++
        if flags.implicitIndex then [(({} : IndexAttr), syncName)] else [] := by
  rw [attributes_ending, attributes_ending, List.append_assoc]
  congr 1
  obtain ⟨implicitKey, implicitIndex, autoKey⟩ := flags
  cases implicitIndex <;> rfl

/-- Declaring the identifying column, for every list of fields without one that a mapping is made
from: the mapping is made too, and it is the same but for that column, which is mandatory, drawn
and unique as an added one is. It has the same index attributes exactly if columns are not indexed
by the end of their names. Else it asks for an index of its own that is not unique, so that the
indexes are others wherever those of the fields can be told. -/
theorem ofFields_syncDeclared {typeName table : String} {fields : List Field} {flags : Flags}
    {m : Mapping} (h : ofFields typeName table fields flags = .ok m) (hlacks : LacksSync fields)
    (property : String) (optional : Bool) :
    ∃ m', ofFields typeName table (fields ++ [Field.sync property optional]) flags = .ok m' ∧
      m' = { m with
        columns := m.columns.set m.sync (.declaredSync property fields.length flags) } ∧
      m'.syncColumn.nullable = m.syncColumn.nullable ∧
      m'.syncColumn.autoGuid = m.syncColumn.autoGuid ∧
      m'.syncColumn.isUnique = m.syncColumn.isUnique ∧
      (m'.syncColumn.indices = m.syncColumn.indices ↔ flags.implicitIndex = false) ∧
      (m'.indexes = m.indexes ↔ flags.implicitIndex = false ∨ ∃ e, m.indexes = .error e) ∧
      (flags.implicitIndex = true → ∀ is, m'.indexes = .ok is →
        ∃ i ∈ is, i.name = Index.defaultName table syncName ∧ i.unique = false ∧
          syncName ∈ i.columns) := by
  have hmade := ofFields_concat_sync h hlacks property optional
  obtain rfl := ofFields_of_lacks h hlacks
  have htable (c d : Column) : (ending typeName table flags (columnsOf flags fields) c).table =
      (ending typeName table flags (columnsOf flags fields) d).table := rfl
  have hattributes := attributes_declared typeName table flags (columnsOf flags fields) property
    fields.length
  refine ⟨_, hmade, by simp [ending], ?_⟩
  rw [syncColumn_ending, syncColumn_ending]
  refine ⟨rfl, rfl, Column.isUnique_declaredSync .., ?_⟩
  cases hflag : flags.implicitIndex with
  | false =>
    rw [hflag, if_neg Bool.false_ne_true, List.append_nil] at hattributes
    refine ⟨iff_of_true ?_ rfl, iff_of_true ?_ (.inl rfl), nofun⟩
    · rw [Column.declaredSync, hflag]
      rfl
    · exact indexes_congr (htable _ _) hattributes
  | true =>
    rw [hflag, if_pos rfl] at hattributes
    rw [Bool.true_eq_false, false_or]
    refine ⟨iff_of_false ?_ id, indexes_concat_eq_iff (htable _ _) hattributes, fun _ is his => ?_⟩
    · rw [Column.declaredSync, hflag]
      simp [Column.sync]
    · exact exists_index_concat (htable _ _) hattributes his

end Mapping

/-- A table with one text has no index, and where the identifying column is declared it has one on
that column, besides the uniqueness of the column itself. -/
theorem Samples.note_indexedTwice :
    ∃ m m', Mapping.ofFields "Note" "Note" note.fields ⟨false, true, false⟩ = .ok m ∧
      Mapping.LacksSync note.fields ∧
      Mapping.ofFields "Note" "Note" (note.fields ++ [Field.sync "sync_guid" false])
        ⟨false, true, false⟩ = .ok m' ∧
      m.indexes = .ok [] ∧ m'.indexes ≠ m.indexes ∧
      m'.syncColumn.indices ≠ m.syncColumn.indices := by
  let m := Mapping.ending "Note" "Note" ⟨false, true, false⟩
    (Mapping.columnsOf ⟨false, true, false⟩ note.fields) Column.sync
  have hmade : Mapping.ofFields "Note" "Note" note.fields ⟨false, true, false⟩ = .ok m := by
    decide +kernel
  have hlacks : Mapping.LacksSync note.fields := by
    unfold Mapping.LacksSync
    decide +kernel
  have hnone : m.indexes = .ok [] := by decide +kernel
  obtain ⟨m', hdeclared, -, -, -, -, hindices, hindexes, -⟩ :=
    Mapping.ofFields_syncDeclared hmade hlacks "sync_guid" false
  refine ⟨m, m', hmade, hlacks, hdeclared, hnone, fun heq => ?_, fun heq => ?_⟩
  · rcases hindexes.1 heq with hflag | ⟨e, he⟩
    · cases hflag
    · rw [hnone] at he
      cases he
  · cases hindices.1 heq

end RowLedger
