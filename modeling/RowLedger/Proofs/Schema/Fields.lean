import Mathlib.Data.List.Induction
import RowLedger.Proofs.Schema.Mapping
import RowLedger.Samples

/-!
A mapping told by the fields that it was made from: which columns there are, which of them
identifies, counts up or is the key, and which ones the statements write.
-/

namespace RowLedger

/-- The column is that of the field at a position. -/
structure Column.Shows (c : Column) (f : Field) (position : Nat) : Prop where
  name : c.name = f.name
  property : c.property = some f.property
  kind : c.kind = f.type.kind
  maxLength : c.maxLength = f.maxLength
  collation : c.collation = f.collation
  field : c.field = some position

theorem Column.shows_ofField (f : Field) (position : Nat) (flags : Flags) :
    (Column.ofField f position flags).Shows f position := ⟨rfl, rfl, rfl, rfl, rfl, rfl⟩

theorem Column.Shows.markSync {c : Column} {f : Field} {position : Nat} (h : c.Shows f position) :
    c.markSync.Shows f position :=
  ⟨h.name, h.property, h.kind, h.maxLength, h.collation, h.field⟩

theorem Column.isUnique_markSync (c : Column) : c.markSync.isUnique = true := by
  rw [markSync, isUnique]
  dsimp only
  split
  · next h => exact h
  · rw [List.any_append, Bool.or_eq_true]
    exact .inr rfl

/-- What an identifying column is. -/
structure Column.Identifies (c : Column) : Prop where
  kind : c.kind = .guid
  mandatory : c.nullable = false
  drawn : c.autoGuid = true
  unique : c.isUnique = true

namespace Mapping

/-- Has a field that is not ignored this name? -/
def declares (fields : List Field) (name : String) : Bool :=
  fields.any fun f => !f.ignored && f.name == name

/-- The fields that have a column: none that is ignored, and of each name the first. -/
def kept (fields : List Field) : List (Field × Nat) :=
  fields.zipIdx.filter fun p => !p.1.ignored && !declares (fields.take p.2) p.1.name

/-- What every mapping is that is made from fields. -/
structure Represents (m : Mapping) (fields : List Field) : Prop where
  /-- The kept fields in their order; one column more if none of them has the identifying name. -/
  columns : ∃ shown added, m.columns = shown ++ added ∧
    List.Forall₂ (fun p c => c.Shows p.1 p.2) (kept fields) shown ∧
    added = if (kept fields).any fun p => Text.sameName p.1.name syncName then [] else [Column.sync]
  marked : ∀ i c, m.column? i = some c → (c.isSync = true ↔ i = m.sync)
  sync : ∃ c, m.column? m.sync = some c ∧ c.Identifies
  counting : (m.columns.filter Column.autoIncrement).length ≤ 1
  guids : ∀ c ∈ m.columns, c.kind = .guid → c.autoIncrement = false
  /-- The key is the last primary key column. -/
  key : ∀ i, m.key = some i ↔ ∃ c, m.column? i = some c ∧ c.primaryKey = true ∧
    ∀ j d, i < j → m.column? j = some d → d.primaryKey = false
  inserted : m.insertColumns.Pairwise (· < ·) ∧
    ∀ i, i ∈ m.insertColumns ↔ ∃ c, m.column? i = some c ∧ c.autoIncrement = false
  updated : m.updateColumns.Pairwise (· < ·) ∧
    ∀ i, i ∈ m.updateColumns ↔ (m.column? i).isSome = true ∧ m.key ≠ some i ∧ i ≠ m.sync

/-! The columns of the fields. -/

theorem kept_concat (fields : List Field) (f : Field) :
    kept (fields ++ [f]) = kept fields ++
      if !f.ignored && !declares fields f.name then [(f, fields.length)] else [] := by
  rw [kept, List.zipIdx_append, List.filter_append]
  congr 1
  · -- what stands before a position is the same
    refine List.filter_congr fun p hp => ?_
    have hi := (List.getElem?_eq_some_iff.1 (List.mem_zipIdx_iff_getElem?.1 hp)).1
    rw [List.take_append_of_le_length (Nat.le_of_lt hi)]
  · rw [List.zipIdx_singleton, Nat.zero_add, List.filter_singleton]
    dsimp only
    rw [List.take_left]
    exact Bool.cond_eq_ite ..

theorem columnsOf_concat (flags : Flags) (fields : List Field) (f : Field) :
    columnsOf flags (fields ++ [f]) =
      if f.ignored || (columnsOf flags fields).any (fun c => c.name == f.name) then
        columnsOf flags fields
      else columnsOf flags fields ++ [Column.ofField f fields.length flags] := by
  rw [columnsOf, List.zipIdx_append, List.foldl_append, ← columnsOf, Nat.zero_add]
  rfl

/-- A name is taken once a field declares it. -/
theorem any_columnsOf (flags : Flags) (fields : List Field) (name : String) :
    (columnsOf flags fields).any (fun c => c.name == name) = declares fields name := by
  induction fields using List.reverseRecOn with
  | nil => rfl
  | append_singleton fields f ih =>
    have hlast : declares (fields ++ [f]) name =
        (declares fields name || (!f.ignored && f.name == name)) := by
      rw [declares, List.any_append, ← declares, List.any_cons, List.any_nil, Bool.or_false]
    rw [columnsOf_concat, hlast, ← ih]
    cases hignored : f.ignored with
    | true => rw [Bool.true_or, if_pos rfl, Bool.not_true, Bool.false_and, Bool.or_false]
    | false =>
      rw [Bool.false_or, Bool.not_false, Bool.true_and]
      split
      · next htaken =>
        by_cases hname : f.name = name
        · rw [← hname, htaken, Bool.true_or]
        · rw [beq_false_of_ne hname, Bool.or_false]
      · rw [List.any_append, List.any_cons, List.any_nil, Bool.or_false]
        rfl

theorem columnsOf_eq (flags : Flags) (fields : List Field) :
    columnsOf flags fields = (kept fields).map fun p => Column.ofField p.1 p.2 flags := by
  induction fields using List.reverseRecOn with
  | nil => rfl
  | append_singleton fields f ih =>
    rw [columnsOf_concat, kept_concat, List.map_append, ← ih, any_columnsOf]
    cases f.ignored <;> cases declares fields f.name <;> simp

theorem name_mem_columnsOf_iff {flags : Flags} {fields : List Field} :
    (∃ c ∈ columnsOf flags fields, Text.sameName c.name syncName = true) ↔
      ((kept fields).any fun p => Text.sameName p.1.name syncName) = true := by
  rw [columnsOf_eq, List.any_eq_true]
  constructor
  · rintro ⟨c, hc, hname⟩
    obtain ⟨p, hp, rfl⟩ := List.mem_map.1 hc
    exact ⟨p, hp, hname⟩
  · rintro ⟨p, hp, hname⟩
    exact ⟨_, List.mem_map_of_mem hp, hname⟩

theorem forall₂_modify {α β : Type} {R : α → β → Prop} {g : β → β} (hg : ∀ a b, R a b → R a (g b))
    {as : List α} {bs : List β} (h : List.Forall₂ R as bs) (i : Nat) :
    List.Forall₂ R as (bs.modify i g) := by
  induction h generalizing i with
  | nil => cases i <;> exact .nil
  | cons hab hrest ih =>
    cases i with
    | zero => exact .cons (hg _ _ hab) hrest
    | succ i => exact .cons hab (ih i)

theorem forall₂_shows_columnsOf (flags : Flags) (fields : List Field) :
    List.Forall₂ (fun p c => Column.Shows c p.1 p.2) (kept fields) (columnsOf flags fields) := by
  rw [columnsOf_eq, List.forall₂_map_right_iff, List.forall₂_same]
  exact fun p _ => Column.shows_ofField p.1 p.2 flags

/-! The identifying column. -/

section

variable {table : String} {flags : Flags} {fields : List Field} {columns : List Column} {sync : Nat}

/-- The identifying column is made; the others stay as they are. -/
theorem withSync_at {cs : List Column} (h : withSync table cs = .ok (columns, sync)) :
    (∃ c, columns[sync]? = some c ∧ c.isSync = true ∧ c.Identifies) ∧
      ∀ i, i ≠ sync → columns[i]? = cs[i]? := by
  obtain ⟨rfl, rfl, -⟩ | ⟨rfl, c, hc, hkind, -⟩ := withSync_ok h
  · refine ⟨⟨Column.sync, by simp, rfl, rfl, rfl, rfl, rfl⟩, fun i hi => ?_⟩
    rw [List.getElem?_append]
    split
    · rfl
    · next hlt =>
      rw [List.getElem?_eq_none (by rw [List.length_singleton]; omega),
        List.getElem?_eq_none (by omega)]
  · refine ⟨⟨c.markSync, by simp [hc], rfl, hkind, rfl, rfl, c.isUnique_markSync⟩, fun i hi => ?_⟩
    rw [List.getElem?_modify_ne _ _ (Ne.symm hi)]

variable (h : withSync table (columnsOf flags fields) = .ok (columns, sync))
include h

theorem columns_of_withSync :
    ∃ shown added, columns = shown ++ added ∧
      List.Forall₂ (fun p c => Column.Shows c p.1 p.2) (kept fields) shown ∧
      added = if (kept fields).any fun p => Text.sameName p.1.name syncName then []
        else [Column.sync] := by
  have hshown := forall₂_shows_columnsOf flags fields
  obtain ⟨rfl, -, hnone⟩ | ⟨rfl, c, hc, -, hname⟩ := withSync_ok h
  · refine ⟨_, _, rfl, hshown, (if_neg fun hany => ?_).symm⟩
    obtain ⟨c, hc, hname⟩ := name_mem_columnsOf_iff.2 hany
    rw [hnone c hc] at hname
    cases hname
  · refine ⟨_, [], (List.append_nil _).symm, ?_, (if_pos ?_).symm⟩
    · exact forall₂_modify (fun _ _ => Column.Shows.markSync) hshown sync
    · exact name_mem_columnsOf_iff.1 ⟨c, List.mem_of_getElem? hc, hname⟩

theorem isSync_iff_of_withSync {i : Nat} {c : Column} (hc : columns[i]? = some c) :
    c.isSync = true ↔ i = sync := by
  obtain ⟨⟨d, hd, hmarked, -⟩, hothers⟩ := withSync_at h
  by_cases hi : i = sync
  · subst hi
    obtain rfl := Option.some.inj (hd.symm.trans hc)
    exact iff_of_true hmarked rfl
  · rw [hothers i hi] at hc
    obtain ⟨f, j, -, rfl⟩ := (ofFields_columnsOf flags fields).2 c (List.mem_of_getElem? hc)
    exact iff_of_false Bool.false_ne_true hi

theorem autoIncrement_of_withSync {c : Column} (hc : c ∈ columns) (hkind : c.kind = .guid) :
    c.autoIncrement = false := by
  obtain ⟨i, hi⟩ := List.mem_iff_getElem?.1 hc
  by_cases hsync : i = sync
  · subst hsync
    obtain ⟨-, d, hd, -, hcounts, -⟩ := sync_of_withSync h
    obtain rfl := Option.some.inj (hd.symm.trans hi)
    exact hcounts
  · rw [(withSync_at h).2 i hsync] at hi
    exact autoIncrement_of_mem_columnsOf (List.mem_of_getElem? hi) hkind

/-- The identifying column does not count up. -/
theorem countP_autoIncrement_of_withSync :
    columns.countP Column.autoIncrement = (columnsOf flags fields).countP Column.autoIncrement := by
  obtain ⟨rfl, -, -⟩ | ⟨rfl, -⟩ := withSync_ok h
  · rw [List.countP_append]
    rfl
  · have hsame := map_modify_markSync (g := Column.autoIncrement) (fun _ => rfl)
      (columnsOf flags fields) sync
    have hcount := congrArg (List.countP id) hsame
    rwa [List.countP_map, List.countP_map] at hcount

end

theorem countP_autoIncrement_columnsOf {typeName table : String} {fields : List Field}
    {flags : Flags} {m : Mapping} (h : ofFields typeName table fields flags = .ok m) :
    (columnsOf flags fields).countP Column.autoIncrement ≤ 1 := by
  unfold ofFields at h
  dsimp only at h
  split at h
  · cases h
  · split at h
    · cases h
    · next hfew =>
      rw [List.countP_eq_length_filter]
      exact Nat.le_of_not_lt hfew

/-! Positions. -/

theorem pairwise_positionsWhere (m : Mapping) (p : Nat → Column → Bool) :
    (m.positionsWhere p).Pairwise (· < ·) := by
  have hsub : (m.positionsWhere p).Sublist (m.columns.zipIdx.map Prod.snd) :=
    List.filter_sublist.map _
  rw [List.zipIdx_map_snd] at hsub
  exact List.Pairwise.sublist hsub List.pairwise_lt_range'

/-- Whatever the fields and the flags, a mapping that is made represents the fields. -/
theorem ofFields_represents {typeName table : String} {fields : List Field} {flags : Flags}
    {m : Mapping} (h : ofFields typeName table fields flags = .ok m) : m.Represents fields := by
  have hcount := countP_autoIncrement_columnsOf h
  obtain ⟨columns, sync, hsync, rfl⟩ := ofFields_ok h
  obtain ⟨c, hc, -, hidentifies⟩ := (withSync_at hsync).1
  rw [← countP_autoIncrement_of_withSync hsync, List.countP_eq_length_filter] at hcount
  exact {
    columns := columns_of_withSync hsync
    marked := fun i c => isSync_iff_of_withSync hsync
    sync := ⟨c, hc, hidentifies⟩
    counting := hcount
    guids := fun c => autoIncrement_of_withSync hsync
    key := fun i => lastIdx?_eq_some_iff
    inserted := ⟨pairwise_positionsWhere _ _, fun i => mem_insertColumns⟩
    updated := ⟨pairwise_positionsWhere _ _, fun i => mem_updateColumns⟩ }

end Mapping

/-- One field is ignored, an embedded one has a taken name, and the identifier is declared. -/
theorem Samples.article_represents :
    ∃ m, Mapping.ofFields "Article" "Articles" article.fields ⟨true, true, true⟩ = .ok m ∧
      m.Represents article.fields ∧ m.sync = 7 ∧ m.key = some 0 ∧
      m.columns.map Column.field = [0, 1, 2, 3, 4, 5, 6, 8, 9, 10].map some := by
  have hmade : (Mapping.ofRecord article ⟨true, true, true⟩).toOption.map
      (fun m => (m.sync, m.key, m.columns.map Column.field)) =
        some (7, some 0, [0, 1, 2, 3, 4, 5, 6, 8, 9, 10].map some) := by
    decide +kernel
  cases hm : Mapping.ofRecord article ⟨true, true, true⟩ with
  | error e =>
    rw [hm] at hmade
    cases hmade
  | ok m =>
    rw [hm] at hmade
    obtain ⟨hsync, hrest⟩ := Prod.mk.inj (Option.some.inj hmade)
    obtain ⟨hkey, hfields⟩ := Prod.mk.inj hrest
    exact ⟨m, hm, Mapping.ofFields_represents hm, hsync, hkey, hfields⟩

end RowLedger
