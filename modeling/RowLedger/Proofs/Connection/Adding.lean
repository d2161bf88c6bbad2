import RowLedger.Proofs.Connection.Migration
import RowLedger.Proofs.Connection.Traced
import RowLedger.Proofs.Sql.Quoting

/-!
What a migration issues. The names in the listing of a table tell which columns are added to it: the
mapped ones that are not among them. When they are listed too, nothing is added any more.
-/

namespace RowLedger

/-- The first heading of a result that is a name, up to ASCII case. -/
structure ResultSet.Headed (set : ResultSet) (name : String) (i : Nat) : Prop where
  named : ∃ c, set.columns[i]? = some c ∧ Text.sameName c.name name = true
  first : ∀ j c, j < i → set.columns[j]? = some c → Text.sameName c.name name = false

/-- A listing names a column: the text stands in one of its rows, below the heading of the names. -/
def ResultSet.Reports (set : ResultSet) (n : String) : Prop :=
  ∃ i, set.Headed "name" i ∧ ∃ row ∈ set.rows, row[i]? = some (.text n)

theorem ResultSet.headed_iff {set : ResultSet} {name : String} {i : Nat} :
    (set.columns.findIdx? fun c => Text.sameName c.name name) = some i ↔ set.Headed name i := by
  rw [findIdx?_eq_some_iff]
  exact ⟨fun h => ⟨h.1, h.2⟩, fun h => ⟨h.named, h.first⟩⟩

theorem Act.mem_columnInfos {set : ResultSet} {n : String} :
    n ∈ (columnInfos set).map ColumnInfo.name ↔ set.Reports n := by
  unfold columnInfos
  dsimp only
  split
  · next hnone =>
    refine iff_of_false List.not_mem_nil ?_
    rintro ⟨i, hi, -⟩
    cases hnone.symm.trans (ResultSet.headed_iff.2 hi)
  · next i hi =>
    rw [List.map_filterMap, List.mem_filterMap]
    constructor
    · rintro ⟨row, hrow, hcell⟩
      refine ⟨i, ResultSet.headed_iff.1 hi, row, hrow, ?_⟩
      split at hcell
      · next t ht =>
        cases hcell
        exact ht
      · cases hcell
    · rintro ⟨j, hj, row, hrow, hcell⟩
      obtain rfl := Option.some.inj (hi.symm.trans (ResultSet.headed_iff.2 hj))
      refine ⟨row, hrow, ?_⟩
      rw [hcell]
      rfl

namespace Dialect

def adds : Dialect → String
  | sqlite => " add column "
  | sqlServer => " add "

/-- What follows the front of a text, if it has it. -/
def behind? (front : String) (cs : List Char) : Option (List Char) :=
  if front.toList.isPrefixOf cs then some (cs.drop front.toList.length) else none

/-- The table and the column of a text that adds a column to a table. -/
def readAddition? (d : Dialect) (cs : List Char) : Option (String × String) := do
  let cs ← behind? "alter table " cs
  let (table, cs) ← d.readName? cs
  let cs ← behind? d.adds cs
  let (column, _) ← d.readName? cs
  return (table, column)

theorem behind?_append (front : String) (cs : List Char) :
    behind? front (front.toList ++ cs) = some cs := by
  rw [behind?, if_pos (List.isPrefixOf_iff_prefix.2 (List.prefix_append _ _)), List.drop_left]

variable (d : Dialect)

theorem readAddition?_addColumn (table : String) (c : Column) :
    d.readAddition? (d.render (d.addColumn table c)).toList = some (table, c.name) := by
  obtain ⟨rest, hrest⟩ : ∃ rest, (d.render (d.addColumn table c)).toList =
      "alter table ".toList ++ ((d.quote table).toList ++ (d.adds.toList ++
        ((d.quote c.name).toList ++ ' ' :: rest))) := by
    refine ⟨(d.sqlType c).toList ++ (d.render (c.collation.map fun n =>
      Piece.word (" collate " ++ n)).toList).toList, ?_⟩
    cases d <;> simp [addColumn, addColumnDecl, toList_render_cons, renderPiece, adds]
  have hspace : ' ' ≠ d.closing := by cases d <;> decide
  have hverb : (d.adds.toList ++ ((d.quote c.name).toList ++ ' ' :: rest)).head? ≠
      some d.closing := by cases d <;> simp [adds, closing]
  have hname : (' ' :: rest).head? ≠ some d.closing := by simpa using hspace
  simp only [hrest, readAddition?, behind?_append, readName?_quote d table hverb,
    readName?_quote d c.name hname, Option.bind_eq_bind, Option.bind_some, Option.pure_def]

theorem head?_createIndex (i : Index) : (d.render (d.createIndex i)).toList.head? =
    some (match d with | .sqlite => 'c' | .sqlServer => 'i') := by
  cases d <;> simp [createIndex, toList_render_cons, renderPiece]

theorem head?_tableInfo (table : String) : (d.render (d.tableInfo table)).toList.head? =
    some (match d with | .sqlite => 'p' | .sqlServer => 's') := by
  cases d with
  | sqlite => simp [tableInfo, toList_render_cons, renderPiece]
  | sqlServer =>
    have hhead : "select COLUMN_NAME as name, DATA_TYPE as type, ".toList.head? = some 's' := by
      decide +kernel
    simp only [tableInfo, toList_render_cons, renderPiece,
      String.toList_append, List.head?_append, hhead, Option.some_or]

theorem head?_addColumn (table : String) (c : Column) :
    (d.render (d.addColumn table c)).toList.head? = some 'a' := by
  simp [addColumn, toList_render_cons, renderPiece]

end Dialect

/-- Does the text of a statement begin so? -/
def Issue.begins (front : String) (i : Issue) : Bool := front.toList.isPrefixOf i.sql.toList

/-- The statement that lists the columns of a table. -/
def Issue.listing (d : Dialect) (table : String) : Issue :=
  .query (d.render (d.tableInfo table)) []

namespace Issue

variable {d : Dialect} {front : String} {i : Issue} {c c' : Char}

theorem begins_eq_false (hfront : front.toList.head? = some c)
    (hsql : i.sql.toList.head? = some c') (hne : c ≠ c') : i.begins front = false := by
  rw [Bool.eq_false_iff]
  intro hbegins
  obtain ⟨rest, hrest⟩ := List.isPrefixOf_iff_prefix.1 hbegins
  rw [← hrest, List.head?_append, hfront] at hsql
  exact hne (Option.some.inj hsql)

theorem begins_listing (d : Dialect) (table : String) (hfront : front.toList.head? = some c)
    (hc : c = 'a' ∨ c = 'd') : (listing d table).begins front = false := by
  refine begins_eq_false hfront (d.head?_tableInfo table) ?_
  rcases hc with rfl | rfl <;> cases d <;> decide

theorem readAddition?_eq_none (hsql : i.sql.toList.head? = some c) (hne : 'a' ≠ c) :
    d.readAddition? i.sql.toList = none := by
  have hfront : ¬"alter table ".toList.isPrefixOf i.sql.toList = true :=
    Bool.eq_false_iff.1 (begins_eq_false rfl hsql hne)
  rw [Dialect.readAddition?, Dialect.behind?, if_neg hfront]
  rfl

end Issue

namespace Alteration

def issue (d : Dialect) (table : String) (a : Alteration) : Issue :=
  .execute (d.render (a.sql d table)) []

variable (d : Dialect) (table : String) (a : Alteration)

theorem begins_alter : (a.issue d table).begins "alter table " = a.column?.isSome := by
  cases a with
  | column c =>
    have htext : "alter table ".toList <+: (d.render (d.addColumn table c)).toList := by
      unfold Dialect.addColumn
      rw [Dialect.toList_render_cons]
      exact List.prefix_append _ _
    exact List.isPrefixOf_iff_prefix.2 htext
  | index i =>
    refine Issue.begins_eq_false rfl (d.head?_createIndex i) ?_
    cases d <;> decide

theorem begins_drop : (a.issue d table).begins "drop" = false := by
  cases a with
  | column c => exact Issue.begins_eq_false rfl (d.head?_addColumn table c) (by decide)
  | index i =>
    refine Issue.begins_eq_false rfl (d.head?_createIndex i) ?_
    cases d <;> decide

theorem readAddition?_issue :
    d.readAddition? (a.issue d table).sql.toList = a.column?.map fun c => (table, c.name) := by
  cases a with
  | column c => exact d.readAddition?_addColumn table c
  | index i =>
    refine Issue.readAddition?_eq_none (d.head?_createIndex i) ?_
    cases d <;> decide

theorem filter_alter (as : List Alteration) :
    (as.map (issue d table)).filter (Issue.begins "alter table ") =
      (as.filterMap column?).map fun c => issue d table (.column c) := by
  induction as with
  | nil => rfl
  | cons a as ih =>
    rw [List.map_cons, List.filter_cons, begins_alter, ih]
    cases a <;> rfl

theorem filterMap_readAddition? (as : List Alteration) :
    (as.map (issue d table)).filterMap (fun i => d.readAddition? i.sql.toList) =
      (as.filterMap column?).map fun c => (table, c.name) := by
  induction as with
  | nil => rfl
  | cons a as ih =>
    rw [List.map_cons, List.filterMap_cons, readAddition?_issue, List.filterMap_cons]
    cases a with
    | column c => exact congrArg (List.cons _) ih
    | index i => exact ih

end Alteration

namespace Mapping

/-- The listing, each column to add with the index that makes it unique, the declared indexes. -/
def additions (m : Mapping) (d : Dialect) (added : List Column) (is : List Index) : List Issue :=
  .listing d m.table ::
    (added.flatMap m.adding ++ is.map Alteration.index).map (Alteration.issue d m.table)

/-- What a migration issues that adds these columns. -/
structure Extends (m : Mapping) (d : Dialect) (added : List Column) (issues : List Issue) :
    Prop where
  sublist : added.Sublist m.columns
  statements : ∃ is, m.indexes = .ok is ∧ issues = m.additions d added is
  /-- A table is altered only to add one of the columns, -/
  alters : issues.filter (fun i => i.begins "alter table ") =
    added.map fun c => Alteration.issue d m.table (.column c)
  /-- which its name tells, -/
  named : issues.filterMap (fun i => d.readAddition? i.sql.toList) =
    added.map fun c => (m.table, c.name)
  /-- and none is added twice. -/
  once : (issues.filterMap fun i => d.readAddition? i.sql.toList).Nodup
  drops : ∀ i ∈ issues, i.begins "drop" = false

theorem extends_additions {m : Mapping} {added : List Column} {is : List Index} (d : Dialect)
    (hsublist : added.Sublist m.columns) (hapart : added.Pairwise Column.Apart)
    (his : m.indexes = .ok is) : m.Extends d added (m.additions d added is) := by
  have hcolumns : (added.flatMap m.adding ++ is.map Alteration.index).filterMap
      Alteration.column? = added := by
    rw [List.filterMap_append, filterMap_column?_adding, Alteration.filterMap_column?_index,
      List.append_nil]
  have hnamed : (m.additions d added is).filterMap (fun i => d.readAddition? i.sql.toList) =
      added.map fun c => (m.table, c.name) := by
    have hread : d.readAddition? (Issue.listing d m.table).sql.toList = none :=
      Issue.readAddition?_eq_none (d.head?_tableInfo m.table) (by cases d <;> decide)
    rw [additions, List.filterMap_cons, hread, Alteration.filterMap_readAddition?, hcolumns]
  refine ⟨hsublist, ⟨is, his, rfl⟩, ?_, hnamed, ?_, ?_⟩
  · rw [additions, List.filter_cons, Issue.begins_listing d m.table rfl (.inl rfl),
      if_neg Bool.false_ne_true, Alteration.filter_alter, hcolumns]
  · rw [hnamed]
    refine hapart.map _ fun c c' hapart heq => ?_
    have hname : c.name = c'.name := (Prod.mk.inj heq).2
    rw [Column.Apart, hname, Text.sameName_refl] at hapart
    cases hapart
  · intro i hi
    rcases List.mem_cons.1 hi with rfl | hi
    · exact Issue.begins_listing d m.table rfl (.inr rfl)
    · obtain ⟨a, -, rfl⟩ := List.mem_map.1 hi
      exact a.begins_drop d m.table

end Mapping

namespace Act

open Connection (Issued Issuing)

variable {σ : Type} {s : Setup σ} {m : Mapping} {set : ResultSet}

theorem mem_missingColumns {col : Column} : col ∈ missingColumns m (columnInfos set) ↔
    col ∈ m.columns ∧ ∀ n, set.Reports n → Text.sameName n col.name = false := by
  rw [missingColumns, List.mem_filter, Bool.not_eq_true', List.any_eq_false]
  refine and_congr_right fun _ => ?_
  constructor
  · intro h n hn
    obtain ⟨i, hi, rfl⟩ := List.mem_map.1 (mem_columnInfos.2 hn)
    exact Bool.eq_false_iff.2 (h i hi)
  · intro h i hi
    exact Bool.eq_false_iff.1 (h i.name (mem_columnInfos.1 (List.mem_map_of_mem hi)))

/-- A table that is listed with columns gets those it lacks, and the declared indexes. -/
theorem run_createTable_listed {c : Connection σ} {w : σ}
    (hlisted : s.driver.query (s.config.dialect.render (s.config.dialect.tableInfo m.table)) []
      c.world = (.ok set, w)) (hsome : ∃ n, set.Reports n) :
    (createTable m).run s c =
      (do
        (missingColumns m (columnInfos set)).forM (addColumn m)
        (← ofExcept m.indexes).forM fun i => issue (s.config.dialect.createIndex i)
        return TableOutcome.migrated : Act σ TableOutcome).run s { c with world := w } := by
  have hquery : (query (s.config.dialect.tableInfo m.table) [] : Act σ ResultSet).run s c =
      (.ok set, { c with world := w }) := by
    rw [run_query, hlisted]
    rfl
  have hinfo : (tableInfo m.table).run s c = (.ok (columnInfos set), { c with world := w }) := by
    rw [tableInfo, run_bind_ok _ run_dialect, run_bind_ok _ hquery]
    rfl
  have hne : (columnInfos set).isEmpty = false := by
    obtain ⟨n, hn⟩ := hsome
    obtain ⟨i, hi, -⟩ := List.mem_map.1 (mem_columnInfos.2 hn)
    exact List.isEmpty_eq_false_iff.2 (List.ne_nil_of_mem hi)
  rw [createTable, run_bind_ok _ run_dialect, run_bind_ok _ hinfo, hne]
  rfl

variable {c c' : Connection (Traced σ)}

theorem issued_issue {sql : Sql} {r : Except Error Unit}
    (hrun : (issue sql).run s.traced c = (r, c')) :
    Issued [.execute (s.config.dialect.render sql) []] c c' := by
  have hexec := issued_exec (s := s) sql [] c
  rw [issue, run_bind] at hrun
  generalize (exec sql []).run s.traced c = done at hexec hrun
  obtain ⟨_ | _, c₁⟩ := done <;> cases hrun <;> exact hexec

theorem issued_addColumn {col : Column}
    (hrun : (addColumn m col).run s.traced c = (.ok (), c')) :
    Issued ((m.adding col).map (Alteration.issue s.config.dialect m.table)) c c' := by
  rw [addColumn, run_bind_ok _ run_dialect] at hrun
  obtain ⟨⟨⟩, c₁, hcolumn, hrun⟩ := of_run_bind_ok hrun
  have hadded : Issued [Alteration.issue s.config.dialect m.table (.column col)] c c₁ :=
    issued_issue hcolumn
  rw [Mapping.adding]
  cases hunique : col.isUnique with
  | false =>
    rw [hunique] at hrun
    cases hrun
    exact hadded
  | true =>
    rw [hunique] at hrun
    have hindexed : Issued [Alteration.issue s.config.dialect m.table (.index (m.ownIndex col))]
        c₁ c' := issued_issue hrun
    exact hadded.trans hindexed

/-- Actions that succeed one after the other issue what each of them issues. -/
theorem issued_forM {ι : Type} {xs : List ι} {f : ι → Act (Traced σ) Unit} {g : ι → List Issue}
    (h : ∀ x c c', (f x).run s.traced c = (.ok (), c') → Issued (g x) c c')
    (hrun : (xs.forM f).run s.traced c = (.ok (), c')) : Issued (xs.flatMap g) c c' := by
  induction xs generalizing c with
  | nil =>
    cases hrun
    exact .refl _
  | cons x xs ih =>
    obtain ⟨⟨⟩, c₁, hx, hrun⟩ := of_run_bind_ok hrun
    exact (h x c c₁ hx).trans (ih hrun)

theorem issued_createIndexes {is : List Index}
    (hrun : (is.forM fun i => issue (s.config.dialect.createIndex i)).run s.traced c =
      (.ok (), c')) :
    Issued ((is.map Alteration.index).map (Alteration.issue s.config.dialect m.table)) c c' := by
  rw [List.map_map, List.map_eq_flatMap]
  exact issued_forM (fun i c c' hi => issued_issue hi) hrun

theorem query_traced {sql : String} {params : List Param} {w : σ}
    (h : s.driver.query sql params c.world.base = (.ok set, w)) :
    s.traced.driver.query sql params c.world =
      (.ok set, ⟨w, c.world.issues ++ [.query sql params]⟩) := by
  change ((s.driver.query sql params c.world.base).1, _) = _
  rw [h]

/-- A call that succeeds on a table that is there. -/
theorem issued_createTable {w : σ} {o : TableOutcome}
    (hlisted : s.driver.query (s.config.dialect.render (s.config.dialect.tableInfo m.table)) []
      c.world.base = (.ok set, w)) (hsome : ∃ n, set.Reports n)
    (hrun : (createTable m).run s.traced c = (.ok o, c')) :
    o = .migrated ∧ ∃ is, m.indexes = .ok is ∧
      Issued (m.additions s.config.dialect (missingColumns m (columnInfos set)) is) c c' := by
  let c₁ : Connection (Traced σ) :=
    { c with world := ⟨w, c.world.issues ++ [.listing s.config.dialect m.table]⟩ }
  have hlisting : Issued [.listing s.config.dialect m.table] c c₁ := ⟨rfl, rfl, rfl⟩
  rw [run_createTable_listed (query_traced hlisted) hsome] at hrun
  obtain ⟨⟨⟩, c₂, hcolumns, hrun⟩ := of_run_bind_ok hrun
  obtain ⟨is, c₃, his, hrun⟩ := of_run_bind_ok hrun
  obtain ⟨hindexed, rfl⟩ := Prod.mk.inj his
  have his : m.indexes = .ok is := hindexed
  obtain ⟨⟨⟩, c₄, hindexes, hrun⟩ := of_run_bind_ok hrun
  obtain ⟨ho, rfl⟩ := Prod.mk.inj hrun
  have hadded := issued_forM (fun col c c' hcol => issued_addColumn hcol) hcolumns
  have hindexed : Issued _ c₂ c₄ := issued_createIndexes (m := m) hindexes
  refine ⟨(Except.ok.inj ho).symm, is, his, ?_⟩
  have hall := (hlisting.trans hadded).trans hindexed
  rw [Mapping.additions, List.map_append, List.map_flatMap]
  exact hall

/-- Where nothing is missing, no table is altered, also if the call fails. -/
theorem unaltered_createTable {w : σ} (c : Connection (Traced σ))
    (hlisted : s.driver.query (s.config.dialect.render (s.config.dialect.tableInfo m.table)) []
      c.world.base = (.ok set, w)) (hsome : ∃ n, set.Reports n)
    (hnone : missingColumns m (columnInfos set) = []) :
    Issuing (fun i => i.begins "alter table " = false) c ((createTable m).run s.traced c).2 := by
  let P (i : Issue) : Prop := i.begins "alter table " = false
  let d := s.config.dialect
  let c₁ : Connection (Traced σ) :=
    { c with world := ⟨w, c.world.issues ++ [.listing d m.table]⟩ }
  have hstart : Issuing P c c₁ :=
    (Issuing.refl c).snoc rfl (Issue.begins_listing d m.table rfl (.inl rfl))
  have hindex (i : Index) : Keeps s.traced (Issuing P c) (issue (d.createIndex i)) := by
    refine keeps_issuing (fun c => ?_) (Alteration.begins_alter d m.table (.index i)) c
    have hissued : Issued _ c ((issue (d.createIndex i)).run s.traced c).2 := issued_issue rfl
    exact hissued.issues
  have hrest : Keeps s.traced (Issuing P c) (do
      (← ofExcept m.indexes).forM fun i => issue (d.createIndex i)
      return TableOutcome.migrated) :=
    .ofExcept_bind fun _ _ => (Keeps.forM fun i _ => hindex i).bind fun _ => .pure _
  rw [run_createTable_listed (query_traced hlisted) hsome, hnone]
  exact hrest c₁ hstart

/-- A migration that succeeds adds the mapped columns that the listing of the table does not name,
up to ASCII case: one statement for each, in the order of the mapping, with the index of those that
are to be unique, and nothing else is altered or dropped. Once the listing names the old columns and
the added ones, another call alters nothing, whatever becomes of it. -/
theorem createTable_adds {w : σ} {o : TableOutcome} (hapart : m.columns.Pairwise Column.Apart)
    (hlisted : s.driver.query (s.config.dialect.render (s.config.dialect.tableInfo m.table)) []
      c.world.base = (.ok set, w)) (hsome : ∃ n, set.Reports n)
    (hrun : (createTable m).run s.traced c = (.ok o, c')) :
    ∃ added issues, o = .migrated ∧ c'.world.issues = c.world.issues ++ issues ∧
      m.Extends s.config.dialect added issues ∧
      (∀ col ∈ m.columns,
        col ∈ added ↔ ∀ n, set.Reports n → Text.sameName n col.name = false) ∧
      ∀ (c₁ : Connection (Traced σ)) (set₁ : ResultSet) (w₁ : σ),
        s.driver.query (s.config.dialect.render (s.config.dialect.tableInfo m.table)) []
          c₁.world.base = (.ok set₁, w₁) →
        (∀ n, set₁.Reports n ↔ set.Reports n ∨ ∃ col ∈ added, col.name = n) →
        Issuing (fun i => i.begins "alter table " = false) c₁
          ((createTable m).run s.traced c₁).2 := by
  obtain ⟨ho, is, his, hissued⟩ := issued_createTable hlisted hsome hrun
  have hsublist : (missingColumns m (columnInfos set)).Sublist m.columns := List.filter_sublist
  refine ⟨_, _, ho, hissued.issues,
    Mapping.extends_additions _ hsublist (hapart.sublist hsublist) his, fun col hcol => ?_, ?_⟩
  · rw [mem_missingColumns, and_iff_right hcol]
  · intro c₁ set₁ w₁ hlisted₁ hreports
    have hsome₁ : ∃ n, set₁.Reports n := hsome.imp fun n hn => (hreports n).2 (.inl hn)
    refine unaltered_createTable c₁ hlisted₁ hsome₁ (List.eq_nil_iff_forall_not_mem.2 ?_)
    -- a column that is still missing was missing before, and so it was added
    intro col hcol
    obtain ⟨hmem, hunnamed⟩ := mem_missingColumns.1 hcol
    have hadded : col ∈ missingColumns m (columnInfos set) :=
      mem_missingColumns.2 ⟨hmem, fun n hn => hunnamed n ((hreports n).2 (.inl hn))⟩
    have hself := hunnamed col.name ((hreports _).2 (.inr ⟨col, hadded, rfl⟩))
    rw [Text.sameName_refl] at hself
    cases hself

end Act

namespace Samples

/-- A database that lists one table and changes nothing. -/
def listingSetup : Setup ResultSet where
  driver := .buffered (fun _ _ w => (.ok {}, w)) (fun _ _ w => (.ok w, w))
    (fun _ => true) (fun w => (.ok (), w))
  config := .sqlite ":memory:"
  guid _ := .nil
  savepointNumber n := n

def listing (names : List SqlValue) : ResultSet :=
  ⟨[⟨"NAME", .text⟩, ⟨"name", .text⟩], names.map fun v => [v, .text "Name"]⟩

def listedCreation (names : List SqlValue) :
    Except Error TableOutcome × Connection (Traced ResultSet) :=
  (Act.createTable settings.mapping).run listingSetup.traced
    (Connection.traced { world := listing names } [])

/-- The values are there in another case, the name stands below the second heading only. -/
theorem settings_added :
    let old : List SqlValue := [.text "VALUE", .null, .text "legacy"]
    let new : List SqlValue := old ++ [.text "Name", .text "SyncGuid"]
    (listedCreation old).1 = .ok .migrated ∧
      (listing old).Reports "VALUE" ∧ ¬(listing old).Reports "Name" ∧
      ∃ added, settings.mapping.Extends .sqlite added (listedCreation old).2.world.issues ∧
        (∀ col ∈ settings.mapping.columns,
          col ∈ added ↔ col.name = "Name" ∨ col.name = "SyncGuid") ∧
        ∀ i ∈ (listedCreation new).2.world.issues, i.begins "alter table " = false := by
  intro old new
  have hold : (Act.columnInfos (listing old)).map ColumnInfo.name = ["VALUE", "legacy"] := by
    decide
  have hnew : (Act.columnInfos (listing new)).map ColumnInfo.name =
      ["VALUE", "legacy", "Name", "SyncGuid"] := by decide
  have hdone : (listedCreation old).1 = .ok .migrated := by decide +kernel
  have hreports (n : String) : (listing old).Reports n ↔ n = "VALUE" ∨ n = "legacy" := by
    rw [← Act.mem_columnInfos, hold]
    simp
  have hreports₁ (n : String) : (listing new).Reports n ↔
      n = "VALUE" ∨ n = "legacy" ∨ n = "Name" ∨ n = "SyncGuid" := by
    rw [← Act.mem_columnInfos, hnew]
    simp
  have hvalue : (listing old).Reports "VALUE" := (hreports _).2 (.inl rfl)
  have hlisted : listingSetup.driver.query (listingSetup.config.dialect.render
      (listingSetup.config.dialect.tableInfo settings.mapping.table)) [] (listing old) =
        (.ok (listing old), listing old) := rfl
  obtain ⟨added, issues, -, hissues, hextends, hadded, hagain⟩ := Act.createTable_adds
    (s := listingSetup) (m := settings.mapping) (by decide +kernel) hlisted ⟨_, hvalue⟩
    (Prod.fst_eq_iff.1 hdone)
  have hmissing : ∀ col ∈ settings.mapping.columns,
      (Text.sameName "VALUE" col.name = false ∧ Text.sameName "legacy" col.name = false) ↔
        col.name = "Name" ∨ col.name = "SyncGuid" := by decide +kernel
  have hadded : ∀ col ∈ settings.mapping.columns,
      col ∈ added ↔ col.name = "Name" ∨ col.name = "SyncGuid" := by
    intro col hcol
    rw [hadded col hcol, ← hmissing col hcol]
    simp [hreports]
  have hboth (n : String) :
      (∃ col ∈ added, col.name = n) ↔ n = "Name" ∨ n = "SyncGuid" := by
    constructor
    · rintro ⟨col, hcol, rfl⟩
      exact (hadded col (hextends.sublist.subset hcol)).1 hcol
    · intro hn
      have hmapped : ∃ col ∈ settings.mapping.columns, col.name = n := by
        rcases hn with rfl | rfl <;> decide +kernel
      obtain ⟨col, hcol, rfl⟩ := hmapped
      exact ⟨col, (hadded col hcol).2 hn, rfl⟩
  obtain ⟨issues₁, hissues₁, hall⟩ := hagain (Connection.traced { world := listing new } [])
    (listing new) (listing new) rfl fun n => by rw [hreports₁, hreports, hboth, or_assoc]
  refine ⟨hdone, hvalue, ?_, added, ?_, hadded, ?_⟩
  · rw [hreports]
    decide
  · have hsame : (listedCreation old).2.world.issues = issues := hissues
    rw [hsame]
    exact hextends
  · have hsame : (listedCreation new).2.world.issues = issues₁ := hissues₁
    rw [hsame]
    exact hall

end Samples

end RowLedger
