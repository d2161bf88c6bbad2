import RowLedger.Connection.Query
import RowLedger.Proofs.Connection.Assigning
import RowLedger.Proofs.Schema.Fields
import RowLedger.Proofs.Sql.Marks

/-!
What SQL Server reads as the parameters of the statements on single rows. They are named after the
columns as these are, so that the right ones are read exactly if the columns have proper names.
-/

namespace RowLedger

namespace Dialect

theorem legible_nameList (cs : List Column) : (nameList cs).legible true = true :=
  Sql.legible_joined cs (by decide) (by decide) fun _ => rfl

theorem legible_holeList (cs : List Column) : (holeList cs).legible true = true :=
  Sql.legible_joined cs (by decide) (by decide) fun _ => rfl

theorem legible_plainInsert (table : String) (cs : List Column) :
    (plainInsert "insert" table cs).legible true = true := by
  unfold plainInsert
  split
  · rfl
  · have hlists : Sql.legible true (Sql.parenthesized (nameList cs) ++ .word " values " ::
        Sql.parenthesized (holeList cs)) = true := by
      rw [Sql.legible_append, Sql.legible, Sql.legible_parenthesized (legible_nameList cs),
        Sql.legible_parenthesized (legible_holeList cs), Sql.fits_word (by decide)]
      rfl
    rw [Sql.legible, Sql.legible, hlists]
    rfl

@[simp] theorem holes_nameList (cs : List Column) : (nameList cs).holes = [] := by
  rw [nameList, Sql.holes_joined, List.flatMap_map, List.flatMap_eq_nil_iff]
  exact fun _ _ => rfl

@[simp] theorem holes_holeList (cs : List Column) :
    (holeList cs).holes = cs.map Column.name := by
  rw [holeList, Sql.holes_joined, List.flatMap_map, List.map_eq_flatMap]
  rfl

theorem holes_plainInsert (verb table : String) (cs : List Column) :
    (plainInsert verb table cs).holes = cs.map Column.name := by
  unfold plainInsert
  split
  · next hnone =>
    rw [List.isEmpty_iff.1 hnone]
    rfl
  · simp [Sql.parenthesized]

section

variable {m : Mapping} {cs : List Column} {params : List Param}

/-- An insertion asks for its columns, and what stands before it asks for no others. -/
theorem asks_inserting (front back : Sql)
    (hnames : params.map Param.name = cs.map Column.name)
    (hfront : ∀ next, front.legible next = true)
    (hholes : ∀ n ∈ front.holes, ∃ c ∈ cs, c.name = n)
    (hback : back.legible true = true ∧ back.opens true = true) (hnone : back.holes = []) :
    (front ++ (plainInsert "insert" m.table cs ++ back)).Asks params where
  legible := by
    rw [Sql.legible_append, Sql.legible_append, hfront, hback.1, hback.2, legible_plainInsert]
    rfl
  bound n := by
    have hbound : (∃ p ∈ params, p.name = n) ↔ ∃ c ∈ cs, c.name = n := by
      rw [← List.mem_map, ← List.mem_map, hnames]
    rw [Sql.holes_append, Sql.holes_append, hnone, holes_plainInsert, List.append_nil,
      List.mem_append, hbound, List.mem_map]
    exact or_iff_right_of_imp (hholes n)

theorem asks_serverInsert {mode : InsertMode}
    (hnames : params.map Param.name = cs.map Column.name)
    (hkey : ∀ key, m.keyColumn? = some key → key.autoIncrement = false ∨ mode = .replace →
      key ∈ cs) : (serverInsert m cs mode).Asks params := by
  have hbefore (front : Sql) (hfront : ∀ next, front.legible next = true)
      (hholes : ∀ n ∈ front.holes, ∃ c ∈ cs, c.name = n) :
      (front ++ plainInsert "insert" m.table cs).Asks params := by
    have hasks := asks_inserting (m := m) front [] hnames hfront hholes ⟨rfl, rfl⟩ rfl
    rwa [List.append_nil] at hasks
  have hplain : (plainInsert "insert" m.table cs).Asks params :=
    hbefore [] (fun _ => rfl) (by simp)
  have hone {key : Column} (hmem : key ∈ cs) : ∀ n ∈ [key.name], ∃ c ∈ cs, c.name = n :=
    fun n hn => ⟨key, hmem, (List.mem_singleton.1 hn).symm⟩
  unfold serverInsert
  split
  · exact hplain
  · exact hplain
  · next key hcolumn =>
    split
    · exact hplain
    · next hauto =>
      exact hbefore _ (by rintro (_ | _) <;> rfl)
        (hone (hkey key hcolumn (.inl (Bool.eq_false_iff.2 hauto))))
  · next key hcolumn =>
    have hmem := hone (hkey key hcolumn (.inr rfl))
    dsimp only
    split
    · rw [List.append_assoc]
      exact asks_inserting _ _ hnames (by rintro (_ | _) <;> rfl) hmem ⟨rfl, rfl⟩ rfl
    · exact hbefore _ (by rintro (_ | _) <;> rfl) hmem

end

end Dialect

open Dialect

/-- Every insertion of a row, by whichever columns it names. -/
theorem InsertCommand.asks_derive {m : Mapping} {mode : InsertMode} {v : Nat → Value}
    {params : List Param}
    (h : (derive .sqlServer m mode).columns.mapM (fun i => m.param i (v i)) = .ok params) :
    (derive .sqlServer m mode).sql.Asks params := by
  have hcolumns : ∀ i, i ∈ (derive .sqlServer m mode).columns ↔
      ∃ c, m.column? i = some c ∧ (c.autoIncrement = false ∨ mode = .replace) := by
    intro i
    cases mode with
    | replace =>
      change i ∈ m.replaceColumns ↔ _
      rw [Mapping.replaceColumns, Mapping.mem_positionsWhere]
      simp
    | insert | ignore =>
      change i ∈ m.insertColumns ↔ _
      rw [Mapping.mem_insertColumns]
      simp
  have hpositions : ∀ i ∈ (derive .sqlServer m mode).columns, (m.column? i).isSome := by
    intro i hi
    obtain ⟨c, hc, -⟩ := (hcolumns i).1 hi
    exact Option.isSome_iff_exists.2 ⟨c, hc⟩
  refine asks_serverInsert (Act.names_of_mapM hpositions h) fun key hkey hnamed => ?_
  obtain ⟨i, -, hi⟩ := Option.bind_eq_some_iff.1 hkey
  exact List.mem_filterMap.2 ⟨i, (hcolumns i).2 ⟨key, hi, hnamed⟩, hi⟩

namespace Act

variable {m : Mapping} {k : Param} {params : List Param}

/-- Statements that end with the key of their row. -/
theorem asks_keyed (front : Sql) (params : List Param) (k : Param)
    (hfront : front.legible true = true)
    (hnames : ∀ n, n ∈ front.holes ↔ ∃ p ∈ params, p.name = n) :
    Sql.Asks (front ++ [Piece.word " where ", .name k.name, .word " = ", .hole k.name])
      (params ++ [k]) where
  legible := by
    rw [Sql.legible_append]
    exact Bool.and_eq_true_iff.2 ⟨hfront, rfl⟩
  bound n := by simp [hnames, or_and_right, exists_or, eq_comm]

theorem asks_updateStatement {positions : List Nat} (params : List Param)
    (hnames : params.map Param.name = (m.columnsAt positions).map Column.name) :
    (updateStatement m positions k.name).Asks (params ++ [k]) := by
  have hset : Sql.legible true (Sql.joined ", " ((m.columnsAt positions).map assignment)) =
      true := Sql.legible_joined _ (by decide) (by decide) fun _ => rfl
  have hone (c : Column) : Sql.holes (assignment c) = [c.name] := rfl
  refine asks_keyed (.word "update " :: .name m.table :: .word " set " ::
    Sql.joined ", " ((m.columnsAt positions).map assignment)) params k ?_ fun n => ?_
  · rw [Sql.legible, Sql.legible, Sql.legible, hset]
    rfl
  · rw [← List.mem_map, hnames, List.map_eq_flatMap]
    simp [hone, eq_comm]

theorem asks_byKey {v : Value} {c : Condition} (h : byKey .sqlServer m v = .ok c) :
    c.sql.Asks c.params := by
  unfold byKey at h
  split at h
  · next key hkey =>
    obtain ⟨stored, -, h⟩ := except_bind_ok.1 h
    cases h
    exact asks_keyed [.word "select * from ", .name m.table] [] ⟨key.name, stored⟩ rfl (by simp)
  · cases h
    exact ⟨rfl, by simp⟩

end Act

def Issue.params : Issue → List Param
  | execute _ params | query _ params | scalar _ params => params

/-- The parameters that are read from a statement are those that are bound with it. -/
def Issue.ReadsBound (L : Letters) (i : Issue) : Prop :=
  ∀ n, n ∈ L.marks i.sql.toList ↔ ∃ p ∈ i.params, p.name = n

/-- They are exactly if all of them are bound under proper names. -/
def Issue.ReadsProper (L : Letters) (i : Issue) : Prop :=
  i.ReadsBound L ↔ ∀ p ∈ i.params, L.Proper p.name

/-- The first statement that was issued from one point to another binds these parameters. -/
def Connection.Binding {σ : Type} (params : List Param) (c c' : Connection (Traced σ)) : Prop :=
  ∃ i rest, c'.world.issues = c.world.issues ++ i :: rest ∧ i.params = params

/-- It is the first one still when others have been issued after it. -/
theorem Connection.Binding.later {σ : Type} {params : List Param} {P : Issue → Prop}
    {c c₁ c₂ : Connection (Traced σ)} (h : Binding params c c₁) (hlater : Issuing P c₁ c₂) :
    Binding params c c₂ := by
  obtain ⟨i, rest, hrest, hi⟩ := h
  obtain ⟨is, his, -⟩ := hlater
  exact ⟨i, rest ++ is, by rw [his, hrest, List.append_assoc, List.cons_append], hi⟩

theorem Sql.Asks.readsProper {sql : Sql} {params : List Param} (h : sql.Asks params)
    (L : Letters) {i : Issue} (hsql : i.sql = Dialect.sqlServer.render sql)
    (hparams : i.params = params) : i.ReadsProper L := by
  rw [Issue.ReadsProper, Issue.ReadsBound, hsql, hparams]
  exact h.marks_iff L

namespace Act

open Connection (Binding Issuing)

variable {σ : Type} {s : Setup σ} {L : Letters} {m : Mapping} {c₀ : Connection (Traced σ)}
  {sql : Sql} {params : List Param}

theorem keeps_exec (hserver : s.config.dialect = .sqlServer) (h : sql.Asks params) :
    Keeps s.traced (Issuing (Issue.ReadsProper L) c₀) (exec sql params) := by
  refine keeps_issuing (fun c => (issued_exec sql params c).issues) (h.readsProper L ?_ rfl) c₀
  rw [hserver]
  rfl

theorem keeps_execCount (hserver : s.config.dialect = .sqlServer) (h : sql.Asks params) :
    Keeps s.traced (Issuing (Issue.ReadsProper L) c₀) (execCount sql params) :=
  (keeps_exec hserver h).bind fun _ => .pure _

theorem keeps_drawGuid {P : Issue → Prop} : Keeps s.traced (Issuing P c₀) drawGuid :=
  fun _ hc => hc.silent rfl

/-! The parts of the calls that are about the row itself. -/

section

variable (hserver : s.config.dialect = .sqlServer)
include hserver

theorem keeps_readSync (k : Param) :
    Keeps s.traced (Issuing (Issue.ReadsProper L) c₀) (readSync m k) := by
  have hasks := asks_keyed [.word "select ", .name m.syncColumn.name, .word " from ",
    .name m.table] [] k rfl (by simp)
  have hscalar : Issue.ReadsProper L (.scalar (s.config.dialect.render _) [k]) :=
    hasks.readsProper L (by rw [hserver]; rfl) rfl
  exact (keeps_issuing (fun c => rfl) hscalar c₀).bind fun _ => .ofExcept_bind fun _ _ => .pure _

theorem keeps_assignSync (hsync : ∃ c, m.column? m.sync = some c) (k : Param) :
    Keeps s.traced (Issuing (Issue.ReadsProper L) c₀) (assignSync m k) := by
  refine keeps_drawGuid.bind fun g => .ofExcept_bind fun stored _ =>
    (keeps_exec hserver ?_).bind fun _ => .pure _
  obtain ⟨c, hc⟩ := hsync
  exact asks_updateStatement [⟨m.syncColumn.name, stored⟩]
    (by simp [Mapping.columnsAt, Mapping.syncColumn, hc])

theorem keeps_ensureSync (hsync : ∃ c, m.column? m.sync = some c) (k : Param) :
    Keeps s.traced (Issuing (Issue.ReadsProper L) c₀) (ensureSync m k) := by
  refine (keeps_readSync hserver k).bind fun r => ?_
  split
  · exact .pure _
  · exact keeps_assignSync hserver hsync k

theorem keeps_updateRow {e : Entity} {i : Nat} (hi : (m.column? i).isSome) :
    Keeps s.traced (Issuing (Issue.ReadsProper L) c₀) (updateRow m i e) := by
  refine .ofExcept_bind fun set hset => .ofExcept_bind fun k _ =>
    (keeps_execCount hserver ?_).bind fun _ => .pure _
  exact asks_updateStatement set (names_of_mapM (fun _ hj => isSome_of_mem_assigned hi hj) hset)

theorem keeps_findRow (v : Value) :
    Keeps s.traced (Issuing (Issue.ReadsProper L) c₀) (findRow m v) := by
  refine .dialect_bind (.ofExcept_bind fun c hc => ?_)
  have hasks : c.sql.Asks c.params := by
    have hkeyed : byKey s.config.dialect m v = .ok c := hc
    rw [hserver] at hkeyed
    exact asks_byKey hkeyed
  have hquery : Keeps s.traced (Issuing (Issue.ReadsProper L) c₀)
      (queryText (s.config.dialect.render c.sql) c.params) :=
    keeps_issuing (fun c => rfl) (hasks.readsProper L (by rw [hserver]; rfl) rfl) c₀
  exact (hquery.bind fun _ => .ofExcept _).bind fun _ => .pure _

/-- The command of an insertion is derived from the mapping, or it was before. -/
theorem issuing_insertRow {flags : RecordType → Flags} {first : Registry} {e : Entity}
    (hm : Mapping.ofRecord e.type m.flags = .ok m) (hc : Coherent flags first c₀)
    (mode : InsertMode) :
    Issuing (Issue.ReadsProper L) c₀ ((insertRow m e mode).run s.traced c₀).2 := by
  have hprepare := Keeps.prepare (s := s.traced) (I := Issuing (Issue.ReadsProper L) c₀)
    keeps_drawGuid m e c₀ (.refl c₀)
  rcases hp : (prepare m e).run s.traced c₀ with ⟨err | ⟨e', g⟩, c₁⟩
  · rw [hp] at hprepare
    rw [run_insertRow_unprepared hp]
    exact hprepare
  · rw [hp] at hprepare
    obtain ⟨w, hrow⟩ := run_insertRow_prepared mode hp
    rw [hrow]
    have hc₁ := (Blind.prepare m e).coherent hc hp
    rw [← type_of_run_prepare hp] at hm
    obtain ⟨commands, -, hcommand⟩ := run_insertCommand_derive (s := s.traced) hc₁ hm mode
    have hlooked : Issuing (Issue.ReadsProper L) c₀ { c₁ with commands } := hprepare
    cases hparams : (InsertCommand.derive s.config.dialect m mode).columns.mapM
        (fun i => m.param i (if i = m.sync then .guid g else m.get e' i)) with
    | error err =>
      rw [run_store_unbound hcommand hparams]
      exact hlooked
    | ok params =>
      rw [run_store_bound hcommand hparams]
      have hasks : (InsertCommand.derive s.config.dialect m mode).sql.Asks params := by
        rw [hserver] at hparams ⊢
        exact InsertCommand.asks_derive hparams
      exact keeps_exec hserver hasks _ hlooked

end

/-! What the statements bind. -/

/-- What holds when an action has ended and is kept by the next one holds after both. -/
theorem after_bind {τ α β : Type} {s : Setup τ} {c : Connection τ} {x : Act τ α} {f : α → Act τ β}
    {J : Connection τ → Prop} (hx : J (x.run s c).2) (hf : ∀ a, Keeps s J (f a)) :
    J ((x >>= f).run s c).2 := by
  rw [run_bind]
  rcases hr : x.run s c with ⟨err | a, c'⟩
  · rwa [hr] at hx
  · rw [hr] at hx
    exact hf a c' hx

theorem binding_execCount (sql : Sql) (params : List Param) (c : Connection (Traced σ)) :
    Binding params c ((execCount sql params).run s.traced c).2 :=
  ⟨_, [], (issued_execCount sql params c).issues, rfl⟩

theorem binding_updateRow {e : Entity} {i : Nat} {key : Column} (hkey : m.column? i = some key)
    (h : (bound m i).mapM (fun j => m.param j (m.get e j)) = .ok params)
    (c : Connection (Traced σ)) : Binding params c ((updateRow m i e).run s.traced c).2 := by
  obtain ⟨k, hrow⟩ := run_updateRow_bound (s := s.traced) (c := c) hkey h
  rw [hrow]
  exact after_bind (binding_execCount _ params c) fun _ => .pure _

theorem binding_findRow {v : Value} {key : Column} {stored : SqlValue}
    (hkey : m.keyColumn? = some key) (hstored : v.toSql = .ok stored)
    (c : Connection (Traced σ)) :
    Binding [⟨key.name, stored⟩] c ((findRow m v).run s.traced c).2 := by
  obtain ⟨sql, hsql⟩ : ∃ sql, byKey s.config.dialect m v = .ok ⟨sql, [⟨key.name, stored⟩]⟩ := by
    rw [byKey, hkey, hstored]
    exact ⟨_, rfl⟩
  have hkeyed : (ofExcept (byKey s.traced.config.dialect m v)).run s.traced c =
      (.ok ⟨sql, [⟨key.name, stored⟩]⟩, c) := congrArg (·, c) hsql
  have hquery : Binding [⟨key.name, stored⟩] c
      ((queryText (s.config.dialect.render sql) [⟨key.name, stored⟩]).run s.traced c).2 :=
    ⟨.query _ _, [], rfl, rfl⟩
  rw [findRow, run_bind_ok _ run_dialect, run_bind_ok _ hkeyed]
  exact after_bind (after_bind hquery fun _ => .ofExcept _) fun _ => .pure _

theorem binding_readSync (k : Param) (c : Connection (Traced σ)) :
    Binding [k] c ((readSync m k).run s.traced c).2 :=
  after_bind ⟨_, [], rfl, rfl⟩ fun _ => .ofExcept_bind fun _ _ => .pure _

theorem binding_ensureSync (hserver : s.config.dialect = .sqlServer)
    (hsync : ∃ c, m.column? m.sync = some c) (k : Param) (c : Connection (Traced σ)) :
    Binding [k] c ((ensureSync m k).run s.traced c).2 := by
  refine after_bind (binding_readSync k c) fun r => ?_
  split
  · exact .pure _
  · exact fun c' h => h.later (keeps_assignSync (L := .latin) hserver hsync k c' (.refl c'))

theorem binding_insertRow {flags : RecordType → Flags} {first : Registry} {mode : InsertMode}
    {e e' : Entity} {g : Guid} {c c₁ : Connection (Traced σ)}
    (hm : Mapping.ofRecord e.type m.flags = .ok m) (hc : Coherent flags first c)
    (hprepare : (prepare m e).run s.traced c = (.ok (e', g), c₁))
    (hparams : (InsertCommand.derive s.config.dialect m mode).columns.mapM
      (fun i => m.param i (if i = m.sync then .guid g else m.get e' i)) = .ok params) :
    Binding params c ((insertRow m e mode).run s.traced c).2 := by
  have hsilent : Keeps s.traced (fun c' => c'.world.issues = c.world.issues) (prepare m e) :=
    .prepare (fun _ h => h) m e
  obtain ⟨w, hrow⟩ := run_insertRow_prepared mode hprepare
  have hc₁ := (Blind.prepare m e).coherent hc hprepare
  rw [← type_of_run_prepare hprepare] at hm
  obtain ⟨commands, -, hcommand⟩ := run_insertCommand_derive (s := s.traced) hc₁ hm mode
  have hissues := (issued_exec (s := s) (InsertCommand.derive s.config.dialect m mode).sql params
    { c₁ with commands }).issues
  rw [hrow, run_store_bound hcommand hparams]
  have hsame : c₁.world.issues = c.world.issues := hsilent.of_run rfl hprepare
  exact ⟨_, [], hissues.trans (congrArg (· ++ _) hsame), rfl⟩

/-- The identifier of the row is read and the row is deleted. After that only the ledger is left to
be told. -/
theorem issuing_deleteByValue (hserver : s.config.dialect = .sqlServer) (v : Value)
    (c₀ : Connection (Traced σ)) :
    ∃ c, Issuing (Issue.ReadsProper L) c₀ c ∧
      (∀ key stored, m.keyColumn? = some key → v.toSql = .ok stored →
        Binding [⟨key.name, stored⟩] c₀ c) ∧
      (((deleteByValue m v).run s.traced c₀).2 = c ∨ ∃ row,
        ((deleteByValue m v).run s.traced c₀).2 =
          ((recordChange m row .delete).run s.traced c).2) := by
  rw [deleteByValue]
  cases m.keyColumn? with
  | none => exact ⟨c₀, .refl c₀, fun _ _ h => (by cases h), .inl rfl⟩
  | some key =>
    cases v.toSql with
    | error err => exact ⟨c₀, .refl c₀, fun _ _ _ h => (by cases h), .inl rfl⟩
    | ok stored =>
      let k : Param := ⟨key.name, stored⟩
      have hasks : Sql.Asks [.word "delete from ", .name m.table, .word " where ",
          .name key.name, .word " = ", .hole key.name] [k] :=
        asks_keyed [.word "delete from ", .name m.table] [] k rfl (by simp)
      have hread : Issuing (Issue.ReadsProper L) c₀ ((readSync m k).run s.traced c₀).2 :=
        keeps_readSync hserver k c₀ (.refl c₀)
      have hfirst : Binding [k] c₀ ((readSync m k).run s.traced c₀).2 := binding_readSync k c₀
      have hbinds : ∀ {c}, Binding [k] c₀ c → ∀ key' stored', some key = some key' →
          (Except.ok stored : Except Error SqlValue) = .ok stored' →
            Binding [⟨key'.name, stored'⟩] c₀ c := by
        rintro c h _ _ ⟨⟩ ⟨⟩
        exact h
      rw [run_bind_ok _ (run_ofExcept (.ok stored))]
      rcases hr : (readSync m k).run s.traced c₀ with ⟨err | row, c₁⟩
      · rw [hr] at hread hfirst
        exact ⟨c₁, hread, hbinds hfirst, .inl (congrArg Prod.snd (run_bind_error _ hr))⟩
      · rw [hr] at hread hfirst
        rw [run_bind_ok _ hr]
        have hdelete := keeps_execCount (L := L) hserver hasks c₁ hread
        have hstill := hfirst.later (keeps_execCount (L := L) hserver hasks c₁ (.refl c₁))
        rw [run_bind]
        generalize (execCount _ [k]).run s.traced c₁ = done at hdelete hstill
        obtain ⟨err | n, c₂⟩ := done
        · exact ⟨c₂, hdelete, hbinds hstill, .inl rfl⟩
        · refine ⟨c₂, hdelete, hbinds hstill, ?_⟩
          dsimp only
          by_cases hn : 0 < n
          · rw [if_pos hn, run_bind]
            refine .inr ⟨row, ?_⟩
            rcases (recordChange m row .delete).run s.traced c₂ with ⟨_ | _, _⟩ <;> rfl
          · rw [if_neg hn]
            exact .inl rfl

/-- On SQL Server, whatever becomes of the insertion, the update, the deletion or the reading of a
row by its key: the parameters that are read from each of its statements are those that are bound
with it exactly if the names that are bound hold only letters, digits and the four other characters
of names. They are the names of columns, which may hold others. Where the values can be stored, the
first statement binds them. -/
theorem rowCalls_readProper (L : Letters) (s : Setup σ) (hserver : s.config.dialect = .sqlServer)
    {typeName table : String} {fields : List Field} {flags : Flags}
    (hm : Mapping.ofFields typeName table fields flags = .ok m) (c : Connection (Traced σ)) :
    (∀ (e : Entity) (mode : InsertMode) (known : RecordType → Flags) (first : Registry),
      Mapping.ofRecord e.type m.flags = .ok m → Coherent known first c →
        Issuing (Issue.ReadsProper L) c ((insertRow m e mode).run s.traced c).2 ∧
        ∀ e' g c₁ params, (prepare m e).run s.traced c = (.ok (e', g), c₁) →
          (InsertCommand.derive s.config.dialect m mode).columns.mapM
            (fun i => m.param i (if i = m.sync then .guid g else m.get e' i)) = .ok params →
          Binding params c ((insertRow m e mode).run s.traced c).2) ∧
    (∀ (e : Entity) (i : Nat), m.key = some i →
      Issuing (Issue.ReadsProper L) c ((updateRow m i e).run s.traced c).2 ∧
      ∀ params, (bound m i).mapM (fun j => m.param j (m.get e j)) = .ok params →
        Binding params c ((updateRow m i e).run s.traced c).2) ∧
    (∀ k : Param, Issuing (Issue.ReadsProper L) c ((ensureSync m k).run s.traced c).2 ∧
      Binding [k] c ((ensureSync m k).run s.traced c).2) ∧
    (∀ v : Value, ∃ c₁, Issuing (Issue.ReadsProper L) c c₁ ∧
      (∀ key stored, m.keyColumn? = some key → v.toSql = .ok stored →
        Binding [⟨key.name, stored⟩] c c₁) ∧
      (((deleteByValue m v).run s.traced c).2 = c₁ ∨ ∃ row,
        ((deleteByValue m v).run s.traced c).2 =
          ((recordChange m row .delete).run s.traced c₁).2)) ∧
    ∀ v : Value, Issuing (Issue.ReadsProper L) c ((findRow m v).run s.traced c).2 ∧
      ∀ key stored, m.keyColumn? = some key → v.toSql = .ok stored →
        Binding [⟨key.name, stored⟩] c ((findRow m v).run s.traced c).2 := by
  have hrepresents := Mapping.ofFields_represents hm
  refine ⟨fun e mode _ _ hrecord hc => ⟨issuing_insertRow hserver hrecord hc mode,
      fun _ _ _ _ hprepare => binding_insertRow hrecord hc hprepare⟩,
    fun e i hkey => ?_, fun k => ?_, fun v => issuing_deleteByValue hserver v c,
    fun v => ⟨keeps_findRow hserver v c (.refl c),
      fun _ _ hkey hstored => binding_findRow hkey hstored c⟩⟩
  · obtain ⟨col, hcol, -⟩ := (hrepresents.key i).1 hkey
    exact ⟨keeps_updateRow hserver (Option.isSome_iff_exists.2 ⟨col, hcol⟩) c (.refl c),
      fun _ hparams => binding_updateRow hcol hparams c⟩
  · obtain ⟨col, hcol, -⟩ := hrepresents.sync
    exact ⟨keeps_ensureSync hserver ⟨col, hcol⟩ k c (.refl c),
      binding_ensureSync hserver ⟨col, hcol⟩ k c⟩

end Act

namespace Samples

def firstName : Field :=
  { name := "First Name", property := "first_name", type := ⟨.text, false⟩, primaryKey := true }

/-- Persons by a name in two words. -/
def persons : Mapping :=
  { typeName := "Person"
    table := "Person"
    columns := [Column.ofField firstName 0 .none, Column.sync]
    flags := .none
    key := some 0
    autoKey := none
    sync := 1 }

/-- The name of the one parameter is cut short. -/
theorem persons_cutShort :
    let done := (Act.findRow persons (.text "Ann")).run
      (idleSetup (.sqlServer "localhost" "Sales")).traced (Connection.traced { world := () } [])
    Mapping.ofFields "Person" "Person" [firstName] .none = .ok persons ∧
      ∃ i, done.2.world.issues = [i] ∧
        i.sql = "select * from [Person] where [First Name] = @First Name" ∧
        i.params = [⟨"First Name", .text "Ann"⟩] ∧ ¬i.ReadsBound .latin := by
  intro done
  have hm : Mapping.ofFields "Person" "Person" [firstName] .none = .ok persons := by
    decide +kernel
  let i : Issue := .query "select * from [Person] where [First Name] = @First Name"
    [⟨"First Name", .text "Ann"⟩]
  have hissues : done.2.world.issues = [i] := by decide +kernel
  obtain ⟨-, -, -, -, hfind⟩ := Act.rowCalls_readProper .latin
    (idleSetup (.sqlServer "localhost" "Sales")) rfl hm (Connection.traced { world := () } [])
  obtain ⟨⟨is, his, hall⟩, -⟩ := hfind (.text "Ann")
  have hmem : i ∈ is := by
    have hsame : [i] = [] ++ is := hissues.symm.trans his
    rw [List.nil_append] at hsame
    exact hsame ▸ List.mem_singleton_self i
  refine ⟨hm, i, hissues, rfl, rfl, fun hread => ?_⟩
  have hproper := (hall i hmem).1 hread _ List.mem_cons_self
  exact absurd hproper (by decide)

end Samples

end RowLedger
