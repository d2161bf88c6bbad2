import RowLedger.Proofs.Connection.Databases
import RowLedger.Proofs.Database.Lexing
import RowLedger.Proofs.Ledger.Memory
import RowLedger.Proofs.Sql.Quoting

/-!
A server in memory that keeps the names of the tables of its databases, and nothing else. It goes by
the first words of a statement and takes a transaction back as a whole.
-/

namespace RowLedger.Samples

structure Catalogs where
  current : String
  /-- A database and a table in it. -/
  tables : List (String × String) := []
  /-- The tables when the transaction began. -/
  saved : List (String × String) := []
  deriving DecidableEq

namespace Catalogs

def view (w : Catalogs) : Databases := ⟨w.current, fun name table => (name, table) ∈ w.tables⟩

instance (w : Catalogs) (name table : String) : Decidable (w.view.tables name table) :=
  inferInstanceAs (Decidable ((name, table) ∈ w.tables))

/-- The name that stands behind a front. -/
def named? (front : String) (close : Char) (cs : List Char) : Option String :=
  (Text.readDoubled? close (cs.drop front.toList.length)).map fun p => String.ofList p.1

def verb (cs : List Char) : List Char := cs.take 4

/-- What the statements do that change the tables to see. -/
def moved? (cs : List Char) (w : Catalogs) : Option Catalogs :=
  if verb cs = "if o".toList then
    (named? "if object_id(N'" '\'' cs).map fun table =>
      { w with tables := (w.current, table) :: w.tables }
  else if verb cs = "drop".toList then
    (named? "drop table if exists [" ']' cs).map fun table =>
      { w with tables := w.tables.filter fun p => p ≠ (w.current, table) }
  else if verb cs = "use ".toList then
    (named? "use [" ']' cs).map fun name => { w with current := name }
  else some { w with tables := w.saved }

/-- The verbs of these statements; the last one undoes. -/
def moving : List (List Char) := ["if o".toList, "drop".toList, "use ".toList, "roll".toList]

/-- What the server makes of a text. -/
def after? (cs : List Char) (w : Catalogs) : Option Catalogs :=
  if verb cs ∈ moving then moved? cs w
  else some (if verb cs = "begi".toList then { w with saved := w.tables } else w)

def execute (sql : String) (_ : List Param) (w : Catalogs) : Reply Catalogs ExecResult :=
  match after? sql.toList w with
  | some w' => (.ok {}, w')
  | none => (.error .closed, w)

/-- Nothing is listed, so that tables are always created. -/
def setup : Setup Catalogs where
  driver := .buffered execute (fun _ _ w => (.ok {}, w)) (fun _ => true) fun w => (.ok (), w)
  config := .sqlServer "localhost" "Sales"
  guid _ := .nil
  savepointNumber n := n

variable {w w' : Catalogs} {sql : Sql} {params : List Param} {r : ExecResult}

theorem after?_of_ok (h : setup.driver.execute (Dialect.sqlServer.render sql) params w =
    (.ok r, w')) : after? (Dialect.sqlServer.render sql).toList w = some w' := by
  change execute _ params w = _ at h
  unfold execute at h
  split at h
  · next hw =>
    cases h
    exact hw
  · cases h

/-! The first words of statements. -/

/-- A statement begins with words. -/
def Begins (front : String) (sql : Sql) : Prop :=
  ∃ rest, (Dialect.sqlServer.render sql).toList = front.toList ++ rest

theorem toList_render (word : String) (rest : Sql) :
    (Dialect.sqlServer.render (.word word :: rest)).toList =
      word.toList ++ (Dialect.sqlServer.render rest).toList :=
  Dialect.sqlServer.toList_render_cons (.word word) rest

theorem begins_word (word : String) (rest : Sql) : Begins word (.word word :: rest) :=
  ⟨_, toList_render word rest⟩

theorem Begins.left {front word : String} (h : Begins (front ++ word) sql) : Begins front sql := by
  obtain ⟨rest, hrest⟩ := h
  rw [String.toList_append, List.append_assoc] at hrest
  exact ⟨word.toList ++ rest, hrest⟩

/-- A statement with a verb that changes no table to see. -/
def Still (sql : Sql) : Prop := verb (Dialect.sqlServer.render sql).toList ∉ moving

theorem Begins.still {front : String} (h : Begins front sql)
    (hfront : 4 ≤ front.toList.length ∧ verb front.toList ∉ moving) : Still sql := by
  obtain ⟨rest, hrest⟩ := h
  have hverb : verb (front.toList ++ rest) = verb front.toList :=
    List.take_append_of_le_length hfront.1
  rw [Still, hrest, hverb]
  exact hfront.2

theorem Still.view (h : Still sql)
    (hr : setup.driver.execute (Dialect.sqlServer.render sql) params w = (.ok r, w')) :
    w'.view = w.view := by
  have hafter := after?_of_ok hr
  rw [after?, if_neg h] at hafter
  cases hafter
  split <;> rfl

theorem still_serverInsert (m : Mapping) (cs : List Column) (mode : InsertMode) :
    Still (Dialect.serverInsert m cs mode) := by
  have hinsert (table : String) : Still (Dialect.plainInsert "insert" table cs) :=
    (begins_word ("insert" ++ " into ") _).still (by decide)
  unfold Dialect.serverInsert
  split
  · exact hinsert m.table
  · exact hinsert m.table
  · split
    · exact hinsert m.table
    · exact (begins_word "if not exists (select * from " _).still (by decide)
  · dsimp only
    split <;> exact (begins_word "delete from " _).still (by decide)

theorem still_rowStatement (h : RowStatement .sqlServer sql) : Still sql := by
  cases h with
  | insert m mode => exact still_serverInsert m _ mode
  | update m positions key => exact (begins_word "update " _).still (by decide)
  | empty table => exact (begins_word "delete from " _).still (by decide)
  | deleteKeyed table column => exact (begins_word "delete from " _).still (by decide)
  | deleteWhere table h => exact (begins_word "delete from " _).still (by decide)

theorem still_levelStatement (h : LevelStatement .sqlServer sql) : Still sql := by
  cases h with
  | begin => exact (begins_word "begin transaction" _).still (by decide)
  | save number depth =>
    refine (begins_word _ _).left.still ?_
    split <;> decide
  | @release number level depth sql h =>
    rw [Dialect.release?] at h
    split at h
    · cases h
      exact (begins_word "commit transaction" _).still (by decide)
    · cases h
  | commit => exact (begins_word "commit transaction" _).still (by decide)

/-! The statements that change the tables to see. -/

/-- A front, then a name up to its delimiter. -/
def Names (front : String) (close : Char) (name : String) (cs : List Char) : Prop :=
  ∃ rest : List Char, rest.head? ≠ some close ∧
    cs = front.toList ++ (Text.doubling close name.toList ++ close :: rest)

theorem Names.named?_eq {front name : String} {close : Char} {cs : List Char}
    (h : Names front close name cs) : named? front close cs = some name := by
  obtain ⟨rest, hrest, rfl⟩ := h
  rw [named?, List.drop_left, Text.readDoubled?_doubling _ hrest]
  simp

theorem Names.verb {front name : String} {close : Char} {cs : List Char}
    (h : Names front close name cs) (hfront : 4 ≤ front.toList.length) :
    verb cs = Catalogs.verb front.toList := by
  obtain ⟨rest, -, rfl⟩ := h
  exact List.take_append_of_le_length hfront

theorem names_createTable (m : Mapping) : Names "if object_id(N'" '\'' m.table
    (Dialect.sqlServer.render (Dialect.sqlServer.createTable m)).toList := by
  obtain ⟨rest, hrest⟩ : Begins ("if object_id(" ++ Dialect.nationalLiteral m.table ++
      ", N'U') is null create table ") (Dialect.sqlServer.createTable m) := begins_word _ _
  refine ⟨", N'U') is null create table ".toList ++ rest, by simp, ?_⟩
  rw [hrest]
  simp [Dialect.nationalLiteral, Text.delimited, Text.delimitedChars]

theorem names_bracketed (word name : String) :
    Names (word ++ "[") ']' name (Dialect.sqlServer.render [.word word, .name name]).toList := by
  refine ⟨[], by simp, ?_⟩
  rw [toList_render]
  simp [Dialect.render, Dialect.renderPiece, Dialect.quote, Text.delimited, Text.delimitedChars]

theorem after?_create {m : Mapping}
    (h : after? (Dialect.sqlServer.render (Dialect.sqlServer.createTable m)).toList w = some w') :
    w' = { w with tables := (w.current, m.table) :: w.tables } := by
  have hnames := names_createTable m
  have hverb := hnames.verb (by decide)
  rw [after?, hverb, if_pos (by decide), moved?, hverb, if_pos (by decide),
    hnames.named?_eq] at h
  exact (Option.some.inj h).symm

theorem after?_drop {table : String}
    (h : after? (Dialect.sqlServer.render (Dialect.dropTable table)).toList w = some w') :
    w' = { w with tables := w.tables.filter fun p => p ≠ (w.current, table) } := by
  have hnames : Names "drop table if exists [" ']' table _ :=
    names_bracketed "drop table if exists " table
  have hverb := hnames.verb (by decide)
  rw [Dialect.dropTable, after?, hverb, if_pos (by decide), moved?, hverb, if_neg (by decide),
    if_pos (by decide), hnames.named?_eq] at h
  exact (Option.some.inj h).symm

theorem after?_use {name : String}
    (h : after? (Dialect.sqlServer.render [.word "use ", .name name]).toList w = some w') :
    w' = { w with current := name } := by
  have hnames : Names "use [" ']' name _ := names_bracketed "use " name
  have hverb := hnames.verb (by decide)
  rw [after?, hverb, if_pos (by decide), moved?, hverb, if_neg (by decide), if_neg (by decide),
    if_pos (by decide), hnames.named?_eq] at h
  exact (Option.some.inj h).symm

/-- It carries out what a connection states about tables, by their names. -/
theorem keepsTables : setup.KeepsTables view where
  failed {sql params w w' e} h := by
    change execute sql params w = _ at h
    unfold execute at h
    split at h <;> cases h
    rfl
  rows h := (still_rowStatement h).view
  levels h := (still_levelStatement h).view
  creates hr := by
    rw [after?_create (after?_of_ok hr)]
    simp [view, Databases.withTable, or_comm]
  addsColumn := ((begins_word "alter table " _).still (by decide)).view
  createsIndex := ((begins_word _ _).left.left.left.left.still (by decide)).view
  drops hr := by
    rw [after?_drop (after?_of_ok hr)]
    simp [view, Databases.withoutTable, imp_iff_not_or]
  createsDatabase hsql hr := by
    cases hsql
    exact ((begins_word _ _).left.left.still (by decide)).view hr
  changesCatalog hsql hr := by
    cases hsql
    rw [after?_use (after?_of_ok hr)]
    rfl
  reads _ _ _ := ⟨rfl, rfl, rfl⟩
  cursors _ _ := ⟨rfl, rfl⟩
  lists h hsome := by
    cases h
    cases hsome

end Catalogs

end RowLedger.Samples
