import Mathlib.Data.List.Basic
import RowLedger.Proofs.Text.Delimited
import RowLedger.Sql.Mutation

/-!
Quoted names and text literals, read by the rule of each dialect. A name ends where its quotes do,
whatever it is made of, so that it can neither run on into the text nor be cut short, and the names
in a list stay apart.
-/

namespace RowLedger.Dialect

def opening : Dialect → Char
  | sqlite => '"'
  | sqlServer => '['

def closing : Dialect → Char
  | sqlite => '"'
  | sqlServer => ']'

/-- A quoted name at the front of a text, and what comes after it. -/
def readName? (d : Dialect) : List Char → Option (String × List Char) :=
  Text.readDelimited? d.opening d.closing

/-- Quoted names with a comma between neighbours. -/
def readNames? (d : Dialect) : List Char → Option (List String) :=
  Text.readList? d.opening d.closing

/-- A text literal of SQL Server at the front of a text. -/
def readLiteral? : List Char → Option (String × List Char)
  | 'N' :: cs => Text.readDelimited? '\'' '\'' cs
  | _ => none

variable (d : Dialect)

theorem toList_quote (name : String) :
    (d.quote name).toList = Text.delimitedChars d.opening d.closing name := by
  cases d <;> exact String.toList_ofList

theorem closing_ne_comma : d.closing ≠ ',' := by cases d <;> decide

/-- A name is read to its end and no further. -/
theorem readName?_quote {rest : List Char} (name : String) (h : rest.head? ≠ some d.closing) :
    d.readName? ((d.quote name).toList ++ rest) = some (name, rest) := by
  rw [toList_quote]
  exact Text.readDelimited?_delimitedChars name h

theorem readLiteral?_nationalLiteral {rest : List Char} (s : String)
    (h : rest.head? ≠ some '\'') :
    readLiteral? ((nationalLiteral s).toList ++ rest) = some (s, rest) := by
  have hchars : (nationalLiteral s).toList = 'N' :: Text.delimitedChars '\'' '\'' s := by
    simp [nationalLiteral, Text.delimited]
  rw [hchars]
  have hread : Text.readDelimited? '\'' '\'' (Text.delimitedChars '\'' '\'' s ++ rest) =
    some (s, rest) := Text.readDelimited?_delimitedChars s h
  exact hread

theorem toList_render_cons (p : Piece) (rest : Sql) :
    (d.render (p :: rest)).toList = (d.renderPiece p).toList ++ (d.render rest).toList := by
  simp [render]

theorem toList_render_nameList (cs : List Column) :
    (d.render (nameList cs)).toList =
      Text.delimitedList d.opening d.closing (cs.map Column.name) := by
  induction cs with
  | nil => rfl
  | cons c cs ih =>
    cases cs with
    | nil =>
      have hone : (d.render [.name c.name]).toList = (d.quote c.name).toList := by
        simp [render, renderPiece]
      exact hone.trans (toList_quote d c.name)
    | cons c' cs =>
      change (d.render (.name c.name :: .word "," :: nameList (c' :: cs))).toList = _
      have hname : (d.renderPiece (.name c.name)).toList =
          Text.delimitedChars d.opening d.closing c.name := toList_quote d c.name
      have hcomma : (d.renderPiece (.word ",")).toList = [','] := by simp [renderPiece]
      rw [toList_render_cons, toList_render_cons, ih, hname, hcomma]
      rfl

/-- What is quoted is read back: a name as a whole by the rule of each dialect, a text literal of
SQL Server, and all the names of a column list in their order. -/
theorem quoted_read :
    (∀ (d : Dialect) (name : String), d.readName? (d.quote name).toList = some (name, [])) ∧
    (∀ s : String, readLiteral? (nationalLiteral s).toList = some (s, [])) ∧
    ∀ (d : Dialect) (m : Mapping) (positions : List (Fin m.columns.length)),
      d.readNames? (d.render (nameList (m.columnsAt (positions.map Fin.val)))).toList =
        some (positions.map fun i => m.columns[i].name) := by
  refine ⟨fun d name => ?_, fun s => ?_, fun d m positions => ?_⟩
  · have hread : d.readName? ((d.quote name).toList ++ []) = some (name, []) :=
      d.readName?_quote name nofun
    rwa [List.append_nil] at hread
  · have hread : readLiteral? ((nationalLiteral s).toList ++ []) = some (s, []) :=
      readLiteral?_nationalLiteral s nofun
    rwa [List.append_nil] at hread
  · have hcolumns : m.columnsAt (positions.map Fin.val) = positions.map fun i => m.columns[i] := by
      rw [Mapping.columnsAt, List.filterMap_map, ← List.filterMap_eq_map]
      exact List.filterMap_congr fun i _ => List.getElem?_eq_getElem i.isLt
    rw [readNames?, toList_render_nameList, Text.readList?_delimitedList d.closing_ne_comma,
      hcolumns, List.map_map]
    rfl

/-- Names made of the delimiters themselves. -/
example : sqlServer.readNames? (sqlServer.render
    (.name "]],[" :: .word "," :: [.name "]"])).toList = some ["]],[", "]"] := by
  decide +kernel

end RowLedger.Dialect
