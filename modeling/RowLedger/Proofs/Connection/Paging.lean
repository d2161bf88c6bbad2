import RowLedger.Connection.Query
import RowLedger.Proofs.Codec
import RowLedger.Proofs.Connection.Run
import RowLedger.Proofs.Outcome
import RowLedger.Proofs.Text.Blank
import RowLedger.Samples

/-!
Single rows of a query beside the list of all its rows. A query has one window; reading a single row
puts another offset or another limit in its place.
-/

namespace RowLedger

/-- The rows behind those skipped, and of these no more than the limit. -/
def window {α : Type} (limit : Option Nat) (skipped : Nat) (rows : List α) : List α :=
  match limit with
  | none => rows.drop skipped
  | some n => (rows.drop skipped).take n

theorem window_sublist {α : Type} (limit : Option Nat) (skipped : Nat) (rows : List α) :
    (window limit skipped rows).Sublist rows := by
  cases limit with
  | none => exact List.drop_sublist _ _
  | some n => exact (List.take_sublist _ _).trans (List.drop_sublist _ _)

theorem head?_window {α : Type} {limit : Option Nat} (h : limit ≠ some 0) (skipped : Nat)
    (rows : List α) : (window limit skipped rows).head? = rows[skipped]? := by
  cases limit with
  | none => rw [window, List.head?_drop]
  | some n => rw [window, List.head?_take, if_neg fun h0 => h (congrArg some h0), List.head?_drop]

namespace Dialect

/-- The clauses that keep a window, in the words of each dialect. To SQLite a negative limit is
none. To SQL Server an offset belongs to an order, if only to one of constants. -/
inductive Keeps : Dialect → String → Option Nat → Nat → Prop
  | whole (d : Dialect) : Keeps d "" none 0
  | limit (l : Nat) : Keeps .sqlite (" limit " ++ Text.showInt l) (some l) 0
  | limitOffset (l o : Nat) :
    Keeps .sqlite (" limit " ++ Text.showInt l ++ " offset " ++ Text.showInt o) (some l) o
  | offset (o : Nat) : Keeps .sqlite (" limit -1 offset " ++ Text.showInt o) none o
  | rows (o : Nat) : Keeps .sqlServer (" offset " ++ Text.showInt o ++ " rows") none o
  | fetch (l o : Nat) :
    Keeps .sqlServer (" offset " ++ Text.showInt o ++ " rows" ++
      (" fetch next " ++ Text.showInt l ++ " rows only")) (some l) o
  | unordered {clause : String} {limit : Option Nat} {skipped : Nat} :
    Keeps .sqlServer clause limit skipped →
      Keeps .sqlServer (" order by (select null)" ++ clause) limit skipped

theorem Keeps.ordered {clause : String} {limit : Option Nat} {skipped : Nat}
    (h : Keeps .sqlServer clause limit skipped) (ordered : Bool) :
    Keeps .sqlServer ((if ordered then "" else " order by (select null)") ++ clause) limit
      skipped := by
  cases ordered with
  | false => exact .unordered h
  | true => rwa [if_pos rfl, String.empty_append]

/-- In SQL Server a limit belongs to an offset, if only to one of no rows. -/
theorem paging_sqlServer {limit offset : Option Nat} (h : ¬(limit = none ∧ offset = none))
    (ordered : Bool) :
    sqlServer.paging limit offset ordered =
      (if ordered then "" else " order by (select null)") ++
        (" offset " ++ Text.showInt (offset.getD 0 : Nat) ++ " rows" ++
          limit.elim "" fun l => " fetch next " ++ Text.showInt l ++ " rows only") := by
  have hreassoc (a b c d e : String) : a ++ b ++ c ++ d ++ e = a ++ (b ++ c ++ d ++ e) := by
    simp only [String.append_assoc]
  rcases limit with _ | l <;> rcases offset with _ | o
  · exact absurd ⟨rfl, rfl⟩ h
  · exact hreassoc _ _ _ _ _
  · exact hreassoc _ _ _ _ _
  · exact hreassoc _ _ _ _ _

theorem keeps_paging (d : Dialect) (limit offset : Option Nat) (ordered : Bool) :
    d.Keeps (d.paging limit offset ordered) limit (offset.getD 0) := by
  cases d with
  | sqlite =>
    cases limit <;> cases offset
    · exact .whole _
    · exact .offset _
    · exact .limit _
    · exact .limitOffset _ _
  | sqlServer =>
    by_cases h : limit = none ∧ offset = none
    · obtain ⟨rfl, rfl⟩ := h
      exact .whole _
    · rw [paging_sqlServer h]
      cases limit with
      | none =>
        rw [Option.elim_none, String.append_empty]
        exact (Keeps.rows _).ordered ordered
      | some l => exact (Keeps.fetch l _).ordered ordered

end Dialect

namespace TableQuery

variable {q : TableQuery} {d : Dialect}

/-- The query without its window. -/
def whole (q : TableQuery) : TableQuery := { q with limit := none, offset := none }

/-- The window stands at the end of a text that is otherwise that of the whole query. -/
theorem select_eq_of_whole {head : Condition} (h : q.whole.select d = .ok head) :
    ∃ sel, q.select d = .ok sel ∧ sel.params = head.params ∧
      d.render sel.sql = d.render head.sql ++ d.paging q.limit q.offset (!q.keys.isEmpty) := by
  obtain ⟨s, hs, h⟩ := except_bind_ok.1 h
  obtain ⟨sort, hsort, ⟨⟩⟩ := except_bind_ok.1 h
  refine ⟨⟨s.sql ++ sort ++ [.word (d.paging q.limit q.offset (!q.keys.isEmpty))], s.params⟩,
    except_bind_ok.2 ⟨s, hs, except_bind_ok.2 ⟨sort, hsort, rfl⟩⟩, rfl, ?_⟩
  simp [Dialect.render, Dialect.renderPiece, whole, String.append_assoc,
    show d.paging none none (!q.keys.isEmpty) = "" by cases d <;> rfl]

theorem select_whole {sel : Condition} (h : q.select d = .ok sel) :
    ∃ head, q.whole.select d = .ok head := by
  obtain ⟨s, hs, h⟩ := except_bind_ok.1 h
  obtain ⟨sort, hsort, ⟨⟩⟩ := except_bind_ok.1 h
  exact ⟨_, except_bind_ok.2 ⟨s, hs, except_bind_ok.2 ⟨sort, hsort, rfl⟩⟩⟩

/-- A row of an answer as a record. -/
def record (q : TableQuery) (columns : List ResultColumn) (row : Row) : Except Error Entity :=
  RowPlan.materialize q.type q.mapping (RowPlan.targets q.mapping columns) row

theorem reads_record (q : TableQuery) (columns : List ResultColumn) (row : Row) :
    Reads (q.record columns row) := by
  refine Reads.foldlM (fun e iv => ?_) _ _
  have hdecode : Reads (RowPlan.decode q.mapping iv.1 iv.2) := by
    unfold RowPlan.decode
    split
    · exact Value.reads_ofSql _ _
    · exact .ok _
  exact hdecode.bind fun v => q.mapping.reads_set e iv.1 v

end TableQuery

/-- A driver that has one list of rows for a query and answers the part of it that the clause at the
end of the text keeps. -/
def Setup.Pages {σ : Type} (s : Setup σ) (q : TableQuery) (all : ResultSet) : Prop :=
  ∀ head clause limit skipped w, q.whole.select s.config.dialect = .ok head →
    s.config.dialect.Keeps clause limit skipped →
      ∃ w', s.driver.query (s.config.dialect.render head.sql ++ clause) head.params w =
        (.ok ⟨all.columns, window limit skipped all.rows⟩, w')

namespace Act

variable {σ : Type} {s : Setup σ} {c c' : Connection σ} {q : TableQuery} {all : ResultSet}

theorem run_toList (hp : s.Pages q all) {head : Condition}
    (hhead : q.whole.select s.config.dialect = .ok head) (limit offset : Option Nat)
    (c : Connection σ) :
    ((toList { q with limit, offset }).run s c).1 =
      (window limit (offset.getD 0) all.rows).mapM (q.record all.columns) := by
  obtain ⟨sel, hsel, hparams, hsql⟩ :=
    TableQuery.select_eq_of_whole (q := { q with limit, offset }) hhead
  obtain ⟨w, hquery⟩ := hp head _ limit _ c.world hhead
    (s.config.dialect.keeps_paging limit offset (!q.keys.isEmpty))
  have hrun : (queryText (s.config.dialect.render sel.sql) sel.params).run s c =
      (.ok ⟨all.columns, window limit (offset.getD 0) all.rows⟩, { c with world := w }) := by
    change ((s.driver.query (s.config.dialect.render sel.sql) sel.params c.world).1.mapError
      Error.storage, { c with
        world := (s.driver.query (s.config.dialect.render sel.sql) sel.params c.world).2 }) = _
    rw [hsql, hparams, hquery]
    rfl
  rw [toList, run_bind_ok _ run_dialect, hsel, run_bind_ok _ (run_ofExcept _), queryRecords,
    run_bind_ok _ hrun]
  rfl

theorem run_firstOrDefault_eq (q : TableQuery) (c : Connection σ) :
    ((firstOrDefault q).run s c).1 = ((toList (q.take 1)).run s c).1.map List.head? := by
  rw [firstOrDefault, run_bind]
  rcases (toList (q.take 1)).run s c with ⟨e | es, c'⟩ <;> rfl

theorem run_orNotFound (table : String) (x : Act σ (Option Entity)) (c : Connection σ) :
    ((orNotFound table x).run s c).1 =
      (x.run s c).1 >>= fun e => e.elim (.error (.notFound table)) .ok := by
  rw [orNotFound, run_bind]
  rcases x.run s c with ⟨e | _ | entity, c'⟩ <;> rfl

/-- The first row that is not skipped, whatever the limit. -/
theorem run_firstOrDefault (hp : s.Pages q all) {head : Condition}
    (hhead : q.whole.select s.config.dialect = .ok head) (offset : Option Nat)
    (c : Connection σ) :
    ((firstOrDefault { q with offset }).run s c).1 =
      match all.rows[offset.getD 0]? with
      | none => .ok none
      | some row => (q.record all.columns row).map some := by
  have hlist := run_toList hp hhead (some 1) offset c
  rw [window, List.take_one, List.head?_drop] at hlist
  rw [run_firstOrDefault_eq]
  change ((toList { q with limit := some 1, offset }).run s c).1.map List.head? = _
  rw [hlist]
  rcases all.rows[offset.getD 0]? with _ | row
  · rfl
  · rw [Option.toList_some, List.mapM_cons, List.mapM_nil]
    dsimp only
    rcases q.record all.columns row with e | entity <;> rfl

/-- The row at an index among all rows, whatever the window. -/
theorem run_elementAt (hp : s.Pages q all) {head : Condition}
    (hhead : q.whole.select s.config.dialect = .ok head) (i : Nat) (c : Connection σ) :
    ((elementAt q i).run s c).1 =
      match all.rows[i]? with
      | none => .error (.notFound q.mapping.table)
      | some row => q.record all.columns row := by
  have hfirst := run_firstOrDefault hp hhead (some i) c
  rw [elementAt, first, run_orNotFound]
  change ((firstOrDefault { q with offset := some i }).run s c).1 >>= _ = _
  rw [hfirst, Option.getD_some]
  rcases all.rows[i]? with _ | row
  · rfl
  · dsimp only
    rcases q.record all.columns row with e | entity <;> rfl

/-- A list that was read holds the records of the rows in the window. -/
theorem records_of_toList (hp : s.Pages q all) {es : List Entity}
    (hlist : (toList q).run s c = (.ok es, c')) :
    (∃ head, q.whole.select s.config.dialect = .ok head) ∧
      List.Forall₂ (fun row e => q.record all.columns row = .ok e)
        (window q.limit (q.offset.getD 0) all.rows) es := by
  obtain ⟨head, hhead⟩ : ∃ head, q.whole.select s.config.dialect = .ok head := by
    cases hsel : q.select s.config.dialect with
    | ok sel => exact TableQuery.select_whole hsel
    | error e =>
      rw [toList, run_bind_ok _ run_dialect, hsel] at hlist
      cases hlist
  refine ⟨⟨head, hhead⟩, forall₂_of_mapM ?_⟩
  rw [← run_toList hp hhead q.limit q.offset c]
  exact congrArg Prod.fst hlist

theorem elementAt_agrees_iff (hp : s.Pages q all) {es : List Entity}
    (hlist : (toList q).run s c = (.ok es, c')) :
    (∀ i c, ((elementAt q i).run s c).1 =
        (es[i]?).elim (.error (.notFound q.mapping.table)) .ok) ↔
      window q.limit (q.offset.getD 0) all.rows = all.rows := by
  obtain ⟨⟨head, hhead⟩, hread⟩ := records_of_toList hp hlist
  refine ⟨fun hagrees => ?_, fun hwhole i c => ?_⟩
  · -- otherwise the length of the list is the index of a row
    by_contra hne
    have hlt : es.length < all.rows.length := by
      rw [← hread.length_eq]
      refine Nat.lt_of_le_of_ne (window_sublist _ _ _).length_le fun hlen => ?_
      exact hne ((window_sublist _ _ _).eq_of_length hlen)
    have hat := hagrees es.length c
    rw [run_elementAt hp hhead, List.getElem?_eq_getElem hlt,
      List.getElem?_eq_none (Nat.le_refl _)] at hat
    obtain ⟨name, fault, hfault⟩ := q.reads_record _ _ _ hat
    cases hfault
  · rw [hwhole] at hread
    rw [run_elementAt hp hhead]
    rcases Nat.lt_or_ge i all.rows.length with hi | hi
    · have hi' : i < es.length := hread.length_eq ▸ hi
      rw [List.getElem?_eq_getElem hi, List.getElem?_eq_getElem hi']
      exact hread.get hi hi'
    · rw [List.getElem?_eq_none hi, List.getElem?_eq_none (hread.length_eq ▸ hi)]
      rfl

theorem firstOrDefault_agrees_iff (hp : s.Pages q all) {es : List Entity}
    (hlist : (toList q).run s c = (.ok es, c')) :
    (∀ c, ((firstOrDefault q).run s c).1 = .ok es.head?) ↔
      (q.limit = some 0 → all.rows.length ≤ q.offset.getD 0) := by
  obtain ⟨⟨head, hhead⟩, hread⟩ := records_of_toList hp hlist
  have hfirst (c : Connection σ) := run_firstOrDefault hp hhead q.offset c
  by_cases hzero : q.limit = some 0
  · obtain rfl : es = [] := by
      rw [hzero, window, List.take_zero] at hread
      exact List.forall₂_nil_left_iff.1 hread
    refine ⟨fun hagrees _ => ?_, fun hlimit c => (hfirst c).trans ?_⟩
    · have hnone := (hfirst c).symm.trans (hagrees c)
      rw [← List.getElem?_eq_none_iff]
      cases hrow : all.rows[q.offset.getD 0]? with
      | none => rfl
      | some row =>
        rw [hrow, List.head?_nil, except_map_ok] at hnone
        obtain ⟨e, -, he⟩ := hnone
        cases he
    · rw [List.getElem?_eq_none (hlimit hzero)]
      rfl
  · refine ⟨fun _ h => absurd h hzero, fun _ c => (hfirst c).trans ?_⟩
    rw [← head?_window hzero]
    generalize window q.limit (q.offset.getD 0) all.rows = rows at hread
    cases hread with
    | nil => rfl
    | cons hrow _ => exact except_map_ok.2 ⟨_, hrow, rfl⟩

/-- Single rows beside the list of a query, for any condition, order and window. Reading by index
agrees with the list exactly if the window leaves out no row, for the index is put in place of the
offset and one row in place of the limit. Reading the first row agrees exactly if the limit is not
zero, or no row is left behind those skipped. -/
theorem single_agrees_iff (hp : s.Pages q all) {es : List Entity}
    (hlist : (toList q).run s c = (.ok es, c')) :
    ((∀ i c, ((elementAt q i).run s c).1 =
        (es[i]?).elim (.error (.notFound q.mapping.table)) .ok) ↔
      window q.limit (q.offset.getD 0) all.rows = all.rows) ∧
    ((∀ c, ((firstOrDefault q).run s c).1 = .ok es.head?) ↔
      (q.limit = some 0 → all.rows.length ≤ q.offset.getD 0)) :=
  ⟨elementAt_agrees_iff hp hlist, firstOrDefault_agrees_iff hp hlist⟩

end Act

/-! Notes whose second row is the first one of a query. -/

def Samples.noteMapping : Mapping where
  typeName := "Note"
  table := "Note"
  columns := (Samples.note.fields.zipIdx.map fun f => Column.ofField f.1 f.2 .none) ++ [Column.sync]
  flags := .none
  key := none
  autoKey := none
  sync := 1

def Samples.skippingQuery : TableQuery where
  type := Samples.note
  mapping := Samples.noteMapping
  offset := some 1

def Samples.noteRows : ResultSet where
  columns := [⟨"Text", .text⟩]
  rows := [[.text "milk"], [.text "bread"], [.text "salt"]]

/-- The window that a clause of SQLite keeps, word by word. -/
def Samples.window? (clause : List Char) : Option (Option Nat × Nat) :=
  match Text.splitAll (· == ' ') clause with
  | [_] => some (none, 0)
  | [_, _, limit] => (Text.readUnsigned? limit).map fun l => (some l, 0)
  | [_, _, limit, _, offset] =>
    (Text.readUnsigned? offset).map fun o => (Text.readUnsigned? limit, o)
  | _ => none

/-- A database that knows one query. -/
def Samples.pagingSetup (head : String) (all : ResultSet) : Setup Unit where
  driver := .buffered (fun _ _ w => (.ok {}, w))
    (fun sql _ w =>
      match Samples.window? (sql.toList.drop head.toList.length) with
      | some (limit, skipped) => (.ok ⟨all.columns, window limit skipped all.rows⟩, w)
      | none => (.error .closed, w))
    (fun _ => true) (fun w => (.ok (), w))
  config := .sqlite ":memory:"
  guid _ := .nil
  savepointNumber n := n

theorem Samples.window?_of_keeps {clause : String} {limit : Option Nat} {skipped : Nat}
    (h : Dialect.sqlite.Keeps clause limit skipped) :
    Samples.window? clause.toList = some (limit, skipped) := by
  have hdigits (n : Nat) : ∀ c ∈ Text.natDigits n, (c == ' ') = false := by
    intro c hc
    simpa using Text.ne_of_isDigit (Text.isDigit_of_mem_natDigits hc) (d := ' ') (by decide)
  have hblank : (' ' == ' ') = true := rfl
  cases h with
  | whole => rfl
  | limit l =>
    have hwords : Text.splitAll (· == ' ') (" limit " ++ Text.showInt l).toList =
        [[], "limit".toList, Text.natDigits l] := by
      simp [Text.toList_showInt_natCast, Text.splitAll, Text.splitAll_eq_singleton (hdigits l)]
    rw [Samples.window?, hwords]
    simp only [Text.readUnsigned?_natDigits, Option.map_some]
  | limitOffset l =>
    have hwords : Text.splitAll (· == ' ')
        (" limit " ++ Text.showInt l ++ " offset " ++ Text.showInt skipped).toList =
          [[], "limit".toList, Text.natDigits l, "offset".toList, Text.natDigits skipped] := by
      simp [Text.toList_showInt_natCast, Text.splitAll,
        Text.splitAll_eq_singleton (hdigits skipped), Text.splitAll_append (hdigits l) hblank]
    rw [Samples.window?, hwords]
    simp only [Text.readUnsigned?_natDigits, Option.map_some]
  | offset =>
    have hwords : Text.splitAll (· == ' ') (" limit -1 offset " ++ Text.showInt skipped).toList =
        [[], "limit".toList, "-1".toList, "offset".toList, Text.natDigits skipped] := by
      simp [Text.toList_showInt_natCast, Text.splitAll,
        Text.splitAll_eq_singleton (hdigits skipped)]
    rw [Samples.window?, hwords]
    simp only [Text.readUnsigned?_natDigits, Option.map_some]
    rfl

theorem Samples.paging_pages {q : TableQuery} {head : Condition} {text : String}
    (hhead : q.whole.select .sqlite = .ok head) (htext : Dialect.sqlite.render head.sql = text)
    (all : ResultSet) : (Samples.pagingSetup text all).Pages q all := by
  intro head' clause limit skipped w hhead' hkeeps
  obtain rfl : head = head' := Except.ok.inj (hhead.symm.trans hhead')
  refine ⟨w, ?_⟩
  have hread : Samples.window?
      (((Samples.pagingSetup text all).config.dialect.render head.sql ++ clause).toList.drop
        text.toList.length) = some (limit, skipped) := by
    rw [show (Samples.pagingSetup text all).config.dialect = .sqlite from rfl, htext,
      String.toList_append, List.drop_left]
    exact Samples.window?_of_keeps hkeeps
  change (match Samples.window? _ with | some (limit, skipped) => _ | none => _) = _
  rw [hread]

def Samples.noteSetup : Setup Unit := Samples.pagingSetup "select * from \"Note\"" Samples.noteRows

/-- Without the first note the list begins with the second one, and the first element is still the
first note. -/
theorem Samples.skippingQuery_disagrees :
    Samples.noteSetup.Pages Samples.skippingQuery Samples.noteRows ∧
      ∃ es c', (Act.toList Samples.skippingQuery).run Samples.noteSetup { world := () } =
          (.ok es, c') ∧
        ¬∀ i c, ((Act.elementAt Samples.skippingQuery i).run Samples.noteSetup c).1 =
          (es[i]?).elim (.error (.notFound "Note")) .ok := by
  have hpages : Samples.noteSetup.Pages Samples.skippingQuery Samples.noteRows :=
    Samples.paging_pages rfl (by decide +kernel) _
  have hok : ((Act.toList Samples.skippingQuery).run Samples.noteSetup { world := () }).1.isOk := by
    decide +kernel
  rcases hlist : (Act.toList Samples.skippingQuery).run Samples.noteSetup { world := () } with
    ⟨e | es, c'⟩
  · rw [hlist] at hok
    cases hok
  · refine ⟨hpages, es, c', rfl, fun hagrees => ?_⟩
    have hwhole := (Act.single_agrees_iff hpages hlist).1.1 hagrees
    exact absurd hwhole (by decide)

end RowLedger
