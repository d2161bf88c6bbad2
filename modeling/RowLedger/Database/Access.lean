import RowLedger.Database.Evaluation

/-!
The order in which a query visits the rows of a table: by their ids, or as they stand in an index
that its condition can use or that holds every column it reads.
-/

namespace RowLedger

namespace Term

/-- The parts of a condition that all have to hold. -/
def conjuncts : Term CellRef → List (Term CellRef)
  | binary .and a b => conjuncts a ++ conjuncts b
  | t => [t]

mutual

/-- The places of the cells that a term reads. -/
def places : Term CellRef → List Nat
  | literal _ | parameter _ | countRows => []
  | column s => s.place.toList
  | negate t | complement t | not t | collate t _ => places t
  | binary _ a b | like a b => places a ++ places b
  | among t list => places t ++ allPlaces list
  | call _ args => allPlaces args

def allPlaces : List (Term CellRef) → List Nat
  | [] => []
  | t :: ts => places t ++ allPlaces ts

end

/-- The cell that a term compares with something that reads no cell. -/
def compared? (p : Operator → Bool) : Term CellRef → Option CellRef
  | binary op (column s) b => if p op && b.places.isEmpty then some s else none
  | binary op a (column s) => if p op && a.places.isEmpty then some s else none
  | _ => none

/-- The cell that has to equal something. -/
def fixed? (t : Term CellRef) : Option CellRef :=
  match t with
  | among (column s) list => if (allPlaces list).isEmpty then some s else none
  | t => t.compared? fun op => op == .eq || op == .is

/-- The cell that has to lie on one side of something. -/
def bounded? : Term CellRef → Option CellRef :=
  compared? fun op => op == .lt || op == .le || op == .gt || op == .ge

end Term

/-- An estimate of the size of a cell, in units of four bytes. -/
def StoredColumn.width (c : StoredColumn) : Nat :=
  match c.affinity with
  | .text | .blob =>
    let type := Text.foldAscii c.type
    let digits := (type.dropWhile fun x => !x.isDigit).takeWhile Char.isDigit
    if type.isEmpty then 1
    else if digits.isEmpty && !Text.occursIn "char".toList type then 5
    else min 255 (Text.digitsValue digits / 4 + 1)
  | _ => 1

namespace Table

def width (t : Table) : Nat :=
  t.columns.foldl (fun n c => n + c.width) (if t.idColumn.isSome then 0 else 1)

def indexWidth (t : Table) (i : TableIndex) : Nat :=
  i.parts.foldl (fun n p => n + ((p.bind (t.columns[·]?)).map StoredColumn.width).getD 1) 1

def isId (t : Table) (s : CellRef) : Bool := s.place.isNone || s.place == t.idColumn

/-- An index whose first column is among those cells. -/
def indexOn? (t : Table) (cellRefs : List CellRef) : Option TableIndex :=
  t.indexes.find? fun i => cellRefs.any fun s => s.place.isSome && i.parts.head? == some s.place

/-- The narrowest index, narrower than the table, that holds all those cells. -/
def covering? (t : Table) (places : List Nat) : Option TableIndex :=
  let covers (i : TableIndex) : Bool :=
    t.indexWidth i < t.width &&
      places.all fun p => i.parts.contains (some p) || t.idColumn == some p
  (t.indexes.filter covers).foldl (fun best i => match best with
    | none => some i
    | some b => some (if t.indexWidth i < t.indexWidth b then i else b)) none

/-- All rows, in the order in which a query with that condition visits them. -/
def visited (t : Table) (condition : Option (Term CellRef)) (places : List Nat) : List StoredRow :=
  let parts := (condition.map Term.conjuncts).getD []
  let fixed := parts.filterMap Term.fixed?
  let bounded := parts.filterMap Term.bounded?
  let index :=
    if fixed.any t.isId then none
    else (t.indexOn? fixed).or <|
      if bounded.any t.isId then none else (t.indexOn? bounded).or (t.covering? places)
  (index.map t.rowsBy).getD t.rows

end Table

end RowLedger
