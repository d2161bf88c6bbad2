import RowLedger.Schema.Mapping

/-! The indexes of a table, gathered from the attributes of its columns. -/

namespace RowLedger

structure Index where
  name : String
  table : String
  unique : Bool
  columns : List String
  deriving DecidableEq

namespace Index

/-- The members of an index that share its name, in the order they were declared. -/
structure Group where
  name : String
  unique : Bool
  members : List (Int × String)
  deriving DecidableEq

/-- The name of an index that declares none. -/
def defaultName (table column : String) : String := table ++ "_" ++ column

/-- Each attribute with its column, apart from those declared on the column itself. -/
def attributes (m : Mapping) : List (IndexAttr × String) :=
  m.columns.flatMap fun c =>
    (c.indices.filter fun a => !a.isOnColumn).map fun a => (a, c.name)

/-- Puts a member into its group, keeping the groups in ascending order of their names. -/
def insertMember (name : String) (unique : Bool) (member : Int × String) :
    List Group → Except Error (List Group)
  | [] => .ok [⟨name, unique, [member]⟩]
  | g :: gs =>
    if name = g.name then
      if g.unique = unique then .ok ({ g with members := g.members ++ [member] } :: gs)
      else .error (.inconsistentIndex name)
    else if name < g.name then .ok (⟨name, unique, [member]⟩ :: g :: gs)
    else do return g :: (← insertMember name unique member gs)

def groups (m : Mapping) : Except Error (List Group) :=
  (attributes m).foldlM
    (fun gs (a, column) =>
      insertMember (a.name.getD (defaultName m.table column)) a.unique (a.order, column) gs)
    []

/-- Members follow their order; equal orders stay as declared. -/
def ofGroup (table : String) (g : Group) : Index :=
  { name := g.name
    table
    unique := g.unique
    columns := (g.members.mergeSort fun a b => a.1 ≤ b.1).map (·.2) }

end Index

def Mapping.indexes (m : Mapping) : Except Error (List Index) := do
  return (← Index.groups m).map (Index.ofGroup m.table)

end RowLedger
