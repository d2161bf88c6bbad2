import RowLedger.Schema.Record

/-!
The table of changes: one entry for each row that was touched, with the last thing done to it.
-/

namespace RowLedger

inductive Action
  | insert | update | delete
  deriving DecidableEq, Repr

namespace Action

def name : Action → String
  | insert => "Insert"
  | update => "Update"
  | delete => "Delete"

def ordinal : Action → Sized .i64
  | insert => ⟨0, by decide⟩
  | update => ⟨1, by decide⟩
  | delete => ⟨2, by decide⟩

def all : List Action := [insert, update, delete]

def enumType : EnumType := ⟨"ChangeAction", false, all.map fun a => (a.name, a.ordinal)⟩

def toValue (a : Action) : Value := .enum enumType a.ordinal

def ofValue? : Value → Option Action
  | .enum _ n => all.find? fun a => a.ordinal = n
  | _ => none

end Action

namespace Ledger

def tableName : String := "ChangesHistory"

def recordType : RecordType :=
  .make tableName tableName
    [ (Slot.plain "id" ⟨.int .i64, false⟩).key.auto,
      .plain "table_name" ⟨.text, false⟩,
      (Slot.plain "sync_guid" ⟨.guid, false⟩).unique.mandatory,
      .plain "action" ⟨.enum Action.enumType, false⟩ ]
    []

/-- An entry as the program reads it. -/
structure Entry where
  id : Int
  table : String
  row : Guid
  action : Action
  deriving DecidableEq

namespace Entry

def toEntity (table : String) (row : Guid) (action : Action) : Entity :=
  ⟨recordType, [.int (Sized.zero .i64), .text table, .guid row, action.toValue]⟩

def ofEntity (e : Entity) : Entry :=
  { id := ((e.get 0).int?.map Sized.val).getD 0
    table := (e.get 1).text?.getD ""
    row := (e.get 2).guid?.getD .nil
    action := (Action.ofValue? (e.get 3)).getD .insert }

end Entry

end Ledger

end RowLedger
