import RowLedger.Proofs.Connection.Relational
import RowLedger.Proofs.Schema.Mapping

/-! The mapping of the ledger, and the conditions on its rows. -/

namespace RowLedger

namespace Ledger

def mapping : Mapping where
  typeName := tableName
  table := tableName
  columns := (recordType.fields.zipIdx.map fun (f, i) => Column.ofField f i .none).modify 2
    Column.markSync
  flags := .none
  key := some 0
  autoKey := some 0
  sync := 2

theorem ofRecord_recordType : Mapping.ofRecord recordType .none = .ok mapping := rfl

theorem indexes_mapping : mapping.indexes = .ok [] := rfl

theorem insertColumns_mapping : mapping.insertColumns = [1, 2, 3] := rfl

theorem names_mapping :
    mapping.columns.map Column.name = ["Id", "TableName", "SyncGuid", "Action"] := rfl

theorem names_insertColumns :
    (mapping.columnsAt mapping.insertColumns).map Column.name =
      ["TableName", "SyncGuid", "Action"] := rfl

theorem name_syncColumn : mapping.syncColumn.name = "SyncGuid" := rfl

theorem compile_ofTable (name : String) (d : Dialect) :
    compile (Act.ofTable name) mapping d =
      .ok (.equal "TableName" ⟨"TableName", .text name⟩) := by
  cases d <;> rfl

theorem compile_ofRow (g : Guid) (d : Dialect) :
    compile (Act.ofRow g) mapping d = .ok (.equal "SyncGuid" ⟨"SyncGuid", .text g.text⟩) := by
  cases d <;> rfl

end Ledger

end RowLedger
