import RowLedger.Notation.Value
import RowLedger.Schema.Index

/-! Tables in JSON. -/

namespace RowLedger

open Json

def Flags.ofJson (j : Json) : Flags := .ofNat ((j.nat? "flags").getD 0)

namespace IndexAttr

def ofJson (j : Json) : IndexAttr := ⟨j.text? "name", (j.int? "order").getD 0, j.flag "unique"⟩

def toJson (a : IndexAttr) : Json :=
  .record [("name", option text a.name), ("order", int a.order), ("unique", bool a.unique)]

end IndexAttr

namespace FieldType

def ofJson? (kind : Json) (optional : Bool) : Option FieldType := do
  return ⟨← Kind.ofJson? kind, optional⟩

end FieldType

namespace Field

/-- Only the name has to be given; a field without a kind holds text. -/
def ofJson? (j : Json) : Option Field := do
  let name ← j.text? "name"
  let kind ← unlessNull Kind.ofJson? (j.member "kind")
  return {
    name
    property := (j.text? "prop").getD name
    type := ⟨kind.getD .text, j.flag "optional"⟩
    primaryKey := j.flag "pk"
    autoIncrement := j.flag "auto"
    ignored := j.flag "ignore"
    notNull := j.flag "not_null"
    indices := (j.items "indices").map IndexAttr.ofJson
    maxLength := j.nat? "max_length"
    collation := j.text? "collation" }

def toJson (f : Field) : Json :=
  .record
    [ ("name", text f.name), ("prop", text f.property), ("kind", text f.type.kind.name),
      ("optional", bool f.type.optional), ("pk", bool f.primaryKey), ("auto", bool f.autoIncrement),
      ("ignore", bool f.ignored), ("not_null", bool f.notNull),
      ("indices", list IndexAttr.toJson f.indices), ("max_length", option nat f.maxLength),
      ("collation", option text f.collation) ]

end Field

def RecordType.ofJson? (j : Json) : Option RecordType := j.asText?.bind Samples.record?

namespace Column

def toJson (c : Column) : Json :=
  .record
    [ ("name", text c.name), ("prop", option text c.property), ("kind", text c.kind.name),
      ("text", bool c.kind.isText), ("nullable", bool c.nullable), ("pk", bool c.primaryKey),
      ("auto_increment", bool c.autoIncrement), ("auto_guid", bool c.autoGuid),
      ("sync_guid", bool c.isSync), ("unique", bool c.isUnique), ("auto", bool c.isAuto),
      ("indices", list IndexAttr.toJson c.indices), ("max_length", option nat c.maxLength),
      ("collation", option text c.collation), ("field", option nat c.field) ]

def named (c : Column) : Json := text c.name

end Column

namespace Index

def ofJson? (j : Json) : Option Index := do
  return ⟨← j.text? "name", ← j.text? "table", j.flag "unique", j.texts "columns"⟩

def toJson (i : Index) : Json :=
  .record [("name", text i.name), ("table", text i.table), ("unique", bool i.unique),
    ("columns", list text i.columns)]

end Index

namespace Mapping

/-- A sample by its name, or a table with its fields. Reading can succeed and mapping fail. -/
def ofJson? (j : Json) : Option (Except Error Mapping) := do
  if j.has "entity" then
    return ofRecord (← RecordType.ofJson? (j.member "entity")) (.ofJson j)
  else
    let table := (j.text? "table").getD "T"
    let fields ← (j.items "fields").mapM Field.ofJson?
    return ofFields ((j.text? "type").getD table) table fields (.ofJson j)

/-- What there is to know of a mapping. -/
def facts (m : Mapping) : List (String × Json) :=
  [ ("type", text m.typeName), ("table", text m.table), ("flags", nat m.flags.toNat),
    ("columns", list Column.toJson m.columns), ("pk", option nat m.key),
    ("pk_name", option Column.named m.keyColumn?),
    ("auto_inc_pk", option Column.named m.autoKeyColumn?),
    ("has_auto_inc_pk", bool m.autoKeyColumn?.isSome), ("sync", nat m.sync),
    ("sync_name", m.syncColumn.named), ("insert", list nat m.insertColumns),
    ("replace", list nat m.replaceColumns), ("update", list nat m.updateColumns) ]

end Mapping

/-- Each field with the name of its column. -/
def Entity.toJson (e : Entity) : Json :=
  list (fun (f, v) => .array [text f.name, v.toJson]) (e.type.fields.zip e.values)

end RowLedger
