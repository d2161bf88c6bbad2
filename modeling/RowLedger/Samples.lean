import RowLedger.Ledger.Entry

/-! Record types of every shape that a mapping tells apart, and the enumerations they use. -/

namespace RowLedger.Samples

def ordinal (n : Int) : Sized .i64 := Sized.clamp .i64 n

def enumOf (name : String) (asText : Bool) (variants : List (String × Int)) : EnumType :=
  ⟨name, asText, variants.map fun v => (v.1, ordinal v.2)⟩

def status : EnumType := enumOf "Status" true [("Draft", 0), ("Published", 1), ("Archived", 10)]

def priority : EnumType := enumOf "Priority" false [("Low", 1), ("High", 2)]

def color : EnumType := enumOf "Color" true [("Red", 0), ("Green", 1), ("Blue", 2)]

def level : EnumType := enumOf "Level" false [("Low", 1), ("Mid", 2), ("High", 10)]

def signed : EnumType :=
  enumOf "Signed" false
    [("Neg", -5), ("AfterNeg", -4), ("Zero", 0), ("Huge", 3000000000), ("AfterHuge", 3000000001)]

def enums : List EnumType := [status, priority, color, level, signed, Action.enumType]

def enum? (name : String) : Option EnumType := enums.find? fun e => e.name == name

/-- A field that must have a value. -/
def one (property : String) (kind : Kind) : Slot := .plain property ⟨kind, false⟩

/-- A field that may be absent. -/
def opt (property : String) (kind : Kind) : Slot := .plain property ⟨kind, true⟩

def record (name : String) (own : List Slot) : RecordType := .make name name own []

def product : RecordType := record "Product" [(one "id" (.int .i64)).key.auto, one "name" .text]

def customer : RecordType :=
  record "Customer"
    [(one "id" (.int .i64)).key.auto, one "name" .text, opt "city" .text, one "sync_guid" .guid]

def device : RecordType := record "Device" [(one "key" .guid).key.auto, one "label" .text]

def setting : RecordType := record "Setting" [(one "name" .text).key, one "value" .text]

def note : RecordType := record "Note" [one "text" .text]

def everything : RecordType :=
  record "Everything"
    [ (one "id" (.int .i64)).key.auto, one "flag" .bool, one "tiny" (.int .i8),
      one "small" (.int .i16), one "int" (.int .i32), one "byte" (.int .u8),
      one "word" (.int .u16), one "dword" (.int .u32), one "single" .single,
      one "double" .double, one "money" .decimal, one "text" .text, one "span" .timeSpan,
      one "stamp" .dateTime, one "moment" .offsetDateTime, one "blob" .bytes, one "token" .guid,
      one "color" (.enum color), one "level" (.enum level), opt "maybe" (.int .i32),
      opt "maybe_text" .text ]

def priced : RecordType :=
  .make "Priced" "Product"
    [ (one "id" (.int .i64)).key.auto, ((one "name" .text).atMost 64).collated "NOCASE",
      one "price" .double ]
    []

def audit : RecordType :=
  record "Audit" [one "created_by" .text, one "created_at" .dateTime, one "slug" .text]

def article : RecordType :=
  .make "Article" "Articles"
    [ (one "key" .guid).key, ((one "title" .text).named "Headline").mandatory.unique,
      one "status" (.enum status), one "priority" (.enum priority), opt "author_id" (.int .i32),
      (one "slug" .text).indexed (some "IX_Slug") 2 true,
      (one "section" .text).indexed (some "IX_Slug") 1 true, (one "cached_html" .text).ignored,
      one "sync_guid" .guid ]
    [audit]

def ticket : RecordType :=
  record "Ticket" [one "id" (.int .i32), one "customer_id" (.int .i32), one "subject" .text]

def nothing : RecordType := record "Nothing" [(one "hidden" (.int .i32)).ignored]

def badSync : RecordType := record "BadSync" [one "sync_guid" .text]

def order : RecordType :=
  record "Order"
    [ one "id" (.int .i64), one "customer_id" (.int .i64),
      (one "placed_at" .text).indexed (some "IX_Order_Placed") 2 false,
      (one "region" .text).indexed (some "IX_Order_Placed") 1 false ]

def gadget : RecordType :=
  .make "GadgetV2" "Gadget"
    [ (one "id" (.int .i64)).key.auto, one "name" .text, (opt "serial" .text).unique,
      (opt "weight" .double).collated "BINARY" ]
    []

def tiny : RecordType := record "Tiny" [(one "id" (.int .i8)).key.auto, one "label" .text]

def keyOnly : RecordType := record "KeyOnly" [(one "code" .text).key]

def pair : RecordType :=
  record "Pair" [(one "a" (.int .i32)).key, (one "b" (.int .i32)).key, opt "note" .text]

def splitKey : RecordType :=
  record "SplitKey"
    [(one "seq" (.int .i64)).key.auto, (one "part" (.int .i64)).key, one "body" .text]

def optKey : RecordType := record "OptKey" [(opt "id" .guid).key.auto, one "label" .text]

def counter : RecordType := record "Counter" [(one "name" .text).key, (one "seq" (.int .i64)).auto]

def twoAuto : RecordType :=
  record "TwoAuto" [(one "a" (.int .i64)).key.auto, (one "b" (.int .i32)).auto]

def weird : RecordType :=
  .make "Weird" "we\"ird]t'b"
    [ ((one "key" .text).named "k\"e]y").key, one "r#type" (.int .i32),
      opt "_lead__dbl_2x_" .double, one "état_ñu" .bool, one "camelCase_Mix" (.int .u8) ]
    []

def shade : RecordType :=
  record "Shade"
    [ (one "color" (.enum color)).key, one "level" (.enum level), opt "maybe" (.enum color),
      (one "signed" (.enum signed)).startingAt (.enum signed (ordinal 0)) ]

def nullable : RecordType :=
  record "Nullable"
    [ (opt "id" (.int .i64)).key.auto, opt "flag" .bool, opt "money" .decimal,
      opt "moment" .offsetDateTime, opt "span" .timeSpan, opt "blob" .bytes,
      opt "sync_guid" .guid ]

def root : RecordType :=
  record "Root"
    [ one "id" (.int .i32), one "rooted" .text,
      ((one "shared" (.int .i16)).unique.indexed none 0 false).indexed (some "IX_Deep") (-1) false ]

def base : RecordType :=
  .make "Base" "Base"
    [one "based" (.int .u16), (one "shared" (.int .i32)).indexed (some "IX_Deep") 0 false] [root]

def derived : RecordType :=
  .make "Derived" "Derived"
    [(one "id" (.int .i64)).key, one "own" .text, (one "based" .text).ignored] [base]

def syncOnly : RecordType := record "SyncOnly" [one "sync_guid" .guid]

def syncKey : RecordType :=
  record "SyncKey" [((one "tracker" .guid).named "SYNCGUID").key, one "data" .bytes]

def badIndex : RecordType :=
  record "BadIndex"
    [ (one "id" (.int .i32)).key, (one "first" .text).indexed (some "IX_Bad") 0 true,
      (one "second" .text).indexed (some "IX_Bad") 1 false ]

def records : List RecordType :=
  [ product, customer, device, setting, note, everything, priced, audit, article, ticket, nothing,
    badSync, order, gadget, tiny, keyOnly, pair, splitKey, optKey, counter, twoAuto, weird, shade,
    nullable, root, base, derived, syncOnly, syncKey, badIndex, Ledger.recordType ]

def record? (name : String) : Option RecordType := records.find? fun t => t.name == name

end RowLedger.Samples
