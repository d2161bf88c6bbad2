import RowLedger.Database.Datum
import RowLedger.Proofs.Calendar.Order
import RowLedger.Proofs.Codec.RoundTrip
import RowLedger.Proofs.Predicate.Compilation

/-!
Where values of one kind and the forms that they are stored in stand in the same order. Predicates
with `<`, `<=`, `>` and `>=` compare the stored forms.
-/

namespace RowLedger

/-- One stored value stands before another, texts being compared character by character. -/
def SqlValue.Below (x y : SqlValue) : Prop :=
  Datum.order .binary (Datum.ofSql x) (Datum.ofSql y) = .lt

namespace SqlValue

theorem below_text {s t : List Char} :
    Below (.text (String.ofList s)) (.text (String.ofList t)) ↔ s < t := by
  show compare (String.ofList s) (String.ofList t) = .lt ↔ _
  rw [show compare (String.ofList s) (String.ofList t) =
    compareOfLessAndEq (String.ofList s) (String.ofList t) from rfl, compareOfLessAndEq_eq_lt,
    String.lt_iff, String.toList_ofList, String.toList_ofList]

theorem below_bigInt {m n : Sized .i64} : Below (.bigInt m) (.bigInt n) ↔ m.val < n.val := by
  show compare m.val n.val = .lt ↔ _
  rw [Int.compare_eq_lt]

theorem ofSql_storeInt {w : Width} (n : Sized w) :
    Datum.ofSql (Value.storeInt n) = .integer n.widen := by
  unfold Value.storeInt
  split <;> rfl

theorem below_storeInt {w : Width} {m n : Sized w} :
    Below (Value.storeInt m) (Value.storeInt n) ↔ m.val < n.val := by
  rw [Below, ofSql_storeInt, ofSql_storeInt]
  exact below_bigInt

end SqlValue

namespace Value

/-- The order of integers of one width, of spans, of dates and of instants. -/
def Before : Value → Value → Prop
  | @int w m, @int w' n => w = w' ∧ m.val < n.val
  | timeSpan s, timeSpan t => s.nanos < t.nanos
  | dateTime s, dateTime t => s.Before t
  | offsetDateTime s, offsetDateTime t => s.instant.Before t.instant
  | _, _ => False

/-- Nothing is cut when the value is stored, and the year is written without a sign. -/
def IsPlain : Value → Prop
  | timeSpan s => 100 ∣ s.nanos
  | dateTime t => t.IsPlain
  | _ => True

/-- What it takes for a value that is before another to be stored below it. -/
def KeepsOrder : Value → Value → Prop
  | timeSpan s, timeSpan t => s.KeepsOrder t
  | dateTime s, dateTime t => s.KeepsOrder t
  | offsetDateTime s, offsetDateTime t => s.instant.tick < t.instant.tick
  | _, _ => True

/-- An ordering predicate on a column compares it with the stored form of its operand. -/
theorem compile_ordering {t : Mapping} {d : Dialect} {name : String} {c : Column} {op : BinaryOp}
    {v : Value} {x : SqlValue} (hc : t.resolve name = .ok c) (hop : op.isOrdering = true)
    (hv : v.toSql = .ok x) (hnull : v ≠ .null) :
    ∃ n token, op.token? = some token ∧
      compile (.binary op (.column name) (.constant v)) t d =
        .ok ⟨[.word "(", .name c.name, .word (" " ++ token ++ " "), .hole n, .word ")"],
          [⟨n, x⟩]⟩ := by
  obtain ⟨token, htoken⟩ : ∃ token, op.token? = some token := by
    cases op <;> first | exact ⟨_, rfl⟩ | cases hop
  have hopened : (Expr.binary op (.column name) (.constant v)).opened =
      .binary op (.column name) (.constant v) := by
    simp [Expr.opened, Expr.operands]
  let drawn := Compile.drawName (d.render [.name c.name]) []
  have hfragment : Compile.fragment t d "" (.binary op (.column name) (.constant v)) [] =
      .ok ({
        sql := [.word "(", .name c.name, .word (" " ++ token ++ " "), .hole drawn.1, .word ")"]
        params := [⟨drawn.1, x⟩] }, drawn.2) := by
    simp only [Compile.fragment, Compile.constant, Compile.bind_ok, Compile.lift_ok,
      Compile.pure_ok]
    refine ⟨_, _, ⟨c, [], ⟨hc, rfl⟩, rfl⟩, _, _, ⟨drawn.1, drawn.2, rfl, x, _, ⟨hv, rfl⟩, rfl⟩,
      ?_, rfl⟩
    -- an operand that is not null is compared, never turned into a test for null
    simp [Compile.comparison, Compile.Fragment.isNullParam, hnull, htoken]
  exact ⟨drawn.1, token, htoken, by rw [compile, hopened, StateT.run, hfragment]; rfl⟩

end Value

namespace Samples

def workday : TimeSpan := ⟨32400000000000, by decide⟩

def day : TimeSpan := ⟨86400000000000, by decide⟩

def oldYear : DateTime := ⟨⟨2023, 12, 31, by decide⟩, TimeOfDay.midnight⟩

def newYear : DateTime := ⟨⟨2024, 1, 1, by decide⟩, TimeOfDay.midnight⟩

end Samples

end RowLedger
