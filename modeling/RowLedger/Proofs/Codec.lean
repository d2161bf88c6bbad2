import RowLedger.Connection.Insertion

/-! How reading a value fails. -/

namespace RowLedger

/-- A value was there, but not one of its kind. -/
def Error.IsUnreadable (e : Error) : Prop := ∃ name fault, e = .unreadable name fault

/-- Fails only by what cannot be read. -/
def Reads {α : Type} (r : Except Error α) : Prop := ∀ e, r = .error e → e.IsUnreadable

namespace Reads

variable {α β : Type}

theorem ok (a : α) : Reads (.ok a) := by rintro e ⟨⟩

theorem error (name : String) (fault : ReadFault) :
    Reads (.error (.unreadable name fault) : Except Error α) := by
  rintro e ⟨⟩
  exact ⟨name, fault, rfl⟩

theorem map {r : Except Error α} (h : Reads r) (f : α → β) : Reads (r.map f) := by
  cases r with
  | ok a => exact ok (f a)
  | error e =>
    rintro e' ⟨⟩
    exact h e rfl

theorem bind {r : Except Error α} {f : α → Except Error β} (h : Reads r) (hf : ∀ a, Reads (f a)) :
    Reads (r >>= f) := by
  cases r with
  | ok a => exact hf a
  | error e =>
    rintro e' ⟨⟩
    exact h e rfl

theorem foldlM {f : β → α → Except Error β} (hf : ∀ b a, Reads (f b a)) (as : List α) (b : β) :
    Reads (as.foldlM f b) := by
  induction as generalizing b with
  | nil => exact ok b
  | cons a as ih =>
    rw [List.foldlM_cons]
    exact (hf b a).bind ih

end Reads

namespace Decode

theorem reads_integer (name : String) (v : SqlValue) : Reads (integer name v) := by
  unfold integer
  repeat' split
  all_goals first | exact .ok _ | exact .error _ _

theorem reads_sized (w : Width) (v : SqlValue) : Reads (sized w v) := by
  refine (reads_integer w.name v).bind fun n => ?_
  split
  · exact .ok _
  · exact .error _ _

theorem reads_bool (v : SqlValue) : Reads (bool v) := by
  have hnumber := (reads_integer Kind.bool.name v).map fun n => Value.bool (n.val ≠ 0)
  unfold bool
  repeat' split
  all_goals first | exact .ok _ | exact hnumber

theorem reads_float (name : String) (v : SqlValue) : Reads (float name v) := by
  unfold float
  repeat' split
  all_goals first | exact .ok _ | exact .error _ _

theorem reads_decimalText (s : String) : Reads (decimalText s) := by
  unfold decimalText
  split
  · exact .ok _
  · exact .error _ _

theorem reads_decimal (v : SqlValue) : Reads (decimal v) := by
  unfold decimal
  split
  · exact reads_decimalText _
  · exact .ok _
  · exact .ok _
  · exact (reads_float _ _).bind fun _ => reads_decimalText _

theorem reads_text (v : SqlValue) : Reads (text v) := by
  unfold text
  repeat' split
  all_goals first | exact .ok _ | exact .error _ _

theorem reads_bytes (v : SqlValue) : Reads (bytes v) := by
  unfold bytes
  split <;> first | exact .ok _ | exact .error _ _

theorem reads_guid (v : SqlValue) : Reads (guid v) := by
  unfold guid
  dsimp only
  repeat' split
  all_goals first | exact .ok _ | exact .error _ _

theorem reads_timeSpan (v : SqlValue) : Reads (timeSpan v) := by
  unfold timeSpan
  repeat' split
  all_goals first | exact .ok _ | exact .error _ _

theorem reads_dateTime (v : SqlValue) : Reads (dateTime v) := by
  unfold dateTime
  repeat' split
  all_goals first | exact .ok _ | exact .error _ _

theorem reads_offsetDateTime (v : SqlValue) : Reads (offsetDateTime v) := by
  refine (reads_integer _ v).bind fun n => ?_
  split
  · exact .ok _
  · exact .error _ _

theorem reads_enum (e : EnumType) (v : SqlValue) : Reads (enum e v) := by
  unfold enum
  repeat' split
  all_goals first | exact .ok _ | exact .error _ _ | exact (reads_integer _ _).map _

end Decode

open Decode in
theorem Kind.reads_of_decoder? {k : Kind} {decode : SqlValue → Except Error Value}
    (h : k.decoder? = some decode) (v : SqlValue) : Reads (decode v) := by
  cases k <;> cases h
  case bool => exact reads_bool v
  case int w => exact reads_sized w v
  case single => exact (reads_float _ v).map _
  case double => exact (reads_float _ v).map _
  case decimal => exact reads_decimal v
  case text => exact reads_text v
  case timeSpan => exact reads_timeSpan v
  case dateTime => exact reads_dateTime v
  case offsetDateTime => exact reads_offsetDateTime v
  case bytes => exact reads_bytes v
  case guid => exact reads_guid v

theorem Value.reads_ofSql (k : Kind) (v : SqlValue) : Reads (Value.ofSql k v) := by
  unfold Value.ofSql
  split
  · exact .ok _
  · split
    · exact Decode.reads_enum _ v
    · next h => exact Kind.reads_of_decoder? h v
    · exact .error _ _

theorem FieldType.reads_read (t : FieldType) (v : Value) : Reads (t.read v) := by
  unfold FieldType.read FieldType.readKind FieldType.wrongKind
  repeat' split
  all_goals first | exact .ok _ | exact .error _ _

theorem Mapping.reads_set (m : Mapping) (e : Entity) (i : Nat) (v : Value) :
    Reads (m.set e i v) := by
  unfold Mapping.set Entity.set
  repeat' split
  all_goals first | exact .ok _ | exact (FieldType.reads_read _ v).bind fun _ => .ok _

theorem Mapping.reads_withGeneratedKey (m : Mapping) (e : Entity) (id : Option (Sized .i64)) :
    Reads (m.withGeneratedKey e id) := by
  unfold Mapping.withGeneratedKey
  split
  · exact (Value.reads_ofSql _ _).bind fun _ => reads_set m e _ _
  · exact .ok e

end RowLedger
