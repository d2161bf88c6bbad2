import RowLedger.Proofs.Calendar.DateTime
import RowLedger.Proofs.Calendar.Instant
import RowLedger.Proofs.Calendar.TimeSpan
import RowLedger.Proofs.Outcome
import RowLedger.Proofs.Text.Hexadecimal
import RowLedger.Samples

/-!
A value that is stored is read back as itself, up to the precision that its kind is stored with; and
what is read, from any of the forms that a kind is read from, is stored again.
-/

namespace RowLedger

/-- The kinds that are stored as doubles. -/
def Kind.isReal : Kind → Bool
  | single | double | decimal => true
  | _ => false

namespace EnumType

/-- No two labels are the same up to ASCII case. -/
def LabelsDistinct (e : EnumType) : Prop := (e.variants.map fun v => Text.foldAscii v.1).Nodup

/-- A variant before the ordinal's own has the same label up to ASCII case. -/
def Shadowed (e : EnumType) (n : Sized .i64) : Prop :=
  ∃ before v after, e.variants = before ++ v :: after ∧ v.2 = n ∧ (∀ u ∈ before, u.2 ≠ n) ∧
    ∃ u ∈ before, Text.sameName u.1 v.1 = true

/-- The ordinal that is read where this one is stored. -/
def restored (e : EnumType) (n : Sized .i64) : Sized .i64 :=
  if e.asText then ((e.label? n).bind e.ordinal?).getD n else n

variable {e : EnumType} {n : Sized .i64} {label : String}

theorem read_or_shadowed (h : e.label? n = some label) :
    e.ordinal? label = some n ∨ e.Shadowed n := by
  obtain ⟨v, hfind, rfl⟩ := Option.map_eq_some_iff.1 h
  obtain ⟨hv, before, after, heq, hbefore⟩ := List.find?_eq_some_iff_append.1 hfind
  have hn : v.2 = n := by simpa using hv
  -- the reader stops at the first variant of the label: the ordinal's own, or one before it
  cases hu : before.find? fun u => Text.sameName u.1 v.1 with
  | none =>
    left
    rw [ordinal?, heq, List.find?_append, hu, Option.none_or]
    simp [Text.sameName_refl, hn]
  | some u =>
    have hsame : Text.sameName u.1 v.1 = true := by simpa using List.find?_some hu
    exact .inr ⟨before, v, after, heq, hn, fun u hu => by simpa using hbefore u hu,
      u, List.mem_of_find?_eq_some hu, hsame⟩

theorem Shadowed.read (h : e.Shadowed n) :
    ∃ label m, e.label? n = some label ∧ e.ordinal? label = some m ∧ m ≠ n := by
  obtain ⟨before, v, after, heq, hn, hbefore, u, hu, hsame⟩ := h
  have hlabel : e.label? n = some v.1 := by
    have hnone : before.find? (fun u => u.2 = n) = none :=
      List.find?_eq_none.2 fun u hu => by simpa using hbefore u hu
    rw [label?, heq, List.find?_append, hnone, Option.none_or]
    simp [hn]
  cases hw : before.find? fun w => Text.sameName w.1 v.1 with
  | none => exact absurd hsame (List.find?_eq_none.1 hw u hu)
  | some w =>
    refine ⟨v.1, w.2, hlabel, ?_, hbefore w (List.mem_of_find?_eq_some hw)⟩
    rw [ordinal?, heq, List.find?_append, hw, Option.some_or, Option.map_some]

theorem LabelsDistinct.not_shadowed (h : e.LabelsDistinct) : ¬e.Shadowed n := by
  rintro ⟨before, v, after, heq, -, -, u, hu, hsame⟩
  rw [LabelsDistinct, heq, List.map_append, List.map_cons, List.nodup_append] at h
  exact h.2.2 _ (List.mem_map_of_mem hu) _ (List.mem_cons_self ..) (Text.sameName_iff.1 hsame)

theorem restored_of_label? (htext : e.asText = true) (h : e.label? n = some label) :
    e.ordinal? label = some (e.restored n) := by
  have hread : ∃ m, e.ordinal? label = some m := by
    rcases read_or_shadowed h with hn | hn
    · exact ⟨n, hn⟩
    · obtain ⟨label', m, hlabel, hm, -⟩ := hn.read
      cases hlabel.symm.trans h
      exact ⟨m, hm⟩
  obtain ⟨m, hm⟩ := hread
  rw [restored, if_pos htext, h, Option.bind_some, hm, Option.getD_some]

theorem restored_eq_iff : e.restored n = n ↔ ¬(e.asText = true ∧ e.Shadowed n) := by
  constructor
  · rintro heq ⟨htext, hn⟩
    obtain ⟨label, m, hlabel, hm, hne⟩ := hn.read
    have := hm.symm.trans (restored_of_label? htext hlabel)
    exact hne (Option.some.inj (this.trans (congrArg some heq)))
  · intro hn
    cases htext : e.asText with
    | false => rw [restored, htext, if_neg Bool.false_ne_true]
    | true =>
      -- an ordinal without a label is never stored, and is left as it is
      cases hlabel : e.label? n with
      | none => rw [restored, htext, hlabel, if_pos rfl, Option.bind_none, Option.getD_none]
      | some label =>
        have hread := (read_or_shadowed hlabel).resolve_right fun hs => hn ⟨htext, hs⟩
        exact Option.some.inj ((restored_of_label? htext hlabel).symm.trans hread)

end EnumType

namespace Value

/-- The value to the precision that it is stored with: a date to the second, an instant and a span
to the tick, and an instant as seen from Greenwich. -/
def atPrecision : Value → Value
  | dateTime t => dateTime t.wholeSecond
  | offsetDateTime t => offsetDateTime (.utc t.instant.wholeTick)
  | timeSpan s => timeSpan s.wholeTick
  | v => v

/-- The value that is read where this one is stored. -/
def restored : Value → Value
  | enum e n => enum e (e.restored n)
  | v => v.atPrecision

/-! One lemma for each kind. -/

theorem ofSql_eq {k : Kind} {decode : SqlValue → Except Error Value} (hk : k.decoder? = some decode)
    {x : SqlValue} (hx : x.isNull = false) : ofSql k x = decode x := by
  unfold ofSql
  rw [hx, if_neg Bool.false_ne_true]
  cases k <;> cases hk <;> rfl

theorem ofSql_enum (e : EnumType) {x : SqlValue} (hx : x.isNull = false) :
    ofSql (.enum e) x = Decode.enum e x := by
  unfold ofSql
  rw [hx, if_neg Bool.false_ne_true]

theorem integer_storeInt {w : Width} (name : String) (n : Sized w) :
    Decode.integer name (storeInt n) = .ok n.widen := by
  unfold storeInt
  split <;> rfl

theorem storeInt_isNull {w : Width} (n : Sized w) : (storeInt n).isNull = false := by
  unfold storeInt
  split <;> rfl

theorem ofSql_storeInt {w : Width} (n : Sized w) :
    ofSql (.int w) (storeInt n) = .ok (.int n) := by
  have hback : Sized.ofInt? w n.widen.val = some n := Sized.ofInt?_val n
  rw [ofSql_eq rfl (storeInt_isNull n), Decode.sized, integer_storeInt]
  simp only [bind, Except.bind, hback]

theorem ofSql_bool (b : Bool) {x : SqlValue} (h : (bool b).toSql = .ok x) :
    ofSql .bool x = .ok (bool b) := by
  cases b <;> cases h <;> rfl

theorem ofSql_timeSpan (s : TimeSpan) :
    ofSql .timeSpan (.text s.text) = .ok (timeSpan s.wholeTick) := by
  rw [ofSql_eq rfl rfl, Decode.timeSpan, TimeSpan.text, String.toList_ofList,
    TimeSpan.read?_digits]

theorem ofSql_dateTime (t : DateTime) :
    ofSql .dateTime (.text (String.ofList t.stored)) = .ok (dateTime t.wholeSecond) := by
  rw [ofSql_eq rfl rfl, Decode.dateTime, String.toList_ofList, DateTime.read?_stored]

theorem ofSql_ticks {t : Instant} {n : Sized .i64} (h : Instant.ofTicks? n = some t) :
    ofSql .offsetDateTime (.bigInt n) = .ok (offsetDateTime (.utc t)) := by
  rw [ofSql_eq rfl rfl]
  simp only [Decode.offsetDateTime, Decode.integer, bind, Except.bind, h]

theorem toSql_offsetDateTime {t : OffsetDateTime} {x : SqlValue} :
    (offsetDateTime t).toSql = .ok x ↔ ∃ n, t.instant.ticks? = some n ∧ x = .bigInt n := by
  rw [toSql]
  split
  · next n hn => simp [hn, eq_comm]
  · next hn => simp [hn]

theorem toSql_label {e : EnumType} {n : Sized .i64} {label : String} (htext : e.asText = true)
    (h : e.label? n = some label) : (enum e n).toSql = .ok (.text label) := by
  rw [toSql, storeEnum, htext, if_pos rfl, h]

theorem ofSql_label {e : EnumType} {n : Sized .i64} {label : String}
    (h : e.ordinal? label = some n) : ofSql (.enum e) (.text label) = .ok (enum e n) := by
  rw [ofSql_enum e rfl, Decode.enum, h]
  rfl

theorem ofSql_storeEnum {e : EnumType} {n : Sized .i64} {x : SqlValue}
    (h : storeEnum e n = .ok x) : ofSql (.enum e) x = .ok (enum e (e.restored n)) := by
  unfold storeEnum at h
  split at h
  · next htext =>
    split at h
    · next label hn =>
      cases h
      exact ofSql_label (EnumType.restored_of_label? htext hn)
    · cases h
  · next htext =>
    rw [EnumType.restored, if_neg htext]
    split at h
    · -- stored in 32 bits, and widened again by the reader
      next m hm =>
      cases h
      have hval : m.val = n.val := Sized.ofInt?_eq_some.1 hm
      have hwiden : m.widen = n := Sized.ext_val hval
      rw [ofSql_enum e rfl, ← hwiden]
      rfl
    · cases h
      rfl

/-- What is stored is read back, where ticks are read as the instant that they were counted from. -/
theorem ofSql_stored {v : Value} {k : Kind} {x : SqlValue} (hkind : v.kind? = some k)
    (hreal : k.isReal = false)
    (hticks : ∀ t n, v = .offsetDateTime t → t.instant.ticks? = some n →
      Instant.ofTicks? n = some t.instant.wholeTick)
    (h : v.toSql = .ok x) : ofSql k x = .ok v.restored := by
  cases v <;> cases hkind
  case bool b => exact ofSql_bool b h
  case int w n =>
    cases h
    exact ofSql_storeInt n
  case single => cases hreal
  case double => cases hreal
  case decimal => cases hreal
  case text s =>
    cases h
    rfl
  case timeSpan s =>
    cases h
    exact ofSql_timeSpan s
  case dateTime t =>
    cases h
    exact ofSql_dateTime t
  case offsetDateTime t =>
    obtain ⟨n, hn, rfl⟩ := toSql_offsetDateTime.1 h
    exact ofSql_ticks (hticks t n rfl hn)
  case bytes b =>
    cases h
    rfl
  case guid g =>
    cases h
    exact ofSql_guid g
  case enum e n => exact ofSql_storeEnum h

theorem restored_eq_atPrecision {v : Value} {k : Kind} (hkind : v.kind? = some k)
    (hlabels : ∀ e, k = .enum e → e.asText = true → e.LabelsDistinct) :
    v.restored = v.atPrecision := by
  cases v <;> cases hkind
  case enum e n =>
    have hn : e.restored n = n := EnumType.restored_eq_iff.2 fun ⟨htext, hshadowed⟩ =>
      (hlabels e rfl htext).not_shadowed hshadowed
    exact congrArg (enum e) hn
  all_goals rfl

/-- What is stored is read back to the precision that it is stored with. -/
theorem ofSql_of_toSql {v : Value} {k : Kind} {x : SqlValue} (hkind : v.kind? = some k)
    (hreal : k.isReal = false) (hleap : ∀ t, v = .offsetDateTime t → t.instant.nano < 1000000000)
    (hlabels : ∀ e, k = .enum e → e.asText = true → e.LabelsDistinct) (h : v.toSql = .ok x) :
    ofSql k x = .ok v.atPrecision := by
  -- distinct labels leave the ordinal, so only the precision is lost
  rw [← restored_eq_atPrecision hkind hlabels]
  refine ofSql_stored hkind hreal ?_ h
  intro t n ht hn
  exact Instant.ofTicks?_of_ticks? (hleap t ht) hn

end Value

namespace Samples

theorem status_labelsDistinct : status.LabelsDistinct := by
  unfold EnumType.LabelsDistinct
  decide

/-- A quarter past two in Paris, and somewhat more than a tick. -/
def moment : OffsetDateTime :=
  ⟨⟨1709212500, 123456789, by decide, by decide, by decide⟩, 3600, by decide⟩

/-- An instant goes back to Greenwich and to its tick, and a status comes back from its label. -/
theorem moment_and_status_restored :
    Value.ofSql .offsetDateTime (.bigInt ⟨638448093001234567, by decide⟩) =
        .ok (Value.offsetDateTime moment).atPrecision ∧
      Value.ofSql (.enum status) (.text "Archived") = .ok (.enum status (ordinal 10)) := by
  constructor
  · refine Value.ofSql_of_toSql rfl rfl ?_ (by rintro e ⟨⟩) rfl
    rintro t ⟨⟩
    decide
  · refine Value.ofSql_of_toSql (v := .enum status (ordinal 10)) rfl rfl (by rintro t ⟨⟩) ?_ rfl
    rintro e ⟨⟩ _
    exact status_labelsDistinct

end Samples

/-! From what is read to what is stored. -/

/-- Gives values of one kind only. -/
def Kind.Gives (k : Kind) (r : Except Error Value) : Prop := ∀ v, r = .ok v → v.kind? = some k

namespace Kind.Gives

variable {k : Kind} {α : Type}

theorem ok {v : Value} (h : v.kind? = some k) : k.Gives (.ok v) := by
  rintro _ ⟨⟩
  exact h

theorem error (e : Error) : k.Gives (.error e) := by rintro v ⟨⟩

theorem map {f : α → Value} (h : ∀ a, (f a).kind? = some k) (r : Except Error α) :
    k.Gives (r.map f) := by
  cases r with
  | ok a => exact ok (h a)
  | error e => exact error e

theorem bind {f : α → Except Error Value} (h : ∀ a, k.Gives (f a)) (r : Except Error α) :
    k.Gives (r >>= f) := by
  cases r with
  | ok a => exact h a
  | error e => exact error e

end Kind.Gives

theorem Kind.gives_of_decoder? {k : Kind} {decode : SqlValue → Except Error Value}
    (h : k.decoder? = some decode) (x : SqlValue) : k.Gives (decode x) := by
  have hdecimal (s : String) : Kind.decimal.Gives (Decode.decimalText s) := by
    unfold Decode.decimalText
    split
    · exact .ok rfl
    · exact .error _
  -- every branch of a reader fails or ends in the constructor of its kind
  cases k <;> cases h
  case bool =>
    unfold Decode.bool
    dsimp only
    repeat' split
    all_goals first | exact .ok rfl | exact .map (fun _ => rfl) _
  case int w =>
    refine .bind (fun n => ?_) _
    split
    · exact .ok rfl
    · exact .error _
  case single => exact .map (fun _ => rfl) _
  case double => exact .map (fun _ => rfl) _
  case decimal =>
    unfold Decode.decimal
    split
    · exact hdecimal _
    · exact .ok rfl
    · exact .ok rfl
    · exact .bind (fun _ => hdecimal _) _
  case text =>
    unfold Decode.text
    repeat' split
    all_goals first | exact .ok rfl | exact .error _
  case timeSpan =>
    unfold Decode.timeSpan
    repeat' split
    all_goals first | exact .ok rfl | exact .error _
  case dateTime =>
    unfold Decode.dateTime
    repeat' split
    all_goals first | exact .ok rfl | exact .error _
  case offsetDateTime =>
    refine .bind (fun n => ?_) _
    split
    · exact .ok rfl
    · exact .error _
  case bytes =>
    unfold Decode.bytes
    repeat' split
    all_goals first | exact .ok rfl | exact .error _
  case guid =>
    unfold Decode.guid
    dsimp only
    repeat' split
    all_goals first | exact .ok rfl | exact .error _

namespace Value

theorem gives_enum (e : EnumType) (x : SqlValue) : (Kind.enum e).Gives (Decode.enum e x) := by
  unfold Decode.enum
  repeat' split
  all_goals first | exact .ok rfl | exact .error _ | exact .map (fun _ => rfl) _

theorem kind?_of_ofSql_stored {k : Kind} {raw : SqlValue} {v : Value} (h : ofSql k raw = .ok v)
    (hraw : raw.isNull = false) : v.kind? = some k := by
  unfold ofSql at h
  rw [hraw, if_neg Bool.false_ne_true] at h
  split at h
  · exact gives_enum _ _ v h
  · next hk => exact Kind.gives_of_decoder? hk _ v h
  · cases h

theorem kind?_of_ofSql {k : Kind} {raw : SqlValue} {v : Value} (h : ofSql k raw = .ok v)
    (hnull : v ≠ .null) : v.kind? = some k := by
  cases hraw : raw.isNull with
  | true =>
    unfold ofSql at h
    rw [if_pos hraw] at h
    cases h
    exact absurd rfl hnull
  | false => exact kind?_of_ofSql_stored h hraw

theorem decode_of_ofSql {k : Kind} {decode : SqlValue → Except Error Value}
    (hk : k.decoder? = some decode) {raw : SqlValue} {v : Value} (h : ofSql k raw = .ok v)
    (hnull : v ≠ .null) : decode raw = .ok v := by
  cases hraw : raw.isNull with
  | true =>
    unfold ofSql at h
    rw [if_pos hraw] at h
    cases h
    exact absurd rfl hnull
  | false => rwa [ofSql_eq hk hraw] at h

theorem wholeTick_of_ofSql {raw : SqlValue} {s : TimeSpan}
    (h : ofSql .timeSpan raw = .ok (timeSpan s)) : s.wholeTick = s := by
  have hdecode := decode_of_ofSql rfl h (by rintro ⟨⟩)
  unfold Decode.timeSpan at hdecode
  split at hdecode
  · split at hdecode
    · next hread =>
      cases hdecode
      exact TimeSpan.wholeTick_of_read? hread
    · cases hdecode
  · cases hdecode

theorem ticks_of_ofSql {raw : SqlValue} {t : OffsetDateTime}
    (h : ofSql .offsetDateTime raw = .ok (offsetDateTime t)) :
    ∃ n i, Instant.ofTicks? n = some i ∧ t = .utc i := by
  have hdecode := decode_of_ofSql rfl h (by rintro ⟨⟩)
  obtain ⟨n, -, hn⟩ := except_bind_ok.1 hdecode
  split at hn
  · next i hi =>
    cases hn
    exact ⟨n, i, hi, rfl⟩
  · cases hn

/-- A date with a fraction of a second, or an ordinal that is stored by a label which is read as
another one. -/
def Altered : Value → Prop
  | dateTime t => t.time.nano % 1000000000 ≠ 0
  | enum e n => e.asText = true ∧ e.Shadowed n
  | _ => False

theorem restored_dateTime (t : DateTime) :
    (dateTime t).restored = dateTime t ↔ ¬(dateTime t).Altered := by
  -- of the fields only the nanoseconds are cut
  have hnano : t.wholeSecond = t ↔ t.time.nano / 1000000000 * 1000000000 = t.time.nano :=
    ⟨fun h => congrArg (fun t => t.time.nano) h, fun h => by
      obtain ⟨date, second, nano, _, _⟩ := t
      simp only [DateTime.wholeSecond, TimeOfDay.wholeSecond] at h ⊢
      simp only [h]⟩
  simp only [restored, atPrecision, Altered, dateTime.injEq, hnano]
  omega

theorem restored_enum (e : EnumType) (n : Sized .i64) :
    (enum e n).restored = enum e n ↔ ¬(enum e n).Altered := by
  rw [restored, enum.injEq, eq_self, true_and]
  exact EnumType.restored_eq_iff

theorem restored_of_ofSql {k : Kind} {raw : SqlValue} {v : Value} (h : ofSql k raw = .ok v)
    (hkind : v.kind? = some k) : v.restored = v ↔ ¬v.Altered := by
  cases v <;> cases hkind
  case timeSpan s => simp [restored, atPrecision, Altered, wholeTick_of_ofSql h]
  case dateTime t => exact restored_dateTime t
  case offsetDateTime t =>
    obtain ⟨n, i, hi, rfl⟩ := ticks_of_ofSql h
    simp [restored, atPrecision, Altered, OffsetDateTime.utc, Instant.wholeTick_of_ofTicks? hi]
  case enum e n => exact restored_enum e n
  all_goals simp [restored, atPrecision, Altered]

/-- An ordinal that cannot be stored, because it would be by its label and has none. -/
def Unlabelled (v : Value) : Prop :=
  ∃ e n, v = .enum e n ∧ e.asText = true ∧ e.label? n = none ∧
    v.toSql = .error (.unsupportedType (.ordinal e.name n.val))

theorem unlabelled_or_stored {v : Value}
    (htick : ∀ t, v = .offsetDateTime t → ∃ n, t.instant.ticks? = some n) :
    v.Unlabelled ∨ ∃ x, v.toSql = .ok x := by
  cases v
  case offsetDateTime t =>
    obtain ⟨n, hn⟩ := htick t rfl
    exact .inr ⟨_, toSql_offsetDateTime.2 ⟨n, hn, rfl⟩⟩
  case enum e n =>
    cases htext : e.asText with
    | false =>
      right
      simp only [toSql, storeEnum, htext, Bool.false_eq_true, if_false]
      split <;> exact ⟨_, rfl⟩
    | true =>
      cases hlabel : e.label? n with
      | none => exact .inl ⟨e, n, rfl, htext, hlabel, by simp [toSql, storeEnum, htext, hlabel]⟩
      | some label => exact .inr ⟨.text label, toSql_label htext hlabel⟩
  all_goals exact .inr ⟨_, rfl⟩

end Value

namespace Samples

def leapDay : DateTime := ⟨⟨2024, 2, 29, by decide⟩, ⟨49510, 500000000, by decide, by decide⟩⟩

end Samples

end RowLedger
