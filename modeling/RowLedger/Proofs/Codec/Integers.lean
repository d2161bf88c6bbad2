import RowLedger.Codec
import RowLedger.Proofs.Number.Value
import RowLedger.Proofs.Text.Blank

/-!
Which stored values are read as integers: those that denote a whole number of the width, and real
numbers outside 64 bits, which the widest kind takes for its end.
-/

namespace RowLedger

/-- The whole number that a stored value denotes. -/
inductive SqlValue.Denotes : SqlValue → Int → Prop
  | int (n : Sized .i32) : Denotes (.int n) n.val
  | bigInt (n : Sized .i64) : Denotes (.bigInt n) n.val
  | real {x : Double} {n : Int} (hfinite : x.isFinite = true) (hnumber : x.number = n) :
    Denotes (.real x) n
  | text {s : String} {before numeral after : List Char} {n : Int}
    (hs : s.toList = before ++ numeral ++ after) (hbefore : ∀ c ∈ before, Text.isBlank c = true)
    (hafter : ∀ c ∈ after, Text.isBlank c = true) (hnumeral : Text.Numeral numeral n) :
    Denotes (.text s) n

theorem Sized.clamp_val {w : Width} {n : Int} (h : w.Holds n) : (clamp w n).val = n := by
  simp only [Width.Holds, clamp] at *
  omega

namespace Decode

open SqlValue (Denotes)

variable {w : Width} {name : String} {n : Int}

theorem denotes_real_iff {x : Double} : Denotes (.real x) n ↔ x.toInt? = some n := by
  rw [Binary.toInt?_eq_some_iff]
  constructor
  · intro h
    cases h with
    | real hfinite hnumber => exact ⟨hfinite, hnumber⟩
  · exact fun h => .real h.1 h.2

/-- The signs are no blanks, and neither are the digits. -/
theorem not_isBlank_of_numeral {cs : List Char} (h : Text.Numeral cs n) :
    ∀ c ∈ cs, Text.isBlank c = false := by
  intro c hc
  rcases h.mem hc with hdigit | rfl | rfl
  · exact Text.not_isBlank_of_isDigit hdigit
  · decide
  · decide

theorem denotes_text_iff {s : String} :
    Denotes (.text s) n ↔ Text.readInt? (Text.trim s.toList) = some n := by
  rw [Text.readInt?_eq_some_iff]
  constructor
  · intro h
    cases h with
    | text hs hbefore hafter hnumeral =>
      rwa [hs, Text.trim_blanks_around hbefore hafter (not_isBlank_of_numeral hnumeral)
        hnumeral.ne_nil]
  · intro h
    obtain ⟨before, after, hbefore, hafter, hs⟩ := Text.exists_blanks_around s.toList
    exact .text hs hbefore hafter h

theorem denotes_int_iff {k : Sized .i32} : Denotes (.int k) n ↔ k.val = n := by
  constructor
  · intro h
    cases h with
    | int => rfl
  · rintro rfl
    exact .int k

theorem denotes_bigInt_iff {k : Sized .i64} : Denotes (.bigInt k) n ↔ k.val = n := by
  constructor
  · intro h
    cases h with
    | bigInt => rfl
  · rintro rfl
    exact .bigInt k

/-- A real number outside 64 bits, with the end of the range that is nearest to it. -/
def Saturates (raw : SqlValue) (m : Sized .i64) : Prop :=
  ∃ x n, raw = .real x ∧ raw.Denotes n ∧ ¬Width.i64.Holds n ∧ m = Sized.clamp .i64 n

theorem saturates_real_iff {x : Double} {m : Sized .i64} :
    Saturates (.real x) m ↔
      ∃ n, x.toInt? = some n ∧ ¬Width.i64.Holds n ∧ m = Sized.clamp .i64 n := by
  constructor
  · rintro ⟨_, n, -, hn, hout, hm⟩
    exact ⟨n, denotes_real_iff.1 hn, hout, hm⟩
  · rintro ⟨n, hn, hout, hm⟩
    exact ⟨x, n, rfl, denotes_real_iff.2 hn, hout, hm⟩

/-- A number of 64 bits is read from what denotes it; beyond them only real numbers are read. -/
theorem integer_eq_ok_iff {raw : SqlValue} {m : Sized .i64} :
    integer name raw = .ok m ↔ raw.Denotes m.val ∨ Saturates raw m := by
  have hother (h : ∀ x, raw ≠ .real x) : ¬Saturates raw m := by
    rintro ⟨x, n, rfl, -⟩
    exact h x rfl
  cases raw with
  | null => simpa [integer] using ⟨nofun, hother nofun⟩
  | blob b => simpa [integer] using ⟨nofun, hother nofun⟩
  | int k =>
    rw [denotes_int_iff, or_iff_left (hother nofun)]
    simp only [integer, Except.ok.injEq]
    exact ⟨fun h => h ▸ rfl, fun h => Sized.ext_val h⟩
  | bigInt k =>
    rw [denotes_bigInt_iff, or_iff_left (hother nofun)]
    simp only [integer, Except.ok.injEq]
    exact ⟨fun h => h ▸ rfl, fun h => Sized.ext_val h⟩
  | text s =>
    rw [denotes_text_iff, or_iff_left (hother nofun)]
    cases hread : Text.readInt? (Text.trim s.toList) with
    | none => simp [integer, integerText?, hread]
    | some n =>
      simp only [integer, integerText?, hread, Option.bind_some, Option.some.injEq]
      rw [eq_comm (a := n), ← Sized.ofInt?_eq_some]
      cases Sized.ofInt? .i64 n <;> simp
  | real x =>
    rw [denotes_real_iff, saturates_real_iff]
    cases hread : x.toInt? with
    | none => simp [integer, hread]
    | some n =>
      simp only [integer, hread, Except.ok.injEq, Option.some.injEq, exists_eq_left']
      constructor
      · rintro rfl
        by_cases hn : Width.i64.Holds n
        · exact .inl (Sized.clamp_val hn).symm
        · exact .inr ⟨hn, rfl⟩
      · rintro (rfl | ⟨-, rfl⟩)
        · exact Sized.ext_val (Sized.clamp_val m.fits)
        · rfl

theorem integer_error {raw : SqlValue} {e : Error} (h : integer name raw = .error e) :
    ∃ fault, e = .unreadable name fault := by
  unfold integer at h
  split at h
  case h_3 | h_4 => split at h <;> cases h; exact ⟨_, rfl⟩
  all_goals cases h
  exact ⟨_, rfl⟩

/-- An end of 64 bits fits in no other width. -/
theorem eq_i64_of_saturates {raw : SqlValue} {m : Sized .i64} (h : Saturates raw m)
    (hm : w.Holds m.val) : w = .i64 := by
  obtain ⟨x, n, -, -, hn, rfl⟩ := h
  cases w <;> simp_all [Width.Holds, Width.least, Width.greatest, Sized.clamp] <;> omega

theorem sized_eq_ok_iff {raw : SqlValue} {v : Value} :
    sized w raw = .ok v ↔
      ∃ m n, integer w.name raw = .ok m ∧ Sized.ofInt? w m.val = some n ∧ v = .int n := by
  unfold sized
  cases integer w.name raw with
  | error e => simp [bind, Except.bind]
  | ok m =>
    simp only [bind, Except.bind, Except.ok.injEq]
    cases hn : Sized.ofInt? w m.val with
    | none => simp [hn]
    | some n => simp [hn, eq_comm]

theorem sized_error {raw : SqlValue} {e : Error} (h : sized w raw = .error e) :
    ∃ fault, e = .unreadable w.name fault := by
  unfold sized at h
  match hinteger : integer w.name raw with
  | .error e' =>
    rw [hinteger] at h
    cases h
    exact integer_error hinteger
  | .ok m =>
    rw [hinteger] at h
    simp only [bind, Except.bind] at h
    split at h <;> cases h
    exact ⟨_, rfl⟩

end Decode

namespace Value

variable {w : Width} {raw : SqlValue}

/-- An integer is read from the stored values that denote it, and from nothing else, with one
exception: the widest kind reads a real number outside 64 bits as the nearest end. Whatever is not
read is refused in the name of the kind. -/
theorem ofSql_int (w : Width) (raw : SqlValue) (hraw : raw.isNull = false) :
    (∀ v, ofSql (.int w) raw = .ok v ↔
      (∃ n : Sized w, raw.Denotes n.val ∧ v = .int n) ∨
        w = .i64 ∧ ∃ x n, raw = .real x ∧ raw.Denotes n ∧ ¬w.Holds n ∧ v = .int (Sized.clamp w n)) ∧
      ∀ e, ofSql (.int w) raw = .error e → ∃ fault, e = .unreadable w.name fault := by
  have hsql : ofSql (.int w) raw = Decode.sized w raw := by
    simp [ofSql, hraw, Kind.decoder?]
  rw [hsql]
  refine ⟨fun v => ?_, fun e he => ?_⟩
  · rw [Decode.sized_eq_ok_iff]
    constructor
    · rintro ⟨m, n, hread, hn, rfl⟩
      have hval := Sized.ofInt?_eq_some.1 hn
      rcases Decode.integer_eq_ok_iff.1 hread with hm | hm
      · exact .inl ⟨n, hval ▸ hm, rfl⟩
      · obtain rfl := Decode.eq_i64_of_saturates hm (hval ▸ n.fits)
        obtain ⟨x, k, hx, hk, hout, rfl⟩ := hm
        exact .inr ⟨rfl, x, k, hx, hk, hout, by rw [Sized.ext_val hval]⟩
    · rintro (⟨n, hn, rfl⟩ | ⟨rfl, x, n, hx, hn, hout, rfl⟩)
      · exact ⟨n.widen, n, Decode.integer_eq_ok_iff.2 (.inl hn), Sized.ofInt?_val n, rfl⟩
      · exact ⟨_, _, Decode.integer_eq_ok_iff.2 (.inr ⟨x, n, hx, hn, hout, rfl⟩),
          Sized.ofInt?_val _, rfl⟩
  · exact Decode.sized_error he

/-- Two to the 63rd needs one bit more, and is read as the greatest number of 64 bits. -/
theorem ofSql_int_beyond :
    let raw : SqlValue := .real ⟨0x43e0000000000000⟩
    raw.isNull = false ∧ raw.Denotes (2 ^ 63) ∧ ¬Width.i64.Holds (2 ^ 63) ∧
      ofSql (.int .i64) raw = .ok (.int (w := .i64) ⟨2 ^ 63 - 1, by decide⟩) := by
  intro raw
  have hraw : raw.Denotes (2 ^ 63) := Decode.denotes_real_iff.2 (by decide +kernel)
  have hout : ¬Width.i64.Holds (2 ^ 63) := by decide
  refine ⟨rfl, hraw, hout, ((ofSql_int .i64 raw rfl).1 _).2 (.inr ⟨rfl, _, _, rfl, hraw, hout, ?_⟩)⟩
  exact congrArg Value.int (Sized.ext_val (by decide))

end Value

end RowLedger
