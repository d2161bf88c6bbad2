/-! Integers of a fixed width: the number together with the proof that it fits. -/

namespace RowLedger

/-- The widths in which integers are declared. -/
inductive Width
  | i8 | i16 | i32 | i64 | u8 | u16 | u32
  deriving DecidableEq, Repr

namespace Width

def least : Width → Int
  | i8 => -128
  | i16 => -32768
  | i32 => -2147483648
  | i64 => -9223372036854775808
  | u8 | u16 | u32 => 0

def greatest : Width → Int
  | i8 => 127
  | i16 => 32767
  | i32 => 2147483647
  | i64 => 9223372036854775807
  | u8 => 255
  | u16 => 65535
  | u32 => 4294967295

def Holds (w : Width) (n : Int) : Prop := w.least ≤ n ∧ n ≤ w.greatest

instance (w : Width) (n : Int) : Decidable (w.Holds n) := inferInstanceAs (Decidable (_ ∧ _))

theorem least_nonpos (w : Width) : w.least ≤ 0 := by cases w <;> decide

theorem greatest_nonneg (w : Width) : 0 ≤ w.greatest := by cases w <;> decide

theorem holds_zero (w : Width) : w.Holds 0 := ⟨w.least_nonpos, w.greatest_nonneg⟩

/-- Every width fits in the widest one. -/
theorem Holds.widen {w : Width} {n : Int} (h : w.Holds n) : i64.Holds n := by
  cases w <;> simp [Holds, least, greatest] at * <;> omega

/-- All widths but `i64` and `u32` fit in `i32`. -/
def isNarrow : Width → Bool
  | i64 | u32 => false
  | _ => true

theorem Holds.narrow {w : Width} {n : Int} (h : w.Holds n) (hw : w.isNarrow = true) :
    i32.Holds n := by
  cases w <;> simp [Holds, least, greatest, isNarrow] at * <;> omega

end Width

/-- An integer that fits in its width. -/
structure Sized (w : Width) where
  val : Int
  fits : w.Holds val
  deriving DecidableEq

namespace Sized

theorem ext_val {w : Width} {a b : Sized w} (h : a.val = b.val) : a = b := by
  cases a; cases b; cases h; rfl

def ofInt? (w : Width) (n : Int) : Option (Sized w) :=
  if h : w.Holds n then some ⟨n, h⟩ else none

theorem ofInt?_eq_some {w : Width} {n : Int} {a : Sized w} : ofInt? w n = some a ↔ a.val = n := by
  unfold ofInt?
  split
  · exact ⟨fun h => by cases h; rfl, fun h => by cases a; cases h; rfl⟩
  · rename_i h
    exact ⟨fun h' => by simp at h', fun h' => absurd (h' ▸ a.fits) h⟩

@[simp] theorem ofInt?_val {w : Width} (a : Sized w) : ofInt? w a.val = some a :=
  ofInt?_eq_some.2 rfl

/-- The nearest integer that fits. -/
def clamp (w : Width) (n : Int) : Sized w :=
  ⟨max w.least (min n w.greatest), by
    have := w.least_nonpos
    have := w.greatest_nonneg
    simp only [Width.Holds]
    omega⟩

def zero (w : Width) : Sized w := ⟨0, w.holds_zero⟩

instance (w : Width) : Inhabited (Sized w) := ⟨zero w⟩

def widen {w : Width} (a : Sized w) : Sized .i64 := ⟨a.val, a.fits.widen⟩

end Sized

end RowLedger
