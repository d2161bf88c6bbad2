import RowLedger.Codec
import RowLedger.Proofs.Text.Blank

/-! Identifiers are written in hexadecimal digits, and reading one gives the identifier back. -/

namespace RowLedger

namespace Text

theorem hexValue?_hexDigit : ∀ n < 16, hexValue? (hexDigit n) = some n := by decide

theorem not_isBlank_hexDigit : ∀ n < 16, isBlank (hexDigit n) = false := by decide

theorem length_hexDigits (count n : Nat) : (hexDigits count n).length = count := by
  induction count generalizing n with
  | zero => rfl
  | succ count ih => simp [hexDigits, ih]

theorem not_isBlank_of_mem_hexDigits {count n : Nat} {c : Char} (h : c ∈ hexDigits count n) :
    isBlank c = false := by
  induction count generalizing n with
  | zero => cases h
  | succ count ih =>
    rcases List.mem_append.1 h with h | h
    · exact ih h
    · rw [List.mem_singleton.1 h]
      exact not_isBlank_hexDigit _ (Nat.mod_lt _ (by decide))

theorem readHex?_append (cs : List Char) (c : Char) :
    readHex? (cs ++ [c]) = (readHex? cs).bind fun n => (hexValue? c).map (16 * n + ·) := by
  simp [readHex?, List.foldlM_append]

theorem readHex?_hexDigits (count n : Nat) :
    readHex? (hexDigits count n) = some (n % Nat.pow 16 count) := by
  induction count generalizing n with
  | zero => simp [hexDigits, readHex?, Nat.mod_one]
  | succ count ih =>
    have hlast := hexValue?_hexDigit (n % 16) (Nat.mod_lt _ (by decide))
    have hpow : Nat.pow 16 (count + 1) = 16 * Nat.pow 16 count := Nat.mul_comm _ _
    rw [hexDigits, readHex?_append, ih, hlast, hpow, Nat.mod_mul, Nat.add_comm]
    rfl

end Text

namespace Guid

theorem readGrouped?_hyphenated {a b c d e : List Char} (ha : a.length = 8) (hb : b.length = 4)
    (hc : c.length = 4) (hd : d.length = 4) :
    readGrouped? (a ++ '-' :: b ++ '-' :: c ++ '-' :: d ++ '-' :: e) =
      ofHex? (a ++ b ++ c ++ d ++ e) := by
  match a, b, c, d, ha, hb, hc, hd with
  | [_, _, _, _, _, _, _, _], [_, _, _, _], [_, _, _, _], [_, _, _, _], _, _, _, _ => rfl

theorem mem_digits {g : Guid} {c : Char} (h : c ∈ g.digits) :
    c = '-' ∨ c ∈ Text.hexDigits 32 g.bits.toNat := by
  unfold digits at h
  generalize Text.hexDigits 32 g.bits.toNat = ds at h ⊢
  simp only [List.mem_append, List.mem_cons] at h
  rcases h with (((h | h | h) | h | h) | h | h) | h | h
  all_goals
    first
    | exact .inl h
    | exact .inr (List.mem_of_mem_take h)
    | exact .inr (List.mem_of_mem_drop (List.mem_of_mem_take h))
    | exact .inr (List.mem_of_mem_drop h)

theorem length_digits (g : Guid) : g.digits.length = 36 := by
  simp [digits, Text.length_hexDigits]

theorem read?_digits (g : Guid) : read? g.digits = some g := by
  have hlen := Text.length_hexDigits 32 g.bits.toNat
  have hsplit {ds : List Char} :
      ds.take 8 ++ (ds.drop 8).take 4 ++ (ds.drop 12).take 4 ++ (ds.drop 16).take 4 ++
        ds.drop 20 = ds := by
    simp only [← List.take_add, List.take_append_drop]
  have hread : readGrouped? g.digits = ofHex? (Text.hexDigits 32 g.bits.toNat) := by
    rw [digits, readGrouped?_hyphenated (by simp [hlen]) (by simp [hlen]) (by simp [hlen])
      (by simp [hlen]), hsplit]
  have hbits : g.bits.toNat % Nat.pow 16 32 = g.bits.toNat := Nat.mod_eq_of_lt g.bits.isLt
  have hback : ofHex? (Text.hexDigits 32 g.bits.toNat) = some g := by
    rw [ofHex?, Text.readHex?_hexDigits, hbits, Option.map_some, BitVec.ofNat_toNat,
      BitVec.setWidth_eq]
  simp [read?, length_digits, hread, hback]

theorem text_injective {g h : Guid} (heq : g.text = h.text) : g = h := by
  have hread := congrArg read? (String.ofList_injective heq)
  rw [read?_digits, read?_digits] at hread
  exact Option.some.inj hread

/-- An identifier as databases have it. -/
def stored (g : Guid) : SqlValue := .text g.text

theorem stored_injective : Function.Injective stored := fun _ _ h =>
  text_injective (SqlValue.text.inj h)

end Guid

theorem Value.ofSql_guid (g : Guid) : Value.ofSql .guid g.stored = .ok (.guid g) := by
  have htrim : Text.trim g.digits = g.digits := by
    refine Text.trim_of_no_blank fun c hc => ?_
    rcases Guid.mem_digits hc with rfl | hc
    · decide
    · exact Text.not_isBlank_of_mem_hexDigits hc
  simp [Value.ofSql, SqlValue.isNull, Kind.decoder?, Decode.guid, Guid.stored, Guid.text, htrim,
    Guid.read?_digits]

end RowLedger
