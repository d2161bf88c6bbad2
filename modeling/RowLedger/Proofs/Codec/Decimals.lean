import RowLedger.Codec
import RowLedger.Proofs.Number.Written

/-!
Decimals in a column of doubles: what storing keeps, and what it loses beyond fifteen digits.
-/

namespace RowLedger

namespace Decimal

variable {d : Decimal}

theorem moderate_size (d : Decimal) : Binary.Moderate 1000 d.size := by
  have hm : d.mantissa.natAbs ≤ 2 ^ 99 := d.mantissa_lt.le.trans (by decide)
  have hunit : 10 ^ d.scale ≤ 2 ^ 99 := unit_le d.scale_le
  have hmoderate := (Binary.Moderate.natCast hm).div (Binary.Moderate.natCast hunit)
  rw [Nat.cast_pow, Nat.cast_ofNat] at hmoderate
  exact hmoderate.mono (by decide)

theorem magnitude_toDouble_of_zero (h : d.mantissa = 0) : d.toDouble.magnitude = 0 := by
  have hzero : d.size = 0 := by simp [size, h]
  have hnear := (near_toDouble d).2.1
  rw [hzero] at hnear
  have hle : Binary.size d.toDouble ≤ 0 := not_lt.1 fun hpos => (hnear.symm.pos hpos).false
  exact Binary.size_eq_zero_iff.1 (le_antisymm hle (Binary.size_nonneg _))

/-- The shortest digits of the double are those of the decimal. -/
theorem Short.exists_showSize (h : d.Short) (hs : d.scale ≤ 22) :
    ∃ e : Shortest.Decimal10, Shortest.showSize d.toDouble = Shortest.positional e ∧
      e.value = d.mantissa.natAbs / 10 ^ d.scale := by
  unfold Shortest.showSize
  by_cases hzero : d.mantissa = 0
  · refine ⟨⟨0, 0⟩, ?_, by simp [Shortest.Decimal10.value, hzero]⟩
    rw [if_pos (magnitude_toDouble_of_zero hzero)]
    decide
  · have hn : 0 < d.mantissa.natAbs := Int.natAbs_pos.2 hzero
    have hpos : 0 < d.size := div_pos (by exact_mod_cast hn) (by positivity)
    obtain ⟨hm, htakes⟩ := Shortest.takes_of_rounded (h.rounded hs) d.moderate_size hpos
    have hmagnitude : d.toDouble.magnitude ≠ 0 := fun hmagnitude => by
      rw [Binary.significand_eq_zero_iff.2 hmagnitude] at hm
      omega
    exact ⟨_, if_neg hmagnitude, Shortest.value_select_of_takes hm htakes hn h hs⟩

end Decimal

namespace Decode

variable {d : Decimal}

theorem decimal_real (x : Double) :
    decimal (.real x) = decimalText (Shortest.showDouble x) := by
  simp only [decimal, float, bind, Except.bind]

theorem decimal_toDouble (h : d.Short) (hs : d.scale ≤ 22) :
    ∃ b : Decimal, decimal (.real d.toDouble) = .ok (.decimal b) ∧ b.number = d.number := by
  obtain ⟨hfinite, -, hsign⟩ := d.near_toDouble
  obtain ⟨e, hshow, hvalue⟩ := h.exists_showSize hs
  have htext := Shortest.toList_showDouble hfinite
  rw [hshow] at htext
  obtain ⟨b, hread, hnumber⟩ := Shortest.read?_positional hvalue d.mantissa_lt
    d.scale_le d.toDouble.isNegative
  refine ⟨b, ?_, ?_⟩
  · rw [decimal_real, decimalText, htext,
      Text.trim_of_no_blank fun c => Shortest.not_isBlank_of_mem, hread]
  · rw [hnumber, hsign, d.number_eq]
    simp only [decide_eq_true_eq]
    rfl

end Decode

namespace Value

/-- Every decimal is stored as a finite double. Decimals that are stored alike differ by a small
part of the greater one, and of those with at most fifteen digits only equal numbers are stored
alike; with at most 22 places they are also read back as the same number. -/
theorem toSql_decimal :
    (∀ a : Decimal, ∃ x, toSql (.decimal a) = .ok (.real x) ∧ x.isFinite = true) ∧
      (∀ a b : Decimal, toSql (.decimal a) = toSql (.decimal b) →
        |a.number - b.number| ≤ max |a.number| |b.number| / 2 ^ 47) ∧
      (∀ a b : Decimal, a.Short → b.Short → a.number ≠ b.number →
        toSql (.decimal a) ≠ toSql (.decimal b)) ∧
      ∀ a : Decimal, a.Short → a.scale ≤ 22 →
        ∃ b : Decimal, convert (.decimal a) .decimal = .ok (.decimal b) ∧ b.number = a.number := by
  have hsql (a : Decimal) : toSql (.decimal a) = .ok (.real a.toDouble) := rfl
  have hconvert (a : Decimal) :
      convert (.decimal a) .decimal = Decode.decimal (.real a.toDouble) := by
    simp [convert, isNull, hsql, ofSql, SqlValue.isNull, Kind.decoder?, bind, Except.bind]
  have hinj {a b : Decimal} (h : toSql (.decimal a) = toSql (.decimal b)) :
      a.toDouble = b.toDouble := by
    rw [hsql, hsql] at h
    injection h with h
    injection h
  refine ⟨fun a => ⟨_, hsql a, a.near_toDouble.1⟩, fun a b h => ?_, fun a b ha hb hne h => ?_,
    fun a ha hs => ?_⟩
  · exact Decimal.abs_number_sub_le (hinj h)
  · exact hne (Decimal.number_eq_of_toDouble_eq ha hb (hinj h))
  · rw [hconvert]
    exact Decode.decimal_toDouble ha hs

/-- Sixteen digits are stored without the last one, fifteen come back. -/
theorem toSql_decimal_at_limit :
    let long : Decimal := ⟨9007199254740993, 0, by decide, by decide⟩
    let even : Decimal := ⟨9007199254740992, 0, by decide, by decide⟩
    let short : Decimal := ⟨900719925474099, 15, by decide, by decide⟩
    let next : Decimal := ⟨900719925474098, 15, by decide, by decide⟩
    toSql (.decimal long) = toSql (.decimal even) ∧
      |long.number - even.number| ≤ max |long.number| |even.number| / 2 ^ 47 ∧
      short.Short ∧ next.Short ∧ short.number ≠ next.number ∧
      toSql (.decimal short) ≠ toSql (.decimal next) ∧
      ∃ b : Decimal, convert (.decimal short) .decimal = .ok (.decimal b) ∧
        b.number = short.number := by
  intro long even short next
  obtain ⟨-, hnear, hdistinct, hback⟩ := toSql_decimal
  have hlong : toSql (.decimal long) = toSql (.decimal even) := by decide +kernel
  have hshort : short.Short := by decide
  have hnext : next.Short := by decide
  have hne : short.number ≠ next.number := by norm_num [Decimal.number, short, next]
  exact ⟨hlong, hnear long even hlong, hshort, hnext, hne,
    hdistinct short next hshort hnext hne, hback short hshort (by decide)⟩

/-- Beyond 53 bits two neighbours are stored alike. -/
theorem toSql_decimal_alike :
    ¬∀ a b : Decimal, a.number ≠ b.number → toSql (.decimal a) ≠ toSql (.decimal b) := by
  intro h
  exact h ⟨9007199254740993, 0, by decide, by decide⟩ ⟨9007199254740992, 0, by decide, by decide⟩
    (by norm_num [Decimal.number]) (by decide +kernel)

/-- With 23 places fifteen digits need not come back. -/
example :
    convert (.decimal ⟨35703082795439, 23, by decide, by decide⟩) .decimal =
      .ok (.decimal ⟨35703082795439003, 26, by decide, by decide⟩) := by
  decide +kernel

end Value

end RowLedger
