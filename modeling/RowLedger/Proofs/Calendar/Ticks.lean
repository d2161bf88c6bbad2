import RowLedger.Proofs.Calendar.Instant

/-!
A count that is read as an instant is counted again. The count is cut into whole seconds and a rest
below a second, and the seconds are counted first; where they alone leave 64 bits there is no count,
although with the rest it would be one of 64 bits.
-/

namespace RowLedger.Instant

/-- The least count that is read: counted from 1970 it is the least number of 64 bits. -/
def leastRead : Int := Width.i64.least + epochTicks

/-- The first count of the least second that is counted. -/
def leastCounted : Int := leastTickSecond * 10000000 + epochTicks

variable {n : Sized .i64} {t : Instant}

/-- The years of an instant reach further than the counts. -/
theorem exists_ofTicks?_iff : (∃ t, ofTicks? n = some t) ↔ leastRead ≤ n.val := by
  constructor
  · intro ⟨t, ht⟩
    have hfits := (ofTicks?_eq_some.1 ht).1.1
    unfold leastRead
    omega
  · intro hread
    have hn := n.fits
    simp only [Width.Holds, Width.least, Width.greatest, leastRead, epochTicks] at hn hread
    let t : Instant :=
      ⟨(n.val - epochTicks) / 10000000, ((n.val - epochTicks) % 10000000 * 100).toNat,
        by unfold leastSecond epochTicks; omega,
        by unfold greatestSecond epochTicks; omega,
        by omega⟩
    refine ⟨t, ofTicks?_eq_some.2 ⟨?_, rfl, ?_⟩⟩
    · simp only [Width.Holds, Width.least, Width.greatest, epochTicks]
      omega
    · show (((n.val - epochTicks) % 10000000 * 100).toNat : Int) = _
      omega

/-- The second of a count tells on which side of the bound it lies. -/
theorem leastTickSecond_le_iff (h : ofTicks? n = some t) :
    leastTickSecond ≤ t.second ↔ leastCounted ≤ n.val := by
  have hsecond := (ofTicks?_eq_some.1 h).2.1
  unfold leastCounted
  omega

/-- Below the bound the seconds alone leave 64 bits. -/
theorem ticks?_eq_none (h : t.second < leastTickSecond) : t.ticks? = none := by
  apply Option.eq_none_iff_forall_ne_some.2
  intro n hn
  have hseconds := (ticks?_eq_some.1 hn).1.1
  simp only [Width.least, leastTickSecond] at hseconds h
  omega

/-- The counts that are read are those from the least one on. Each of them is counted again as it
was, but for those before the first whole second, which have no count any more. -/
theorem ticks?_after_ofTicks? (n : Sized .i64) :
    ((∃ t, ofTicks? n = some t) ↔ leastRead ≤ n.val) ∧
      ∀ t, ofTicks? n = some t → t.ticks? = if leastCounted ≤ n.val then some n else none := by
  refine ⟨exists_ofTicks?_iff, ?_⟩
  intro t ht
  split
  · next hcounted => exact ticks?_of_ofTicks? ht ((leastTickSecond_le_iff ht).2 hcounted)
  · next hcounted =>
    apply ticks?_eq_none
    have := leastTickSecond_le_iff ht
    omega

/-- The least count that is read is lost; the first whole second after it is kept. -/
theorem leastRead_lost :
    (∃ t, ofTicks? ⟨leastRead, by decide⟩ = some t ∧ t.ticks? = none) ∧
      ∃ t, ofTicks? ⟨leastCounted, by decide⟩ = some t ∧
        t.ticks? = some ⟨leastCounted, by decide⟩ := by
  have hread (n : Sized .i64) (h : leastRead ≤ n.val) :
      ∃ t, ofTicks? n = some t ∧ t.ticks? = if leastCounted ≤ n.val then some n else none := by
    obtain ⟨hiff, hagain⟩ := ticks?_after_ofTicks? n
    obtain ⟨t, ht⟩ := hiff.2 h
    exact ⟨t, ht, hagain t ht⟩
  exact ⟨hread ⟨leastRead, by decide⟩ (by decide), hread ⟨leastCounted, by decide⟩ (by decide)⟩

end RowLedger.Instant
