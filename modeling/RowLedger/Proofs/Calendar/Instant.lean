import RowLedger.Calendar.Instant

/-!
An instant and its tick count are made of each other by one sum, and every step of the sum has to
stay within 64 bits.
-/

namespace RowLedger.Instant

/-- The instant without what is finer than a tick. -/
def wholeTick (t : Instant) : Instant where
  second := t.second
  nano := t.nano / 100 * 100
  second_ge := t.second_ge
  second_le := t.second_le
  nano_lt := by have := t.nano_lt; omega

theorem ext_fields {s t : Instant} (hs : s.second = t.second) (hn : s.nano = t.nano) : s = t := by
  cases s; cases t; cases hs; cases hn; rfl

theorem ticks?_eq_some {t : Instant} {n : Sized .i64} :
    t.ticks? = some n ↔
      Width.i64.Holds (t.second * 10000000) ∧
        Width.i64.Holds (t.second * 10000000 + epochTicks) ∧
        n.val = t.second * 10000000 + epochTicks + (t.nano / 100 : Nat) := by
  simp only [ticks?, Option.bind_eq_bind, Option.bind_eq_some_iff, Sized.ofInt?_eq_some]
  constructor
  · rintro ⟨a, ha, b, hb, hn⟩
    rw [ha] at hb
    rw [hb] at hn
    exact ⟨ha ▸ a.fits, hb ▸ b.fits, hn⟩
  · rintro ⟨ha, hb, hn⟩
    exact ⟨⟨_, ha⟩, rfl, ⟨_, hb⟩, rfl, hn⟩

theorem ofTicks?_eq_some {n : Sized .i64} {t : Instant} :
    ofTicks? n = some t ↔
      Width.i64.Holds (n.val - epochTicks) ∧ t.second = (n.val - epochTicks) / 10000000 ∧
        (t.nano : Int) = (n.val - epochTicks) % 10000000 * 100 := by
  have hticks : 0 ≤ (n.val - epochTicks) % 10000000 * 100 := by omega
  simp only [ofTicks?, Option.bind_eq_some_iff, Sized.ofInt?_eq_some]
  constructor
  · rintro ⟨m, hm, ht⟩
    have hfits : Width.i64.Holds (n.val - epochTicks) := hm ▸ m.fits
    rw [hm, make?] at ht
    split at ht
    · cases ht
      exact ⟨hfits, rfl, Int.toNat_of_nonneg hticks⟩
    · cases ht
  · rintro ⟨hm, hsecond, hnano⟩
    have hnano' : t.nano = ((n.val - epochTicks) % 10000000 * 100).toNat := by omega
    refine ⟨⟨_, hm⟩, rfl, ?_⟩
    rw [← hsecond, ← hnano', make?, dif_pos ⟨t.second_ge, t.second_le, t.nano_lt⟩]

/-- Outside a leap second the count gives the instant back. -/
theorem ofTicks?_of_ticks? {t : Instant} {n : Sized .i64} (hleap : t.nano < 1000000000)
    (h : t.ticks? = some n) : ofTicks? n = some t.wholeTick := by
  obtain ⟨hseconds, hsum, hn⟩ := ticks?_eq_some.1 h
  -- there are fewer ticks than make a second, so second and ticks are quotient and remainder
  apply ofTicks?_eq_some.2
  simp only [Width.Holds, Width.least, Width.greatest, epochTicks, wholeTick] at *
  omega

/-- The least second whose ticks, counted from 1970, are 64 bits. -/
def leastTickSecond : Int := -922337203685

/-- What a count was read as has that count, but for the seconds whose first tick leaves 64 bits. -/
theorem ticks?_of_ofTicks? {n : Sized .i64} {t : Instant} (h : ofTicks? n = some t)
    (hleast : leastTickSecond ≤ t.second) : t.ticks? = some n := by
  obtain ⟨hfits, hsecond, hnano⟩ := ofTicks?_eq_some.1 h
  have := n.fits
  -- the seconds are rounded down, so their ticks may lie below the count and below 64 bits
  apply ticks?_eq_some.2
  simp only [Width.Holds, Width.least, Width.greatest, epochTicks, leastTickSecond] at *
  omega

theorem wholeTick_of_ofTicks? {n : Sized .i64} {t : Instant} (h : ofTicks? n = some t) :
    t.wholeTick = t := by
  have := (ofTicks?_eq_some.1 h).2.2
  apply ext_fields
  · rfl
  · show t.nano / 100 * 100 = t.nano
    omega

end RowLedger.Instant
