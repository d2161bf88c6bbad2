import RowLedger.Proofs.Calendar.DateTime
import RowLedger.Proofs.Calendar.Instant
import RowLedger.Proofs.Calendar.TimeSpan
import RowLedger.Proofs.Text.Order

/-!
Earlier and later, and where the texts that dates and spans are stored as stand in the same order.
Dates are written month first, and a span starts with as many digits as its days need.
-/

namespace RowLedger

open Text

namespace DateTime

/-- One date comes before another, or the same date at an earlier time of day. -/
def Before (s t : DateTime) : Prop :=
  s.date.year < t.date.year ∨ s.date.year = t.date.year ∧
    (s.date.month < t.date.month ∨ s.date.month = t.date.month ∧
      (s.date.day < t.date.day ∨ s.date.day = t.date.day ∧
        (s.time.second < t.time.second ∨
          s.time.second = t.time.second ∧ s.time.nano < t.time.nano)))

/-- The one falls no later in its year, or on the same day of the year. -/
def KeepsOrder (s t : DateTime) : Prop :=
  s.date.month < t.date.month ∨ s.date.month = t.date.month ∧ s.date.day ≤ t.date.day

/-- Whole seconds of the years that are written without a sign. -/
def IsPlain (t : DateTime) : Prop :=
  1 ≤ t.date.year ∧ t.date.year ≤ 9999 ∧ t.time.nano % 1000000000 = 0

theorem clockDigits_lt_iff (s t : TimeOfDay) :
    s.clockDigits < t.clockDigits ↔
      s.hour < t.hour ∨ s.hour = t.hour ∧
        (s.minute < t.minute ∨ s.minute = t.minute ∧ s.shownSecond < t.shownSecond) := by
  have hhour (t : TimeOfDay) : t.hour < 100 := by have := t.hour_lt; omega
  have hminute (t : TimeOfDay) : t.minute < 100 := by have := t.minute_lt; omega
  have hsecond (t : TimeOfDay) : t.shownSecond < 100 := by have := t.shownSecond_le; omega
  simp only [TimeOfDay.clockDigits, List.append_assoc, List.cons_append]
  rw [twoDigits_append_lt_iff (hhour s) (hhour t), List.cons_lt_cons_self,
    twoDigits_append_lt_iff (hminute s) (hminute t), List.cons_lt_cons_self,
    twoDigits_lt_iff (hsecond s) (hsecond t)]

/-- Clocks show whole seconds in their order. -/
theorem clockDigits_lt_of_lt {s t : TimeOfDay} (hs : s.nano % 1000000000 = 0)
    (ht : t.nano % 1000000000 = 0)
    (h : s.second < t.second ∨ s.second = t.second ∧ s.nano < t.nano) :
    s.clockDigits < t.clockDigits := by
  rw [clockDigits_lt_iff]
  have := s.nano_lt
  have := t.nano_lt
  unfold TimeOfDay.hour TimeOfDay.minute TimeOfDay.shownSecond
  omega

theorem stored_lt_iff {s t : DateTime} (hs : s.IsPlain) (ht : t.IsPlain) (h : s.Before t) :
    s.stored < t.stored ↔ s.KeepsOrder t := by
  have hyear {y : Int} (h1 : 1 ≤ y) (h2 : y ≤ 9999) :
      Date.yearDigits y = padLeft 4 '0' (natDigits y.natAbs) ∧ y.natAbs < 10000 := by
    rw [Date.yearDigits, if_pos ⟨by omega, h2⟩]
    exact ⟨rfl, by omega⟩
  have hmonth (d : Date) : d.month < 100 := by have := d.exist.2.2.1; omega
  obtain ⟨hs1, hs2, hsn⟩ := hs
  obtain ⟨ht1, ht2, htn⟩ := ht
  obtain ⟨hsdigits, hssize⟩ := hyear hs1 hs2
  obtain ⟨htdigits, htsize⟩ := hyear ht1 ht2
  simp only [stored, List.append_assoc, List.cons_append, hsdigits, htdigits]
  rw [twoDigits_append_lt_iff (hmonth s.date) (hmonth t.date), List.cons_lt_cons_self,
    twoDigits_append_lt_iff (day_lt s.date) (day_lt t.date), List.cons_lt_cons_self,
    padLeft_append_lt_iff (by decide) hssize htsize, List.cons_lt_cons_self]
  have hclock := clockDigits_lt_of_lt hsn htn
  unfold Before at h
  unfold KeepsOrder
  constructor
  · rintro (hm | ⟨hm, hd | ⟨hd, -⟩⟩)
    · exact .inl hm
    · exact .inr ⟨hm, hd.le⟩
    · exact .inr ⟨hm, hd.le⟩
  · rintro (hm | ⟨hm, hd⟩)
    · exact .inl hm
    · -- on one day of the year, an earlier date is one of an earlier year or has an earlier clock
      rcases hd.lt_or_eq with hd | hd
      · exact .inr ⟨hm, .inl hd⟩
      · refine .inr ⟨hm, .inr ⟨hd, ?_⟩⟩
        rcases h with hy | ⟨hy, h⟩
        · exact .inl (by omega)
        · exact .inr ⟨congrArg Int.natAbs hy, hclock (by omega)⟩

end DateTime

/-! Spans. -/

namespace TimeSpan

/-- The text of a span in nanoseconds up to its first mark: the days and a point, or else the hours
and a colon. -/
def lead (n : Nat) : List Char :=
  if n / 1000000000 / 86400 = 0 then twoDigits (n / 1000000000 % 86400 / 3600) ++ [':']
  else natDigits (n / 1000000000 / 86400) ++ ['.']

/-- A negative span before one that is not, two spans of one sign if their texts up to the first
mark stand in their order. -/
def KeepsOrder (s t : TimeSpan) : Prop :=
  if t.nanos < 0 then lead s.nanos.natAbs < lead t.nanos.natAbs
  else s.nanos < 0 ∨ ¬lead t.nanos.natAbs < lead s.nanos.natAbs

theorem tickDigits_lt_iff {a b : Nat} (ha : a < 10000000) (hb : b < 10000000) :
    tickDigits a < tickDigits b ↔ a < b := by
  have hpad : padLeft 7 '0' (natDigits a) < padLeft 7 '0' (natDigits b) ↔ a < b :=
    padLeft_lt_iff (by decide) ha hb
  unfold tickDigits
  split_ifs with h1 h2 h2
  · simp [h1, h2]
  · simp [h1, Nat.pos_of_ne_zero h2]
  · simp [h2]
  · rw [List.cons_lt_cons_self, hpad]

theorem clock_lt_iff {s t a b : Nat} (hs : s < 86400) (ht : t < 86400) (ha : a < 10000000)
    (hb : b < 10000000) :
    clockDigits s ++ tickDigits a < clockDigits t ++ tickDigits b ↔ s < t ∨ s = t ∧ a < b := by
  simp only [clockDigits, List.append_assoc, List.cons_append]
  rw [twoDigits_append_lt_iff (by omega) (by omega), List.cons_lt_cons_self,
    twoDigits_append_lt_iff (by omega) (by omega), List.cons_lt_cons_self,
    twoDigits_append_lt_iff (by omega) (by omega), tickDigits_lt_iff ha hb]
  omega

/-- The lead is a number and its mark. -/
theorem exists_lead (n : Nat) : ∃ ds c r, AllDigits ds ∧ c.isDigit = false ∧
    lead n = ds ++ [c] ∧ unsignedDigits n = ds ++ c :: r := by
  unfold lead unsignedDigits dayDigits
  split_ifs
  · refine ⟨twoDigits _, ':', twoDigits (n / 1000000000 % 86400 % 3600 / 60) ++
      ':' :: (twoDigits (n / 1000000000 % 86400 % 60) ++ tickDigits (n % 1000000000 / 100)),
      allDigits_twoDigits _, by decide, rfl, ?_⟩
    simp only [clockDigits, List.nil_append, List.append_assoc, List.cons_append]
  · refine ⟨natDigits _, '.', clockDigits (n / 1000000000 % 86400) ++
      tickDigits (n % 1000000000 / 100), allDigits_natDigits _, by decide, rfl, ?_⟩
    rw [List.append_assoc, List.singleton_append]

theorem lead_ne {m n : Nat} (h : m / 1000000000 / 86400 < n / 1000000000 / 86400) :
    lead m ≠ lead n := by
  have hn : n / 1000000000 / 86400 ≠ 0 := by omega
  unfold lead
  rw [if_neg hn]
  split_ifs
  · -- hours end in a colon, days in a point
    intro heq
    have := congrArg List.getLast? heq
    simp at this
  · intro heq
    exact h.ne (natDigits_injective (List.append_cancel_right heq))

/-- Of two lengths in ticks the shorter has the text that stands first, unless the leads are against
it. -/
theorem unsignedDigits_ordered {m n : Nat} (hm : 100 ∣ m) (hn : 100 ∣ n) (h : m < n) :
    unsignedDigits m < unsignedDigits n ∧ ¬lead n < lead m ∨
      unsignedDigits n < unsignedDigits m ∧ lead n < lead m := by
  by_cases hdays : m / 1000000000 / 86400 = n / 1000000000 / 86400
  · -- after equal days the clocks decide, and the leads show no more than the hours
    left
    have hclock := (clock_lt_iff (s := m / 1000000000 % 86400) (t := n / 1000000000 % 86400)
      (a := m % 1000000000 / 100) (b := n % 1000000000 / 100) (by omega) (by omega) (by omega)
      (by omega)).2 (by omega)
    constructor
    · rw [unsignedDigits, unsignedDigits, hdays]
      exact List.append_left_lt hclock
    · unfold lead
      rw [hdays]
      split_ifs
      · rw [twoDigits_append_lt_iff (by omega) (by omega)]
        rintro (hhour | ⟨-, hcolon⟩)
        · omega
        · exact List.lt_irrefl _ hcolon
      · exact List.lt_irrefl _
  · -- other days are another lead, and nothing after the leads counts
    have hne := lead_ne (m := m) (n := n) (by omega)
    obtain ⟨ds, c, r, hd, hc, hlead, hdigits⟩ := exists_lead m
    obtain ⟨es, d, r', he, hd', hlead', hdigits'⟩ := exists_lead n
    rw [hlead, hlead'] at hne ⊢
    rw [hdigits, hdigits', mark_append_lt_iff hd he hc hd' hne r r',
      mark_append_lt_iff he hd hd' hc hne.symm r' r]
    by_cases hlt : es ++ [d] < ds ++ [c]
    · exact .inr ⟨hlt, hlt⟩
    · exact .inl ⟨Classical.byContradiction fun hge => hne (List.le_antisymm hlt hge), hlt⟩

/-- The sign stands before every digit. -/
theorem minus_lt_unsignedDigits (cs : List Char) (n : Nat) : '-' :: cs < unsignedDigits n := by
  cases hdigits : unsignedDigits n with
  | nil =>
    obtain ⟨ds, c, r, -, -, -, heq⟩ := exists_lead n
    rw [hdigits] at heq
    simp at heq
  | cons c r =>
    have hc : '-' < c := by
      rcases mem_unsignedDigits (hdigits ▸ List.mem_cons_self : c ∈ unsignedDigits n) with
        hc | rfl | rfl
      · have hlo := (toNat_of_isDigit hc).1
        show 45 < c.toNat
        omega
      · decide
      · decide
    exact List.cons_lt_cons_iff.2 (.inl hc)

theorem digits_lt_iff {s t : TimeSpan} (hs : 100 ∣ s.nanos) (ht : 100 ∣ t.nanos)
    (h : s.nanos < t.nanos) : s.digits < t.digits ↔ s.KeepsOrder t := by
  have hs' : 100 ∣ s.nanos.natAbs := by omega
  have ht' : 100 ∣ t.nanos.natAbs := by omega
  rw [digits_eq, digits_eq, KeepsOrder]
  by_cases htneg : t.nanos < 0
  · -- of two negative spans the earlier one is the longer
    have hsneg : s.nanos < 0 := by omega
    rw [if_pos htneg, if_pos htneg, if_pos hsneg]
    simp only [List.singleton_append, List.cons_lt_cons_self]
    rcases unsignedDigits_ordered ht' hs' (by omega) with ⟨hdigits, hlead⟩ | ⟨hdigits, hlead⟩
    · exact iff_of_false (List.lt_asymm hdigits) hlead
    · exact iff_of_true hdigits hlead
  · rw [if_neg htneg, if_neg htneg, List.nil_append]
    by_cases hsneg : s.nanos < 0
    · rw [if_pos hsneg]
      exact iff_of_true (minus_lt_unsignedDigits _ _) (.inl hsneg)
    · rw [if_neg hsneg, List.nil_append]
      rcases unsignedDigits_ordered hs' ht' (by omega) with ⟨hdigits, hlead⟩ | ⟨hdigits, hlead⟩
      · exact iff_of_true hdigits (.inr hlead)
      · exact iff_of_false (List.lt_asymm hdigits) fun hkeeps =>
          hkeeps.elim hsneg fun hnot => hnot hlead

end TimeSpan

/-! Instants. -/

namespace Instant

def Before (s t : Instant) : Prop :=
  s.second < t.second ∨ s.second = t.second ∧ s.nano < t.nano

/-- The ticks from 1970 on. -/
def tick (t : Instant) : Int := t.second * 10000000 + (t.nano / 100 : Nat)

theorem ticks_lt_iff {s t : Instant} {m n : Sized .i64} (hm : s.ticks? = some m)
    (hn : t.ticks? = some n) : m.val < n.val ↔ s.tick < t.tick := by
  have hm' := (ticks?_eq_some.1 hm).2.2
  have hn' := (ticks?_eq_some.1 hn).2.2
  unfold tick
  omega

end Instant

end RowLedger
