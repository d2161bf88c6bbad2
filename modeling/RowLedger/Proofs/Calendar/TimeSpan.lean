import RowLedger.Calendar.TimeSpan
import RowLedger.Proofs.Text.Blank

/-!
A span is read back from its text to the tick. The days end at a point before the first colon, so
the point of the fraction is not taken for theirs.
-/

namespace RowLedger.TimeSpan

open Text

theorem tdiv_hundred (n : Int) :
    n.tdiv 100 = if n < 0 then -((n.natAbs / 100 : Nat) : Int) else (n.natAbs / 100 : Nat) := by
  cases n with
  | ofNat n => rfl
  | negSucc n => rw [if_pos (Int.negSucc_lt_zero n)]; rfl

theorem natAbs_tdiv_mul_le (n : Int) : (n.tdiv 100 * 100).natAbs ≤ n.natAbs := by
  rw [tdiv_hundred]
  split <;> omega

/-- The span without what is finer than a tick, cut toward zero. -/
def wholeTick (s : TimeSpan) : TimeSpan :=
  ⟨s.nanos.tdiv 100 * 100, (natAbs_tdiv_mul_le s.nanos).trans s.bounded⟩

theorem ext_nanos {s t : TimeSpan} (h : s.nanos = t.nanos) : s = t := by
  cases s; cases t; cases h; rfl

theorem make?_eq_some {n : Int} {s : TimeSpan} : make? n = some s ↔ s.nanos = n := by
  unfold make?
  split
  · exact ⟨fun h => by cases h; rfl, fun h => congrArg some (ext_nanos h.symm)⟩
  · next hlarge => exact ⟨nofun, fun h => absurd (h ▸ s.bounded) hlarge⟩

/-! The parts of the text. -/

def dayDigits (days : Nat) : List Char := if days = 0 then [] else natDigits days ++ ['.']

/-- The clock of a time of day in seconds. -/
def clockDigits (seconds : Nat) : List Char :=
  twoDigits (seconds / 3600) ++ ':' :: (twoDigits (seconds % 3600 / 60) ++
    ':' :: twoDigits (seconds % 60))

def tickDigits (ticks : Nat) : List Char :=
  if ticks = 0 then [] else '.' :: padLeft 7 '0' (natDigits ticks)

def unsignedDigits (n : Nat) : List Char :=
  dayDigits (n / 1000000000 / 86400) ++ (clockDigits (n / 1000000000 % 86400) ++
    tickDigits (n % 1000000000 / 100))

theorem digits_eq (s : TimeSpan) :
    s.digits = (if s.nanos < 0 then ['-'] else []) ++ unsignedDigits s.nanos.natAbs := by
  have hhour (n : Nat) : n % 86400 % 3600 = n % 3600 := Nat.mod_mod_of_dvd n (by decide)
  have hminute (n : Nat) : n % 86400 % 60 = n % 60 := Nat.mod_mod_of_dvd n (by decide)
  simp only [digits, unsignedDigits, dayDigits, clockDigits, tickDigits, hhour, hminute,
    List.append_assoc, List.cons_append]

theorem mem_clockDigits {seconds : Nat} {c : Char} (h : c ∈ clockDigits seconds) :
    c.isDigit = true ∨ c = ':' := by
  simp only [clockDigits, List.mem_append, List.mem_cons] at h
  rcases h with h | h | h | h | h
  · exact .inl (allDigits_twoDigits _ c h)
  · exact .inr h
  · exact .inl (allDigits_twoDigits _ c h)
  · exact .inr h
  · exact .inl (allDigits_twoDigits _ c h)

theorem mem_dayDigits {days : Nat} {c : Char} (h : c ∈ dayDigits days) :
    c.isDigit = true ∨ c = '.' := by
  unfold dayDigits at h
  split_ifs at h
  · cases h
  · rcases List.mem_append.1 h with h | h
    · exact .inl (allDigits_natDigits days c h)
    · exact .inr (List.mem_singleton.1 h)

theorem mem_tickDigits {ticks : Nat} {c : Char} (h : c ∈ tickDigits ticks) :
    c.isDigit = true ∨ c = '.' := by
  unfold tickDigits at h
  split_ifs at h
  · cases h
  · rcases List.mem_cons.1 h with h | h
    · exact .inr h
    · exact .inl ((allDigits_natDigits ticks).padLeft 7 c h)

theorem mem_unsignedDigits {n : Nat} {c : Char} (h : c ∈ unsignedDigits n) :
    c.isDigit = true ∨ c = '.' ∨ c = ':' := by
  rcases List.mem_append.1 h with h | h
  · exact (mem_dayDigits h).imp_right .inl
  · rcases List.mem_append.1 h with h | h
    · exact (mem_clockDigits h).imp_right .inr
    · exact (mem_tickDigits h).imp_right .inl

theorem not_isBlank_of_mem_digits {s : TimeSpan} {c : Char} (h : c ∈ s.digits) :
    isBlank c = false := by
  rw [digits_eq] at h
  rcases List.mem_append.1 h with h | h
  · split_ifs at h
    · rw [List.mem_singleton.1 h]
      decide
    · cases h
  · rcases mem_unsignedDigits h with h | rfl | rfl
    · exact not_isBlank_of_isDigit h
    · decide
    · decide

/-! Reading them. -/

theorem ne_of_mem_digits {ds : List Char} (h : AllDigits ds) {c : Char} (hc : c.isDigit = false) :
    ∀ d ∈ ds, (d == c) = false := fun d hd => by
  simpa using ne_of_isDigit (h d hd) hc

theorem map_val_ofInt? {n : Int} (h : Width.i64.Holds n) :
    (Sized.ofInt? .i64 n).map Sized.val = some n := by
  rw [Sized.ofInt?_eq_some.2 (show (⟨n, h⟩ : Sized .i64).val = n from rfl), Option.map_some]

theorem readPart?_of_allDigits {ds : List Char} (h : AllDigits ds) (hne : ds ≠ [])
    (hfits : digitsValue ds ≤ 9223372036854775807) :
    readPart? ds = some (digitsValue ds : Int) := by
  rw [readPart?, readInt?_of_allDigits h hne, Option.bind_some, map_val_ofInt?]
  simp only [Width.Holds, Width.least, Width.greatest]
  omega

theorem readPart?_twoDigits {n : Nat} (h : n < 100) : readPart? (twoDigits n) = some (n : Int) := by
  have hread := readPart?_of_allDigits (allDigits_twoDigits n) (twoDigits_ne_nil n)
  rw [digitsValue_twoDigits] at hread
  exact hread (by omega)

theorem splitDays?_eq_self {before rest cs : List Char}
    (hcolon : splitFirst? (· == ':') cs = some (before, rest))
    (hpoint : splitFirst? (· == '.') before = none) : splitDays? cs = some (0, cs) := by
  simp [splitDays?, hcolon, hpoint]

theorem splitDays?_eq_map {before days hours rest cs : List Char}
    (hcolon : splitFirst? (· == ':') cs = some (before, rest))
    (hpoint : splitFirst? (· == '.') before = some (days, hours)) :
    splitDays? cs = (readPart? days).map fun d => (d, cs.drop (days.length + 1)) := by
  simp [splitDays?, hcolon, hpoint]

theorem splitDays?_dayDigits {days : Nat} (h : days ≤ 9223372036854775807) (seconds : Nat)
    (cs : List Char) :
    splitDays? (dayDigits days ++ (clockDigits seconds ++ cs)) =
      some ((days : Int), clockDigits seconds ++ cs) := by
  have hhours := allDigits_twoDigits (seconds / 3600)
  have hdays := allDigits_natDigits days
  have hcolon := ne_of_mem_digits hhours (c := ':') (by decide)
  have hclock : clockDigits seconds ++ cs = twoDigits (seconds / 3600) ++
      ':' :: (twoDigits (seconds % 3600 / 60) ++ ':' :: twoDigits (seconds % 60) ++ cs) := by
    simp [clockDigits]
  unfold dayDigits
  split_ifs with hzero
  · -- without days no point stands before the first colon
    have hnone := splitFirst?_eq_none (ne_of_mem_digits hhours (c := '.') (by decide))
    rw [List.nil_append, hzero, splitDays?_eq_self (hclock ▸ splitFirst?_append hcolon rfl _) hnone]
    rfl
  · have hbefore : ∀ c ∈ natDigits days ++ '.' :: twoDigits (seconds / 3600),
        (c == ':') = false := by
      intro c hc
      rcases List.mem_append.1 hc with hc | hc
      · exact ne_of_mem_digits hdays (by decide) c hc
      · rcases List.mem_cons.1 hc with rfl | hc
        · decide
        · exact hcolon c hc
    have hpoint := splitFirst?_append (ne_of_mem_digits hdays (c := '.') (by decide))
      (beq_self_eq_true _) (twoDigits (seconds / 3600))
    have hread := readPart?_of_allDigits hdays (natDigits_ne_nil days)
    rw [digitsValue_natDigits] at hread
    have hsplit : natDigits days ++ ['.'] ++ (clockDigits seconds ++ cs) =
        (natDigits days ++ '.' :: twoDigits (seconds / 3600)) ++
          ':' :: (twoDigits (seconds % 3600 / 60) ++ ':' :: twoDigits (seconds % 60) ++ cs) := by
      simp [clockDigits]
    rw [splitDays?_eq_map (hsplit ▸ splitFirst?_append hbefore rfl _) hpoint, hread h,
      Option.map_some, List.drop_left' (by simp)]

theorem readFraction?_padLeft {ticks : Nat} (h : ticks < 10000000) :
    readFraction? (padLeft 7 '0' (natDigits ticks)) = some ticks := by
  have hlen := length_padLeft (length_natDigits_le (k := 7) (by decide) h) '0'
  have hall := List.all_eq_true.2 ((allDigits_natDigits ticks).padLeft 7)
  have hvalue : digitsValue (padLeft 7 '0' (natDigits ticks)) = ticks := by
    rw [digitsValue_padLeft, digitsValue_natDigits]
  rw [readFraction?, hlen, hall]
  simp [padRight, hlen, hvalue]

theorem splitAll_clockDigits (seconds : Nat) : splitAll (· == ':') (clockDigits seconds) =
    [twoDigits (seconds / 3600), twoDigits (seconds % 3600 / 60), twoDigits (seconds % 60)] := by
  have hdigits (n : Nat) := ne_of_mem_digits (allDigits_twoDigits n) (c := ':') (by decide)
  rw [clockDigits, splitAll_append (hdigits _) rfl, splitAll_append (hdigits _) rfl,
    splitAll_eq_singleton (hdigits _)]

theorem totalSeconds?_clock {n : Nat} (h : n ≤ 9223372036854775807) :
    totalSeconds? (n / 86400 : Nat) (n % 86400 / 3600 : Nat) (n % 86400 % 3600 / 60 : Nat)
      (n % 86400 % 60 : Nat) = some (n : Int) := by
  -- no partial sum is greater than the whole one, so that all of them fit
  have hstep (m : Int) (hm : 0 ≤ m ∧ m ≤ n) : (Sized.ofInt? .i64 m).map Sized.val = some m :=
    map_val_ofInt? (by simp only [Width.Holds, Width.least, Width.greatest]; omega)
  simp only [totalSeconds?, Option.bind_eq_bind]
  rw [hstep _ (by omega), Option.bind_some, hstep _ (by omega), Option.bind_some,
    hstep _ (by omega), Option.bind_some, hstep _ (by omega), Option.bind_some,
    hstep _ (by omega), Option.bind_some, hstep _ (by omega)]
  exact congrArg some (by omega)

theorem splitFirst?_tickDigits (seconds ticks : Nat) :
    splitFirst? (· == '.') (clockDigits seconds ++ tickDigits ticks) =
      if ticks = 0 then none
      else some (clockDigits seconds, padLeft 7 '0' (natDigits ticks)) := by
  have hclock : ∀ c ∈ clockDigits seconds, (c == '.') = false := by
    intro c hc
    rcases mem_clockDigits hc with hc | rfl
    · simpa using ne_of_isDigit hc (d := '.') (by decide)
    · decide
  unfold tickDigits
  split_ifs with hzero
  · rw [List.append_nil]
    exact splitFirst?_eq_none hclock
  · exact splitFirst?_append hclock rfl _

/-- A clock without its ticks, and how many there are. -/
def splitTicks? (clock : List Char) : Option (List Char × Nat) :=
  match splitFirst? (· == '.') clock with
  | some (hms, fraction) => (readFraction? fraction).map fun t => (hms, t)
  | none => some (clock, 0)

def readClock? (days : Int) (hms : List Char) (ticks : Nat) : Option TimeSpan := do
  match splitAll (· == ':') hms with
  | [h, m, s] =>
    let total ← totalSeconds? days (← readPart? h) (← readPart? m) (← readPart? s)
    let whole ← make? (total * 1000000000)
    make? (whole.nanos + (ticks * 100 : Nat))
  | _ => none

theorem readUnsigned?_eq (cs : List Char) :
    readUnsigned? cs = (splitDays? cs).bind fun d =>
      (splitTicks? d.2).bind fun c => readClock? d.1 c.1 c.2 := by
  refine congrArg (splitDays? cs).bind (funext fun d => ?_)
  dsimp only
  unfold splitTicks?
  cases splitFirst? (· == '.') d.2 with
  | none => rfl
  | some parts => rfl

theorem splitTicks?_tickDigits (seconds : Nat) {ticks : Nat} (h : ticks < 10000000) :
    splitTicks? (clockDigits seconds ++ tickDigits ticks) = some (clockDigits seconds, ticks) := by
  rw [splitTicks?, splitFirst?_tickDigits]
  split_ifs with hzero
  · simp [hzero, tickDigits]
  · simp [readFraction?_padLeft h]

theorem readClock?_clockDigits {n ticks : Nat} (h : n ≤ 9223372036854775) :
    readClock? (n / 86400 : Nat) (clockDigits (n % 86400)) ticks =
      make? (n * 1000000000 + ticks * 100 : Nat) := by
  have hread (m : Nat) (hm : m < 100) := readPart?_twoDigits hm
  have hwhole : make? ((n : Int) * 1000000000) = some ⟨(n : Int) * 1000000000, by omega⟩ :=
    make?_eq_some.2 rfl
  rw [readClock?, splitAll_clockDigits]
  simp only [Option.bind_eq_bind]
  rw [hread _ (by omega), Option.bind_some, hread _ (by omega), Option.bind_some,
    hread _ (by omega), Option.bind_some, totalSeconds?_clock (by omega), Option.bind_some, hwhole,
    Option.bind_some]
  exact congrArg make? (by dsimp only; omega)

theorem readUnsigned?_unsignedDigits {n : Nat} (h : n ≤ 9223372036854775807 * 1000000) :
    readUnsigned? (unsignedDigits n) = make? (n / 100 * 100 : Nat) := by
  rw [readUnsigned?_eq, unsignedDigits, splitDays?_dayDigits (by omega), Option.bind_some,
    splitTicks?_tickDigits _ (by omega), Option.bind_some]
  dsimp only
  rw [readClock?_clockDigits (by omega)]
  exact congrArg make? (by omega)

/-- A span is read back to the tick. -/
theorem read?_digits (s : TimeSpan) : read? s.digits = some s.wholeTick := by
  have hread := readUnsigned?_unsignedDigits s.bounded
  have hsign : '-' ∉ unsignedDigits s.nanos.natAbs := fun h => by
    have := mem_unsignedDigits h
    revert this
    decide
  rw [read?, trim_of_no_blank fun _ => not_isBlank_of_mem_digits, digits_eq]
  split_ifs with hneg
  · have hsize : s.wholeTick.neg.nanos = (s.nanos.natAbs / 100 * 100 : Nat) := by
      show -(s.nanos.tdiv 100 * 100) = _
      rw [tdiv_hundred, if_pos hneg]
      omega
    rw [make?_eq_some.2 hsize] at hread
    exact Option.map_eq_some_iff.2 ⟨_, hread, ext_nanos (Int.neg_neg _)⟩
  · -- the digits of a span that is not negative are not taken for a sign and more digits
    rw [List.nil_append]
    split
    · next heq => exact absurd (heq ▸ List.mem_cons_self) hsign
    · rw [hread]
      apply make?_eq_some.2
      show s.nanos.tdiv 100 * 100 = _
      rw [tdiv_hundred, if_neg hneg]
      omega

/-! What is read has whole ticks. -/

theorem readClock?_dvd {days : Int} {hms : List Char} {ticks : Nat} {s : TimeSpan}
    (h : readClock? days hms ticks = some s) : 100 ∣ s.nanos := by
  unfold readClock? at h
  split at h
  · simp only [Option.bind_eq_bind, Option.bind_eq_some_iff, make?_eq_some] at h
    obtain ⟨_, _, _, _, _, _, total, _, whole, hwhole, hs⟩ := h
    omega
  · cases h

theorem wholeTick_of_dvd {s : TimeSpan} (h : 100 ∣ s.nanos) : s.wholeTick = s :=
  ext_nanos (Int.tdiv_mul_cancel h)

theorem wholeTick_of_read? {cs : List Char} {s : TimeSpan} (h : read? cs = some s) :
    s.wholeTick = s := by
  have hunsigned {cs : List Char} {s : TimeSpan} (h : readUnsigned? cs = some s) :
      100 ∣ s.nanos := by
    simp only [readUnsigned?_eq, Option.bind_eq_some_iff] at h
    obtain ⟨_, _, _, _, hclock⟩ := h
    exact readClock?_dvd hclock
  apply wholeTick_of_dvd
  unfold read? at h
  split at h
  · obtain ⟨t, ht, rfl⟩ := Option.map_eq_some_iff.1 h
    exact Int.dvd_neg.2 (hunsigned ht)
  · exact hunsigned h

/-- The text of a span is read as the span cut toward zero to the tick. A span that was read from
any text, however that spells it, is read from its own text unchanged. -/
theorem read?_text :
    (∀ s : TimeSpan, read? s.text.toList = some s.wholeTick) ∧
      ∀ (written : String) (s : TimeSpan), read? written.toList = some s →
        read? s.text.toList = some s := by
  have hcut (s : TimeSpan) : read? s.text.toList = some s.wholeTick := by
    rw [text, String.toList_ofList]
    exact read?_digits s
  refine ⟨hcut, ?_⟩
  intro written s hread
  rw [hcut s, wholeTick_of_read? hread]

/-- Two days and a little, backwards. -/
def twoDaysBack : TimeSpan := ⟨-180065500000000, by decide⟩

/-- Hours and minutes may overflow, and the fraction need not be padded. -/
theorem twoDaysBack_restored :
    read? " -1.25:61:+5.5".toList = some twoDaysBack ∧ twoDaysBack.text = "-2.02:01:05.5000000" ∧
      read? twoDaysBack.text.toList = some twoDaysBack := by
  have hread : read? " -1.25:61:+5.5".toList = some twoDaysBack := by decide +kernel
  exact ⟨hread, by decide +kernel, read?_text.2 _ _ hread⟩

end RowLedger.TimeSpan
