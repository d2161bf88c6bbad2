import RowLedger.Calendar.DateTime
import RowLedger.Proofs.Text.Blank

/-!
Dates are read back from the text they are stored as, to the whole second. Each part of the layout
takes exactly the digits that were written for it, because what follows is no digit.
-/

namespace RowLedger

namespace TimeOfDay

/-- The time without what is finer than a second; a leap second stays one. -/
def wholeSecond (t : TimeOfDay) : TimeOfDay where
  second := t.second
  nano := t.nano / 1000000000 * 1000000000
  second_lt := t.second_lt
  nano_lt := by have := t.nano_lt; omega

theorem make?_eq_some {second nano : Nat} {t : TimeOfDay} (hs : t.second = second)
    (hn : t.nano = nano) : make? second nano = some t := by
  subst hs hn
  exact dif_pos ⟨t.second_lt, t.nano_lt⟩

theorem hour_lt (t : TimeOfDay) : t.hour < 24 := by
  have := t.second_lt
  unfold hour
  omega

theorem minute_lt (t : TimeOfDay) : t.minute < 60 := Nat.mod_lt _ (by decide)

theorem shownSecond_le (t : TimeOfDay) : t.shownSecond ≤ 60 := by
  have := t.nano_lt
  unfold shownSecond
  omega

/-- Second 60 is shown in a leap second alone. -/
theorem shownSecond_eq_sixty (t : TimeOfDay) : t.shownSecond = 60 ↔ 1000000000 ≤ t.nano := by
  have := t.nano_lt
  unfold shownSecond
  omega

theorem second_eq (t : TimeOfDay) : t.second = t.hour * 3600 + t.minute * 60 +
    (if t.shownSecond = 60 then 59 else t.shownSecond) := by
  have hnano := t.nano_lt
  have hsixty := t.shownSecond_eq_sixty
  unfold hour minute
  split_ifs with h
  · -- a leap second follows second 59
    have := hsixty.1 h
    omega
  · unfold shownSecond at h ⊢
    omega

theorem wholeSecond_nano (t : TimeOfDay) :
    t.wholeSecond.nano = if t.shownSecond = 60 then 1000000000 else 0 := by
  have hnano := t.nano_lt
  simp only [shownSecond_eq_sixty, wholeSecond]
  split_ifs <;> omega

end TimeOfDay

namespace DateTime

/-- The date without what is finer than a second. -/
def wholeSecond (t : DateTime) : DateTime := ⟨t.date, t.time.wholeSecond⟩

/-- A number ends here. -/
def EndsNumber (rest : List Char) : Prop := ∀ c ∈ rest.head?, c.isDigit = false

theorem endsNumber_cons {c : Char} (h : c.isDigit = false) (rest : List Char) :
    EndsNumber (c :: rest) := by
  rintro d ⟨⟩
  exact h

theorem endsNumber_nil : EndsNumber [] := nofun

open Text

theorem takeNumber?_append {most : Nat} {ds rest : List Char} (hd : AllDigits ds) (hne : ds ≠ [])
    (hlen : ds.length ≤ most) (hrest : EndsNumber rest) :
    takeNumber? most (ds ++ rest) = some (digitsValue ds, rest) := by
  -- the number ends with its own digits, whether the limit or what follows stops it
  have hstop : (rest.take (most - ds.length)).takeWhile Char.isDigit = [] := by
    cases rest with
    | nil => simp
    | cons c rest =>
      cases most - ds.length with
      | zero => rfl
      | succ n => simp [hrest c rfl]
  have hdigits : ((ds ++ rest).take most).takeWhile Char.isDigit = ds := by
    rw [List.take_append, List.take_of_length_le hlen, List.takeWhile_append_of_pos hd, hstop,
      List.append_nil]
  simp [takeNumber?, hdigits, hne]

/-- A number starts with no white space. -/
theorem dropWhile_isBlank_append {ds : List Char} (hd : AllDigits ds) (hne : ds ≠ [])
    (rest : List Char) : (ds ++ rest).dropWhile isBlank = ds ++ rest := by
  cases ds with
  | nil => exact absurd rfl hne
  | cons d ds =>
    exact dropWhile_eq_self fun c hc => by
      cases hc
      exact not_isBlank_of_isDigit (hd d List.mem_cons_self)

theorem takeField?_twoDigits {n : Nat} (hn : n < 100) {rest : List Char} (hrest : EndsNumber rest) :
    takeField? (twoDigits n ++ rest) = some (n, rest) := by
  have hlen := length_twoDigits hn
  rw [takeField?, dropWhile_isBlank_append (allDigits_twoDigits n) (twoDigits_ne_nil n),
    takeNumber?_append (allDigits_twoDigits n) (twoDigits_ne_nil n) hlen.le hrest,
    digitsValue_twoDigits]

/-- At most four digits without a sign are a year. -/
theorem takeYear?_append {ds rest : List Char} (hd : AllDigits ds) (hne : ds ≠ [])
    (hlen : ds.length ≤ 4) (hrest : EndsNumber rest) :
    takeYear? (ds ++ rest) = some ((digitsValue ds : Int), rest) := by
  have hfirst (c : Char) (hc : c.isDigit = false) (r : List Char) : ds ++ rest ≠ c :: r := by
    cases ds with
    | nil => exact absurd rfl hne
    | cons d ds =>
      intro heq
      exact ne_of_isDigit (hd d List.mem_cons_self) hc (List.cons.inj heq).1
  rw [takeYear?, dropWhile_isBlank_append hd hne]
  split
  · next heq => exact absurd heq (hfirst '-' (by decide) _)
  · next heq => exact absurd heq (hfirst '+' (by decide) _)
  · rw [takeNumber?_append hd hne hlen hrest]
    rfl

theorem takeYear?_yearDigits (year : Int) {rest : List Char} (hrest : EndsNumber rest) :
    takeYear? (Date.yearDigits year ++ rest) = some (year, rest) := by
  have hd := (allDigits_natDigits year.natAbs).padLeft 4
  have hne := padLeft_ne_nil (natDigits_ne_nil year.natAbs) 4 '0'
  have hvalue : digitsValue (padLeft 4 '0' (natDigits year.natAbs)) = year.natAbs := by
    rw [digitsValue_padLeft, digitsValue_natDigits]
  have hsigned := takeNumber?_append hd hne
    (by simp : _ ≤ (padLeft 4 '0' (natDigits year.natAbs) ++ rest).length) hrest
  unfold Date.yearDigits
  dsimp only
  split_ifs with hshort hneg
  · have hsmall : year.natAbs < 10000 := by omega
    have hlen := length_padLeft (length_natDigits_le (k := 4) (by decide) hsmall) '0'
    rw [takeYear?_append hd hne hlen.le hrest, hvalue]
    exact congrArg (fun n => some (n, rest)) (by omega)
  · have hminus : isBlank '-' = false := by decide
    simp only [takeYear?, List.cons_append, List.dropWhile_cons, hminus, Bool.false_eq_true,
      if_false, hsigned, hvalue, Option.map_some]
    exact congrArg (fun n => some (n, rest)) (by omega)
  · have hplus : isBlank '+' = false := by decide
    simp only [takeYear?, List.cons_append, List.dropWhile_cons, hplus, Bool.false_eq_true,
      if_false, hsigned, hvalue, Option.map_some]
    exact congrArg (fun n => some (n, rest)) (by omega)

/-- The numbers that the stored form writes. -/
def storedFields (t : DateTime) : Fields where
  year := t.date.year
  month := t.date.month
  day := t.date.day
  hour := t.time.hour
  minute := t.time.minute
  second := t.time.shownSecond

theorem day_lt (d : Date) : d.day < 100 := by
  have h := d.exist.2.2.2.2
  unfold Calendar.monthLength at h
  split_ifs at h <;> omega

theorem takeParts?_cons {p : Part} {f f' : Fields} {cs rest : List Char}
    (h : takePart? p f cs = some (f', rest)) (ps : List Part) :
    takeParts? (p :: ps) f cs = takeParts? ps f' rest := by
  rw [takeParts?, h]
  rfl

theorem takeParts?_mark (c : Char) (ps : List Part) (f : Fields) (rest : List Char) :
    takeParts? (.mark c :: ps) f (c :: rest) = takeParts? ps f rest :=
  takeParts?_cons (by rw [takePart?, if_pos rfl]) ps

theorem takeParts?_clock (t : TimeOfDay) (f : Fields) :
    takeParts? clockParts f t.clockDigits =
      some { f with hour := t.hour, minute := t.minute, second := t.shownSecond } := by
  have hhour := takeField?_twoDigits (n := t.hour) (by have := t.hour_lt; omega)
    (endsNumber_cons (c := ':') (by decide) (twoDigits t.minute ++ ':' :: twoDigits t.shownSecond))
  have hminute := takeField?_twoDigits (n := t.minute) (by have := t.minute_lt; omega)
    (endsNumber_cons (c := ':') (by decide) (twoDigits t.shownSecond))
  have hsecond := takeField?_twoDigits (n := t.shownSecond) (by have := t.shownSecond_le; omega)
    endsNumber_nil
  rw [List.append_nil] at hsecond
  rw [clockParts, TimeOfDay.clockDigits, List.append_assoc, List.cons_append,
    takeParts?_cons (by rw [takePart?, hhour]; rfl), takeParts?_mark,
    takeParts?_cons (by rw [takePart?, hminute]; rfl), takeParts?_mark,
    takeParts?_cons (by rw [takePart?, hsecond]; rfl)]
  rfl

theorem takeParts?_stored (t : DateTime) :
    takeParts? storedLayout {} t.stored = some t.storedFields := by
  have hmonth := takeField?_twoDigits (n := t.date.month) (by have := t.date.exist.2.2.1; omega)
    (endsNumber_cons (c := '/') (by decide)
      (twoDigits t.date.day ++ '/' :: (Date.yearDigits t.date.year ++ ' ' :: t.time.clockDigits)))
  have hday := takeField?_twoDigits (day_lt t.date) (endsNumber_cons (c := '/') (by decide)
    (Date.yearDigits t.date.year ++ ' ' :: t.time.clockDigits))
  have hyear := takeYear?_yearDigits t.date.year
    (endsNumber_cons (c := ' ') (by decide) t.time.clockDigits)
  have hblank : (' ' :: t.time.clockDigits).dropWhile isBlank = t.time.clockDigits := by
    rw [List.dropWhile_cons_of_pos (by decide), TimeOfDay.clockDigits, List.append_assoc,
      dropWhile_isBlank_append (allDigits_twoDigits _) (twoDigits_ne_nil _)]
  rw [storedLayout, stored]
  simp only [List.cons_append, List.nil_append, List.append_assoc]
  rw [takeParts?_cons (by rw [takePart?, hmonth]; rfl), takeParts?_mark,
    takeParts?_cons (by rw [takePart?, hday]; rfl), takeParts?_mark,
    takeParts?_cons (by rw [takePart?, hyear]; rfl),
    takeParts?_cons (by rw [takePart?, hblank]), takeParts?_clock]
  rfl

theorem ofFields?_storedFields (t : DateTime) : ofFields? t.storedFields = some t.wholeSecond := by
  have hhour : ¬23 < t.time.hour := by have := t.time.hour_lt; omega
  have hminute : ¬59 < t.time.minute := by have := t.time.minute_lt; omega
  have hshown : ¬60 < t.time.shownSecond := t.time.shownSecond_le.not_gt
  have hdate : Date.make? t.date.year t.date.month t.date.day = some t.date :=
    dif_pos t.date.exist
  have hsecond : t.time.wholeSecond.second = _ := t.time.second_eq
  have htime := TimeOfDay.make?_eq_some hsecond t.time.wholeSecond_nano
  simp only [ofFields?, storedFields, hhour, hminute, hshown, hdate, decide_false, Bool.or_self,
    Bool.false_eq_true, if_false, Option.bind_eq_bind, Option.bind_some, Nat.zero_add]
  exact Option.bind_eq_some_iff.2 ⟨_, htime, rfl⟩

theorem trim_stored (t : DateTime) : trim t.stored = t.stored := by
  have hends : t.stored = twoDigits t.date.month ++
      ('/' :: twoDigits t.date.day ++ '/' :: Date.yearDigits t.date.year ++
        ' ' :: twoDigits t.time.hour ++ ':' :: twoDigits t.time.minute ++ [':']) ++
      twoDigits t.time.shownSecond := by
    simp [stored, TimeOfDay.clockDigits]
  rw [hends]
  exact trim_between_digits (allDigits_twoDigits _) (twoDigits_ne_nil _) (allDigits_twoDigits _)
    (twoDigits_ne_nil _) _

/-- A stored date is read to the second, by the layout it was written in. -/
theorem read?_stored (t : DateTime) : read? t.stored = some t.wholeSecond := by
  rw [read?, trim_stored, layouts, List.findSome?_cons, takeParts?_stored, Option.bind_some,
    ofFields?_storedFields]

end DateTime

end RowLedger
