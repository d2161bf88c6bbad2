import RowLedger.Text.Delimited

/-!
Reading back what stands between delimiters, alone or in a list. It ends at the first closing
delimiter that is not written twice, whatever is between.
-/

namespace RowLedger.Text

theorem doubling_cons (close c : Char) (cs : List Char) :
    doubling close (c :: cs) = (if c = close then [close, close] else [c]) ++ doubling close cs :=
  rfl

/-- What is written between delimiters is read back. -/
theorem readDoubled?_doubling {close : Char} {rest : List Char} (cs : List Char)
    (h : rest.head? ≠ some close) :
    readDoubled? close (doubling close cs ++ close :: rest) = some (cs, rest) := by
  induction cs with
  | nil =>
    cases rest with
    | nil => simp [doubling, readDoubled?]
    | cons d rest =>
      have hd : d ≠ close := by simpa using h
      simp [doubling, readDoubled?, hd]
  | cons c cs ih =>
    by_cases hc : c = close
    · subst hc
      simp [doubling_cons, readDoubled?, ih]
    · obtain ⟨d, ds, hd⟩ : ∃ d ds, doubling close cs ++ close :: rest = d :: ds :=
        List.exists_cons_of_ne_nil (by simp)
      rw [doubling_cons, if_neg hc, List.singleton_append, List.cons_append, hd, readDoubled?,
        if_neg hc, ← hd, ih]
      rfl

/-- The text between delimiters at the front, and what comes after it. -/
def readDelimited? (opening close : Char) : List Char → Option (String × List Char)
  | [] => none
  | c :: cs =>
    if c = opening then (readDoubled? close cs).map fun p => (String.ofList p.1, p.2) else none

variable {opening close : Char}

theorem readDelimited?_length {cs rest : List Char} {s : String}
    (h : readDelimited? opening close cs = some (s, rest)) : rest.length < cs.length := by
  cases cs with
  | nil => cases h
  | cons c cs =>
    rw [readDelimited?] at h
    split at h
    · obtain ⟨⟨t, r⟩, hread, h⟩ := Option.map_eq_some_iff.1 h
      cases h
      exact Nat.lt_succ_of_lt (readDoubled?_length hread)
    · cases h

theorem readDelimited?_delimitedChars {rest : List Char} (s : String)
    (h : rest.head? ≠ some close) :
    readDelimited? opening close (delimitedChars opening close s ++ rest) = some (s, rest) := by
  have hchars : delimitedChars opening close s ++ rest =
      opening :: (doubling close s.toList ++ close :: rest) := by
    simp [delimitedChars]
  rw [hchars, readDelimited?, if_pos rfl, readDoubled?_doubling _ h]
  simp

/-- One or more texts between delimiters, with a comma between neighbours. -/
def readSome? (opening close : Char) (cs : List Char) : Option (List String) :=
  match _h : readDelimited? opening close cs with
  | none => none
  | some (s, []) => some [s]
  | some (s, c :: rest) => if c = ',' then (readSome? opening close rest).map (s :: ·) else none
termination_by cs.length
decreasing_by
  have := readDelimited?_length _h
  rw [List.length_cons] at this
  omega

/-- A list of texts between delimiters; there are none in an empty text. -/
def readList? (opening close : Char) (cs : List Char) : Option (List String) :=
  if cs = [] then some [] else readSome? opening close cs

/-- Texts between delimiters, with a comma between neighbours. -/
def delimitedList (opening close : Char) : List String → List Char
  | [] => []
  | [s] => delimitedChars opening close s
  | s :: t :: rest =>
    delimitedChars opening close s ++ ',' :: delimitedList opening close (t :: rest)

theorem readSome?_last {cs : List Char} {s : String}
    (h : readDelimited? opening close cs = some (s, [])) :
    readSome? opening close cs = some [s] := by
  rw [readSome?]
  split <;> simp_all

theorem readSome?_comma {cs rest : List Char} {s : String}
    (h : readDelimited? opening close cs = some (s, ',' :: rest)) :
    readSome? opening close cs = (readSome? opening close rest).map (s :: ·) := by
  rw [readSome?]
  split <;> simp_all

theorem readSome?_delimitedList (hclose : close ≠ ',') (s : String) (rest : List String) :
    readSome? opening close (delimitedList opening close (s :: rest)) = some (s :: rest) := by
  induction rest generalizing s with
  | nil =>
    have hread : readDelimited? opening close (delimitedChars opening close s ++ []) =
        some (s, []) := readDelimited?_delimitedChars s nofun
    rw [List.append_nil] at hread
    exact readSome?_last hread
  | cons t rest ih =>
    have hread : readDelimited? opening close (delimitedChars opening close s ++
        ',' :: delimitedList opening close (t :: rest)) =
          some (s, ',' :: delimitedList opening close (t :: rest)) :=
      readDelimited?_delimitedChars s (by simpa using hclose.symm)
    rw [delimitedList, readSome?_comma hread, ih]
    rfl

/-- Every list of texts is read back, whatever the texts are. -/
theorem readList?_delimitedList (hclose : close ≠ ',') (ss : List String) :
    readList? opening close (delimitedList opening close ss) = some ss := by
  cases ss with
  | nil => rfl
  | cons s rest =>
    have hne : delimitedList opening close (s :: rest) ≠ [] := by
      cases rest <;> simp [delimitedList, delimitedChars]
    rw [readList?, if_neg hne, readSome?_delimitedList hclose]

end RowLedger.Text
