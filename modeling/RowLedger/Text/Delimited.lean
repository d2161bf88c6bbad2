/-! Text between delimiters, in which the closing delimiter is written twice. -/

namespace RowLedger.Text

def doubling (close : Char) (cs : List Char) : List Char :=
  cs.flatMap fun c => if c = close then [close, close] else [c]

def delimitedChars (opening close : Char) (s : String) : List Char :=
  opening :: doubling close s.toList ++ [close]

def delimited (opening close : Char) (s : String) : String :=
  String.ofList (delimitedChars opening close s)

/-- What stands up to a single closing delimiter, and the rest after it. -/
def readDoubled? (close : Char) : List Char → Option (List Char × List Char)
  | [] => none
  | [c] => if c = close then some ([], []) else none
  | c :: d :: cs =>
    if c = close then
      if d = close then (readDoubled? close cs).map fun (s, r) => (close :: s, r)
      else some ([], d :: cs)
    else (readDoubled? close (d :: cs)).map fun (s, r) => (c :: s, r)

theorem readDoubled?_length {close : Char} {cs s r : List Char}
    (h : readDoubled? close cs = some (s, r)) : r.length < cs.length := by
  fun_induction readDoubled? close cs generalizing s with
  | case1 => simp at h
  | case2 => simp_all
  | case3 => simp_all
  | case4 cs ih =>
    obtain ⟨⟨a, b⟩, hab, h⟩ := Option.map_eq_some_iff.1 h
    cases h
    have := ih hab
    simp only [List.length_cons]
    omega
  | case5 => simp_all
  | case6 c d cs hc ih =>
    obtain ⟨⟨a, b⟩, hab, h⟩ := Option.map_eq_some_iff.1 h
    cases h
    have := ih hab
    simp only [List.length_cons] at this ⊢
    omega

end RowLedger.Text
