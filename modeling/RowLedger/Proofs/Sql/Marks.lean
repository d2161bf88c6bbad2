import Mathlib.Data.List.TakeWhile
import RowLedger.Proofs.Sql.Quoting

/-!
The parameters of a text, as SQL Server reads it: after an at sign, as far as the characters may
stand in a name. A text that is rendered from pieces is read piece by piece. Names are quoted and
stay whole; parameters are not, and a name that has other characters in it is cut short.
-/

namespace RowLedger

/-- What SQL Server takes for letters and digits, beyond those of ASCII. -/
structure Letters where
  holds : Char → Bool
  ascii : ∀ c : Char, c.toNat < 128 → holds c = c.isAlphanum

namespace Letters

def latin : Letters := ⟨Char.isAlphanum, fun _ _ => rfl⟩

variable (L : Letters)

/-- May a character stand in the name of a parameter? -/
def inName (c : Char) : Bool := L.holds c || ['_', '@', '#', '$'].contains c

def Proper (name : String) : Prop := ∀ c ∈ name.toList, L.inName c = true

instance (name : String) : Decidable (L.Proper name) :=
  decidable_of_iff (name.toList.all L.inName = true) List.all_eq_true

def closing? : Char → Option Char
  | '[' => some ']'
  | '"' => some '"'
  | '\'' => some '\''
  | _ => none

/-- What comes after the quoted name or literal that begins with a character. -/
def unquoted? (c : Char) (cs : List Char) : Option (List Char) :=
  (closing? c).bind fun close => (Text.readDoubled? close cs).map Prod.snd

theorem unquoted?_length {c : Char} {cs rest : List Char} (h : unquoted? c cs = some rest) :
    rest.length < cs.length := by
  obtain ⟨close, -, h⟩ := Option.bind_eq_some_iff.1 h
  obtain ⟨⟨_, _⟩, hread, rfl⟩ := Option.map_eq_some_iff.1 h
  exact Text.readDoubled?_length hread

/-- The names of the parameters in a text without comments. -/
def marks : List Char → List String
  | [] => []
  | c :: cs =>
    if c = '@' then String.ofList (cs.takeWhile L.inName) :: marks (cs.dropWhile L.inName)
    else if L.inName c then marks (cs.dropWhile L.inName)
    else match _h : unquoted? c cs with
      | some rest => marks rest
      | none => marks cs
termination_by cs => cs.length
decreasing_by
  · exact Nat.lt_succ_of_le (List.dropWhile_suffix _).length_le
  · exact Nat.lt_succ_of_le (List.dropWhile_suffix _).length_le
  · exact Nat.lt_succ_of_lt (unquoted?_length _h)
  · exact Nat.lt_succ_self _

variable {L} {c : Char} {cs rest : List Char}

theorem marks_mark (cs : List Char) : L.marks ('@' :: cs) =
    String.ofList (cs.takeWhile L.inName) :: L.marks (cs.dropWhile L.inName) := by
  rw [marks, if_pos rfl]

theorem marks_run (hmark : c ≠ '@') (hc : L.inName c = true) :
    L.marks (c :: cs) = L.marks (cs.dropWhile L.inName) := by
  rw [marks, if_neg hmark, if_pos hc]

theorem marks_quoted (hmark : c ≠ '@') (hc : L.inName c = false)
    (h : unquoted? c cs = some rest) : L.marks (c :: cs) = L.marks rest := by
  rw [marks, if_neg hmark, if_neg (Bool.eq_false_iff.1 hc)]
  split <;> simp_all

theorem marks_skip (hmark : c ≠ '@') (hc : L.inName c = false) (h : unquoted? c cs = none) :
    L.marks (c :: cs) = L.marks cs := by
  rw [marks, if_neg hmark, if_neg (Bool.eq_false_iff.1 hc)]
  split <;> simp_all

end Letters

/-! Statements whose pieces are read one after the other. -/

namespace Sql

/-- What words end with where a parameter follows, and begin with where one has come before. -/
def separators : List Char := [' ', '(', ')', ',', ';']

/-- No parameter and no quoted name begins with the character. -/
def isPlain (c : Char) : Bool := !(['@', '[', '"', '\''].contains c)

/-- Does a statement begin with what is no part of a name? The flag says it for what comes after the
statement. -/
def opens (next : Bool) : Sql → Bool
  | [] => next
  | .word w :: _ => w.toList.head?.any separators.contains
  | .name _ :: _ => true
  | .hole _ :: _ => false

def fits (next : Bool) : Piece → Bool
  | .word w => w.toList.all isPlain && (w.toList.getLast?.any separators.contains || next)
  | .name _ | .hole _ => next

/-- Does each piece end where it is followed by the next one? -/
def legible (next : Bool) : Sql → Bool
  | [] => true
  | p :: rest => fits (opens next rest) p && legible next rest

theorem opens_append (next : Bool) (a b : Sql) : opens next (a ++ b) = opens (opens next b) a := by
  cases a with
  | nil => rfl
  | cons p a => cases p <;> rfl

theorem legible_append (next : Bool) (a b : Sql) :
    legible next (a ++ b) = (legible (opens next b) a && legible next b) := by
  induction a with
  | nil => rfl
  | cons p a ih =>
    rw [List.cons_append, legible, legible, ih, opens_append, Bool.and_assoc]

/-- A word that ends with a separator fits wherever it stands. -/
theorem fits_word {next : Bool} {w : String} (h : fits false (.word w) = true) :
    fits next (.word w) = true := by
  rw [fits, Bool.or_false, Bool.and_eq_true] at h
  rw [fits, h.1, h.2]
  rfl

theorem legible_joined {α : Type} {between : String} {f : α → Sql} (as : List α)
    (hfits : fits false (.word between) = true) (hopens : opens true [.word between] = true)
    (h : ∀ a, legible true (f a) = true) : legible true (joined between (as.map f)) = true := by
  induction as with
  | nil => rfl
  | cons a as ih =>
    cases as with
    | nil => exact h a
    | cons b as =>
      have hnext : opens true (.word between :: joined between ((b :: as).map f)) = true := hopens
      have hjoined : joined between ((a :: b :: as).map f) =
          f a ++ .word between :: joined between ((b :: as).map f) := rfl
      rw [hjoined, legible_append, hnext, legible, fits_word hfits, h a, ih]
      rfl

theorem legible_parenthesized {next : Bool} {s : Sql} (h : legible true s = true) :
    legible next (parenthesized s) = true := by
  have hclose : opens next [.word ")"] = true := rfl
  have hword : fits next (.word ")") = true := fits_word (by decide)
  rw [parenthesized, List.cons_append, legible, legible_append, hclose, h, fits_word (by decide),
    legible, opens, hword]
  rfl

end Sql

namespace Letters

variable {L : Letters} {cs rest : List Char}

theorem inName_of_ascii {c : Char}
    (h : c.toNat < 128 ∧ c.isAlphanum = false ∧ ['_', '@', '#', '$'].contains c = false) :
    L.inName c = false := by
  rw [inName, L.ascii c h.1, h.2.1, h.2.2]
  rfl

theorem inName_of_separator {c : Char} (h : c ∈ Sql.separators) : L.inName c = false := by
  have hseparators : Sql.separators.all (fun c => decide (c.toNat < 128 ∧ c.isAlphanum = false ∧
      ['_', '@', '#', '$'].contains c = false)) = true := by decide
  exact inName_of_ascii (of_decide_eq_true (List.all_eq_true.1 hseparators c h))

/-- No part of a name comes first. -/
def Opened (L : Letters) (cs : List Char) : Prop :=
  ∀ c, cs.head? = some c → L.inName c = false ∧ c ≠ ']'

theorem opened_render {sql : Sql} (h : sql.opens true = true) :
    L.Opened (Dialect.sqlServer.render sql).toList := by
  intro c hc
  cases sql with
  | nil => cases hc
  | cons p rest =>
    rw [Dialect.toList_render_cons] at hc
    cases p with
    | word w =>
      obtain ⟨c', hw, hc'⟩ := (Option.any_eq_true _ _).1 h
      rw [Dialect.renderPiece, List.head?_append, hw] at hc
      cases hc
      have hmem := List.contains_iff_mem.1 hc'
      refine ⟨inName_of_separator hmem, ?_⟩
      rintro rfl
      exact absurd hmem (by decide)
    | name n =>
      rw [Dialect.renderPiece, Dialect.toList_quote] at hc
      cases hc
      exact ⟨inName_of_ascii (by decide), by decide⟩
    | hole n => cases h

/-! What the pieces are read as. -/

theorem unquoted?_of_isPlain {c : Char} (h : Sql.isPlain c = true) (cs : List Char) :
    unquoted? c cs = none := by
  have hclosing : closing? c = none := by
    unfold closing?
    split
    · cases h
    · cases h
    · cases h
    · rfl
  rw [unquoted?, hclosing]
  rfl

theorem dropWhile_of_opened (h : L.Opened rest) : rest.dropWhile L.inName = rest := by
  cases rest with
  | nil => rfl
  | cons c rest => exact List.dropWhile_cons_of_neg (Bool.eq_false_iff.1 (h c rfl).1)

/-- Words hold no parameters, whether they are read from their beginning or from within a run. -/
theorem marks_word {w : List Char} (hplain : ∀ c ∈ w, Sql.isPlain c = true)
    (hend : L.Opened rest ∨ ∃ c ∈ w.getLast?, L.inName c = false) :
    L.marks (w ++ rest) = L.marks rest ∧
      L.marks ((w ++ rest).dropWhile L.inName) = L.marks rest := by
  induction w with
  | nil =>
    have hrest : L.Opened rest := hend.resolve_right (by rintro ⟨c, hc, -⟩; cases hc)
    exact ⟨rfl, congrArg L.marks (dropWhile_of_opened hrest)⟩
  | cons c w ih =>
    have hc := hplain c List.mem_cons_self
    have hmark : c ≠ '@' := by
      rintro rfl
      cases hc
    have hw : L.inName c = false ∧ w = [] ∨
        (L.Opened rest ∨ ∃ c ∈ w.getLast?, L.inName c = false) := by
      cases w with
      | nil =>
        rcases hend with hrest | ⟨d, hd, hname⟩
        · exact .inr (.inl hrest)
        · cases hd
          exact .inl ⟨hname, rfl⟩
      | cons d w => exact .inr (by rwa [List.getLast?_cons_cons] at hend)
    have ih := ih fun d hd => hplain d (List.mem_cons_of_mem c hd)
    rw [List.cons_append]
    cases hname : L.inName c with
    | true =>
      rw [hname] at hw
      have hread := (ih (hw.resolve_left fun h => Bool.false_ne_true h.1.symm)).2
      rw [List.dropWhile_cons_of_pos hname]
      exact ⟨(marks_run hmark hname).trans hread, hread⟩
    | false =>
      have hread : L.marks (c :: (w ++ rest)) = L.marks rest := by
        rw [marks_skip hmark hname (unquoted?_of_isPlain hc _)]
        rcases hw with ⟨-, rfl⟩ | hw
        · rfl
        · exact (ih hw).1
      rw [List.dropWhile_cons_of_neg (Bool.eq_false_iff.1 hname)]
      exact ⟨hread, hread⟩

theorem marks_name (name : String) (h : L.Opened rest) :
    L.marks ((Dialect.sqlServer.quote name).toList ++ rest) = L.marks rest := by
  have hread : unquoted? '[' (Text.doubling ']' name.toList ++ ']' :: rest) = some rest := by
    have hdoubled : Text.readDoubled? ']' (Text.doubling ']' name.toList ++ ']' :: rest) =
        some (name.toList, rest) :=
      Text.readDoubled?_doubling name.toList fun hc => (h _ hc).2 rfl
    rw [unquoted?, closing?, Option.bind_some, hdoubled]
    rfl
  have hchars : (Dialect.sqlServer.quote name).toList ++ rest =
      '[' :: (Text.doubling ']' name.toList ++ ']' :: rest) := by
    rw [Dialect.toList_quote, Text.delimitedChars]
    simp [Dialect.opening, Dialect.closing]
  rw [hchars, marks_quoted (by decide) (inName_of_ascii (by decide)) hread]

theorem toList_hole (name : String) :
    (Dialect.sqlServer.renderPiece (.hole name)).toList = '@' :: name.toList := by
  simp [Dialect.renderPiece, Dialect.placeholder]

/-- A parameter is read as its name exactly if all of the name belongs to it. -/
theorem token_eq_iff (name : String) (h : L.Opened rest) :
    String.ofList ((name.toList ++ rest).takeWhile L.inName) = name ↔ L.Proper name := by
  constructor
  · intro htoken c hc
    rw [← htoken, String.toList_ofList] at hc
    exact List.mem_takeWhile_imp hc
  · intro hproper
    have hrest : rest.takeWhile L.inName = [] := by
      cases rest with
      | nil => rfl
      | cons c rest => exact List.takeWhile_cons_of_neg (Bool.eq_false_iff.1 (h c rfl).1)
    rw [List.takeWhile_append_of_pos hproper, hrest, List.append_nil, String.ofList_toList]

/-- The parameters that are read are those that were written exactly if their names are proper. -/
theorem marks_render_iff {sql : Sql} (h : sql.legible true = true) :
    L.marks (Dialect.sqlServer.render sql).toList = sql.holes ↔ ∀ n ∈ sql.holes, L.Proper n := by
  induction sql with
  | nil =>
    rw [Dialect.render, List.map_nil, String.join_nil, String.toList_empty, marks]
    exact iff_of_true rfl (by simp)
  | cons p rest ih =>
    rw [Sql.legible, Bool.and_eq_true] at h
    have ih := ih h.2
    rw [Dialect.toList_render_cons]
    cases p with
    | word w =>
      obtain ⟨hplain, hend⟩ := Bool.and_eq_true_iff.1 h.1
      have hend : L.Opened (Dialect.sqlServer.render rest).toList ∨
          ∃ c ∈ w.toList.getLast?, L.inName c = false := by
        rcases Bool.or_eq_true_iff.1 hend with hlast | hnext
        · obtain ⟨c, hc, hseparator⟩ := (Option.any_eq_true _ _).1 hlast
          exact .inr ⟨c, hc, inName_of_separator (List.contains_iff_mem.1 hseparator)⟩
        · exact .inl (opened_render hnext)
      rw [Dialect.renderPiece, (marks_word (List.all_eq_true.1 hplain) hend).1]
      exact ih
    | name n =>
      have hopened : L.Opened _ := opened_render h.1
      rw [Dialect.renderPiece, marks_name n hopened]
      exact ih
    | hole n =>
      have hopened : L.Opened (Dialect.sqlServer.render rest).toList := opened_render h.1
      have htoken := token_eq_iff n hopened
      rw [toList_hole, List.cons_append, marks_mark, Sql.holes_hole, List.cons_eq_cons, htoken,
        List.forall_mem_cons]
      refine and_congr_right fun hproper => ?_
      rw [List.dropWhile_append_of_pos hproper, dropWhile_of_opened hopened]
      exact ih

/-- What is read is made of the characters of names. -/
theorem proper_of_mem_marks {n : String} (h : n ∈ L.marks cs) : L.Proper n := by
  fun_induction marks L cs with
  | case1 => cases h
  | case2 cs ih =>
    rcases List.mem_cons.1 h with rfl | h
    · intro c hc
      rw [String.toList_ofList] at hc
      exact List.mem_takeWhile_imp hc
    · exact ih h
  | case3 _ _ _ _ ih => exact ih h
  | case4 _ _ _ _ _ _ ih => exact ih h
  | case5 _ _ _ _ _ ih => exact ih h

end Letters

/-- The parameters that a statement asks for are those that are bound with it. -/
structure Sql.Asks (sql : Sql) (params : List Param) : Prop where
  legible : sql.legible true = true
  bound : ∀ n, n ∈ sql.holes ↔ ∃ p ∈ params, p.name = n

/-- They are read from its text exactly if their names are proper. -/
theorem Sql.Asks.marks_iff {sql : Sql} {params : List Param} (h : sql.Asks params) (L : Letters) :
    (∀ n, n ∈ L.marks (Dialect.sqlServer.render sql).toList ↔ ∃ p ∈ params, p.name = n) ↔
      ∀ p ∈ params, L.Proper p.name := by
  constructor
  · intro hread p hp
    exact Letters.proper_of_mem_marks ((hread p.name).2 ⟨p, hp, rfl⟩)
  · intro hproper n
    have hholes : ∀ n ∈ sql.holes, L.Proper n := by
      intro n hn
      obtain ⟨p, hp, rfl⟩ := (h.bound n).1 hn
      exact hproper p hp
    rw [(Letters.marks_render_iff h.legible).2 hholes, h.bound]

end RowLedger
