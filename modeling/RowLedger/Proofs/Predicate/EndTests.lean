import RowLedger.Proofs.Database.Pattern
import RowLedger.Proofs.Database.Slice
import RowLedger.Proofs.Predicate.Acceptance
import RowLedger.Proofs.Predicate.Meaning

/-!
What prefix and suffix tests mean. A test that heeds case compares a slice of the receiver with the
text that is looked for, and is true exactly of the texts that begin or end with it. A test that
ignores case makes a pattern of it, in which a percent sign and a low line are wildcards.
-/

namespace RowLedger

namespace Term

variable {source : Option Table} {r : Option StoredRow} {ps : List Datum} {t u : NamedTerm}
  {w v : Term CellRef} {a b : Datum}

/-! The terms of the tests. -/

theorem Yields.slice (ht : Yields source r ps t w a) (hu : Yields source r ps u v b) (n k : Nat) :
    Yields source r ps
      (.binary .eq (.call "substr" [t, u, .literal (.ofInt n)]) (.parameter k))
      (.binary .eq (.call "substr" [w, v, .literal (.ofInt n)]) (.parameter k))
      (Operator.eq.apply Datum.plain (a.substring b (some (.ofInt n))) (boundTo ps k)) := by
  have hargs := YieldsAll.cons ht (.cons hu (.cons (yields_literal (.ofInt n)) .nil))
  have hfind : Function.find? "substr" 3 = some .substr := rfl
  exact (hargs.call hfind rfl).binary .eq (by decide) (yields_parameter k)

theorem Yields.suffixStart (ht : Yields source r ps t w a) (n : Nat) :
    Yields source r ps
      (.binary .add (.binary .subtract (.call "length" [t]) (.literal (.ofInt n)))
        (.literal (.ofInt 1)))
      (.binary .add (.binary .subtract (.call "length" [w]) (.literal (.ofInt n)))
        (.literal (.ofInt 1)))
      (a.suffixStart n) := by
  have hfind : Function.find? "length" 1 = some .length := rfl
  have hsize := (YieldsAll.cons ht .nil).call hfind rfl
  have hdifference := hsize.binary .subtract (by decide) (yields_literal (.ofInt n))
  exact hdifference.binary .add (by decide) (yields_literal (.ofInt 1))

/-- The parameter that is bound last. -/
theorem yields_last (ps : List Datum) (d : Datum) :
    Yields source r (ps ++ [d]) (.parameter (ps.length + 1)) (.parameter (ps.length + 1)) d := by
  have hlast : Yields source r (ps ++ [d]) (.parameter (ps.length + 1))
      (.parameter (ps.length + 1)) (boundTo (ps ++ [d]) (ps.length + 1)) := yields_parameter _
  rwa [boundTo_last] at hlast

end Term

/-! The terms that are read. Parameters of the receiver come before the one that is looked for. -/

namespace Phrase

variable {q : Phrase}

theorem term_slice (q s : Phrase) (n : Nat) :
    (slice q s n hole).regrouped.term 0 =
      .binary .eq
        (.call "substr"
          [q.regrouped.term 0, s.regrouped.term q.regrouped.holes, .literal (.ofInt n)])
        (.parameter (q.regrouped.holes + s.regrouped.holes + 1)) := by
  simp [slice, numeral, regrouped, regroupedAll, taken, Operator.strength, term, terms, holes,
    holesOfAll]

theorem term_suffixStart (q : Phrase) (n m : Nat) :
    (suffixStart q n).regrouped.term m =
      .binary .add (.binary .subtract (.call "length" [q.regrouped.term m]) (.literal (.ofInt n)))
        (.literal (.ofInt 1)) := by
  simp [suffixStart, numeral, regrouped, regroupedAll, taken, Operator.strength, term, terms]

theorem holes_suffixStart (q : Phrase) (n : Nat) :
    (suffixStart q n).regrouped.holes = q.regrouped.holes := by
  simp [suffixStart, numeral, regrouped, regroupedAll, taken, Operator.strength, holes, holesOfAll]

/-- A negation would take the pattern in. -/
theorem term_likePattern (hq : q.regrouped.isNot = false) (a b : Phrase) :
    (likePattern q a b).regrouped.term 0 =
      .like (q.regrouped.term 0) ((binary .concat a b).regrouped.term q.regrouped.holes) := by
  have hregrouped : (likePattern q a b).regrouped =
      paren (like q.regrouped (paren (binary .concat a b).regrouped)) := by
    change paren (taken _ q.regrouped) = _
    rw [taken_of_isNot hq]
    rfl
  rw [hregrouped, term, term, term, Nat.zero_add]

end Phrase

namespace Expr

variable {m : Method} {e a : Expr}

/-- A prefix or suffix test as the builder makes it, in a comparison mode or in the default one. -/
def test (m : Method) (e a : Expr) (mode : Option Comparison) : Expr :=
  call m (some e) (a :: (mode.map Expr.mode).toList)

theorem built_test (hm : m.TestsEnd) (he : e.Built) (ha : a.Built) (mode : Option Comparison) :
    (test m e a mode).Built := by
  cases mode with
  | none =>
    rcases hm with rfl | rfl
    · exact .startsWith he ha
    · exact .endsWith he ha
  | some c =>
    rcases hm with rfl | rfl
    · exact .startsWithMode c he ha
    · exact .endsWithMode c he ha

theorem callable_test (hm : m.TestsEnd) (he : e.Callable) (ha : a.Callable)
    (mode : Option Comparison) : (test m e a mode).Callable := by
  have hcallable : m.Callable := by
    rcases hm with rfl | rfl <;> trivial
  cases mode with
  | none => exact ⟨hcallable, he, ha, trivial⟩
  | some c => exact ⟨hcallable, he, ha, trivial, trivial⟩

theorem opened_test (m : Method) (e a : Expr) (mode : Option Comparison) :
    (test m e a mode).opened = test m e.opened a.opened mode := by
  cases mode <;> rfl

end Expr

/-- Does a test in this mode, or in the default one, ignore case? -/
def Comparison.ignored (mode : Option Comparison) : Bool :=
  (mode.getD .currentCulture).ignoresCase

namespace Compile

variable {t : Mapping} {d : Dialect} {m : Method} {e : Expr} {f g : Fragment}
  {mode : Option Comparison} {p x : String} {source : Option Table} {r : Option StoredRow}

/-- A text is bound to a mark. -/
def mark (name p : String) : Fragment where
  sql := [.hole name]
  params := [⟨name, .text p⟩]
  value := some (.text p)
  isParam := true

theorem Compiles.mark (h : Compiles t d (.constant (.text p)) f) : ∃ name, f = mark name p := by
  obtain ⟨name, y, hy, rfl⟩ := h.constant
  cases hy
  exact ⟨name, rfl⟩

/-- A test of a receiver that compiles does so too. -/
theorem compilable_test (hm : m.TestsEnd) (h : Compilable t e) (p : String)
    (mode : Option Comparison) : Compilable t (.test m e (.constant (.text p)) mode) := by
  have hvalues : Expr.valuesOf m (.constant (.text p) :: (mode.map Expr.mode).toList) =
      [.constant (.text p)] := by
    cases mode with
    | none => rfl
    | some c => exact if_pos hm
  rw [Expr.test, compilable_call, hvalues]
  refine ⟨⟨fun _ => rfl, fun _ hlength => ?_, fun _ a c ha _ _ => ?_⟩, ?_⟩
  · cases mode with
    | none => cases hlength
    | some c => cases c <;> exact ⟨_, rfl⟩
  · rw [hvalues] at ha
    cases ha
    exact ⟨p, rfl⟩
  · rw [Option.toList_some, List.forall_mem_append, List.forall_mem_singleton,
      List.forall_mem_singleton, compilable_constant]
    exact ⟨h, .text p, rfl⟩

theorem Compiles.test (hm : m.TestsEnd)
    (h : Compiles t d (.test m e (.constant (.text p)) mode) g) :
    ∃ fe name, Compiles t d e fe ∧
      applied d m mode e.isCollection (some fe) [Compile.mark name p] = .ok g := by
  have hparts : ∃ fe fa, Compiles t d e fe ∧ Compiles t d (.constant (.text p)) fa ∧
      applied d m mode e.isCollection (some fe) [fa] = .ok g := by
    cases mode with
    | none => exact h.onOne
    | some c => exact h.onMode hm
  obtain ⟨fe, fa, hfe, hfa, hg⟩ := hparts
  obtain ⟨name, rfl⟩ := hfa.mark
  exact ⟨fe, name, hfe, hg⟩

/-- The argument of a test is a mark, and what a mark carries is known. -/
theorem eq_of_patternOrSlice {name : String} {pattern : Fragment} {slice : Nat → Fragment}
    (h : ((mode.getD .currentCulture).ignoresCase = true ∧ g = pattern) ∨
      ((mode.getD .currentCulture).ignoresCase = false ∧
        ∃ s, (mark name p).value = some (.text s) ∧ g = slice s.length)) :
    g = if Comparison.ignored mode then pattern else slice p.length := by
  obtain ⟨hc, rfl⟩ | ⟨hc, s, hs, rfl⟩ := h
  · rw [Comparison.ignored, hc, if_pos rfl]
  · cases hs
    rw [Comparison.ignored, hc, if_neg Bool.false_ne_true]

theorem Compiles.startTest
    (h : Compiles t d (.test .startsWith e (.constant (.text p)) mode) g) :
    ∃ fe name, Compiles t d e fe ∧
      g = if Comparison.ignored mode then startPattern d fe (Compile.mark name p)
        else startSlice d fe (Compile.mark name p) p.length := by
  obtain ⟨fe, name, hfe, hg⟩ := h.test (.inl rfl)
  exact ⟨fe, name, hfe, eq_of_patternOrSlice (startsWith_ok hg)⟩

theorem Compiles.endTest
    (h : Compiles t d (.test .endsWith e (.constant (.text p)) mode) g) :
    ∃ fe name, Compiles t d e fe ∧
      g = if Comparison.ignored mode then endPattern d fe (Compile.mark name p)
        else endSlice d fe (Compile.mark name p) p.length := by
  obtain ⟨fe, name, hfe, hg⟩ := h.test (.inr rfl)
  exact ⟨fe, name, hfe, eq_of_patternOrSlice (endsWith_ok hg)⟩

theorem phrase_startTest (e : Expr) (p : String) (mode : Option Comparison) :
    (Expr.test .startsWith e (.constant (.text p)) mode).phrase t =
      if Comparison.ignored mode then .likePattern (e.phrase t) .hole (.text "%")
      else .slice (e.phrase t) (.numeral 1) p.length .hole := by
  cases mode with
  | none => rfl
  | some c => exact Expr.phrase_startsWithMode t e _ c

theorem phrase_endTest (e : Expr) (p : String) (mode : Option Comparison) :
    (Expr.test .endsWith e (.constant (.text p)) mode).phrase t =
      if Comparison.ignored mode then .likePattern (e.phrase t) (.text "%") .hole
      else .slice (e.phrase t) (.suffixStart (e.phrase t) p.length) p.length .hole := by
  cases mode with
  | none => rfl
  | some c => exact Expr.phrase_endsWithMode t e _ c

/-- What has a text for its value is no negation, which would take an operator in. -/
theorem isNot_of_yields {q : Phrase} {n : Nat} {ps : List Datum} {w : Term CellRef}
    (h : Term.Yields source r ps (q.term n) w (.text x)) : q.isNot = false := by
  cases q with
  | not q => exact absurd h Term.not_yields_text
  | _ => rfl

theorem Compiles.worth_test (hm : m.TestsEnd) (he : e.Built) (hn : e.Callable)
    (hg : Compiles t .sqlite (.test m e (.constant (.text p)) mode) g) :
    Condition.worth ⟨g.sql, g.params⟩ source r =
      (((Expr.test m e (.constant (.text p)) mode).phrase t).regrouped.term 0).worth source r
        (bindings g.params) := by
  have hcallable : (Expr.constant (.text p)).Callable := trivial
  exact hg.worth (Expr.built_test hm he (.constant _) mode)
    (Expr.callable_test hm hn hcallable mode) source r

section Worth

variable (he : e.Built) (hn : e.Callable) (hf : Compiles t .sqlite e f)
  (hx : Condition.worth ⟨f.sql, f.params⟩ source r = .ok (.text x))

include he hn hf hx

/-- A prefix test that heeds case compares the start of the receiver. -/
theorem worth_startSlice (hmode : Comparison.ignored mode = false)
    (hg : Compiles t .sqlite (.test .startsWith e (.constant (.text p)) mode) g) :
    Condition.worth ⟨g.sql, g.params⟩ source r = .ok (Operator.eq.apply Datum.plain
      ((Datum.text x).substring (.ofInt (1 : Nat)) (some (.ofInt p.length))) (.text p)) := by
  rw [hg.worth_test (.inl rfl) he hn, phrase_startTest, hmode,
    if_neg Bool.false_ne_true, Phrase.term_slice]
  obtain ⟨fe, name, hfe, rfl⟩ := hg.startTest
  have hbindings : bindings (startSlice .sqlite fe (mark name p) p.length).params =
      bindings fe.params ++ [.text p] := by
    simp [bindings, startSlice, mark, Datum.ofSql]
  rw [hmode, if_neg Bool.false_ne_true, hbindings, ← hfe.length_bindings he]
  obtain ⟨w, hw⟩ := hf.yields he hn hfe hx [] [.text p]
  have htest := Term.Yields.slice hw (Term.yields_literal (.ofInt (1 : Nat))) p.length
    ((bindings fe.params).length + 1)
  rw [List.nil_append, Term.boundTo_last] at htest
  exact Term.worth_ok_iff.2 ⟨_, htest⟩

/-- A suffix test that heeds case compares the end of the receiver, which is evaluated twice. -/
theorem worth_endSlice (hmode : Comparison.ignored mode = false)
    (hg : Compiles t .sqlite (.test .endsWith e (.constant (.text p)) mode) g) :
    Condition.worth ⟨g.sql, g.params⟩ source r = .ok (Operator.eq.apply Datum.plain
      ((Datum.text x).substring ((Datum.text x).suffixStart p.length) (some (.ofInt p.length)))
      (.text p)) := by
  rw [hg.worth_test (.inr rfl) he hn, phrase_endTest, hmode,
    if_neg Bool.false_ne_true, Phrase.term_slice, Phrase.term_suffixStart,
    Phrase.holes_suffixStart]
  obtain ⟨fe, name, hfe, rfl⟩ := hg.endTest
  have hbindings : bindings (endSlice .sqlite fe (mark name p) p.length).params =
      bindings fe.params ++ bindings fe.params ++ [.text p] := by
    simp [bindings, endSlice, repeated, Dialect.bindsByPosition, mark, Datum.ofSql]
  rw [hmode, if_neg Bool.false_ne_true, hbindings, ← hfe.length_bindings he]
  -- the receiver stands in two places, and each of them has parameters of its own
  obtain ⟨w, hw⟩ := hf.yields he hn hfe hx [] (bindings fe.params ++ [.text p])
  obtain ⟨v, hv⟩ := hf.yields he hn hfe hx (bindings fe.params) [.text p]
  rw [List.nil_append, ← List.append_assoc] at hw
  have htest := hw.slice (hv.suffixStart p.length) p.length
    ((bindings fe.params ++ bindings fe.params).length + 1)
  rw [Term.boundTo_last, List.length_append] at htest
  exact Term.worth_ok_iff.2 ⟨_, htest⟩

/-- A test that ignores case finds the receiver like the pattern. -/
theorem worth_pattern {fe : Fragment} {left right : Phrase} {z : Term CellRef} {y : Datum}
    (hfe : Compiles t .sqlite e fe)
    (hy : Term.Yields source r (bindings fe.params ++ [.text p])
      ((Phrase.binary .concat left right).regrouped.term (bindings fe.params).length) z y) :
    ((Phrase.likePattern (e.phrase t) left right).regrouped.term 0).worth source r
      (bindings fe.params ++ [.text p]) = .ok ((Datum.text x).like y) := by
  obtain ⟨w, hw⟩ := hf.yields he hn hfe hx [] [.text p]
  rw [Phrase.term_likePattern (isNot_of_yields hw), ← hfe.length_bindings he]
  exact Term.worth_ok_iff.2 ⟨_, hw.like hy⟩

/-- A prefix test that ignores case makes a pattern that ends in any characters. -/
theorem worth_startPattern (hmode : Comparison.ignored mode = true)
    (hg : Compiles t .sqlite (.test .startsWith e (.constant (.text p)) mode) g) :
    Condition.worth ⟨g.sql, g.params⟩ source r =
      .ok ((Datum.text x).like ((Datum.text p).concat (.text "%"))) := by
  rw [hg.worth_test (.inl rfl) he hn, phrase_startTest, hmode,
    if_pos rfl]
  obtain ⟨fe, name, hfe, rfl⟩ := hg.startTest
  have hbindings : bindings (startPattern .sqlite fe (mark name p)).params =
      bindings fe.params ++ [.text p] := by
    simp [bindings, startPattern, mark, Datum.ofSql]
  rw [hmode, if_pos rfl, hbindings]
  exact worth_pattern he hn hf hx hfe
    ((Term.yields_last _ _).binary .concat (by decide) (Term.yields_literal (.text "%")))

/-- A suffix test that ignores case makes a pattern that begins with any characters. -/
theorem worth_endPattern (hmode : Comparison.ignored mode = true)
    (hg : Compiles t .sqlite (.test .endsWith e (.constant (.text p)) mode) g) :
    Condition.worth ⟨g.sql, g.params⟩ source r =
      .ok ((Datum.text x).like ((Datum.text "%").concat (.text p))) := by
  rw [hg.worth_test (.inr rfl) he hn, phrase_endTest, hmode,
    if_pos rfl]
  obtain ⟨fe, name, hfe, rfl⟩ := hg.endTest
  have hbindings : bindings (endPattern .sqlite fe (mark name p)).params =
      bindings fe.params ++ [.text p] := by
    simp [bindings, endPattern, mark, Datum.ofSql]
  rw [hmode, if_pos rfl, hbindings]
  exact worth_pattern he hn hf hx hfe
    ((Term.yields_literal (.text "%")).binary .concat (by decide) (Term.yields_last _ _))

end Worth

/-! Tests of a predicate before three-way comparisons in it are opened. -/

theorem exists_compiles_test (hm : m.TestsEnd) {e : Expr} {c : Condition}
    (h : compile e t d = .ok c) (p : String) (mode : Option Comparison) :
    ∃ g, compile (.test m e (.constant (.text p)) mode) t d = .ok ⟨g.sql, g.params⟩ ∧
      Compiles t d (.test m e.opened (.constant (.text p)) mode) g := by
  -- the receiver compiles as it is opened, and opening a test opens its receiver
  have htest := compilable_test hm ((exists_compile_iff d).1 ⟨c, h⟩) p mode
  have hopened := Expr.opened_test m e (.constant (.text p)) mode
  rw [Expr.opened] at hopened
  rw [← hopened] at htest
  obtain ⟨c', hc'⟩ := (exists_compile_iff d).2 htest
  obtain ⟨g, hg, rfl⟩ := compiles_of_compile hc'
  exact ⟨g, hc', hopened ▸ hg⟩

theorem holds_of_worth {c : Condition} {a : Datum} (h : c.worth source r = .ok a) :
    c.holds source r = .ok (a.truth? == some true) := by
  rw [Condition.holds, h]
  rfl

end Compile

section Tests

variable {t : Mapping} {e : Expr} {c : Condition} {source : Option Table} {r : Option StoredRow}
  {x : String}

/-- A prefix test that heeds case is true of a text exactly if it begins with what is looked for,
and a suffix test exactly if it ends with that. The text is the value of any predicate of the
builder; a database counts its characters up to a null character, and in 64 bits. -/
theorem exactTests_hold (he : e.Built) (hn : e.opened.Callable) (hc : compile e t .sqlite = .ok c)
    (hx : c.worth source r = .ok (.text x)) (hnull : '\x00' ∉ x.toList)
    (hlength : x.length ≤ Width.i64.greatest) (p : String) {mode : Option Comparison}
    (hmode : Comparison.ignored mode = false) :
    (∃ c, compile (.test .startsWith e (.constant (.text p)) mode) t .sqlite = .ok c ∧
      c.holds source r = .ok (decide (p.toList <+: x.toList))) ∧
    ∃ c, compile (.test .endsWith e (.constant (.text p)) mode) t .sqlite = .ok c ∧
      c.holds source r = .ok (decide (p.toList <:+ x.toList)) := by
  obtain ⟨f, hf, rfl⟩ := Compile.compiles_of_compile hc
  constructor
  · obtain ⟨g, hcompile, hg⟩ := Compile.exists_compiles_test (.inl rfl) hc p mode
    have hworth := Compile.worth_startSlice he.opened hn hf hx hmode hg
    refine ⟨_, hcompile, ?_⟩
    rw [Compile.holds_of_worth hworth, ← Datum.equal_start hlength]
    rfl
  · obtain ⟨g, hcompile, hg⟩ := Compile.exists_compiles_test (.inr rfl) hc p mode
    have hworth := Compile.worth_endSlice he.opened hn hf hx hmode hg
    refine ⟨_, hcompile, ?_⟩
    rw [Compile.holds_of_worth hworth, ← Datum.equal_end hnull hlength]
    rfl

namespace Samples

def noteTable : Table := { name := "Note", columns := [{ name := "Text", type := "text" }] }

/-- A row of one text. -/
def noteRow (s : String) : StoredRow := ⟨Sized.zero .i64, [.text s]⟩

/-- The column is worth the text of the row. -/
theorem column_worth (s : String) :
    ∃ c, compile (.column "text") notes .sqlite = .ok c ∧
      c.worth (some noteTable) (some (noteRow s)) = .ok (.text s) := by
  have hcompile : compile (.column "text") notes .sqlite = .ok ⟨[.name "Text"], []⟩ := rfl
  obtain ⟨f, hf, hc⟩ := Compile.compiles_of_compile hcompile
  have hphrase : ((Expr.column "text").phrase notes).regrouped.term 0 =
      .column { name := "Text", maybeText := true } := rfl
  have hcell : noteTable.cellRef? { name := "Text", maybeText := true } =
      some ⟨some 0, "Text", "text", .text, .binary⟩ := rfl
  refine ⟨_, hcompile, ?_⟩
  rw [hc, hf.worth (.column _) trivial, hphrase, Term.worth, Term.resolve, Option.bind_some, hcell]
  rfl

/-- Of a text with letters beyond ASCII the last three are an end, and no start. -/
theorem streets_tests :
    (∃ c, compile ((Expr.column "text").startsWith (.constant (.text "aße"))) notes .sqlite =
        .ok c ∧
      c.holds (some noteTable) (some (noteRow "Straße")) = .ok false) ∧
    ∃ c, compile ((Expr.column "text").endsWith (.constant (.text "aße"))) notes .sqlite =
        .ok c ∧
      c.holds (some noteTable) (some (noteRow "Straße")) = .ok true := by
  have hmode : Comparison.ignored none = false := rfl
  have hstart : decide ("aße".toList <+: "Straße".toList) = false := by decide
  have hend : decide ("aße".toList <:+ "Straße".toList) = true := by decide
  obtain ⟨c, hc, hworth⟩ := column_worth "Straße"
  obtain ⟨⟨c₁, hc₁, hholds₁⟩, c₂, hc₂, hholds₂⟩ :=
    exactTests_hold (.column _) trivial hc hworth (by decide) (by decide) "aße" hmode
  exact ⟨⟨c₁, hc₁, hstart ▸ hholds₁⟩, c₂, hc₂, hend ▸ hholds₂⟩

end Samples

/-- A prefix test that ignores case is true of a text exactly if a start of the text matches what is
looked for as a pattern, and a suffix test exactly if an end does. This is to begin or end with it,
but for case, exactly if what is looked for has neither a percent sign nor a low line. -/
theorem caselessTests_hold (he : e.Built) (hn : e.opened.Callable)
    (hc : compile e t .sqlite = .ok c) (hx : c.worth source r = .ok (.text x)) (p : String)
    {mode : Comparison} (hmode : mode.ignoresCase = true) :
    (∃ c b, compile (e.startsWithMode (.constant (.text p)) mode) t .sqlite = .ok c ∧
      c.holds source r = .ok b ∧ (b = true ↔ Datum.StartMatches p.toList x.toList)) ∧
    (∃ c b, compile (e.endsWithMode (.constant (.text p)) mode) t .sqlite = .ok c ∧
      c.holds source r = .ok b ∧ (b = true ↔ Datum.EndMatches p.toList x.toList)) ∧
    ((∀ y : String, Datum.StartMatches p.toList y.toList ↔
      Text.foldAscii p <+: Text.foldAscii y) ↔ Datum.NoWildcard p.toList) ∧
    ((∀ y : String, Datum.EndMatches p.toList y.toList ↔
      Text.foldAscii p <:+ Text.foldAscii y) ↔ Datum.NoWildcard p.toList) := by
  obtain ⟨f, hf, rfl⟩ := Compile.compiles_of_compile hc
  have hignored : Comparison.ignored (some mode) = true := hmode
  refine ⟨?_, ?_, Datum.startMatches_iff, Datum.endMatches_iff⟩
  · obtain ⟨g, hcompile, hg⟩ := Compile.exists_compiles_test (.inl rfl) hc p (some mode)
    have hworth := Compile.worth_startPattern he.opened hn hf hx hignored hg
    refine ⟨_, _, hcompile, Compile.holds_of_worth hworth, ?_⟩
    rw [beq_iff_eq, Datum.like_start]
  · obtain ⟨g, hcompile, hg⟩ := Compile.exists_compiles_test (.inr rfl) hc p (some mode)
    have hworth := Compile.worth_endPattern he.opened hn hf hx hignored hg
    refine ⟨_, _, hcompile, Compile.holds_of_worth hworth, ?_⟩
    rw [beq_iff_eq, Datum.like_end]

end Tests

/-- A low line is found at the start of a text that begins with another character. -/
theorem Samples.lowLine_found :
    (∃ c, compile ((Expr.column "text").startsWithMode (.constant (.text "_"))
        .ordinalIgnoreCase) notes .sqlite = .ok c ∧
      c.holds (some noteTable) (some (noteRow "abc")) = .ok true) ∧
    ¬Text.foldAscii "_" <+: Text.foldAscii "abc" := by
  have hmatches : Datum.StartMatches "_".toList "abc".toList :=
    ⟨['a'], by decide, Datum.matchesPattern_cons.2 ⟨['a'], [], rfl, .inr ⟨_, rfl, .inl rfl⟩,
      Datum.matchesPattern_nil.2 rfl⟩⟩
  have hmode : Comparison.ordinalIgnoreCase.ignoresCase = true := rfl
  obtain ⟨c, hc, hworth⟩ := column_worth "abc"
  obtain ⟨⟨c₁, b, hc₁, hholds, hb⟩, -⟩ :=
    caselessTests_hold (.column _) trivial hc hworth "_" hmode
  rw [hb.2 hmatches] at hholds
  exact ⟨⟨c₁, hc₁, hholds⟩, by decide⟩

end RowLedger
