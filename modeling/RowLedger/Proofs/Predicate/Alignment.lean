import RowLedger.Proofs.Predicate.Assembled
import RowLedger.Samples

/-!
The parameters of a compiled predicate are in step with the marks in its text: by position where
binding goes by position, by name where it goes by name.
-/

namespace RowLedger

/-- The parameter binds the stored form of the constant. -/
def Param.Binds (v : Value) (p : Param) : Prop := v.toSql = .ok p.value

namespace Compile

variable {t : Mapping} {d : Dialect} {f : Fragment}

namespace Fragment

/-- A fragment writes a layout, and binds the constants of the layout from left to right. -/
structure Writes (f : Fragment) (l : Layout) : Prop where
  text : f.sql.map Dialect.sqlite.renderPiece = l.map Spot.text
  bound : List.Forall₂ Param.Binds l.constants f.params

namespace Writes

variable {a b r : Fragment} {la lb lr : Layout}

theorem infixed (ha : a.Writes la) (hb : b.Writes lb) (w : String) :
    Writes {
      sql := .word "(" :: a.sql ++ .word w :: b.sql ++ [.word ")"]
      params := a.params ++ b.params } (.infixed la w lb) where
  text := by simp [Layout.infixed, Dialect.renderPiece, Spot.text, ha.text, hb.text]
  bound := by simpa [Layout.infixed] using List.rel_append ha.bound hb.bound

theorem marks {vs : List Value} {ps : List Param} (h : List.Forall₂ Param.Binds vs ps) :
    Writes { sql := Sql.joined "," (ps.map fun p => [.hole p.name]), params := ps }
      (.joined "," (vs.map fun v => [.constant v])) := by
  induction h with
  | nil => exact ⟨rfl, .nil⟩
  | cons hv hvs ih =>
    rename_i v p vs ps
    cases hvs with
    | nil => exact ⟨rfl, .cons hv .nil⟩
    | cons hw hws =>
      constructor
      · simpa [Sql.joined, Layout.joined, Dialect.renderPiece, Dialect.placeholder, Spot.text]
        using ih.text
      · simpa [Layout.joined] using ⟨hv, ih.bound⟩

theorem joined {fs : List Fragment} {ls : List Layout} (h : List.Forall₂ Writes fs ls) :
    Writes { sql := Sql.joined "," (fs.map Fragment.sql), params := fs.flatMap Fragment.params }
      (.joined "," ls) := by
  induction h with
  | nil => exact ⟨rfl, .nil⟩
  | cons hf hfs ih =>
    rename_i f l fs ls
    cases hfs with
    | nil => simpa [Sql.joined, Layout.joined] using ⟨hf.text, hf.bound⟩
    | cons hg hgs =>
      constructor
      · simpa [Sql.joined, Layout.joined, Dialect.renderPiece, Spot.text, hf.text] using ih.text
      · simpa [Layout.joined] using List.rel_append hf.bound ih.bound

theorem call {fs : List Fragment} {ls : List Layout} (h : List.Forall₂ Writes fs ls) (m : Method) :
    Writes (plainCall m none fs)
      (.word (Text.toLower m.name ++ "(") :: Layout.joined "," ls ++ [.word ")"]) where
  text := by
    simp [plainCall, Dialect.renderPiece, Spot.text, (joined h).text]
  bound := by simpa [plainCall] using (joined h).bound

theorem startPattern (hr : r.Writes lr) (ha : a.Writes la) :
    Writes (Compile.startPattern .sqlite r a) (.likeLayout lr la [.word "'%'"]) where
  text := by
    simp [Compile.startPattern, likePattern, Dialect.concat, anyString, Layout.likeLayout,
      Dialect.renderPiece, Spot.text, hr.text, ha.text]
  bound := by
    simpa [Compile.startPattern, Layout.likeLayout] using List.rel_append hr.bound ha.bound

theorem endPattern (hr : r.Writes lr) (ha : a.Writes la) :
    Writes (Compile.endPattern .sqlite r a) (.likeLayout lr [.word "'%'"] la) where
  text := by
    simp [Compile.endPattern, likePattern, Dialect.concat, anyString, Layout.likeLayout,
      Dialect.renderPiece, Spot.text, hr.text, ha.text]
  bound := by
    simpa [Compile.endPattern, Layout.likeLayout] using List.rel_append hr.bound ha.bound

theorem startSlice (hr : r.Writes lr) (ha : a.Writes la) (n : Nat) :
    Writes (Compile.startSlice .sqlite r a n) (.sliceLayout lr [.word (Text.showInt 1)] n la) where
  text := by
    simp [Compile.startSlice, slice, Dialect.substr, number, Layout.sliceLayout,
      Dialect.renderPiece, Spot.text, hr.text, ha.text]
  bound := by
    simpa [Compile.startSlice, Layout.sliceLayout] using List.rel_append hr.bound ha.bound

/-- The receiver stands twice in the text, and its constants are bound twice. -/
theorem endSlice (hr : r.Writes lr) (ha : a.Writes la) (n : Nat) :
    Writes (Compile.endSlice .sqlite r a n) (.sliceLayout lr (.suffixStart lr n) n la) where
  text := by
    simp [Compile.endSlice, slice, Dialect.substr, Dialect.length, number, Layout.sliceLayout,
      Layout.suffixStart, Dialect.renderPiece, Spot.text, hr.text, ha.text]
  bound := by
    have := List.rel_append hr.bound (List.rel_append hr.bound ha.bound)
    simpa [Compile.endSlice, repeated, Dialect.bindsByPosition, Layout.sliceLayout,
      Layout.suffixStart] using this

end Writes

end Fragment

theorem writes_comparison {op : BinaryOp} {a b : Fragment} {la lb : Layout} (ha : a.Writes la)
    (hb : b.Writes lb) (h : comparison .sqlite op a b = .ok f) :
    f.Writes (.ofBinary op la lb a.isNullParam b.isNullParam) := by
  obtain ⟨hna, k, hk, rfl⟩ | ⟨hna, hnb, k, hk, rfl⟩ | ⟨hna, hnb, w, hw, rfl⟩ := comparison_ok h
  · rw [hna, Layout.ofBinary, if_pos rfl, hk]
    exact hb.infixed ha _
  · rw [hna, hnb, Layout.ofBinary, if_neg Bool.false_ne_true, if_pos rfl, hk]
    exact ha.infixed hb _
  · rw [hna, hnb, Layout.ofBinary, if_neg Bool.false_ne_true, if_neg Bool.false_ne_true, hw]
    exact ha.infixed hb _

/-- What is built writes its layout. -/
theorem Assembled.writes {e : Expr} (h : Assembled t .sqlite e f) : f.Writes (e.layout t) := by
  induction h with
  | column hc =>
    exact ⟨by simp [Expr.layout, hc, Except.toOption, Dialect.renderPiece, Spot.text], .nil⟩
  | parameter he hv hx =>
    rw [Expr.layout_of_isParameter t he, hv]
    exact ⟨rfl, .cons hx .nil⟩
  | binary _ _ hna hnb h iha ihb =>
    rw [Expr.layout, ← hna, ← hnb]
    exact writes_comparison iha ihb h
  | not _ ih =>
    constructor
    · simp [negation, Expr.layout, Dialect.renderPiece, Spot.text, ih.text]
    · simpa [negation, Expr.layout] using ih.bound
  | like _ _ ihe iha => exact ihe.infixed iha _
  | contains hlist _ _ ihe iha =>
    rw [Expr.layout_contains t _ _ hlist]
    constructor
    · simp [Dialect.position, Dialect.renderPiece, Spot.text, ihe.text, iha.text]
    · simpa using List.rel_append ihe.bound iha.bound
  | @isIn e vs f ps _ hps ih =>
    have hlist : Fragment.Writes
        { sql := Sql.parenthesized (Sql.joined "," (ps.map fun p => [.hole p.name])), params := ps }
        ((Expr.collection vs).layout t) := by
      have hm := Fragment.Writes.marks hps
      constructor
      · simp [Sql.parenthesized, Expr.layout, Dialect.renderPiece, Spot.text, hm.text]
      · simpa [Expr.layout] using hm.bound
    exact ih.infixed hlist _
  | startSlice _ _ hs ihe iha =>
    rw [Expr.layout_startsWith, hs]
    exact ihe.startSlice iha _
  | startPattern hc _ _ ihe iha =>
    rw [Expr.layout_startsWithMode, if_pos hc]
    exact ihe.startPattern iha
  | startsWithMode hc _ ih =>
    rw [Expr.layout_startsWithMode, if_neg (ne_true_of_eq_false hc)]
    exact ih
  | endSlice _ _ hs ihe iha =>
    rw [Expr.layout_endsWith, hs]
    exact ihe.endSlice iha _
  | endPattern hc _ _ ihe iha =>
    rw [Expr.layout_endsWithMode, if_pos hc]
    exact ihe.endPattern iha
  | endsWithMode hc _ ih =>
    rw [Expr.layout_endsWithMode, if_neg (ne_true_of_eq_false hc)]
    exact ih
  | equals _ _ ihe iha =>
    rw [Expr.layout_equals]
    constructor
    · simp [Dialect.renderPiece, Spot.text, ihe.text, iha.text]
    · simpa using List.rel_append ihe.bound iha.bound
  | toLower _ ih =>
    rw [Expr.layout_toLower]
    exact ⟨by simp [Dialect.renderPiece, Spot.text, ih.text], by simpa using ih.bound⟩
  | toUpper _ ih =>
    rw [Expr.layout_toUpper]
    exact ⟨by simp [Dialect.renderPiece, Spot.text, ih.text], by simpa using ih.bound⟩
  | replace _ _ _ ihe iha ihb =>
    rw [Expr.layout_replace]
    constructor
    · simp [Dialect.renderPiece, Spot.text, ihe.text, iha.text, ihb.text]
    · simpa using List.rel_append (List.rel_append ihe.bound iha.bound) ihb.bound
  | isNullOrEmpty _ ih =>
    rw [Expr.layout_isNullOrEmpty]
    constructor
    · simp [Dialect.renderPiece, Spot.text, ih.text]
    · simpa [repeated, Dialect.bindsByPosition] using List.rel_append ih.bound ih.bound
  | @method name e f as fs _ hlength _ ih ihs =>
    have hargs : List.Forall₂ (fun a g => g.Writes (a.layout t)) as fs :=
      List.forall₂_iff_zip.2 ⟨hlength, fun hag => ihs _ _ hag⟩
    rw [Expr.layout_method]
    exact .call (.cons ih (List.forall₂_map_right_iff.2 hargs.flip)) (.other name)
  | convert he _ hsql hparams ih =>
    rw [Expr.layout, he, if_neg Bool.false_ne_true]
    exact ⟨hsql ▸ ih.text, hparams ▸ ih.bound⟩
  | compareString _ _ _ iha ihb ihc =>
    rw [Expr.layout_compareString]
    exact .call (.cons iha (.cons ihb (.cons ihc .nil))) _

namespace Fragment

/-- The names that the text asks for are those that are bound. -/
def Named (f : Fragment) : Prop := ∀ n, n ∈ f.sql.holes ↔ n ∈ f.params.map Param.name

theorem Named.ofParts (parts : List Fragment) (h : ∀ g ∈ parts, g.Named)
    (hs : ∀ n, n ∈ f.sql.holes ↔ ∃ g ∈ parts, n ∈ g.sql.holes)
    (hp : ∀ n, n ∈ f.params.map Param.name ↔ ∃ g ∈ parts, n ∈ g.params.map Param.name) :
    f.Named := by
  intro n
  rw [hs, hp]
  constructor
  · rintro ⟨g, hg, hn⟩
    exact ⟨g, hg, (h g hg n).mp hn⟩
  · rintro ⟨g, hg, hn⟩
    exact ⟨g, hg, (h g hg n).mpr hn⟩

theorem Named.marks (ps : List Param) :
    Named { sql := Sql.parenthesized (Sql.joined "," (ps.map fun p => [.hole p.name])),
            params := ps } := by
  intro n
  simp [Sql.parenthesized, eq_comm]

end Fragment

theorem holes_concat (a b : Sql) : (d.concat a b).holes = a.holes ++ b.holes := by
  simp [Dialect.concat]

theorem holes_substr (a b c : Sql) : (d.substr a b c).holes = a.holes ++ b.holes ++ c.holes := by
  simp [Dialect.substr]

theorem holes_length (a : Sql) : (d.length a).holes = a.holes := by simp [Dialect.length]

theorem mem_holes_position (a b : Sql) (n : String) :
    n ∈ (d.position a b).holes ↔ n ∈ a.holes ∨ n ∈ b.holes := by
  cases d <;> simp [Dialect.position, or_comm]

theorem mem_repeated (ps : List Param) (n : String) :
    n ∈ (repeated d ps).map Param.name → n ∈ ps.map Param.name := by
  unfold repeated
  split <;> simp

section Named

variable {a b : Fragment}

theorem named_pair (ha : a.Named) (hb : b.Named)
    (hs : ∀ n, n ∈ f.sql.holes ↔ n ∈ a.sql.holes ∨ n ∈ b.sql.holes)
    (hp : ∀ n, n ∈ f.params.map Param.name ↔
      n ∈ a.params.map Param.name ∨ n ∈ b.params.map Param.name) : f.Named :=
  .ofParts [a, b] (by simp [ha, hb]) (by simpa using hs) (by simpa using hp)

theorem named_nullFragment (ha : a.Named) (hb : b.Named) (k : String) :
    (nullFragment d k a b).Named := by
  unfold nullFragment
  split
  · exact named_pair ha hb (by simp) (by simp)
  · exact .ofParts [a] (by simp [ha]) (by simp) (by simp)

theorem named_startPattern (ha : a.Named) (hb : b.Named) : (startPattern d a b).Named :=
  named_pair ha hb (by simp [startPattern, likePattern, holes_concat, anyString])
    (by simp [startPattern])

theorem named_startSlice (ha : a.Named) (hb : b.Named) (n : Nat) : (startSlice d a b n).Named :=
  named_pair ha hb (by simp [startSlice, slice, holes_substr, number]) (by simp [startSlice])

theorem named_endPattern (ha : a.Named) (hb : b.Named) : (endPattern d a b).Named :=
  named_pair ha hb (by simp [endPattern, likePattern, holes_concat, anyString])
    (by simp [endPattern])

theorem named_endSlice (ha : a.Named) (hb : b.Named) (n : Nat) : (endSlice d a b n).Named := by
  refine named_pair ha hb (by simp [endSlice, slice, holes_substr, holes_length, number])
    fun n => ?_
  have := mem_repeated (d := d) a.params n
  simp only [endSlice, List.map_append, List.mem_append]
  exact ⟨fun h => h.imp (fun h => h.elim id this) id, fun h => h.imp .inl id⟩

theorem named_plainCall {fs : List Fragment} (h : ∀ g ∈ fs, g.Named) (m : Method) :
    (plainCall m none fs).Named :=
  .ofParts fs h (by simp [plainCall]) (by simp [plainCall, List.map_flatMap])

end Named

theorem Assembled.named {e : Expr} (h : Assembled t d e f) : f.Named := by
  induction h with
  | column _ | parameter _ _ _ => simp [Fragment.Named]
  | binary _ _ _ _ h iha ihb =>
    obtain ⟨_, k, _, rfl⟩ | ⟨_, _, k, _, rfl⟩ | ⟨_, _, w, _, rfl⟩ := comparison_ok h
    · exact named_nullFragment ihb iha k
    · exact named_nullFragment iha ihb k
    · exact named_pair iha ihb (by simp [operatorFragment]) (by simp [operatorFragment])
  | @not _ g _ ih => exact .ofParts [g] (by simp [ih]) (by simp [negation]) (by simp [negation])
  | like _ _ ihe iha | equals _ _ ihe iha => exact named_pair ihe iha (by simp) (by simp)
  | contains _ _ _ ihe iha =>
    exact named_pair ihe iha (by simp [mem_holes_position]) (by simp)
  | @isIn _ _ _ ps _ _ ih => exact named_pair ih (.marks ps) (by simp [membership]) (by simp)
  | startSlice _ _ _ ihe iha => exact named_startSlice ihe iha _
  | startPattern _ _ _ ihe iha => exact named_startPattern ihe iha
  | endSlice _ _ _ ihe iha => exact named_endSlice ihe iha _
  | endPattern _ _ _ ihe iha => exact named_endPattern ihe iha
  | startsWithMode _ _ ih | endsWithMode _ _ ih => exact ih
  | @toLower _ g _ ih | @toUpper _ g _ ih => exact .ofParts [g] (by simp [ih]) (by simp) (by simp)
  | @replace _ _ _ fe fa fb _ _ _ ihe iha ihb =>
    exact .ofParts [fe, fa, fb] (by simp [ihe, iha, ihb]) (by simp) (by simp)
  | @isNullOrEmpty _ g _ ih =>
    refine .ofParts [g] (by simp [ih]) (by simp) fun n => ?_
    have := mem_repeated (d := d) g.params n
    rw [List.map_append, List.mem_append]
    simp only [List.mem_singleton, exists_eq_left]
    exact ⟨fun hn => hn.elim id this, .inl⟩
  | @method _ _ _ as fs _ hlength _ ih ihs =>
    have hargs : List.Forall₂ (fun _ g => g.Named) as fs :=
      List.forall₂_iff_zip.2 ⟨hlength, fun hag => ihs _ _ hag⟩
    refine named_plainCall (List.forall_mem_cons.2 ⟨ih, fun g hg => ?_⟩) _
    obtain ⟨_, -, hnamed⟩ := exists_of_mem_right hargs hg
    exact hnamed
  | convert _ _ hsql hparams ih =>
    rw [Fragment.Named, hsql, hparams]
    exact ih
  | compareString _ _ _ iha ihb ihc => exact named_plainCall (by simp [iha, ihb, ihc]) _

end Compile

/-- The table of a record with one field. -/
def Samples.tableOf (name : String) (s : Slot) : Mapping where
  typeName := name
  table := name
  columns := [.ofField s.field 0 .none, .sync]
  flags := .none
  key := none
  autoKey := none
  sync := 1

def Samples.notes : Mapping := Samples.tableOf "Note" (Samples.one "text" .text)

/-- Does the text end in `z` once each `x` in it is a `y`? -/
def Samples.replacedSuffix : Expr :=
  ((Expr.column "text").replace (.constant (.text "x")) (.constant (.text "y"))).endsWith
    (.constant (.text "z"))

theorem Samples.replacedSuffix_built : Samples.replacedSuffix.Built :=
  .endsWith (.replace (.column _) (.constant _) (.constant _)) (.constant _)

end RowLedger
