import RowLedger.Proofs.Predicate.Calls
import RowLedger.Proofs.Predicate.Layout

/-!
How the fragment of a built predicate is put together from those of its parts: one form for each
function of the builder, and two for a prefix or suffix test, which is a pattern where case is
ignored and a slice elsewhere. What the fragments of all predicates have in common is shown by
induction on how they were assembled.
-/

namespace RowLedger.Compile

inductive Assembled (t : Mapping) (d : Dialect) : Expr → Fragment → Prop
  | column {name : String} {c : Column} (hc : t.resolve name = .ok c) :
      Assembled t d (.column name) { sql := [.name c.name], params := [] }
  /-- A constant under any number of conversions. -/
  | parameter {e : Expr} {v : Value} {name : String} {x : SqlValue} (he : e.isParameter = true)
      (hv : e.carried? = some v) (hx : v.toSql = .ok x) :
      Assembled t d e
        { sql := [.hole name], params := [⟨name, x⟩], value := some v, isParam := true }
  | binary {op : BinaryOp} {a b : Expr} {fa fb f : Fragment} (ha : Assembled t d a fa)
      (hb : Assembled t d b fb) (hna : fa.isNullParam = a.isNullParameter)
      (hnb : fb.isNullParam = b.isNullParameter) (h : comparison d op fa fb = .ok f) :
      Assembled t d (.binary op a b) f
  | not {e : Expr} {f : Fragment} (h : Assembled t d e f) : Assembled t d e.not (negation f)
  | like {e a : Expr} {fe fa : Fragment} (he : Assembled t d e fe) (ha : Assembled t d a fa) :
      Assembled t d (e.like a) {
        sql := .word "(" :: fe.sql ++ .word " like " :: fa.sql ++ [.word ")"]
        params := fe.params ++ fa.params }
  | contains {e a : Expr} {fe fa : Fragment} (hlist : e.isCollection = false)
      (he : Assembled t d e fe) (ha : Assembled t d a fa) :
      Assembled t d (e.contains a) {
        sql := .word "( " :: d.position fe.sql fa.sql ++ [.word " >0 )"]
        params := fe.params ++ fa.params }
  | isIn {e : Expr} {vs : List Value} {f : Fragment} {ps : List Param} (h : Assembled t d e f)
      (hps : List.Forall₂ (fun v p => v.toSql = .ok p.value) vs ps) :
      Assembled t d (e.isIn vs) {
        sql := membership f.sql
          (Sql.parenthesized (Sql.joined "," (ps.map fun p => [.hole p.name])))
        params := f.params ++ ps }
  | startSlice {e a : Expr} {fe fa : Fragment} {s : String} (he : Assembled t d e fe)
      (ha : Assembled t d a fa) (hs : Expr.carriedLength [a] = s.length) :
      Assembled t d (e.startsWith a) (startSlice d fe fa s.length)
  | startPattern {e a : Expr} {fe fa : Fragment} {c : Comparison} (hc : c.ignoresCase = true)
      (he : Assembled t d e fe) (ha : Assembled t d a fa) :
      Assembled t d (e.startsWithMode a c) (startPattern d fe fa)
  | startsWithMode {e a : Expr} {f : Fragment} {c : Comparison} (hc : c.ignoresCase = false)
      (h : Assembled t d (e.startsWith a) f) : Assembled t d (e.startsWithMode a c) f
  | endSlice {e a : Expr} {fe fa : Fragment} {s : String} (he : Assembled t d e fe)
      (ha : Assembled t d a fa) (hs : Expr.carriedLength [a] = s.length) :
      Assembled t d (e.endsWith a) (endSlice d fe fa s.length)
  | endPattern {e a : Expr} {fe fa : Fragment} {c : Comparison} (hc : c.ignoresCase = true)
      (he : Assembled t d e fe) (ha : Assembled t d a fa) :
      Assembled t d (e.endsWithMode a c) (endPattern d fe fa)
  | endsWithMode {e a : Expr} {f : Fragment} {c : Comparison} (hc : c.ignoresCase = false)
      (h : Assembled t d (e.endsWith a) f) : Assembled t d (e.endsWithMode a c) f
  | equals {e a : Expr} {fe fa : Fragment} (he : Assembled t d e fe) (ha : Assembled t d a fa) :
      Assembled t d (e.equals a) {
        sql := .word "(" :: fe.sql ++ .word " = (" :: fa.sql ++ [.word "))"]
        params := fe.params ++ fa.params }
  | toLower {e : Expr} {f : Fragment} (h : Assembled t d e f) :
      Assembled t d e.toLower {
        sql := .word "(lower(" :: f.sql ++ [.word "))"]
        params := f.params }
  | toUpper {e : Expr} {f : Fragment} (h : Assembled t d e f) :
      Assembled t d e.toUpper {
        sql := .word "(upper(" :: f.sql ++ [.word "))"]
        params := f.params }
  | replace {e a b : Expr} {fe fa fb : Fragment} (he : Assembled t d e fe)
      (ha : Assembled t d a fa) (hb : Assembled t d b fb) :
      Assembled t d (e.replace a b) {
        sql := .word "(replace(" :: fe.sql ++ .word "," :: fa.sql ++ .word "," :: fb.sql ++
          [.word "))"]
        params := fe.params ++ fa.params ++ fb.params }
  | isNullOrEmpty {e : Expr} {f : Fragment} (h : Assembled t d e f) :
      Assembled t d e.isNullOrEmpty {
        sql := .word "(" :: f.sql ++ .word " is null or " :: f.sql ++ [.word " = '')"]
        params := f.params ++ repeated d f.params }
  | method {name : String} {e : Expr} {f : Fragment} {as : List Expr} {fs : List Fragment}
      (h : Assembled t d e f) (hlength : as.length = fs.length)
      (hs : ∀ a g, (a, g) ∈ as.zip fs → Assembled t d a g) :
      Assembled t d (.call (.other name) (some e) as) (plainCall (.other name) none (f :: fs))
  /-- What is no parameter is not bound anew. -/
  | convert {k : Kind} {e : Expr} {f g : Fragment} (he : e.isParameter = false)
      (h : Assembled t d e g) (hsql : f.sql = g.sql) (hparams : f.params = g.params) :
      Assembled t d (e.convert k) f
  | compareString {a b : Expr} {asText : Bool} {fa fb fc : Fragment} (ha : Assembled t d a fa)
      (hb : Assembled t d b fb) (hc : Assembled t d (.constant (.bool asText)) fc) :
      Assembled t d (Expr.compareString a b asText) (plainCall .compareString none [fa, fb, fc])

variable {t : Mapping} {d : Dialect} {f : Fragment}

theorem Compiles.carriedLength {e : Expr} {s : String} (h : Compiles t d e f)
    (hs : f.value = some (.text s)) : Expr.carriedLength [e] = s.length := by
  rw [h.carries.1] at hs
  simp [Expr.carriedLength, hs, Value.text?]

namespace Compiles

theorem assembled_parameter {e : Expr} (h : Compiles t d e f) (he : e.isParameter = true) :
    Assembled t d e f := by
  obtain ⟨v, name, x, hv, hx, rfl⟩ := h.parameter he
  exact .parameter he hv hx

/-- What is built is assembled: by induction on how it was built, one case for each function of the
builder. -/
theorem assembled {e : Expr} (he : e.Built) (h : Compiles t d e f) : Assembled t d e f := by
  induction he generalizing f with
  | column name =>
    obtain ⟨c, hc, rfl⟩ := h.column
    exact .column hc
  | constant v => exact h.assembled_parameter rfl
  | binary op _ _ iha ihb =>
    obtain ⟨fa, fb, ha, hb, hf⟩ := h.binary
    exact .binary (iha ha) (ihb hb) ha.isNullParam hb.isNullParam hf
  | not _ ih =>
    obtain ⟨g, hg, rfl⟩ := h.not
    exact .not (ih hg)
  | like _ _ ihe iha =>
    obtain ⟨fe, fa, he, ha, rfl⟩ := h.like
    exact .like (ihe he) (iha ha)
  | contains hbuilt _ ihe iha =>
    obtain ⟨fe, fa, he, ha, rfl⟩ := h.contains hbuilt.isCollection
    exact .contains hbuilt.isCollection (ihe he) (iha ha)
  | isIn vs _ ih =>
    obtain ⟨fe, fs, he, hs, rfl⟩ := h.isIn
    obtain ⟨ps, hps, rfl⟩ := hs.collection
    exact .isIn (ih he) hps
  | startsWith _ _ ihe iha =>
    obtain ⟨fe, fa, he, ha, hf⟩ := h.onOne
    obtain ⟨hc, -⟩ | ⟨-, s, hs, rfl⟩ := startsWith_ok hf
    · cases hc
    · exact .startSlice (ihe he) (iha ha) (ha.carriedLength hs)
  | startsWithMode c _ _ ihe iha =>
    obtain ⟨fe, fa, he, ha, hf⟩ := h.onMode (.inl rfl)
    obtain ⟨hc, rfl⟩ | ⟨hc, s, hs, rfl⟩ := startsWith_ok hf
    · exact .startPattern hc (ihe he) (iha ha)
    · exact .startsWithMode hc (.startSlice (ihe he) (iha ha) (ha.carriedLength hs))
  | endsWith _ _ ihe iha =>
    obtain ⟨fe, fa, he, ha, hf⟩ := h.onOne
    obtain ⟨hc, -⟩ | ⟨-, s, hs, rfl⟩ := endsWith_ok hf
    · cases hc
    · exact .endSlice (ihe he) (iha ha) (ha.carriedLength hs)
  | endsWithMode c _ _ ihe iha =>
    obtain ⟨fe, fa, he, ha, hf⟩ := h.onMode (.inr rfl)
    obtain ⟨hc, rfl⟩ | ⟨hc, s, hs, rfl⟩ := endsWith_ok hf
    · exact .endPattern hc (ihe he) (iha ha)
    · exact .endsWithMode hc (.endSlice (ihe he) (iha ha) (ha.carriedLength hs))
  | equals _ _ ihe iha =>
    obtain ⟨fe, fa, he, ha, rfl⟩ := h.equals
    exact .equals (ihe he) (iha ha)
  | toLower _ ih =>
    obtain ⟨fe, he, rfl⟩ := h.toLower
    exact .toLower (ih he)
  | toUpper _ ih =>
    obtain ⟨fe, he, rfl⟩ := h.toUpper
    exact .toUpper (ih he)
  | replace _ _ _ ihe iha ihb =>
    obtain ⟨fe, fa, fb, he, ha, hb, rfl⟩ := h.replace
    exact .replace (ihe he) (iha ha) (ihb hb)
  | isNullOrEmpty _ ih =>
    obtain ⟨fe, he, rfl⟩ := h.isNullOrEmpty
    exact .isNullOrEmpty (ih he)
  | method name _ _ ih ihs =>
    obtain ⟨fe, fs, he, hs, rfl⟩ := h.method
    obtain ⟨hlength, hs⟩ := List.forall₂_iff_zip.1 hs
    exact .method (ih he) hlength fun a g hag => ihs a (List.of_mem_zip hag).1 (hs hag)
  | @convert e k _ ih =>
    cases hp : e.isParameter with
    | true => exact h.assembled_parameter hp
    | false =>
      obtain ⟨g, hg, hf⟩ := h.convert
      obtain ⟨hsql, hparams⟩ := conversion_text (hg.carries.2.trans hp) hf
      exact .convert hp (ih hg) hsql hparams
  | compareString asText _ _ iha ihb =>
    obtain ⟨fa, fb, fc, ha, hb, hc, rfl⟩ := h.compareString
    exact .compareString (iha ha) (ihb hb) (hc.assembled_parameter rfl)
  | conditional => exact absurd h not_conditional

end Compiles

end RowLedger.Compile
