import RowLedger.Proofs.Predicate.Built
import RowLedger.Proofs.Predicate.Carried

/-! What the calls of the builder compile to: the text and the parameters of each. -/

namespace RowLedger.Compile

/-! A text is looked for at an end of another, by a pattern or in a slice of its length. -/

def startPattern (d : Dialect) (r arg : Fragment) : Fragment where
  sql := likePattern r.sql (d.concat arg.sql anyString)
  params := r.params ++ arg.params

def startSlice (d : Dialect) (r arg : Fragment) (n : Nat) : Fragment where
  sql := slice (d.substr r.sql (number 1) (number n)) arg.sql
  params := r.params ++ arg.params

def endPattern (d : Dialect) (r arg : Fragment) : Fragment where
  sql := likePattern r.sql (d.concat anyString arg.sql)
  params := r.params ++ arg.params

/-- The receiver stands twice in the text. -/
def endSlice (d : Dialect) (r arg : Fragment) (n : Nat) : Fragment where
  sql := slice (d.substr r.sql (d.length r.sql ++ [.word (" - " ++ Text.showInt n ++ "+1")])
    (number n)) arg.sql
  params := r.params ++ repeated d r.params ++ arg.params

namespace Compiles

variable {t : Mapping} {d : Dialect} {f : Fragment} {m : Method} {e a b : Expr}

theorem modeOf_mode {m : Method} (hm : m = .startsWith ∨ m = .endsWith) (a : Expr)
    (c : Comparison) :
    modeOf? m [a, Expr.mode c] = .ok (some c) := by
  rcases hm with rfl | rfl <;> cases c <;> rfl

theorem modeOf_one (m : Method) (a : Expr) : modeOf? m [a] = .ok none := by
  unfold modeOf?
  split <;> rfl

/-- A method on a receiver, of whose arguments one is compiled. -/
theorem onArg {as : List Expr} {mode : Option Comparison} (hmode : modeOf? m as = .ok mode)
    (has : as.take (if mode.isSome then 1 else as.length) = [a])
    (h : Compiles t d (.call m (some e) as) f) :
    ∃ fe fa, Compiles t d e fe ∧ Compiles t d a fa ∧
      applied d m mode e.isCollection (some fe) [fa] = .ok f := by
  obtain ⟨g, mode', fs, hr, hm, hfs, hf⟩ := h.call
  obtain rfl := Except.ok.inj (hmode.symm.trans hm)
  rw [has] at hfs
  obtain _ | @⟨_, fe, he⟩ := hr
  obtain _ | @⟨_, fa, _, _, ha, hrest⟩ := hfs
  cases hrest
  exact ⟨fe, fa, he, ha, hf⟩

/-- A method of one argument on a receiver. -/
theorem onOne (h : Compiles t d (.call m (some e) [a]) f) :
    ∃ fe fa, Compiles t d e fe ∧ Compiles t d a fa ∧
      applied d m none e.isCollection (some fe) [fa] = .ok f :=
  h.onArg (modeOf_one m a) rfl

/-- A prefix or suffix test with a mode. -/
theorem onMode {c : Comparison} (hm : m = .startsWith ∨ m = .endsWith)
    (h : Compiles t d (.call m (some e) [a, Expr.mode c]) f) :
    ∃ fe fa, Compiles t d e fe ∧ Compiles t d a fa ∧
      applied d m (some c) e.isCollection (some fe) [fa] = .ok f :=
  h.onArg (modeOf_mode hm a c) rfl

theorem like (h : Compiles t d (e.like a) f) :
    ∃ fe fa, Compiles t d e fe ∧ Compiles t d a fa ∧
      f = {
        sql := .word "(" :: fe.sql ++ .word " like " :: fa.sql ++ [.word ")"]
        params := fe.params ++ fa.params } := by
  obtain ⟨g, mode, fs, hr, hm, hfs, hf⟩ := h.call
  cases hr
  cases hm
  obtain _ | @⟨_, fe, _, _, he, hrest⟩ := hfs
  obtain _ | @⟨_, fa, _, _, ha, hrest⟩ := hrest
  cases hrest
  cases hf
  exact ⟨fe, fa, he, ha, by simp⟩

theorem contains (he : e.isCollection = false) (h : Compiles t d (e.contains a) f) :
    ∃ fe fa, Compiles t d e fe ∧ Compiles t d a fa ∧
      f = {
        sql := .word "( " :: d.position fe.sql fa.sql ++ [.word " >0 )"]
        params := fe.params ++ fa.params } := by
  obtain ⟨fe, fa, hfe, hfa, hf⟩ := h.onOne
  rw [he] at hf
  cases hf
  exact ⟨fe, fa, hfe, hfa, by simp⟩

theorem isIn {vs : List Value} (h : Compiles t d (e.isIn vs) f) :
    ∃ fe fs, Compiles t d e fe ∧ Compiles t d (.collection vs) fs ∧
      f = { sql := membership fe.sql fs.sql, params := fe.params ++ fs.params } := by
  obtain ⟨fs, fe, hfs, hfe, hf⟩ := h.onOne
  cases hf
  exact ⟨fe, fs, hfe, hfs, rfl⟩

theorem carriedLength_ok {n : Nat} (h : carriedLength m f = .ok n) :
    ∃ s, f.value = some (.text s) ∧ n = s.length := by
  unfold carriedLength at h
  split at h
  · rename_i s hs
    exact ⟨s, hs, (Except.ok.inj h).symm⟩
  · cases h

/-- Where case is ignored a pattern is made, and else a slice as long as the text that the argument
carries. -/
theorem patternOrSlice_ok {ignored : Bool} {arg pattern : Fragment} {slice : Nat → Fragment}
    (h : (if ignored then return pattern else return slice (← carriedLength m arg) :
      Except Error Fragment) = .ok f) :
    (ignored = true ∧ f = pattern) ∨
    (ignored = false ∧ ∃ s, arg.value = some (.text s) ∧ f = slice s.length) := by
  cases ignored with
  | true => exact .inl ⟨rfl, (Except.ok.inj h).symm⟩
  | false =>
    obtain ⟨n, hn, h⟩ := except_bind_ok.mp h
    obtain ⟨s, hs, rfl⟩ := carriedLength_ok hn
    exact .inr ⟨rfl, s, hs, (Except.ok.inj h).symm⟩

theorem startsWith_ok {mode : Option Comparison} {overList : Bool} {r arg : Fragment}
    (h : applied d .startsWith mode overList (some r) [arg] = .ok f) :
    ((mode.getD .currentCulture).ignoresCase = true ∧ f = startPattern d r arg) ∨
    ((mode.getD .currentCulture).ignoresCase = false ∧
      ∃ s, arg.value = some (.text s) ∧ f = startSlice d r arg s.length) := by
  refine patternOrSlice_ok (m := .startsWith) ?_
  rw [← h]
  simp [applied, startPattern, startSlice, bind, Except.bind]

theorem endsWith_ok {mode : Option Comparison} {overList : Bool} {r arg : Fragment}
    (h : applied d .endsWith mode overList (some r) [arg] = .ok f) :
    ((mode.getD .currentCulture).ignoresCase = true ∧ f = endPattern d r arg) ∨
    ((mode.getD .currentCulture).ignoresCase = false ∧
      ∃ s, arg.value = some (.text s) ∧ f = endSlice d r arg s.length) := by
  refine patternOrSlice_ok (m := .endsWith) ?_
  rw [← h]
  simp [applied, endPattern, endSlice, bind, Except.bind]

theorem equals (h : Compiles t d (e.equals a) f) :
    ∃ fe fa, Compiles t d e fe ∧ Compiles t d a fa ∧
      f = {
        sql := .word "(" :: fe.sql ++ .word " = (" :: fa.sql ++ [.word "))"]
        params := fe.params ++ fa.params } := by
  obtain ⟨fe, fa, hfe, hfa, hf⟩ := h.onOne
  cases hf
  exact ⟨fe, fa, hfe, hfa, by simp⟩

/-- A method without arguments on a receiver. -/
theorem onNone (h : Compiles t d (.call m (some e) []) f) :
    ∃ fe, Compiles t d e fe ∧ applied d m none e.isCollection (some fe) [] = .ok f := by
  obtain ⟨g, mode, fs, hr, hm, hfs, hf⟩ := h.call
  have hm' : mode = none := by
    unfold modeOf? at hm
    split at hm <;> exact (Except.ok.inj hm).symm
  subst hm'
  obtain _ | @⟨_, fe, he⟩ := hr
  cases hfs
  exact ⟨fe, he, hf⟩

theorem toLower (h : Compiles t d e.toLower f) :
    ∃ fe, Compiles t d e fe ∧
      f = { sql := .word "(lower(" :: fe.sql ++ [.word "))"], params := fe.params } := by
  obtain ⟨fe, he, hf⟩ := h.onNone
  cases hf
  exact ⟨fe, he, by simp⟩

theorem toUpper (h : Compiles t d e.toUpper f) :
    ∃ fe, Compiles t d e fe ∧
      f = { sql := .word "(upper(" :: fe.sql ++ [.word "))"], params := fe.params } := by
  obtain ⟨fe, he, hf⟩ := h.onNone
  cases hf
  exact ⟨fe, he, by simp⟩

theorem replace (h : Compiles t d (e.replace a b) f) :
    ∃ fe fa fb, Compiles t d e fe ∧ Compiles t d a fa ∧ Compiles t d b fb ∧
      f = {
        sql := .word "(replace(" :: fe.sql ++ .word "," :: fa.sql ++ .word "," :: fb.sql ++
          [.word "))"]
        params := fe.params ++ fa.params ++ fb.params } := by
  obtain ⟨g, mode, fs, hr, hm, hfs, hf⟩ := h.call
  cases hm
  obtain _ | @⟨_, fe, he⟩ := hr
  obtain _ | @⟨_, fa, _, _, ha, hrest⟩ := hfs
  obtain _ | @⟨_, fb, _, _, hb, hrest⟩ := hrest
  cases hrest
  cases hf
  exact ⟨fe, fa, fb, he, ha, hb, by simp⟩

theorem isNullOrEmpty (h : Compiles t d e.isNullOrEmpty f) :
    ∃ fe, Compiles t d e fe ∧
      f = {
        sql := .word "(" :: fe.sql ++ .word " is null or " :: fe.sql ++ [.word " = '')"]
        params := fe.params ++ repeated d fe.params } := by
  obtain ⟨g, mode, fs, hr, hm, hfs, hf⟩ := h.call
  cases hr
  cases hm
  obtain _ | @⟨_, fe, _, _, he, hrest⟩ := hfs
  cases hrest
  cases hf
  exact ⟨fe, he, by simp⟩

theorem method {name : String} {as : List Expr}
    (h : Compiles t d (.call (.other name) (some e) as) f) :
    ∃ fe fs, Compiles t d e fe ∧ List.Forall₂ (Compiles t d) as fs ∧
      f = plainCall (.other name) none (fe :: fs) := by
  obtain ⟨g, mode, fs, hr, hm, hfs, hf⟩ := h.call
  cases hm
  obtain _ | @⟨_, fe, he⟩ := hr
  rw [Option.isSome_none, if_neg Bool.false_ne_true, List.take_length] at hfs
  cases hf
  exact ⟨fe, fs, he, hfs, rfl⟩

theorem compareString {asText : Bool} (h : Compiles t d (Expr.compareString a b asText) f) :
    ∃ fa fb fc, Compiles t d a fa ∧ Compiles t d b fb ∧
      Compiles t d (.constant (.bool asText)) fc ∧
      f = plainCall .compareString none [fa, fb, fc] := by
  obtain ⟨g, mode, fs, hr, hm, hfs, hf⟩ := h.call
  cases hr
  cases hm
  obtain _ | @⟨_, fa, _, _, ha, hrest⟩ := hfs
  obtain _ | @⟨_, fb, _, _, hb, hrest⟩ := hrest
  obtain _ | @⟨_, fc, _, _, hc, hrest⟩ := hrest
  cases hrest
  cases hf
  exact ⟨fa, fb, fc, ha, hb, hc, rfl⟩

end Compiles

end RowLedger.Compile
