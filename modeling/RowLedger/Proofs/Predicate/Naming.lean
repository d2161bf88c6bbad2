import Mathlib.Data.List.Nodup
import Mathlib.Data.List.Perm.Basic
import RowLedger.Proofs.Predicate.Carried
import RowLedger.Proofs.Text.Numeral
import RowLedger.Samples

/-!
What the names of parameters are drawn for: each has a base and the number of earlier draws of that
base, and no two have both the same. Two names are the same text only where the count of one runs
into the base of the other.
-/

namespace RowLedger

namespace Compile

/-- The base of a drawn name, and how often it had been drawn before. -/
abbrev Origin := String × Nat

namespace Origin

def name (o : Origin) : String := numbered o.1 o.2

/-- The count as the name shows it: not at all at first. -/
def countDigits (n : Nat) : List Char := if n = 0 then [] else Text.natDigits n

/-- The second base is the first and digits, with which the first count begins; the rest of that is
the second count. -/
def Shadows (o p : Origin) : Prop :=
  ∃ ds ≠ [], p.1.toList = o.1.toList ++ ds ∧ countDigits o.2 = ds ++ countDigits p.2

theorem countDigits_injective : Function.Injective countDigits := by
  intro m n h
  unfold countDigits at h
  split_ifs at h with hm hn hn
  · rw [hm, hn]
  · exact absurd h.symm (Text.natDigits_ne_nil n)
  · exact absurd h (Text.natDigits_ne_nil m)
  · exact Text.natDigits_injective h

theorem toList_name (o : Origin) : o.name.toList = o.1.toList ++ countDigits o.2 := by
  unfold name numbered countDigits
  split_ifs
  · rw [List.append_nil]
  · rw [String.toList_append, Text.toList_showInt_natCast]

theorem name_eq_iff {o p : Origin} (h : o ≠ p) : o.name = p.name ↔ o.Shadows p ∨ p.Shadows o := by
  -- of two ways to cut one text the cuts are at one place, or a part lies between them
  rw [← String.toList_inj, toList_name, toList_name, List.append_eq_append_iff]
  have hsame {o p : Origin} {ds : List Char} (hbase : p.1.toList = o.1.toList ++ ds)
      (hcount : countDigits o.2 = ds ++ countDigits p.2) (hne : o ≠ p) : ds ≠ [] := by
    rintro rfl
    rw [List.append_nil] at hbase
    exact hne (Prod.ext (String.toList_inj.1 hbase.symm) (countDigits_injective hcount))
  constructor
  · rintro (⟨ds, hbase, hcount⟩ | ⟨ds, hbase, hcount⟩)
    · exact .inl ⟨ds, hsame hbase hcount h, hbase, hcount⟩
    · exact .inr ⟨ds, hsame hbase hcount h.symm, hbase, hcount⟩
  · rintro (⟨ds, -, hbase, hcount⟩ | ⟨ds, -, hbase, hcount⟩)
    · exact .inl ⟨ds, hbase, hcount⟩
    · exact .inr ⟨ds, hbase, hcount⟩

theorem nodup_map_name_iff {os : List Origin} (h : os.Nodup) :
    (os.map name).Nodup ↔ ∀ o ∈ os, ∀ p ∈ os, ¬o.Shadows p := by
  rw [List.nodup_map_iff_inj_on h]
  constructor
  · intro hinj o ho p hp hshadows
    have hne : o ≠ p := by
      rintro rfl
      obtain ⟨ds, hds, hbase, -⟩ := hshadows
      exact hds (List.append_cancel_left (hbase.symm.trans (List.append_nil _).symm))
    exact hne (hinj o ho p hp ((name_eq_iff hne).2 (.inl hshadows)))
  · intro hnone o ho p hp hname
    apply Classical.byContradiction
    intro hne
    exact ((name_eq_iff hne).1 hname).elim (hnone o ho p hp) (hnone p hp o ho)

end Origin

/-! What a draw changes. -/

theorem timesDrawn_drawName (hint : String) (s : Drawn) (b : String) :
    timesDrawn (drawName hint s).2 b =
      if b = baseName hint then timesDrawn s b + 1 else timesDrawn s b := by
  simp only [drawName, timesDrawn]
  split_ifs with hb
  · rw [hb, List.lookup_cons_self, Option.getD_some]
  · rw [List.lookup_cons, beq_false_of_ne hb, lookup_filter_ne hb]

/-- The origins of names that were drawn from one table of draws on, until it was another. -/
structure Origins (s s' : Drawn) (os : List Origin) : Prop where
  mono : ∀ b, timesDrawn s b ≤ timesDrawn s' b
  nodup : os.Nodup
  within : ∀ o ∈ os, timesDrawn s o.1 ≤ o.2 ∧ o.2 < timesDrawn s' o.1

/-- Names that were drawn in between. -/
def Draws (s s' : Drawn) (names : List String) : Prop :=
  ∃ os, Origins s s' os ∧ names = os.map Origin.name

namespace Draws

variable {s s₁ s' : Drawn} {as bs : List String}

theorem nil (s : Drawn) : Draws s s [] := ⟨[], ⟨fun _ => Nat.le_refl _, .nil, nofun⟩, rfl⟩

theorem draw (hint : String) (s : Drawn) :
    Draws s (drawName hint s).2 [(drawName hint s).1] := by
  refine ⟨[(baseName hint, timesDrawn s (baseName hint))],
    ⟨fun b => ?_, List.nodup_singleton _, ?_⟩, rfl⟩
  · rw [timesDrawn_drawName]
    split_ifs <;> omega
  · intro o ho
    rw [List.mem_singleton.1 ho, timesDrawn_drawName, if_pos rfl]
    exact ⟨Nat.le_refl _, Nat.lt_succ_self _⟩

theorem append (ha : Draws s s₁ as) (hb : Draws s₁ s' bs) : Draws s s' (as ++ bs) := by
  obtain ⟨os, ho, rfl⟩ := ha
  obtain ⟨ps, hp, rfl⟩ := hb
  refine ⟨os ++ ps, ⟨fun b => Nat.le_trans (ho.mono b) (hp.mono b), ?_, ?_⟩, List.map_append.symm⟩
  · -- the later draws of a base have the higher counts
    apply List.Nodup.append ho.nodup hp.nodup
    intro o hos hps
    have := (ho.within o hos).2
    have := (hp.within o hps).1
    omega
  · intro o hmem
    rcases List.mem_append.1 hmem with hmem | hmem
    · exact ⟨(ho.within o hmem).1, Nat.lt_of_lt_of_le (ho.within o hmem).2 (hp.mono o.1)⟩
    · exact ⟨Nat.le_trans (ho.mono o.1) (hp.within o hmem).1, (hp.within o hmem).2⟩

theorem sublist (ha : Draws s s' as) (h : List.Sublist bs as) : Draws s s' bs := by
  obtain ⟨os, ho, rfl⟩ := ha
  obtain ⟨ps, hps, rfl⟩ := List.sublist_map_iff.1 h
  exact ⟨ps, ⟨ho.mono, ho.nodup.sublist hps, fun o hmem => ho.within o (hps.subset hmem)⟩, rfl⟩

theorem perm (ha : Draws s s' as) (h : List.Perm bs as) : Draws s s' bs := by
  obtain ⟨os, ho, rfl⟩ := ha
  obtain ⟨ps, rfl, hps⟩ : Relation.Comp (· = List.map Origin.name ·) List.Perm bs os := by
    rwa [List.eq_map_comp_perm]
  exact ⟨ps, ⟨ho.mono, hps.nodup_iff.2 ho.nodup, fun o hmem => ho.within o (hps.subset hmem)⟩, rfl⟩

end Draws

/-! The names of a node are drawn below it. -/

def Fragment.names (f : Fragment) : List String := f.params.map Param.name

variable {t : Mapping} {f : Fragment}

theorem repeated_sqlServer (ps : List Param) : repeated .sqlServer ps = [] := rfl

/-- A null is not bound, and everything else is. -/
theorem names_comparison {op : BinaryOp} {a b : Fragment}
    (h : comparison .sqlServer op a b = .ok f) : f.names.Sublist (a.names ++ b.names) := by
  obtain ⟨_, k, _, rfl⟩ | ⟨_, _, k, _, rfl⟩ | ⟨_, _, w, _, rfl⟩ := comparison_ok h
  · exact List.sublist_append_right _ _
  · exact List.sublist_append_left _ _
  · rw [Fragment.names, operatorFragment, List.map_append]
    exact List.Sublist.refl _

theorem names_conversion {g : Fragment} {k : Kind} (h : conversion g k = .ok f) :
    f.names = g.names := by
  unfold conversion at h
  split at h
  · cases h
    rfl
  · obtain ⟨v, _, h⟩ := except_bind_ok.mp h
    split at h
    · -- the last value is replaced under the name that it has
      obtain ⟨x, _, h⟩ := except_bind_ok.mp h
      cases h
      unfold Fragment.names
      dsimp only
      split
      · next p hp =>
        rw [← List.dropLast_append_getLast? p hp]
        simp
      · next hp => rw [List.getLast?_eq_none_iff.1 hp]
    · cases h
      rfl

theorem names_applied {m : Method} {mode : Option Comparison} {overList : Bool}
    {receiver : Option Fragment} {args : List Fragment}
    (h : applied .sqlServer m mode overList receiver args = .ok f) :
    f.names.Perm (receiver.toList.flatMap Fragment.names ++ args.flatMap Fragment.names) := by
  have hall {f : Fragment}
      (hf : f.params = receiver.toList.flatMap Fragment.params ++ args.flatMap Fragment.params) :
      f.names.Perm (receiver.toList.flatMap Fragment.names ++ args.flatMap Fragment.names) := by
    rw [Fragment.names, hf, List.map_append, List.map_flatMap, List.map_flatMap]
    exact .refl _
  unfold applied at h
  dsimp only at h
  split at h
  case h_1 | h_2 =>
    cases h
    exact hall rfl
  case h_10 =>
    cases h
    exact hall (by simp [repeated_sqlServer])
  case h_11 =>
    cases h
    exact hall (by simp [plainCall, List.flatMap_append])
  all_goals
    obtain ⟨r, hr, h⟩ := except_bind_ok.mp h
    obtain rfl : receiver = some r := by
      split at hr <;> cases hr
      rfl
  case h_6 | h_7 | h_8 | h_9 =>
    cases h
    exact hall rfl
  all_goals split at h
  case h_3.isTrue =>
    -- a list that is the receiver stands after the item that is looked for in it
    cases h
    simpa [Fragment.names] using List.perm_append_comm
  case h_4.isFalse | h_5.isFalse =>
    obtain ⟨n, _, h⟩ := except_bind_ok.mp h
    cases h
    exact hall (by simp [repeated_sqlServer])
  all_goals
    cases h
    exact hall rfl

theorem draws_elements {hint : String} {vs : List Value} {ps : List Param} {s s' : Drawn}
    (h : elements hint vs s = .ok (ps, s')) : Draws s s' (ps.map Param.name) := by
  induction vs generalizing ps s s' with
  | nil =>
    rw [elements, pure_ok] at h
    cases h
    exact .nil s
  | cons v vs ih =>
    simp only [elements, bind_ok, pure_ok, lift_ok] at h
    obtain ⟨name, s₁, hdraw, x, s₂, ⟨_, rfl⟩, qs, s₃, hqs, hps⟩ := h
    cases hps
    cases hdraw
    exact (Draws.draw hint s).append (ih hqs)

mutual

-- by recursion on the expression; each part starts from the draws that the part before it left
theorem draws_fragment : ∀ (e : Expr) {hint : String} {s s' : Drawn} {f : Fragment},
    fragment t .sqlServer hint e s = .ok (f, s') → Draws s s' f.names
  | .column name, hint, s, s', f, h => by
    simp only [fragment, bind_ok, pure_ok, lift_ok] at h
    obtain ⟨c, s₁, ⟨_, rfl⟩, hf⟩ := h
    cases hf
    exact .nil s
  | .constant v, hint, s, s', f, h => by
    simp only [fragment, Compile.constant, bind_ok, pure_ok, lift_ok] at h
    obtain ⟨name, s₁, hdraw, x, s₂, ⟨_, rfl⟩, hf⟩ := h
    cases hf
    cases hdraw
    exact .draw hint s
  | .collection vs, hint, s, s', f, h => by
    simp only [fragment, Compile.collection, bind_ok, pure_ok] at h
    obtain ⟨ps, s₁, hps, hf⟩ := h
    cases hf
    exact draws_elements hps
  | .binary op a b, hint, s, s', f, h => by
    simp only [fragment, bind_ok, lift_ok] at h
    obtain ⟨fa, s₁, ha, fb, s₂, hb, hf, rfl⟩ := h
    exact ((draws_fragment a ha).append (draws_fragment b hb)).sublist (names_comparison hf)
  | .not e, hint, s, s', f, h => by
    simp only [fragment, bind_ok, pure_ok] at h
    obtain ⟨g, s₁, hg, hf⟩ := h
    cases hf
    show Draws s s' g.names
    exact draws_fragment e hg
  | .call m r as, hint, s, s', f, h => by
    simp only [fragment, bind_ok, lift_ok] at h
    obtain ⟨g, s₁, hg, mode, s₂, ⟨_, rfl⟩, fs, s₃, hfs, hf, rfl⟩ := h
    exact ((draws_receiver r hg).append (draws_args _ as hfs)).perm (names_applied hf)
  | .convert e k, hint, s, s', f, h => by
    simp only [fragment, bind_ok, lift_ok] at h
    obtain ⟨g, s₁, hg, hf, rfl⟩ := h
    rw [names_conversion hf]
    exact draws_fragment e hg
  | .conditional a b c, hint, s, s', f, h => by
    rw [fragment] at h
    exact absurd h throw_ok

theorem draws_receiver : ∀ (r : Option Expr) {hint : String} {s s' : Drawn} {g : Option Fragment},
    receiverFragment t .sqlServer hint r s = .ok (g, s') →
      Draws s s' (g.toList.flatMap Fragment.names)
  | none, hint, s, s', g, h => by
    rw [receiverFragment, pure_ok] at h
    cases h
    exact .nil s
  | some e, hint, s, s', g, h => by
    simp only [receiverFragment, bind_ok, pure_ok] at h
    obtain ⟨g', s₁, hg, hf⟩ := h
    cases hf
    rw [Option.toList_some, List.flatMap_singleton]
    exact draws_fragment e hg

theorem draws_args : ∀ (count : Nat) (as : List Expr) {hint : String} {s s' : Drawn}
    {fs : List Fragment}, argFragments t .sqlServer hint count as s = .ok (fs, s') →
      Draws s s' (fs.flatMap Fragment.names)
  | 0, as, hint, s, s', fs, h => by
    rw [argFragments, pure_ok] at h
    cases h
    exact .nil s
  | count + 1, [], hint, s, s', fs, h => by
    simp only [argFragments, pure_ok] at h
    cases h
    exact .nil s
  | count + 1, e :: es, hint, s, s', fs, h => by
    simp only [argFragments, bind_ok, pure_ok] at h
    obtain ⟨f, s₁, hf, gs, s₂, hgs, hfs⟩ := h
    cases hfs
    rw [List.flatMap_cons]
    exact (draws_fragment e hf).append (draws_args count es hgs)

end

end Compile

open Compile in
/-- The names of the parameters of a predicate for SQL Server have origins of which no two are the
same. They are distinct names exactly if no origin runs into the base of another. -/
theorem compile_names {t : Mapping} {e : Expr} {c : Condition}
    (h : compile e t .sqlServer = .ok c) :
    ∃ (f : Fragment) (drawn : Drawn) (os : List Origin),
      (fragment t .sqlServer "" e.opened).run [] = .ok (f, drawn) ∧
      c.params = f.params ∧ os.Nodup ∧ (∀ o ∈ os, o.2 < timesDrawn drawn o.1) ∧
      c.params.map Param.name = os.map Origin.name ∧
      ((c.params.map Param.name).Nodup ↔ ∀ o ∈ os, ∀ p ∈ os, ¬o.Shadows p) := by
  obtain ⟨⟨f, drawn⟩, hf, hc⟩ := except_bind_ok.1 h
  cases hc
  obtain ⟨os, horigins, hnames⟩ := draws_fragment e.opened hf
  have hparams : f.params.map Param.name = os.map Origin.name := hnames
  refine ⟨f, drawn, os, hf, rfl, horigins.nodup, fun o ho => (horigins.within o ho).2, hparams, ?_⟩
  rw [hparams]
  exact Origin.nodup_map_name_iff horigins.nodup

namespace Samples

/-- A table with two numbers in a row. -/
def lines : Mapping where
  typeName := "Lines"
  table := "Lines"
  columns := [.ofField (one "line" (.int .i32)).field 0 .none,
    .ofField (one "line1" (.int .i32)).field 1 .none, .sync]
  flags := .none
  key := none
  autoKey := none
  sync := 2

def number (n : Int) : Expr := .constant (.int (Sized.clamp .i32 n))

/-- Two bounds on the one column, and a value of the other. -/
def lineRange : Expr :=
  ((((Expr.column "line").gt (number 1)).and ((Expr.column "line").lt (number 9))).and
    ((Expr.column "line1").eq (number 5)))

/-- The second name of `Line` is the first of `Line1`: one count runs into the other base. -/
theorem lineRange_names :
    ∃ c, compile lineRange lines .sqlServer = .ok c ∧ ¬(c.params.map Param.name).Nodup ∧
      ∃ os : List Compile.Origin, os.Nodup ∧
        c.params.map Param.name = os.map Compile.Origin.name ∧ ∃ o ∈ os, ∃ p ∈ os, o.Shadows p := by
  have hcompiled : (compile lineRange lines .sqlServer).toOption.map
      (fun c => c.params.map Param.name) = some ["Line", "Line1", "Line1"] := by
    decide +kernel
  obtain ⟨c, hc, hnames⟩ := Option.map_eq_some_iff.1 hcompiled
  have hok : compile lineRange lines .sqlServer = .ok c := by
    cases hr : compile lineRange lines .sqlServer with
    | ok c' =>
      rw [hr] at hc
      exact congrArg Except.ok (Option.some.inj hc)
    | error e =>
      rw [hr] at hc
      cases hc
  have htwice : ¬(c.params.map Param.name).Nodup := by
    rw [hnames]
    decide
  obtain ⟨_, _, os, _, _, hnodup, _, horigins, hiff⟩ := compile_names hok
  refine ⟨c, hok, htwice, os, hnodup, horigins, ?_⟩
  apply Classical.byContradiction
  intro hnone
  exact htwice (hiff.2 fun o ho p hp hshadows => hnone ⟨o, ho, p, hp, hshadows⟩)

end Samples

end RowLedger
