import RowLedger.Proofs.Predicate.Carried

/-!
A predicate for the two dialects. Neither its text nor the names of its parameters are the same,
and no error depends on either; what the one binds and the other does not is a second copy of a
text that stands twice, or a null that is written out.
-/

namespace RowLedger

namespace Compile

/-- Both fail with one error, or both results are related. -/
def InStep {α β : Type} (R : α → β → Prop) : Except Error α → Except Error β → Prop
  | .error x, .error y => x = y
  | .ok a, .ok b => R a b
  | _, _ => False

/-- The same, whatever had been drawn before. -/
def DrawsInStep {α β : Type} (R : α → β → Prop) (x : Naming α) (y : Naming β) : Prop :=
  ∀ s s', InStep (fun a b => R a.1 b.1) (x s) (y s')

section InStep

variable {α β γ δ : Type} {R : α → β → Prop} {S : γ → δ → Prop}

theorem InStep.bind {x : Except Error α} {y : Except Error β} {f : α → Except Error γ}
    {g : β → Except Error δ} (h : InStep R x y) (hfg : ∀ a b, R a b → InStep S (f a) (g b)) :
    InStep S (x >>= f) (y >>= g) := by
  cases x with
  | error e =>
    cases y with
    | error e' => exact h
    | ok b => exact h.elim
  | ok a =>
    cases y with
    | error e' => exact h.elim
    | ok b => exact hfg a b h

theorem InStep.same (x : Except Error α) : InStep (· = ·) x x := by
  cases x <;> exact rfl

namespace DrawsInStep

theorem bind {x : Naming α} {y : Naming β} {f : α → Naming γ} {g : β → Naming δ}
    (h : DrawsInStep R x y) (hfg : ∀ a b, R a b → DrawsInStep S (f a) (g b)) :
    DrawsInStep S (x >>= f) (y >>= g) := fun s s' =>
  InStep.bind (h s s') fun a b hab => hfg a.1 b.1 hab a.2 b.2

theorem pure {a : α} {b : β} (h : R a b) :
    DrawsInStep R (Pure.pure a : Naming α) (Pure.pure b) := fun _ _ => h

theorem lift {x : Except Error α} {y : Except Error β} (h : InStep R x y) :
    DrawsInStep R (liftM x : Naming α) (liftM y) := fun s s' =>
  InStep.bind h fun _ _ hab => (hab : InStep (fun a b => R a.1 b.1) (.ok (_, s)) (.ok (_, s')))

theorem draw (hint hint' : String) :
    DrawsInStep (fun _ _ => True) (draw hint) (draw hint') := fun _ _ => trivial

end DrawsInStep

end InStep

/-- The values of some parameters. -/
def bound (ps : List Param) : List SqlValue := ps.map Param.value

/-- The second list binds what the first does without some values, of which those that are not
null are copies. -/
structure Thins (ps qs : List Param) : Prop where
  sublist : (bound qs).Sublist (bound ps)
  kept : ∀ x ∈ bound ps, x ≠ .null → x ∈ bound qs

theorem bound_append (ps qs : List Param) : bound (ps ++ qs) = bound ps ++ bound qs :=
  List.map_append

namespace Thins

variable {ps ps' qs qs' : List Param}

theorem of_eq (h : bound ps = bound qs) : Thins ps qs where
  sublist := by rw [h]
  kept x hx _ := by rwa [← h]

theorem append (h : Thins ps qs) (h' : Thins ps' qs') : Thins (ps ++ ps') (qs ++ qs') where
  sublist := by
    rw [bound_append, bound_append]
    exact h.sublist.append h'.sublist
  kept x hx hne := by
    rw [bound_append, List.mem_append] at hx ⊢
    exact hx.imp (h.kept x · hne) (h'.kept x · hne)

/-- Nothing is lost with what is null, or bound by the first list already. -/
theorem append_left (h : Thins ps qs) (hps : ∀ x ∈ bound ps', x ≠ .null → x ∈ bound ps) :
    Thins (ps ++ ps') qs where
  sublist := by
    rw [bound_append]
    exact h.sublist.trans (List.sublist_append_left _ _)
  kept x hx hne := by
    rw [bound_append, List.mem_append] at hx
    exact h.kept x (hx.elim id (hps x · hne)) hne

/-- A text that stands twice is bound twice, or once. -/
theorem repeated (h : Thins ps qs) (rs : List Param) {ss : List Param} (hss : ss ⊆ ps) :
    Thins (ps ++ repeated .sqlite ss) (qs ++ repeated .sqlServer rs) := by
  change Thins (ps ++ ss) (qs ++ [])
  rw [List.append_nil]
  exact h.append_left fun x hx _ => List.map_subset Param.value hss hx

end Thins

/-- What two fragments for one node share. A parameter is bound to the value that it carries. -/
structure Alike (f g : Fragment) : Prop where
  thins : Thins f.params g.params
  value : f.value = g.value
  isParam : f.isParam = g.isParam
  parameter : f.isParam = true →
    ∃ v x, f.value = some v ∧ v.toSql = .ok x ∧ bound f.params = [x] ∧ bound g.params = [x]

namespace Alike

variable {f f' g g' : Fragment}

/-- Of fragments that carry nothing only the parameters count. -/
theorem plain {sql sql' : Sql} {ps qs : List Param} (h : Thins ps qs) :
    Alike { sql, params := ps } { sql := sql', params := qs } where
  thins := h
  value := rfl
  isParam := rfl
  parameter := nofun

theorem isNullParam (h : Alike f g) : f.isNullParam = g.isNullParam := by
  rw [Fragment.isNullParam, Fragment.isNullParam, h.isParam, h.value]

theorem bound_null (h : Alike f g) (hf : f.isNullParam = true) :
    bound f.params = [.null] := by
  rw [Fragment.isNullParam, Bool.and_eq_true, beq_iff_eq] at hf
  obtain ⟨v, x, hv, hx, hbound, -⟩ := h.parameter hf.1
  rw [hf.2] at hv
  cases hv
  cases hx
  exact hbound

end Alike

/-! The nodes, their parts being compiled. -/

variable {f f' g g' : Fragment}

/-- The one dialect binds the null, the other writes it. -/
theorem nullComparison_inStep (op : BinaryOp) (h : Alike f g) (h' : Alike f' g')
    (hnull : f'.isNullParam = true) :
    InStep Alike (nullComparison .sqlite op f f') (nullComparison .sqlServer op g g') := by
  rw [nullComparison_eq, nullComparison_eq]
  cases op.nullKeyword? with
  | none => exact rfl
  | some keyword =>
    refine Alike.plain (h.thins.append_left fun x hx hne => ?_)
    rw [h'.bound_null hnull, List.mem_singleton] at hx
    exact absurd hx hne

theorem comparison_inStep (op : BinaryOp) (h : Alike f g) (h' : Alike f' g') :
    InStep Alike (comparison .sqlite op f f') (comparison .sqlServer op g g') := by
  unfold comparison
  rw [← h.isNullParam, ← h'.isNullParam]
  by_cases hf : f.isNullParam = true
  · rw [if_pos hf, if_pos hf]
    exact nullComparison_inStep op h' h hf
  rw [if_neg hf, if_neg hf]
  by_cases hf' : f'.isNullParam = true
  · rw [if_pos hf', if_pos hf']
    exact nullComparison_inStep op h h' hf'
  rw [if_neg hf', if_neg hf']
  cases op.token? with
  | none => exact rfl
  | some token => exact Alike.plain (h.thins.append h'.thins)

theorem negation_alike (h : Alike f g) : Alike (negation f) (negation g) where
  thins := h.thins
  value := by rw [negation, negation, h.value]
  isParam := rfl
  parameter := nofun

/-- What a conversion binds in the place of the value of a parameter. -/
theorem bound_rebound {ps : List Param} {x y : SqlValue} (h : bound ps = [x]) :
    bound (match ps.getLast? with
      | some p => ps.dropLast ++ [{ p with value := y }]
      | none => []) = [y] := by
  obtain ⟨p, rfl, -⟩ := List.map_eq_singleton_iff.1 h
  rfl

theorem conversion_inStep (k : Kind) (h : Alike f g) :
    InStep Alike (conversion f k) (conversion g k) := by
  unfold conversion
  rw [← h.value, ← h.isParam]
  cases hv : f.value with
  | none => exact h
  | some v =>
    refine (InStep.same (v.convert k)).bind fun w _ hw => ?_
    subst hw
    by_cases hf : f.isParam = true
    · rw [if_pos hf, if_pos hf]
      cases hx : w.toSql with
      | error e => exact rfl
      | ok x =>
        obtain ⟨_, _, _, _, hbound, hbound'⟩ := h.parameter hf
        have hb := bound_rebound (y := x) hbound
        have hb' := bound_rebound (y := x) hbound'
        exact {
          thins := .of_eq (hb.trans hb'.symm)
          value := rfl
          isParam := rfl
          parameter := fun _ => ⟨w, x, rfl, hx, hb, hb'⟩ }
    · rw [if_neg hf, if_neg hf]
      exact {
        thins := h.thins
        value := rfl
        isParam := rfl
        parameter := fun hp => absurd hp hf }

theorem carriedLength_eq (m : Method) (h : Alike f g) : carriedLength m f = carriedLength m g := by
  rw [carriedLength, carriedLength, h.value]

/-- The parameters of some fragments, one after the other. -/
theorem flatMap_thins {fs gs : List Fragment} (h : List.Forall₂ Alike fs gs) :
    Thins (fs.flatMap Fragment.params) (gs.flatMap Fragment.params) := by
  induction h with
  | nil => exact .of_eq rfl
  | cons hfg _ ih =>
    rw [List.flatMap_cons, List.flatMap_cons]
    exact hfg.thins.append ih

theorem receiver_toList {r r' : Option Fragment} (h : Option.Rel Alike r r') :
    List.Forall₂ Alike r.toList r'.toList := by
  cases h with
  | none => exact .nil
  | some h => exact .cons h .nil

/-- A call that needs a receiver. -/
theorem onReceiver {r r' : Option Fragment} {x y : Fragment → Except Error Fragment}
    (h : Option.Rel Alike r r') (err : Error)
    (hxy : ∀ f g, Alike f g → InStep Alike (x f) (y g)) :
    InStep Alike
      ((match r with | some r => Except.ok r | none => .error err) >>= x)
      ((match r' with | some r => Except.ok r | none => .error err) >>= y) := by
  cases h with
  | none => exact rfl
  | some h => exact hxy _ _ h

theorem applied_inStep (m : Method) (mode : Option Comparison) (overList : Bool)
    {r r' : Option Fragment} {as bs : List Fragment} (hr : Option.Rel Alike r r')
    (has : List.Forall₂ Alike as bs) :
    InStep Alike (applied .sqlite m mode overList r as)
      (applied .sqlServer m mode overList r' bs) := by
  have all : Thins (r.toList.flatMap Fragment.params ++ as.flatMap Fragment.params)
      (r'.toList.flatMap Fragment.params ++ bs.flatMap Fragment.params) :=
    (flatMap_thins (receiver_toList hr)).append (flatMap_thins has)
  have plain : Alike (plainCall m r as) (plainCall m r' bs) := by
    refine .plain ?_
    rw [List.flatMap_append, List.flatMap_append]
    exact all
  cases has with
  | nil =>
    cases m with
    | toLower | toUpper => exact onReceiver hr _ fun _ _ _ => .plain all
    | _ => exact plain
  | @cons f g as bs ha has =>
    cases has with
    | nil =>
      cases m with
      | contains =>
        refine onReceiver hr _ fun _ _ h => ?_
        cases overList with
        | true => exact .plain (ha.thins.append h.thins)
        | false => exact .plain all
      | equals => exact onReceiver hr _ fun _ _ _ => .plain all
      | startsWith =>
        refine onReceiver hr _ fun _ _ h => ?_
        split
        · exact .plain all
        · rw [← carriedLength_eq _ ha]
          exact (InStep.same (carriedLength .startsWith f)).bind fun _ _ _ => .plain all
      | endsWith =>
        refine onReceiver hr _ fun _ _ h => ?_
        split
        · exact .plain all
        · rw [← carriedLength_eq _ ha]
          refine (InStep.same (carriedLength .endsWith f)).bind fun _ _ _ => .plain ?_
          exact (h.thins.repeated _ (List.Subset.refl _)).append ha.thins
      | isNullOrEmpty =>
        refine .plain (all.repeated _ ?_)
        rw [List.flatMap_singleton]
        exact List.subset_append_right _ _
      | _ => exact plain
    | cons ha' has =>
      cases has with
      | nil =>
        cases m with
        | like | contains => exact .plain all
        | replace => exact onReceiver hr _ fun _ _ _ => .plain all
        | _ => exact plain
      | cons ha'' has => cases m <;> exact plain

/-! The trees. -/

theorem elements_inStep (hint hint' : String) (vs : List Value) :
    DrawsInStep (fun ps qs => bound ps = bound qs) (elements hint vs)
      (elements hint' vs) := by
  induction vs with
  | nil => exact .pure rfl
  | cons v vs ih =>
    refine (DrawsInStep.draw hint hint').bind fun _ _ _ => ?_
    refine (DrawsInStep.lift (.same v.toSql)).bind fun x _ hx => ?_
    exact ih.bind fun _ _ h => .pure (congrArg₂ List.cons hx h)

variable (t : Mapping)

mutual

-- by recursion on the expression; the hints are whatever the text on the left makes of them
theorem fragment_inStep : ∀ (e : Expr) (hint hint' : String),
    DrawsInStep Alike (fragment t .sqlite hint e) (fragment t .sqlServer hint' e)
  | .column name, hint, hint' => by
    simp only [fragment]
    exact (DrawsInStep.lift (.same (t.resolve name))).bind fun _ _ _ => .pure (.plain (.of_eq rfl))
  | .constant v, hint, hint' => by
    simp only [fragment, constant]
    refine (DrawsInStep.draw hint hint').bind fun _ _ _ => ?_
    intro s s'
    cases hx : v.toSql with
    | error e => exact rfl
    | ok x =>
      exact {
        thins := .of_eq rfl
        value := rfl
        isParam := rfl
        parameter := fun _ => ⟨v, x, rfl, hx, rfl, rfl⟩ }
  | .collection vs, hint, hint' => by
    simp only [fragment, collection]
    exact (elements_inStep hint hint' vs).bind fun _ _ h => .pure (.plain (.of_eq h))
  | .binary op a b, hint, hint' => by
    simp only [fragment]
    refine (fragment_inStep a hint hint').bind fun f g ha => ?_
    refine (fragment_inStep b _ _).bind fun _ _ hb => ?_
    exact .lift (comparison_inStep op ha hb)
  | .not e, hint, hint' => by
    simp only [fragment]
    exact (fragment_inStep e hint hint').bind fun _ _ h => .pure (negation_alike h)
  | .convert e k, hint, hint' => by
    simp only [fragment]
    exact (fragment_inStep e hint hint').bind fun _ _ h => .lift (conversion_inStep k h)
  | .conditional a b c, hint, hint' => by
    simp only [fragment]
    exact fun _ _ => rfl
  | .call m r as, hint, hint' => by
    simp only [fragment]
    refine (receiver_inStep r hint hint').bind fun f g hr => ?_
    refine (DrawsInStep.lift (.same (modeOf? m as))).bind fun mode _ hmode => ?_
    cases hmode
    refine (args_inStep _ as _ _).bind fun _ _ has => ?_
    exact .lift (applied_inStep m mode _ hr has)

theorem receiver_inStep : ∀ (r : Option Expr) (hint hint' : String),
    DrawsInStep (Option.Rel Alike) (receiverFragment t .sqlite hint r)
      (receiverFragment t .sqlServer hint' r)
  | none, hint, hint' => by
    simp only [receiverFragment]
    exact .pure .none
  | some e, hint, hint' => by
    simp only [receiverFragment]
    exact (fragment_inStep e hint hint').bind fun _ _ h => .pure (.some h)

theorem args_inStep : ∀ (count : Nat) (as : List Expr) (hint hint' : String),
    DrawsInStep (List.Forall₂ Alike) (argFragments t .sqlite hint count as)
      (argFragments t .sqlServer hint' count as)
  | 0, as, hint, hint' => by
    simp only [argFragments]
    exact .pure .nil
  | count + 1, [], hint, hint' => by
    simp only [argFragments]
    exact .pure .nil
  | count + 1, e :: es, hint, hint' => by
    simp only [argFragments]
    refine (fragment_inStep e hint hint').bind fun _ _ h => ?_
    exact (args_inStep count es hint hint').bind fun _ _ hs => .pure (.cons h hs)

end

end Compile

open Compile in
/-- A predicate compiles for both dialects or for none, with one error. What SQL Server is given to
bind is what SQLite is given without some values, and all values but nulls are still among it. -/
theorem compile_inStep (t : Mapping) (e : Expr) :
    match compile e t .sqlite, compile e t .sqlServer with
    | .error err, .error err' => err = err'
    | .ok c, .ok c' =>
      (c'.params.map Param.value).Sublist (c.params.map Param.value) ∧
        ∀ x ∈ c.params.map Param.value, x ≠ .null → x ∈ c'.params.map Param.value
    | _, _ => False := by
  have h : InStep (fun c c' : Condition => Thins c.params c'.params)
      (compile e t .sqlite) (compile e t .sqlServer) :=
    (fragment_inStep t e.opened "" "" [] []).bind fun _ _ h => h.thins
  cases hl : compile e t .sqlite with
  | error err =>
    cases hr : compile e t .sqlServer with
    | error err' => rwa [hl, hr] at h
    | ok c' => rwa [hl, hr] at h
  | ok c =>
    cases hr : compile e t .sqlServer with
    | error err' => rwa [hl, hr] at h
    | ok c' =>
      rw [hl, hr] at h
      exact ⟨h.sublist, h.kept⟩

end RowLedger
