import RowLedger.Proofs.Codec.RoundTrip
import RowLedger.Proofs.Predicate.Built
import RowLedger.Proofs.Predicate.Naming

/-!
Constants never reach the text of a predicate. Where two predicates of one shape are compiled side
by side, the fragments at each node have the same text, the same names of parameters and nulls in
the same places. Exact prefix and suffix tests are left out: they write how long their argument is.
-/

namespace RowLedger

namespace Expr

/-- The constant that is the second of two arguments, where a prefix or suffix test has its mode. -/
def secondConstant? : List Expr → Option Value
  | [_, constant v] => some v
  | _ => none

/-- The same tree but for the values of constants and of list elements. What is null stays null, a
list keeps its length, and a comparison mode stays as it is. -/
inductive SameShape : Expr → Expr → Prop
  | column (name : String) : SameShape (column name) (column name)
  | constant {v w : Value} (h : v.isNull = w.isNull) : SameShape (constant v) (constant w)
  | collection {vs ws : List Value} (h : vs.length = ws.length) :
      SameShape (collection vs) (collection ws)
  | binary (op : BinaryOp) {a a' b b' : Expr} (ha : SameShape a a') (hb : SameShape b b') :
      SameShape (binary op a b) (binary op a' b')
  | not {e e' : Expr} (h : SameShape e e') : SameShape e.not e'.not
  | call (m : Method) {r r' : Option Expr} {as as' : List Expr}
      (hmode : m = .startsWith ∨ m = .endsWith → secondConstant? as = secondConstant? as')
      (hr : Option.Rel SameShape r r') (has : List.Forall₂ SameShape as as') :
      SameShape (call m r as) (call m r' as')
  | convert (k : Kind) {e e' : Expr} (h : SameShape e e') : SameShape (e.convert k) (e'.convert k)
  | conditional {c c' a a' b b' : Expr} (hc : SameShape c c') (ha : SameShape a a')
      (hb : SameShape b b') : SameShape (conditional c a b) (conditional c' a' b')

/-- The comparison mode of a prefix or suffix test with these arguments: as the second of two says,
and the default where there is one argument. -/
def testMode? : List Expr → Option Comparison
  | [_] => some .currentCulture
  | as => ((secondConstant? as).bind Value.int?).bind fun n => Comparison.ofCode? n.val

/-- A prefix or suffix test that tells small letters from capitals. -/
def HeedsCase (m : Method) (as : List Expr) : Prop :=
  (m = .startsWith ∨ m = .endsWith) ∧ ∃ c, testMode? as = some c ∧ c.ignoresCase = false

/-- No prefix or suffix test in the tree heeds case. -/
inductive Caseless : Expr → Prop
  | column (name : String) : Caseless (column name)
  | constant (v : Value) : Caseless (constant v)
  | collection (vs : List Value) : Caseless (collection vs)
  | binary (op : BinaryOp) {a b : Expr} (ha : Caseless a) (hb : Caseless b) :
      Caseless (binary op a b)
  | not {e : Expr} (h : Caseless e) : Caseless e.not
  | call {m : Method} {r : Option Expr} {as : List Expr} (h : ¬HeedsCase m as)
      (hr : ∀ e, r = some e → Caseless e) (has : ∀ a ∈ as, Caseless a) : Caseless (call m r as)
  | convert (k : Kind) {e : Expr} (h : Caseless e) : Caseless (e.convert k)
  | conditional {c a b : Expr} (hc : Caseless c) (ha : Caseless a) (hb : Caseless b) :
      Caseless (conditional c a b)

/-! Opening three-way comparisons. The arguments of a call stay what they are, so its mode does. -/

theorem secondConstant?_openedArgs (as : List Expr) :
    secondConstant? (openedArgs as) = secondConstant? as := by
  match as with
  | [] => rfl
  | [_] => rfl
  | [_, b] => cases b <;> rfl
  | _ :: b :: _ :: _ => cases b <;> simp only [openedArgs, opened, secondConstant?]

theorem testMode?_openedArgs (as : List Expr) : testMode? (openedArgs as) = testMode? as := by
  match as with
  | [] => rfl
  | [_] => rfl
  | a :: b :: as =>
    have h := secondConstant?_openedArgs (a :: b :: as)
    simp only [openedArgs] at h
    simp only [openedArgs, testMode?, h]

namespace SameShape

variable {a a' b b' : Expr}

theorem isCollection (h : SameShape a a') : a.isCollection = a'.isCollection := by
  cases h <;> rfl

theorem operands (ha : SameShape a a') (hb : SameShape b b') :
    SameShape (Expr.operands a b).1 (Expr.operands a' b').1 ∧
      SameShape (Expr.operands a b).2 (Expr.operands a' b').2 := by
  fun_induction Expr.operands a b generalizing a' b' with
  | case1 a b _ _ ih =>
    cases ha with
    | call _ _ hr has =>
      cases hr
      obtain - | ⟨ha, - | ⟨hb, - | ⟨_, ⟨⟩⟩⟩⟩ := has
      exact (ih ha hb :)
  | case2 a b hplain =>
    have hplain' : Expr.operands a' b' = (a', b') := by
      unfold Expr.operands
      split
      · cases ha with
        | call _ _ hr has =>
          cases hr
          obtain - | ⟨_, - | ⟨_, - | ⟨_, ⟨⟩⟩⟩⟩ := has
          exact (hplain _ _ _ rfl).elim
      · rfl
    rw [hplain']
    exact ⟨ha, hb⟩

mutual

-- by recursion on the expression; both trees are opened at the same places
theorem opened : ∀ {e e' : Expr}, SameShape e e' → SameShape e.opened e'.opened
  | .column _, _, .column name => .column name
  | .constant _, _, .constant h => .constant h
  | .collection _, _, .collection h => .collection h
  | .binary _ a b, _, .binary op ha hb =>
    .binary op (operands (opened ha) (opened hb)).1 (operands (opened ha) (opened hb)).2
  | .not _, _, .not h => .not (opened h)
  | .call _ r as, _, .call m hmode hr has => by
    refine .call m (fun hm => ?_) (openedReceiver hr) (openedArgs has)
    rw [secondConstant?_openedArgs, secondConstant?_openedArgs, hmode hm]
  | .convert _ _, _, .convert k h => .convert k (opened h)
  | .conditional _ _ _, _, .conditional hc ha hb =>
    .conditional (opened hc) (opened ha) (opened hb)

theorem openedReceiver : ∀ {r r' : Option Expr}, Option.Rel SameShape r r' →
    Option.Rel SameShape (Expr.openedReceiver r) (Expr.openedReceiver r')
  | none, _, .none => .none
  | some _, _, .some h => .some (opened h)

theorem openedArgs : ∀ {as as' : List Expr}, List.Forall₂ SameShape as as' →
    List.Forall₂ SameShape (Expr.openedArgs as) (Expr.openedArgs as')
  | [], _, .nil => .nil
  | _ :: _, _, .cons h hs => .cons (opened h) (openedArgs hs)

end

end SameShape

namespace Caseless

theorem operands {a b : Expr} (ha : Caseless a) (hb : Caseless b) :
    Caseless (Expr.operands a b).1 ∧ Caseless (Expr.operands a b).2 := by
  fun_induction Expr.operands a b with
  | case1 a b _ _ ih =>
    cases ha with
    | call _ _ has => exact ih (has a (by simp)) (has b (by simp))
  | case2 => exact ⟨ha, hb⟩

theorem opened {e : Expr} (h : Caseless e) : Caseless e.opened := by
  induction h with
  | column name => exact .column name
  | constant v => exact .constant v
  | collection vs => exact .collection vs
  | binary op _ _ iha ihb =>
    rw [Expr.opened]
    exact .binary op (iha.operands ihb).1 (iha.operands ihb).2
  | not _ ih => exact .not ih
  | @call m r as hcase _ _ ihr ihs =>
    refine .call ?_ (fun e he => ?_) fun b hb => ?_
    · rwa [HeedsCase, testMode?_openedArgs]
    · cases r with
      | none => cases he
      | some e' =>
        cases he
        exact ihr e' rfl
    · obtain ⟨a, ha, rfl⟩ := mem_openedArgs hb
      exact ihs a ha
  | convert k _ ih => exact .convert k ih
  | conditional _ _ _ ihc iha ihb => exact .conditional ihc iha ihb

end Caseless

end Expr

/-! A null is null in every kind, and nothing else is. -/

namespace Value

variable {v w : Value} {k : Kind}

theorem isNull_of_kind? (h : v.kind? = some k) : v.isNull = false := by
  cases v with
  | null => cases h
  | _ => rfl

theorem isNull_of_toSql {x : SqlValue} (h : v.toSql = .ok x) : x.isNull = v.isNull := by
  cases v with
  | int n =>
    cases h
    exact storeInt_isNull n
  | offsetDateTime t =>
    obtain ⟨n, -, rfl⟩ := toSql_offsetDateTime.1 h
    rfl
  | enum e n =>
    rw [toSql, storeEnum] at h
    split at h <;> split at h <;> cases h <;> rfl
  | _ =>
    cases h
    rfl

theorem isNull_of_ofSql {x : SqlValue} (h : ofSql k x = .ok w) : w.isNull = x.isNull := by
  cases hx : x.isNull with
  | true =>
    unfold ofSql at h
    rw [if_pos hx] at h
    cases h
    rfl
  | false =>
    unfold ofSql at h
    rw [hx, if_neg Bool.false_ne_true] at h
    split at h
    · exact isNull_of_kind? (gives_enum _ _ w h)
    · next hk => exact isNull_of_kind? (Kind.gives_of_decoder? hk _ w h)
    · cases h

theorem isNull_of_convert (h : v.convert k = .ok w) : w.isNull = v.isNull := by
  unfold convert at h
  split at h
  · next hv =>
    cases h
    exact hv.symm
  · obtain ⟨x, hx, h⟩ := except_bind_ok.1 h
    rw [isNull_of_ofSql h, isNull_of_toSql hx]

end Value

namespace Compile

/-- Where both succeed, the results are related. -/
def Matched {α β : Type} (R : α → β → Prop) (x : Except Error α) (y : Except Error β) : Prop :=
  ∀ a b, x = .ok a → y = .ok b → R a b

/-- Where both succeed after the same draws, the results are related and the draws are the same. -/
def DrawsMatched {α β : Type} (R : α → β → Prop) (x : Naming α) (y : Naming β) : Prop :=
  ∀ s, Matched (fun a b => R a.1 b.1 ∧ a.2 = b.2) (x s) (y s)

section Matched

variable {α β γ δ : Type} {R : α → β → Prop} {S : γ → δ → Prop}

namespace Matched

theorem ok {a : α} {b : β} (h : R a b) : Matched R (.ok a) (.ok b) := by
  rintro _ _ ⟨⟩ ⟨⟩
  exact h

theorem error (e : Error) (y : Except Error β) : Matched R (.error e) y := by
  rintro _ _ ⟨⟩

theorem bind {x : Except Error α} {y : Except Error β} {f : α → Except Error γ}
    {g : β → Except Error δ} (h : Matched R x y) (hfg : ∀ a b, R a b → Matched S (f a) (g b)) :
    Matched S (x >>= f) (y >>= g) := by
  intro c d hc hd
  obtain ⟨a, ha, hc⟩ := except_bind_ok.1 hc
  obtain ⟨b, hb, hd⟩ := except_bind_ok.1 hd
  exact hfg a b (h a b ha hb) c d hc hd

theorem same (x : Except Error α) : Matched (fun a b => a = b ∧ x = .ok a) x x := by
  rintro a b ha hb
  exact ⟨Except.ok.inj (ha.symm.trans hb), ha⟩

/-- What both give is not looked at. -/
theorem any (x : Except Error α) (y : Except Error β) : Matched (fun _ _ => True) x y :=
  fun _ _ _ _ => trivial

end Matched

namespace DrawsMatched

theorem bind {x : Naming α} {y : Naming β} {f : α → Naming γ} {g : β → Naming δ}
    (h : DrawsMatched R x y) (hfg : ∀ a b, R a b → DrawsMatched S (f a) (g b)) :
    DrawsMatched S (x >>= f) (y >>= g) := by
  intro s
  refine Matched.bind (h s) ?_
  rintro ⟨a, s'⟩ ⟨b, _⟩ ⟨hab, rfl⟩
  exact hfg a b hab s'

theorem pure {a : α} {b : β} (h : R a b) :
    DrawsMatched R (Pure.pure a : Naming α) (Pure.pure b) := fun _ => Matched.ok ⟨h, rfl⟩

theorem lift {x : Except Error α} {y : Except Error β} (h : Matched R x y) :
    DrawsMatched R (liftM x : Naming α) (liftM y) := fun _ =>
  Matched.bind h fun _ _ hab => Matched.ok ⟨hab, rfl⟩

theorem draw (hint : String) : DrawsMatched (· = ·) (draw hint) (draw hint) := fun _ =>
  Matched.ok ⟨rfl, rfl⟩

end DrawsMatched

end Matched

/-- The same text and names, and a null for a null. -/
structure SameText (f g : Fragment) : Prop where
  sql : f.sql = g.sql
  names : f.names = g.names
  isParam : f.isParam = g.isParam
  nulls : f.value.map Value.isNull = g.value.map Value.isNull

namespace SameText

variable {f g f' g' : Fragment}

/-- Of fragments that carry nothing only the text and the names count. -/
theorem plain {sql sql' : Sql} {ps qs : List Param} (hsql : sql = sql')
    (hnames : ps.map Param.name = qs.map Param.name) :
    SameText { sql, params := ps } { sql := sql', params := qs } := ⟨hsql, hnames, rfl, rfl⟩

theorem isNullParam (h : SameText f g) : f.isNullParam = g.isNullParam := by
  have hnull (v : Option Value) : (v == some .null) = (v.map Value.isNull == some true) := by
    rcases v with - | v
    · rfl
    · cases v <;> rfl
  rw [Fragment.isNullParam, Fragment.isNullParam, hnull, hnull, h.isParam, h.nulls]

theorem names_append (h : SameText f g) (h' : SameText f' g') :
    (f.params ++ f'.params).map Param.name = (g.params ++ g'.params).map Param.name := by
  rw [List.map_append, List.map_append]
  exact congrArg₂ (· ++ ·) h.names h'.names

end SameText

/-! The nodes, their parts being compiled. -/

variable {d : Dialect} {f f' g g' : Fragment}

theorem nullFragment_sameText (keyword : String) (h : SameText f g) (h' : SameText f' g') :
    SameText (nullFragment d keyword f f') (nullFragment d keyword g g') := by
  unfold nullFragment
  rw [h.sql, h'.sql]
  split
  · exact .plain rfl (h.names_append h')
  · exact .plain rfl h.names

theorem nullComparison_matched (op : BinaryOp) (h : SameText f g) (h' : SameText f' g') :
    Matched SameText (nullComparison d op f f') (nullComparison d op g g') := by
  rw [nullComparison_eq, nullComparison_eq]
  cases op.nullKeyword? with
  | none => exact .error _ _
  | some keyword => exact .ok (nullFragment_sameText keyword h h')

theorem comparison_matched (op : BinaryOp) (h : SameText f g) (h' : SameText f' g') :
    Matched SameText (comparison d op f f') (comparison d op g g') := by
  unfold comparison
  rw [h.isNullParam, h'.isNullParam]
  split
  · exact nullComparison_matched op h' h
  split
  · exact nullComparison_matched op h h'
  cases op.token? with
  | none => exact .error _ _
  | some token =>
    dsimp only
    rw [h.sql, h'.sql]
    exact .ok (.plain rfl (h.names_append h'))

theorem negation_sameText (h : SameText f g) : SameText (negation f) (negation g) where
  sql := by rw [negation, negation, h.sql]
  names := h.names
  isParam := rfl
  nulls := by
    -- a negated truth value is no more null than the value was
    have hnull (f : Fragment) :
        (negation f).value.map Value.isNull = f.value.map Value.isNull := by
      simp only [negation]
      rcases f.value with - | v
      · rfl
      · cases v <;> rfl
    rw [hnull, hnull, h.nulls]

theorem isNull_conversion {k : Kind} (h : conversion f k = .ok g) :
    g.value.map Value.isNull = f.value.map Value.isNull := by
  cases hv : f.value with
  | none =>
    rw [conversion, hv] at h
    cases h
    rw [hv]
  | some v =>
    obtain ⟨w, hw, hg, -⟩ := conversion_value hv h
    rw [hg, Option.map_some, Option.map_some, Value.isNull_of_convert hw]

theorem sql_conversion {k : Kind} (h : conversion f k = .ok g) :
    g.sql = f.sql ∧ g.isParam = f.isParam := by
  unfold conversion at h
  split at h
  · cases h
    exact ⟨rfl, rfl⟩
  · obtain ⟨w, -, h⟩ := except_bind_ok.1 h
    split at h
    · obtain ⟨x, -, h⟩ := except_bind_ok.1 h
      cases h
      exact ⟨rfl, rfl⟩
    · cases h
      exact ⟨rfl, rfl⟩

theorem conversion_matched (k : Kind) (h : SameText f g) :
    Matched SameText (conversion f k) (conversion g k) := fun f' g' hf hg => {
  sql := by rw [(sql_conversion hf).1, (sql_conversion hg).1, h.sql]
  names := by rw [names_conversion hf, names_conversion hg, h.names]
  isParam := by rw [(sql_conversion hf).2, (sql_conversion hg).2, h.isParam]
  nulls := by rw [isNull_conversion hf, isNull_conversion hg, h.nulls] }

theorem map_sql {fs gs : List Fragment} (h : List.Forall₂ SameText fs gs) :
    fs.map Fragment.sql = gs.map Fragment.sql := by
  induction h with
  | nil => rfl
  | cons hfg _ ih => rw [List.map_cons, List.map_cons, hfg.sql, ih]

/-- The names in some fragments, one after the other. -/
theorem flatMap_names {fs gs : List Fragment} (h : List.Forall₂ SameText fs gs) :
    (fs.flatMap Fragment.params).map Param.name = (gs.flatMap Fragment.params).map Param.name := by
  induction h with
  | nil => rfl
  | cons hfg _ ih =>
    rw [List.flatMap_cons, List.flatMap_cons, List.map_append, List.map_append, ih]
    exact congrArg (· ++ _) hfg.names

theorem map_repeated {ps qs : List Param} (h : ps.map Param.name = qs.map Param.name) :
    (repeated d ps).map Param.name = (repeated d qs).map Param.name := by
  cases d with
  | sqlite => exact h
  | sqlServer => rfl

theorem toList_sameText {r r' : Option Fragment} (h : Option.Rel SameText r r') :
    List.Forall₂ SameText r.toList r'.toList := by
  cases h with
  | none => exact .nil
  | some h => exact .cons h .nil

/-- A call that needs a receiver. -/
theorem onReceiver_matched {r r' : Option Fragment} {x y : Fragment → Except Error Fragment}
    (h : Option.Rel SameText r r') (err : Error)
    (hxy : ∀ f g, SameText f g → Matched SameText (x f) (y g)) :
    Matched SameText
      ((match r with | some r => Except.ok r | none => .error err) >>= x)
      ((match r' with | some r => Except.ok r | none => .error err) >>= y) := by
  cases h with
  | none => exact .error _ _
  | some h => exact hxy _ _ h

/-- Of a test with one argument it is asked that it ignores case, so that no length is written. -/
theorem applied_matched (m : Method) (mode : Option Comparison) (overList : Bool)
    {r r' : Option Fragment} {as bs : List Fragment} (hr : Option.Rel SameText r r')
    (has : List.Forall₂ SameText as bs)
    (hcase : m = .startsWith ∨ m = .endsWith → as.length = 1 →
      (mode.getD .currentCulture).ignoresCase = true) :
    Matched SameText (applied d m mode overList r as) (applied d m mode overList r' bs) := by
  have all : (r.toList.flatMap Fragment.params ++ as.flatMap Fragment.params).map Param.name =
      (r'.toList.flatMap Fragment.params ++ bs.flatMap Fragment.params).map Param.name := by
    rw [List.map_append, List.map_append, flatMap_names (toList_sameText hr), flatMap_names has]
  have plain : Matched SameText (.ok (plainCall m r as)) (.ok (plainCall m r' bs)) := by
    refine .ok (.plain ?_ ?_)
    · rw [List.map_append, List.map_append, map_sql (toList_sameText hr), map_sql has]
    · rw [List.flatMap_append, List.flatMap_append]
      exact all
  cases has with
  | nil =>
    cases m with
    | toLower | toUpper =>
      exact onReceiver_matched hr _ fun _ _ h => .ok (.plain (by rw [h.sql]) all)
    | _ => exact plain
  | @cons f g as bs ha has =>
    cases has with
    | nil =>
      cases m with
      | contains =>
        refine onReceiver_matched hr _ fun _ _ h => ?_
        cases overList with
        | true => exact .ok (.plain (by rw [ha.sql, h.sql]) (ha.names_append h))
        | false => exact .ok (.plain (by rw [ha.sql, h.sql]) all)
      | equals =>
        exact onReceiver_matched hr _ fun _ _ h => .ok (.plain (by rw [ha.sql, h.sql]) all)
      | startsWith =>
        refine onReceiver_matched hr _ fun _ _ h => ?_
        rw [hcase (.inl rfl) rfl, if_pos rfl, if_pos rfl]
        exact .ok (.plain (by rw [ha.sql, h.sql]) all)
      | endsWith =>
        refine onReceiver_matched hr _ fun _ _ h => ?_
        dsimp only
        rw [hcase (.inr rfl) rfl, if_pos rfl, if_pos rfl]
        exact .ok (.plain (by rw [ha.sql, h.sql]) all)
      | isNullOrEmpty =>
        refine .ok (.plain (by rw [ha.sql]) ?_)
        rw [List.map_append, all, map_repeated ha.names, ← List.map_append]
      | _ => exact plain
    | cons ha' has =>
      cases has with
      | nil =>
        cases m with
        | like | contains => exact .ok (.plain (by rw [ha.sql, ha'.sql]) all)
        | replace =>
          exact onReceiver_matched hr _ fun _ _ h =>
            .ok (.plain (by rw [h.sql, ha.sql, ha'.sql]) all)
        | _ => exact plain
      | cons ha'' has => cases m <;> exact plain

/-! The trees. -/

theorem elements_matched (hint : String) {vs ws : List Value} (h : vs.length = ws.length) :
    DrawsMatched (fun ps qs => ps.map Param.name = qs.map Param.name) (elements hint vs)
      (elements hint ws) := by
  induction vs generalizing ws with
  | nil =>
    obtain rfl := List.length_eq_zero_iff.1 h.symm
    exact .pure rfl
  | cons v vs ih =>
    obtain ⟨w, ws, rfl⟩ := List.exists_cons_of_length_eq_add_one h.symm
    refine (DrawsMatched.draw hint).bind fun name _ hname => ?_
    subst hname
    refine (DrawsMatched.lift (.any v.toSql w.toSql)).bind fun x y _ => ?_
    exact (ih (Nat.succ.inj h)).bind fun _ _ hps => .pure (congrArg (name :: ·) hps)

/-- The mode is read off a constant, which the shape keeps. -/
theorem modeOf?_of_sameShape {m : Method} {as bs : List Expr}
    (hmode : m = .startsWith ∨ m = .endsWith → Expr.secondConstant? as = Expr.secondConstant? bs)
    (has : List.Forall₂ Expr.SameShape as bs) : modeOf? m as = modeOf? m bs := by
  unfold modeOf?
  split
  · next hm =>
    replace hmode := hmode hm
    obtain - | ⟨ha, - | ⟨hb, - | ⟨-, -⟩⟩⟩ := has
    · rfl
    · rfl
    · cases hb with
      | constant h =>
        cases hmode
        rfl
      | _ => rfl
    · cases hb <;> rfl
  · rfl

/-- A test that is left with one argument has the mode that the tree gives it. -/
theorem ignoresCase_of_not_heedsCase {m : Method} {mode : Option Comparison} {as : List Expr}
    (hm : m = .startsWith ∨ m = .endsWith) (hmode : modeOf? m as = .ok mode)
    (hone : (as.take (if mode.isSome then 1 else as.length)).length = 1)
    (h : ¬Expr.HeedsCase m as) : (mode.getD .currentCulture).ignoresCase = true := by
  have htest : Expr.testMode? as = some (mode.getD .currentCulture) := by
    unfold modeOf? at hmode
    rw [if_pos hm] at hmode
    split at hmode
    · split at hmode
      · next hc =>
        cases hmode
        exact hc
      · cases hmode
    · cases hmode
    · cases hmode
      obtain ⟨a, rfl⟩ := List.length_eq_one_iff.1 (by simpa using hone)
      rfl
  by_contra hcase
  exact h ⟨hm, _, htest, Bool.not_eq_true _ ▸ hcase⟩

variable (t : Mapping)

mutual

-- by recursion on the expression; equal texts on the left hand on equal hints
theorem fragment_matched : ∀ {e e' : Expr} (hint : String), e.SameShape e' → e.Caseless →
    DrawsMatched SameText (fragment t d hint e) (fragment t d hint e')
  | .column _, _, hint, .column name, _ => by
    simp only [fragment]
    refine (DrawsMatched.lift (.same (t.resolve name))).bind ?_
    rintro c _ ⟨rfl, -⟩
    exact .pure (.plain rfl rfl)
  | .constant v, _, hint, @Expr.SameShape.constant _ w hnull, _ => by
    simp only [fragment, constant]
    refine (DrawsMatched.draw hint).bind fun name _ hname => ?_
    subst hname
    refine (DrawsMatched.lift (.any v.toSql w.toSql)).bind fun x y _ => ?_
    exact .pure ⟨rfl, rfl, rfl, congrArg some hnull⟩
  | .collection vs, _, hint, .collection hlength, _ => by
    simp only [fragment, collection]
    refine (elements_matched hint hlength).bind fun ps qs hps => .pure (.plain ?_ hps)
    have hholes (ps : List Param) :
        ps.map (fun p => [Piece.hole p.name]) = (ps.map Param.name).map fun n => [.hole n] := by
      rw [List.map_map]
      rfl
    rw [hholes, hholes, hps]
  | .binary _ a b, _, hint, .binary op ha hb, .binary _ ca cb => by
    simp only [fragment]
    refine (fragment_matched hint ha ca).bind fun f g hfg => ?_
    rw [hfg.sql]
    refine (fragment_matched _ hb cb).bind fun _ _ hfg' => ?_
    exact .lift (comparison_matched op hfg hfg')
  | .not e, _, hint, .not h, .not c => by
    simp only [fragment]
    exact (fragment_matched hint h c).bind fun _ _ hfg => .pure (negation_sameText hfg)
  | .convert e _, _, hint, .convert k h, .convert _ c => by
    simp only [fragment]
    exact (fragment_matched hint h c).bind fun _ _ hfg => .lift (conversion_matched k hfg)
  | .conditional _ _ _, _, hint, .conditional _ _ _, _ => by
    simp only [fragment]
    exact fun _ => Matched.error _ _
  | .call _ r as, _, hint, @Expr.SameShape.call m _ r' _ as' hmode hr has,
      .call hcase cr cas => by
    simp only [fragment]
    have hlist : (r.map Expr.isCollection).getD false = (r'.map Expr.isCollection).getD false := by
      cases hr with
      | none => rfl
      | some h => exact h.isCollection
    rw [← hlist, ← modeOf?_of_sameShape hmode has, ← has.length_eq]
    have rest (hint : String) {f g : Option Fragment} (hfg : Option.Rel SameText f g) :
        DrawsMatched SameText
          (do
            let mode ← liftM (modeOf? m as)
            let args ← argFragments t d hint (if mode.isSome then 1 else as.length) as
            liftM (applied d m mode ((r.map Expr.isCollection).getD false) f args))
          (do
            let mode ← liftM (modeOf? m as)
            let args ← argFragments t d hint (if mode.isSome then 1 else as.length) as'
            liftM (applied d m mode ((r.map Expr.isCollection).getD false) g args)) := by
      refine (DrawsMatched.lift (.same (modeOf? m as))).bind ?_
      rintro mode _ ⟨rfl, hmode⟩
      refine (args_matched _ hint has cas).bind fun fs gs hargs => .lift ?_
      refine applied_matched m mode _ hfg hargs.2 fun hm hone => ?_
      exact ignoresCase_of_not_heedsCase hm hmode (hargs.1 ▸ hone) hcase
    refine (receiver_matched hint hr cr).bind fun f g hfg => ?_
    cases hfg with
    | none => exact rest hint .none
    | @some f g h =>
      dsimp only
      rw [h.sql]
      exact rest (d.render g.sql) (.some h)

theorem receiver_matched : ∀ {r r' : Option Expr} (hint : String),
    Option.Rel Expr.SameShape r r' → (∀ e, r = some e → e.Caseless) →
    DrawsMatched (Option.Rel SameText) (receiverFragment t d hint r) (receiverFragment t d hint r')
  | none, _, hint, .none, _ => by
    simp only [receiverFragment]
    exact .pure .none
  | some e, _, hint, .some h, c => by
    simp only [receiverFragment]
    exact (fragment_matched hint h (c e rfl)).bind fun _ _ hfg => .pure (.some hfg)

theorem args_matched : ∀ (count : Nat) {as as' : List Expr} (hint : String),
    List.Forall₂ Expr.SameShape as as' → (∀ a ∈ as, a.Caseless) →
    DrawsMatched (fun fs gs => fs.length = (as.take count).length ∧ List.Forall₂ SameText fs gs)
      (argFragments t d hint count as) (argFragments t d hint count as')
  | 0, as, _, hint, _, _ => by
    simp only [argFragments]
    exact .pure ⟨rfl, .nil⟩
  | count + 1, [], _, hint, .nil, _ => by
    simp only [argFragments]
    exact .pure ⟨rfl, .nil⟩
  | count + 1, e :: es, _, hint, .cons h hs, c => by
    simp only [argFragments]
    refine (fragment_matched hint h (c e List.mem_cons_self)).bind fun _ _ hfg => ?_
    refine (args_matched count hint hs fun a ha => c a (List.mem_cons_of_mem e ha)).bind ?_
    rintro fs gs ⟨hlength, hfgs⟩
    exact .pure ⟨congrArg (· + 1) hlength, .cons hfg hfgs⟩

end

theorem compile_matched {e e' : Expr} (hshape : e.SameShape e') (hcase : e.Caseless) :
    Matched (fun c c' : Condition => c.sql = c'.sql ∧
      c.params.map Param.name = c'.params.map Param.name) (compile e t d) (compile e' t d) :=
  Matched.bind (fragment_matched t "" hshape.opened hcase.opened []) fun _ _ h =>
    .ok ⟨h.1.sql, h.1.names⟩

end Compile

/-- Two predicates of one shape, without exact prefix and suffix tests, are one text for a database
and have the same names of parameters, whatever their constants. -/
theorem compile_text_of_sameShape {t : Mapping} {d : Dialect} {e e' : Expr} {c c' : Condition}
    (hshape : e.SameShape e') (hcase : e.Caseless) (h : compile e t d = .ok c)
    (h' : compile e' t d = .ok c') :
    d.render c.sql = d.render c'.sql ∧
      c.params.map Param.name = c'.params.map Param.name := by
  obtain ⟨hsql, hnames⟩ := Compile.compile_matched t hshape hcase c c' h h'
  exact ⟨congrArg d.render hsql, hnames⟩

namespace Samples

/-- The lines in a list, or of a converted number that begins with some digits in any case. -/
def lineSearch (listed : List Int) (converted : Int) (start : String) : Expr :=
  ((Expr.column "line").isIn (listed.map fun n => .int (Sized.clamp .i32 n))).or
    ((((number converted).convert .text).eq (Expr.column "line1")).and
      (((Expr.column "line").startsWithMode (.constant (.text start)) .ordinalIgnoreCase).and
        ((Expr.column "line1").ne (.constant .null))))

theorem lineSearch_sameShape (vs ws : List Int) (m n : Int) (s u : String)
    (h : vs.length = ws.length) : (lineSearch vs m s).SameShape (lineSearch ws n u) := by
  refine .binary _ (.call _ (fun _ => rfl) (.some (.collection ?_)) ?_) ?_
  · rw [List.length_map, List.length_map, h]
  · exact .cons (.column _) .nil
  · refine .binary _ (.binary _ (.convert _ (.constant rfl)) (.column _)) ?_
    refine .binary _ (.call _ (fun _ => rfl) (.some (.column _)) ?_) ?_
    · exact .cons (.constant rfl) (.cons (.constant rfl) .nil)
    · exact .binary _ (.column _) (.constant rfl)

theorem lineSearch_caseless (vs : List Int) (n : Int) (s : String) :
    (lineSearch vs n s).Caseless := by
  refine .binary _ (.call (fun h => h.1.elim nofun nofun) ?_ ?_) ?_
  · rintro _ ⟨⟩
    exact .collection _
  · rintro _ (_ | ⟨_, ⟨⟩⟩)
    exact .column _
  · refine .binary _ (.binary _ (.convert _ (.constant _)) (.column _)) ?_
    refine .binary _ (.call ?_ ?_ ?_) (.binary _ (.column _) (.constant _))
    · rintro ⟨-, c, hc, hcase⟩
      cases hc
      cases hcase
    · rintro _ ⟨⟩
      exact .column _
    · rintro _ (_ | ⟨_, _ | ⟨_, ⟨⟩⟩⟩) <;> exact .constant _

/-- Two searches bind other values under the same names, in the same text. -/
theorem lineSearch_text :
    ∃ c c', compile (lineSearch [1, 2] 5 "1") lines .sqlite = .ok c ∧
      compile (lineSearch [7, 8] 9 "2x") lines .sqlite = .ok c' ∧
      c.params.map Param.value ≠ c'.params.map Param.value ∧
      Dialect.sqlite.render c.sql = Dialect.sqlite.render c'.sql ∧
      c.params.map Param.name = c'.params.map Param.name := by
  let int (n : Int) : SqlValue := .int (Sized.clamp .i32 n)
  have hfirst : (compile (lineSearch [1, 2] 5 "1") lines .sqlite).map
      (fun c => c.params.map Param.value) =
        .ok [int 1, int 2, .text "5", .text "1", .null] := by
    decide +kernel
  have hsecond : (compile (lineSearch [7, 8] 9 "2x") lines .sqlite).map
      (fun c => c.params.map Param.value) =
        .ok [int 7, int 8, .text "9", .text "2x", .null] := by
    decide +kernel
  obtain ⟨c, hc, hvalues⟩ := except_map_ok.1 hfirst
  obtain ⟨c', hc', hvalues'⟩ := except_map_ok.1 hsecond
  refine ⟨c, c', hc, hc', ?_, ?_⟩
  · rw [hvalues, hvalues']
    decide
  · have hshape := lineSearch_sameShape [1, 2] [7, 8] 5 9 "1" "2x" rfl
    exact compile_text_of_sameShape hshape (lineSearch_caseless _ _ _) hc hc'

end Samples

end RowLedger
