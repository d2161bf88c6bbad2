import RowLedger.Proofs.Outcome
import RowLedger.Schema.Index

/-!
The indexes that a mapping asks for. The attributes of its columns are put into groups one after the
other: either two of them disagree on whether their index is unique, or every name has one group
with all of its members, and the index of a group lists their columns by their orders.
-/

namespace RowLedger

/-- Where an attribute stands: at a column, and among the attributes of that column. -/
structure Place where
  column : Nat
  attr : Nat
  deriving DecidableEq

/-- Columns come first, and on one column what is declared first. -/
def Place.Before (p q : Place) : Prop :=
  p.column < q.column ∨ p.column = q.column ∧ p.attr < q.attr

/-- What an attribute asks for: an index of some name, and a place for its column in it. -/
structure Member where
  index : String
  unique : Bool
  order : Int
  column : String
  deriving DecidableEq

/-- Without a name the index is that of the table and the column. -/
def Member.ofAttr (table column : String) (a : IndexAttr) : Member where
  index := a.name.getD (Index.defaultName table column)
  unique := a.unique
  order := a.order
  column := column

namespace Mapping

/-- The attribute at a place, unless it is declared on the column itself. -/
def member? (m : Mapping) (p : Place) : Option Member := do
  let c ← m.column? p.column
  let a ← c.indices[p.attr]?
  if a.name = none ∧ a.unique = true then none else some (.ofAttr m.table c.name a)

/-- One attribute asks for a unique index of this name and another one does not. -/
def Disagrees (m : Mapping) (name : String) : Prop :=
  ∃ p q a b, m.member? p = some a ∧ m.member? q = some b ∧ a.index = name ∧ b.index = name ∧
    a.unique ≠ b.unique

/-- An index of all attributes of its name: each of them once, by their orders and, for equal
orders, as they stand in the mapping. -/
structure Gathers (m : Mapping) (i : Index) : Prop where
  table : i.table = m.table
  unique : ∀ p a, m.member? p = some a → a.index = i.name → a.unique = i.unique
  columns : ∃ xs : List (Place × Member),
    (∀ p a, (p, a) ∈ xs ↔ m.member? p = some a ∧ a.index = i.name) ∧
    xs.Pairwise (fun x y =>
      x.2.order < y.2.order ∨ x.2.order = y.2.order ∧ x.1.Before y.1) ∧
    i.columns = xs.map fun x => x.2.column

end Mapping

namespace Index

/-! Putting a member into its group. -/

def Ascending (gs : List Group) : Prop := gs.Pairwise fun g h => g.name < h.name

/-- The members of the group of a name. -/
def membersOf (name : String) (gs : List Group) : List (Int × String) :=
  ((gs.find? fun g => g.name == name).map Group.members).getD []

variable {name : String} {unique : Bool} {member : Int × String} {gs gs' : List Group}

theorem membersOf_eq_nil (h : ∀ g ∈ gs, g.name ≠ name) : membersOf name gs = [] := by
  have hnone : gs.find? (fun g => g.name == name) = none := by
    apply List.find?_eq_none.2
    intro g hg
    simpa using h g hg
  rw [membersOf, hnone]
  rfl

theorem membersOf_eq (hgs : Ascending gs) {g : Group} (hg : g ∈ gs) :
    membersOf g.name gs = g.members := by
  induction gs with
  | nil => cases hg
  | cons h gs ih =>
    obtain ⟨hlt, hgs⟩ := List.pairwise_cons.1 hgs
    rcases List.mem_cons.1 hg with rfl | hg
    · simp [membersOf]
    · have hne : (h.name == g.name) = false := beq_false_of_ne (String.ne_of_lt (hlt g hg))
      rw [← ih hgs hg, membersOf, List.find?_cons, hne]
      rfl

theorem lt_of_not_lt {a b : String} (hne : a ≠ b) (h : ¬a < b) : b < a := by
  by_contra hba
  exact hne (String.le_antisymm (String.not_lt.1 hba) (String.not_lt.1 h))

/-- A member goes into the first group, before it or behind it. -/
theorem insertMember_cons_ok {k : Group}
    (h : insertMember name unique member (k :: gs) = .ok gs') :
    (k.name = name ∧ k.unique = unique ∧
      gs' = ⟨name, unique, k.members ++ [member]⟩ :: gs) ∨
    (name < k.name ∧ gs' = ⟨name, unique, [member]⟩ :: k :: gs) ∨
    (k.name < name ∧ ∃ rest, insertMember name unique member gs = .ok rest ∧ gs' = k :: rest) := by
  rw [insertMember] at h
  split at h
  · next hname =>
    split at h
    · next hunique =>
      cases h
      exact .inl ⟨hname.symm, hunique, by rw [hname, hunique]⟩
    · cases h
  · next hname =>
    split at h
    · next hlt =>
      cases h
      exact .inr (.inl ⟨hlt, rfl⟩)
    · next hlt =>
      obtain ⟨rest, hput, h⟩ := except_bind_ok.1 h
      cases h
      exact .inr (.inr ⟨lt_of_not_lt hname hlt, rest, hput, rfl⟩)

/-- Where the first group comes later there is none of the name. -/
theorem Ascending.name_ne {k : Group} (hgs : Ascending (k :: gs)) (h : name < k.name) :
    ∀ g ∈ k :: gs, g.name ≠ name := by
  intro g hg
  rcases List.mem_cons.1 hg with rfl | hg
  · exact (String.ne_of_lt h).symm
  · exact (String.ne_of_lt (String.lt_trans h ((List.pairwise_cons.1 hgs).1 g hg))).symm

/-- The group of the name has one member more, and the other groups are left alone. -/
theorem mem_insertMember (h : insertMember name unique member gs = .ok gs') (hgs : Ascending gs)
    {g : Group} : g ∈ gs' ↔ (g ∈ gs ∧ g.name ≠ name) ∨
      g = ⟨name, unique, membersOf name gs ++ [member]⟩ := by
  induction gs generalizing gs' with
  | nil =>
    cases h
    simp [membersOf]
  | cons k gs ih =>
    obtain ⟨hlt, hrest⟩ := List.pairwise_cons.1 hgs
    rcases insertMember_cons_ok h with ⟨rfl, rfl, rfl⟩ | ⟨hbefore, rfl⟩ | ⟨hbehind, rest, hput, rfl⟩
    · have hother (hg : g ∈ gs) : g.name ≠ k.name := (String.ne_of_lt (hlt g hg)).symm
      rw [membersOf_eq hgs List.mem_cons_self, List.mem_cons, List.mem_cons]
      constructor
      · rintro (hg | hg)
        · exact .inr hg
        · exact .inl ⟨.inr hg, hother hg⟩
      · rintro (⟨rfl | hg, hne⟩ | hg)
        · exact absurd rfl hne
        · exact .inr hg
        · exact .inl hg
    · have hother := hgs.name_ne hbefore
      rw [membersOf_eq_nil hother, List.mem_cons, or_comm]
      exact or_congr_left ⟨fun hg => ⟨hg, hother g hg⟩, And.left⟩
    · have hk : k.name ≠ name := String.ne_of_lt hbehind
      have hmembers : membersOf name (k :: gs) = membersOf name gs := by
        rw [membersOf, List.find?_cons, beq_false_of_ne hk]
        rfl
      rw [hmembers, List.mem_cons, List.mem_cons, ih hput hrest]
      constructor
      · rintro (rfl | ⟨hg, hne⟩ | hg)
        · exact .inl ⟨.inl rfl, hk⟩
        · exact .inl ⟨.inr hg, hne⟩
        · exact .inr hg
      · rintro (⟨rfl | hg, hne⟩ | hg)
        · exact .inl rfl
        · exact .inr (.inl ⟨hg, hne⟩)
        · exact .inr (.inr hg)

theorem Ascending.insertMember (hgs : Ascending gs)
    (h : insertMember name unique member gs = .ok gs') : Ascending gs' := by
  induction gs generalizing gs' with
  | nil =>
    cases h
    exact List.pairwise_singleton _ _
  | cons k gs ih =>
    obtain ⟨hlt, hrest⟩ := List.pairwise_cons.1 hgs
    rcases insertMember_cons_ok h with ⟨rfl, rfl, rfl⟩ | ⟨hbefore, rfl⟩ | ⟨hbehind, rest, hput, rfl⟩
    · exact List.pairwise_cons.2 ⟨hlt, hrest⟩
    · refine List.pairwise_cons.2 ⟨fun g hg => ?_, hgs⟩
      rcases List.mem_cons.1 hg with rfl | hg
      · exact hbefore
      · exact String.lt_trans hbefore (hlt g hg)
    · refine List.pairwise_cons.2 ⟨fun g hg => ?_, ih hrest hput⟩
      rcases (mem_insertMember hput hrest).1 hg with ⟨hg, -⟩ | rfl
      · exact hlt g hg
      · exact hbehind

/-- A group that takes a member agrees with it. -/
theorem unique_of_insertMember (hgs : Ascending gs)
    (h : insertMember name unique member gs = .ok gs') {g : Group} (hg : g ∈ gs)
    (hname : g.name = name) : g.unique = unique := by
  induction gs generalizing gs' with
  | nil => cases hg
  | cons k gs ih =>
    obtain ⟨hlt, hrest⟩ := List.pairwise_cons.1 hgs
    rcases insertMember_cons_ok h with ⟨rfl, rfl, rfl⟩ | ⟨hbefore, rfl⟩ | ⟨hbehind, rest, hput, rfl⟩
    · rcases List.mem_cons.1 hg with rfl | hg
      · rfl
      · exact absurd hname (String.ne_of_lt (hlt g hg)).symm
    · exact absurd hname (hgs.name_ne hbefore g hg)
    · rcases List.mem_cons.1 hg with rfl | hg
      · exact absurd hname (String.ne_of_lt hbehind)
      · exact ih hrest hput hg

/-- Only a group that disagrees refuses a member. -/
theorem insertMember_error {e : Error} (h : insertMember name unique member gs = .error e) :
    e = .inconsistentIndex name ∧ ∃ g ∈ gs, g.name = name ∧ g.unique ≠ unique := by
  induction gs with
  | nil => cases h
  | cons k gs ih =>
    rw [insertMember] at h
    split at h
    · next hname =>
      split at h
      · cases h
      · next hunique =>
        cases h
        exact ⟨rfl, k, List.mem_cons_self, hname.symm, hunique⟩
    · split at h
      · cases h
      · cases hput : insertMember name unique member gs with
        | ok rest =>
          rw [hput] at h
          cases h
        | error e' =>
          rw [hput] at h
          cases h
          obtain ⟨he, g, hg, hdisagrees⟩ := ih hput
          exact ⟨he, g, List.mem_cons_of_mem k hg, hdisagrees⟩

def put (gs : List Group) (a : Member) : Except Error (List Group) :=
  insertMember a.index a.unique (a.order, a.column) gs

/-- The groups of some members: one for each name, with all members of that name as they came. -/
structure Gathered (as : List Member) (gs : List Group) : Prop where
  ascending : Ascending gs
  complete : ∀ a ∈ as, ∃ g ∈ gs, g.name = a.index
  inhabited : ∀ g ∈ gs, ∃ a ∈ as, a.index = g.name
  unique : ∀ g ∈ gs, ∀ a ∈ as, a.index = g.name → a.unique = g.unique
  members : ∀ g ∈ gs, g.members =
    (as.filter fun a => a.index == g.name).map fun a => (a.order, a.column)

namespace Gathered

variable {as bs : List Member} {a b : Member}

theorem nil : Gathered [] [] := ⟨.nil, nofun, nofun, nofun, nofun⟩

theorem agree (h : Gathered as gs) (ha : a ∈ as) (hb : b ∈ as) (hab : a.index = b.index) :
    a.unique = b.unique := by
  obtain ⟨g, hg, hname⟩ := h.complete a ha
  rw [h.unique g hg a ha hname.symm, h.unique g hg b hb (hab.symm.trans hname.symm)]

theorem membersOf_eq (h : Gathered as gs) (name : String) : membersOf name gs =
    (as.filter fun a => a.index == name).map fun a => (a.order, a.column) := by
  by_cases hname : ∃ g ∈ gs, g.name = name
  · obtain ⟨g, hg, rfl⟩ := hname
    rw [Index.membersOf_eq h.ascending hg, h.members g hg]
  · have hnone : as.filter (fun a => a.index == name) = [] := by
      apply List.filter_eq_nil_iff.2
      intro a ha heq
      obtain ⟨g, hg, hga⟩ := h.complete a ha
      exact hname ⟨g, hg, hga.trans (beq_iff_eq.1 heq)⟩
    rw [membersOf_eq_nil fun g hg hg' => hname ⟨g, hg, hg'⟩, hnone]
    rfl

/-- One member more. -/
theorem put_ok (h : Gathered as gs) (hput : put gs a = .ok gs') : Gathered (as ++ [a]) gs' := by
  have hmem (g : Group) := mem_insertMember hput h.ascending (g := g)
  rw [h.membersOf_eq] at hmem
  refine ⟨h.ascending.insertMember hput, ?_, ?_, ?_, ?_⟩
  · intro b hb
    by_cases hba : b.index = a.index
    · exact ⟨_, (hmem _).2 (.inr rfl), hba.symm⟩
    · rcases List.mem_append.1 hb with hb | hb
      · obtain ⟨g, hg, hname⟩ := h.complete b hb
        exact ⟨g, (hmem g).2 (.inl ⟨hg, fun hga => hba (hname.symm.trans hga)⟩), hname⟩
      · exact absurd (congrArg Member.index (List.mem_singleton.1 hb)) hba
  · intro g hg
    rcases (hmem g).1 hg with ⟨hg, -⟩ | rfl
    · obtain ⟨b, hb, hname⟩ := h.inhabited g hg
      exact ⟨b, List.mem_append_left _ hb, hname⟩
    · exact ⟨a, List.mem_append_right _ (List.mem_singleton_self a), rfl⟩
  · intro g hg b hb hname
    rcases (hmem g).1 hg with ⟨hg, hne⟩ | rfl
    · rcases List.mem_append.1 hb with hb | hb
      · exact h.unique g hg b hb hname
      · rw [List.mem_singleton.1 hb] at hname
        exact absurd hname.symm hne
    · rcases List.mem_append.1 hb with hb | hb
      · obtain ⟨g, hg, hgb⟩ := h.complete b hb
        rw [h.unique g hg b hb hgb.symm]
        exact unique_of_insertMember h.ascending hput hg (hgb.trans hname)
      · rw [List.mem_singleton.1 hb]
  · intro g hg
    rw [List.filter_append, List.map_append]
    rcases (hmem g).1 hg with ⟨hg, hne⟩ | rfl
    · have hnone : (a.index == g.name) = false := beq_false_of_ne hne.symm
      rw [h.members g hg, List.filter_singleton, hnone]
      simp
    · rw [List.filter_singleton, beq_self_eq_true]
      rfl

/-- A member that is refused disagrees with one that is there. -/
theorem put_error (h : Gathered as gs) {e : Error} (hput : put gs a = .error e) :
    e = .inconsistentIndex a.index ∧ ∃ b ∈ as, b.index = a.index ∧ b.unique ≠ a.unique := by
  obtain ⟨he, g, hg, hname, hunique⟩ := insertMember_error hput
  obtain ⟨b, hb, hbg⟩ := h.inhabited g hg
  refine ⟨he, b, hb, hbg.trans hname, ?_⟩
  rw [h.unique g hg b hb hbg]
  exact hunique

/-- All members, or the first one that is refused. -/
theorem foldlM (h : Gathered as gs) (bs : List Member) :
    match bs.foldlM put gs with
    | .ok gs' => Gathered (as ++ bs) gs'
    | .error e => ∃ a ∈ as ++ bs, ∃ b ∈ as ++ bs, a.index = b.index ∧ a.unique ≠ b.unique ∧
        e = .inconsistentIndex a.index := by
  induction bs generalizing as gs with
  | nil =>
    rw [List.append_nil]
    exact h
  | cons b bs ih =>
    rw [List.foldlM_cons]
    cases hput : put gs b with
    | ok gs' =>
      have hrest := ih (h.put_ok hput)
      rw [List.append_assoc] at hrest
      exact hrest
    | error e =>
      obtain ⟨rfl, a, ha, hname, hunique⟩ := h.put_error hput
      exact ⟨b, List.mem_append_right _ List.mem_cons_self, a, List.mem_append_left _ ha,
        hname.symm, hunique.symm, rfl⟩

end Gathered

/-! Sorting the members of a group. -/

/-- Elements with one key stay as they stand. -/
theorem pairwise_mergeSort_stable {α : Type} {key : α → Int} {before : α → α → Prop} {xs : List α}
    (h : xs.Pairwise before) :
    (xs.mergeSort fun a b => key a ≤ key b).Pairwise fun a b =>
      key a < key b ∨ key a = key b ∧ before a b := by
  have htrans (a b c : α) (hab : decide (key a ≤ key b) = true)
      (hbc : decide (key b ≤ key c) = true) : decide (key a ≤ key c) = true := by
    simp only [decide_eq_true_eq] at *
    omega
  have htotal (a b : α) : (decide (key a ≤ key b) || decide (key b ≤ key a)) = true := by
    simp only [Bool.or_eq_true, decide_eq_true_eq]
    omega
  induction xs with
  | nil =>
    rw [List.mergeSort_nil]
    exact List.Pairwise.nil
  | cons a xs ih =>
    obtain ⟨hbefore, hxs⟩ := List.pairwise_cons.1 h
    -- the new element comes behind those with smaller keys only
    obtain ⟨front, back, hsort, hrest, hsmaller⟩ := List.mergeSort_cons htrans htotal a xs
    have hsorted := List.pairwise_mergeSort htrans htotal (a :: xs)
    have hih := ih hxs
    rw [hrest] at hih
    rw [hsort] at hsorted ⊢
    obtain ⟨hfront, hback, hacross⟩ := List.pairwise_append.1 hih
    obtain ⟨-, hbehind, -⟩ := List.pairwise_append.1 hsorted
    refine List.pairwise_append.2 ⟨hfront, List.pairwise_cons.2 ⟨?_, hback⟩, ?_⟩
    · intro b hb
      have hle := (List.pairwise_cons.1 hbehind).1 b hb
      have hmem : b ∈ xs := by
        apply List.mem_mergeSort.1
        rw [hrest]
        exact List.mem_append_right _ hb
      rcases Int.lt_or_eq_of_le (of_decide_eq_true hle) with hlt | heq
      · exact .inl hlt
      · exact .inr ⟨heq, hbefore b hmem⟩
    · intro b hb c hc
      rcases List.mem_cons.1 hc with rfl | hc
      · have hnot := hsmaller b hb
        simp only [Bool.not_eq_true', decide_eq_false_iff_not] at hnot
        exact .inl (by omega)
      · exact hacross b hb c hc

end Index

namespace Mapping

variable {m : Mapping}

/-- The attributes that ask for an index, with their places. -/
def members (m : Mapping) : List (Place × Member) :=
  m.columns.zipIdx.flatMap fun x => x.1.indices.zipIdx.filterMap fun y =>
    if y.1.isOnColumn then none else some (⟨x.2, y.2⟩, .ofAttr m.table x.1.name y.1)

theorem isOnColumn_iff {a : IndexAttr} :
    a.isOnColumn = true ↔ a.name = none ∧ a.unique = true := by
  simp [IndexAttr.isOnColumn]

theorem member?_eq_some_iff {p : Place} {a : Member} : m.member? p = some a ↔
    ∃ c i, m.column? p.column = some c ∧ c.indices[p.attr]? = some i ∧ i.isOnColumn = false ∧
      .ofAttr m.table c.name i = a := by
  constructor
  · intro h
    obtain ⟨c, hc, h⟩ := Option.bind_eq_some_iff.1 h
    obtain ⟨i, hi, h⟩ := Option.bind_eq_some_iff.1 h
    split at h
    · cases h
    · next hon =>
      rw [← isOnColumn_iff, Bool.not_eq_true] at hon
      exact ⟨c, i, hc, hi, hon, Option.some.inj h⟩
  · rintro ⟨c, i, hc, hi, hon, rfl⟩
    have hnot : ¬(i.name = none ∧ i.unique = true) := by
      rw [← isOnColumn_iff, hon]
      exact Bool.false_ne_true
    simp only [member?, hc, hi, Option.bind_eq_bind, Option.bind_some, if_neg hnot]

theorem mem_members {p : Place} {a : Member} : (p, a) ∈ m.members ↔ m.member? p = some a := by
  rw [members, List.mem_flatMap, member?_eq_some_iff]
  constructor
  · rintro ⟨⟨c, i⟩, hc, hmem⟩
    obtain ⟨⟨attr, j⟩, hattr, h⟩ := List.mem_filterMap.1 hmem
    split at h
    · cases h
    · next hon =>
      cases h
      exact ⟨c, attr, List.mem_zipIdx_iff_getElem?.1 hc, List.mem_zipIdx_iff_getElem?.1 hattr,
        Bool.not_eq_true _ ▸ hon, rfl⟩
  · rintro ⟨c, attr, hc, hattr, hon, rfl⟩
    refine ⟨(c, p.column), List.mem_zipIdx_iff_getElem?.2 hc, List.mem_filterMap.2 ?_⟩
    refine ⟨(attr, p.attr), List.mem_zipIdx_iff_getElem?.2 hattr, ?_⟩
    rw [hon]
    rfl

theorem pairwise_zipIdx {α : Type} (xs : List α) : xs.zipIdx.Pairwise fun x y => x.2 < y.2 := by
  rw [← List.pairwise_map, List.zipIdx_map_snd]
  exact List.pairwise_lt_range'

theorem pairwise_members (m : Mapping) : m.members.Pairwise fun x y => x.1.Before y.1 := by
  have hcolumn {x : Column × Nat} {z : Place × Member}
      (hz : z ∈ x.1.indices.zipIdx.filterMap fun y =>
        if y.1.isOnColumn then none else some (⟨x.2, y.2⟩, .ofAttr m.table x.1.name y.1)) :
      z.1.column = x.2 := by
    obtain ⟨y, -, h⟩ := List.mem_filterMap.1 hz
    split at h
    · cases h
    · cases h
      rfl
  apply List.pairwise_flatMap.2
  constructor
  · intro x _
    apply List.Pairwise.filterMap _ _ (pairwise_zipIdx x.1.indices)
    intro y y' hlt z hz z' hz'
    split at hz
    · cases hz
    · split at hz'
      · cases hz'
      · cases hz
        cases hz'
        exact .inr ⟨rfl, hlt⟩
  · apply (pairwise_zipIdx m.columns).imp
    intro x x' hlt z hz z' hz'
    refine .inl ?_
    rw [hcolumn hz, hcolumn hz']
    exact hlt

/-- The attributes are gathered as they stand. -/
theorem groups_eq (m : Mapping) :
    Index.groups m = (m.members.map Prod.snd).foldlM Index.put [] := by
  have hinner (c : Column) (i : Nat) :
      (c.indices.zipIdx.filterMap fun y =>
        if y.1.isOnColumn then none
        else some ((⟨i, y.2⟩ : Place), Member.ofAttr m.table c.name y.1)).map Prod.snd =
      (c.indices.filter fun a => !a.isOnColumn).map (Member.ofAttr m.table c.name) := by
    have hone (y : IndexAttr × Nat) :
        ((if y.1.isOnColumn then none
          else some ((⟨i, y.2⟩ : Place), Member.ofAttr m.table c.name y.1)).map Prod.snd) =
        (Option.guard (fun a : IndexAttr => !a.isOnColumn) y.1).map
          (Member.ofAttr m.table c.name) := by
      cases hon : y.1.isOnColumn <;> simp [Option.guard, hon]
    rw [List.map_filterMap]
    simp only [hone]
    rw [← List.map_filterMap, ← List.filterMap_eq_filter]
    congr 1
    rw [← List.zipIdx_map_fst 0 c.indices, List.filterMap_map, List.zipIdx_map_fst]
    rfl
  have hmembers : m.members.map Prod.snd =
      (Index.attributes m).map fun x => Member.ofAttr m.table x.2 x.1 := by
    rw [members, Index.attributes, List.map_flatMap, List.map_flatMap]
    simp only [hinner, List.map_map]
    rw [← List.zipIdx_map_fst 0 m.columns, List.flatMap_map, List.zipIdx_map_fst]
    rfl
  rw [hmembers, List.foldlM_map]
  rfl

theorem exists_place {a : Member} (ha : a ∈ m.members.map Prod.snd) :
    ∃ p, m.member? p = some a := by
  obtain ⟨⟨p, a⟩, hmem, rfl⟩ := List.mem_map.1 ha
  exact ⟨p, mem_members.1 hmem⟩

theorem mem_map_members {p : Place} {a : Member} (h : m.member? p = some a) :
    a ∈ m.members.map Prod.snd := List.mem_map.2 ⟨(p, a), mem_members.2 h, rfl⟩

theorem gathers_ofGroup {gs : List Index.Group} {g : Index.Group}
    (h : Index.Gathered (m.members.map Prod.snd) gs) (hg : g ∈ gs) :
    m.Gathers (Index.ofGroup m.table g) := by
  refine ⟨rfl, fun p a ha => h.unique g hg a (mem_map_members ha), ?_⟩
  let own := m.members.filter fun x => x.2.index == g.name
  refine ⟨own.mergeSort fun x y => x.2.order ≤ y.2.order, ?_, ?_, ?_⟩
  · intro p a
    rw [List.mem_mergeSort, List.mem_filter, mem_members, beq_iff_eq]
    rfl
  · exact Index.pairwise_mergeSort_stable (m.pairwise_members.sublist List.filter_sublist)
  · let shown (x : Place × Member) : Int × String := (x.2.order, x.2.column)
    have hmembers : g.members = own.map shown := by
      rw [h.members g hg, List.filter_map, List.map_map]
      rfl
    have hsort : (own.map shown).mergeSort (fun a b => a.1 ≤ b.1) =
        (own.mergeSort fun x y => x.2.order ≤ y.2.order).map shown :=
      (List.map_mergeSort (f := shown) fun _ _ _ _ => rfl).symm
    rw [Index.ofGroup, hmembers, hsort, List.map_map]
    rfl

end Mapping

end RowLedger
