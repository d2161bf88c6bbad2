import Mathlib.Data.List.Infix

/-!
Values written one after the other with a mark before each but the first. Such a text tells its
values exactly if no mark stands in one of the two values next to it, whatever else they hold.
-/

namespace RowLedger.Text

/-- A mark begins with its delimiter and does not hold it again. -/
def IsMark (delimiter : Char) (mark : List Char) : Prop :=
  ∃ rest, mark = delimiter :: rest ∧ delimiter ∉ rest

/-- A first value, and then each mark with the value behind it. -/
def woven (first : List Char) (parts : List (List Char × List Char)) : List Char :=
  first ++ parts.flatMap fun p => p.1 ++ p.2

/-- No mark stands in the value before it or in the one behind it. -/
def Apart (first : List Char) : List (List Char × List Char) → Prop
  | [] => True
  | (mark, value) :: parts => ¬mark <:+: first ∧ ¬mark <:+: value ∧ Apart value parts

variable {delimiter : Char} {mark first first' value value' : List Char}
  {parts parts' : List (List Char × List Char)}

theorem woven_cons :
    woven first ((mark, value) :: parts) = first ++ (mark ++ woven value parts) := by
  simp [woven]

theorem IsMark.ne_nil (h : IsMark delimiter mark) : mark ≠ [] := by
  obtain ⟨rest, rfl, -⟩ := h
  exact List.cons_ne_nil _ _

/-- A mark that begins in a value ends in it, if a delimiter or nothing comes behind the value. -/
theorem IsMark.prefix_of_append (h : IsMark delimiter mark) {cs rest : List Char} (hne : cs ≠ [])
    (hrest : ∀ c ∈ rest.head?, c = delimiter) (hmark : mark <+: cs ++ rest) : mark <+: cs := by
  rcases List.prefix_or_prefix_of_prefix hmark (List.prefix_append cs rest) with hcs | ⟨t, ht⟩
  · exact hcs
  · rw [← ht, List.prefix_append_right_inj] at hmark
    cases t with
    | nil =>
      rw [List.append_nil] at ht
      rw [ht]
    | cons c t =>
      -- the delimiter behind the value would be the mark's second one
      obtain ⟨u, rfl⟩ := hmark
      obtain rfl := hrest c rfl
      obtain ⟨x, xs, rfl⟩ := List.exists_cons_of_ne_nil hne
      obtain ⟨r, rfl, hnot⟩ := h
      obtain ⟨-, rfl⟩ := List.cons.inj ht
      exact absurd (List.mem_append_right xs List.mem_cons_self) hnot

theorem head?_flatMap_marks (hmarks : ∀ p ∈ parts, IsMark delimiter p.1) :
    ∀ c ∈ (parts.flatMap fun p => p.1 ++ p.2).head?, c = delimiter := by
  cases parts with
  | nil => nofun
  | cons p parts =>
    obtain ⟨rest, hrest, -⟩ := hmarks p List.mem_cons_self
    intro c hc
    rw [List.flatMap_cons, hrest] at hc
    exact (Option.some.inj hc).symm

/-- A mark that a text has before the end of its first value stands in that value. -/
theorem IsMark.infix_of_woven_eq (h : IsMark delimiter mark)
    (hmarks : ∀ p ∈ parts, IsMark delimiter p.1) {before after : List Char}
    (heq : woven first parts = before ++ (mark ++ after)) (hlt : before.length < first.length) :
    mark <:+: first := by
  rcases List.append_eq_append_iff.1 heq with ⟨u, rfl, -⟩ | ⟨u, rfl, hu⟩
  · rw [List.length_append] at hlt
    omega
  · have hne : u ≠ [] := by
      rintro rfl
      rw [List.append_nil] at hlt
      omega
    have hprefix := h.prefix_of_append hne (head?_flatMap_marks hmarks) ⟨after, hu⟩
    exact hprefix.isInfix.trans (List.suffix_append before u).isInfix

/-- A mark that a text has behind its first value, other than the first mark, comes after that. -/
theorem IsMark.later (h : IsMark delimiter mark) {before after rest : List Char}
    (heq : first ++ (mark ++ rest) = before ++ (mark ++ after))
    (hlt : first.length < before.length) : ∃ u, rest = u ++ (mark ++ after) := by
  rcases List.append_eq_append_iff.1 heq with ⟨u, rfl, hu⟩ | ⟨u, rfl, -⟩
  · have hne : u ≠ [] := by
      rintro rfl
      rw [List.append_nil] at hlt
      omega
    rcases List.append_eq_append_iff.1 hu with ⟨v, rfl, hv⟩ | ⟨v, hv, hrest⟩
    · exact ⟨v, hv⟩
    · cases v with
      | nil => exact ⟨[], hrest.symm⟩
      | cons c v =>
        -- it would begin within the first mark
        obtain ⟨x, xs, rfl⟩ := List.exists_cons_of_ne_nil hne
        obtain ⟨r, rfl, hnot⟩ := h
        obtain ⟨rfl, -⟩ := List.cons.inj hrest
        obtain ⟨-, rfl⟩ := List.cons.inj hv
        exact absurd (List.mem_append_right xs List.mem_cons_self) hnot
  · rw [List.length_append] at hlt
    omega

/-- Reading a text with its first mark later takes a later place for each other mark too, and
there is none for the last. -/
theorem length_le_of_woven_eq (hmark : IsMark delimiter mark)
    (hmarks : ∀ p ∈ parts, IsMark delimiter p.1) (hapart : Apart first ((mark, value) :: parts))
    (hsame : parts'.map Prod.fst = parts.map Prod.fst)
    (heq : woven first ((mark, value) :: parts) = woven first' ((mark, value') :: parts')) :
    first'.length ≤ first.length := by
  induction parts generalizing mark first value first' value' parts' with
  | nil =>
    obtain ⟨-, hvalue, -⟩ := hapart
    by_contra hlt
    obtain ⟨before, hbefore⟩ :=
      hmark.later (woven_cons.symm.trans (heq.trans woven_cons)) (Nat.lt_of_not_le hlt)
    apply hvalue
    rw [woven, List.flatMap_nil, List.append_nil] at hbefore
    exact ⟨before, woven value' parts', by rw [hbefore, List.append_assoc]⟩
  | cons p parts ih =>
    obtain ⟨next, value₂⟩ := p
    obtain ⟨-, hvalue, hrest⟩ := hapart
    by_contra hlt
    obtain ⟨before, hbefore⟩ :=
      hmark.later (woven_cons.symm.trans (heq.trans woven_cons)) (Nat.lt_of_not_le hlt)
    -- the mark is not in its own value, so that it comes behind that
    have hbehind : value.length ≤ before.length := by
      by_contra hwithin
      exact hvalue (hmark.infix_of_woven_eq hmarks hbefore (Nat.lt_of_not_le hwithin))
    cases parts' with
    | nil => cases hsame
    | cons q parts' =>
      obtain ⟨next', value₂'⟩ := q
      obtain rfl : next' = next := (List.cons.inj hsame).1
      have hnext : woven value ((next', value₂) :: parts) =
          woven (before ++ (mark ++ value')) ((next', value₂') :: parts') := by
        rw [hbefore, woven_cons, woven_cons, List.append_assoc, List.append_assoc]
      have hle := ih (hmarks _ List.mem_cons_self)
        (fun q hq => hmarks q (List.mem_cons_of_mem _ hq)) hrest (List.cons.inj hsame).2 hnext
      have hpos := List.length_pos_iff.2 hmark.ne_nil
      rw [List.length_append, List.length_append] at hle
      omega

/-- A text whose marks are apart from the values next to them is read in one way only. -/
theorem eq_of_woven_eq (hmarks : ∀ p ∈ parts, IsMark delimiter p.1) (hapart : Apart first parts)
    (hsame : parts'.map Prod.fst = parts.map Prod.fst)
    (heq : woven first' parts' = woven first parts) : first' = first ∧ parts' = parts := by
  induction parts generalizing first first' parts' with
  | nil =>
    obtain rfl := List.map_eq_nil_iff.1 hsame
    simpa [woven] using heq
  | cons p parts ih =>
    obtain ⟨mark, value⟩ := p
    cases parts' with
    | nil => cases hsame
    | cons q parts' =>
      obtain ⟨mark', value'⟩ := q
      obtain rfl : mark' = mark := (List.cons.inj hsame).1
      have hmark := hmarks _ List.mem_cons_self
      have hrest := fun q hq => hmarks q (List.mem_cons_of_mem _ hq)
      have hnotLater := length_le_of_woven_eq hmark hrest hapart (List.cons.inj hsame).2 heq.symm
      have hnotBefore : first.length ≤ first'.length := by
        by_contra hlt
        exact hapart.1 (hmark.infix_of_woven_eq hmarks (heq.symm.trans woven_cons)
          (Nat.lt_of_not_le hlt))
      rw [woven_cons, woven_cons] at heq
      obtain ⟨rfl, hbehind⟩ := List.append_inj heq (Nat.le_antisymm hnotLater hnotBefore)
      obtain ⟨rfl, rfl⟩ := ih hrest hapart.2.2 (List.cons.inj hsame).2
        (List.append_cancel_left hbehind)
      exact ⟨rfl, rfl⟩

/-- Values without the delimiter keep all marks apart. -/
theorem apart_of_not_mem (hmarks : ∀ p ∈ parts, IsMark delimiter p.1) (hfirst : delimiter ∉ first)
    (hvalues : ∀ p ∈ parts, delimiter ∉ p.2) : Apart first parts := by
  induction parts generalizing first with
  | nil => trivial
  | cons p parts ih =>
    obtain ⟨mark, value⟩ := p
    have hmem : delimiter ∈ mark := by
      obtain ⟨rest, hrest, -⟩ := hmarks _ List.mem_cons_self
      dsimp only at hrest
      rw [hrest]
      exact List.mem_cons_self
    have hvalue : delimiter ∉ value := hvalues _ List.mem_cons_self
    refine ⟨fun h => hfirst (h.subset hmem), fun h => hvalue (h.subset hmem), ?_⟩
    exact ih (fun q hq => hmarks q (List.mem_cons_of_mem _ hq)) hvalue
      fun q hq => hvalues q (List.mem_cons_of_mem _ hq)

/-- A text with a mark in a value next to it has another reading. -/
theorem exists_woven_eq (hmarks : ∀ p ∈ parts, IsMark delimiter p.1) (h : ¬Apart first parts) :
    ∃ first' parts', parts'.map Prod.fst = parts.map Prod.fst ∧
      woven first' parts' = woven first parts ∧ ¬(first' = first ∧ parts' = parts) := by
  induction parts generalizing first with
  | nil => exact absurd trivial h
  | cons p parts ih =>
    obtain ⟨mark, value⟩ := p
    have hpos : 0 < mark.length := List.length_pos_iff.2 (hmarks _ List.mem_cons_self).ne_nil
    by_cases hfirst : mark <:+: first
    · -- the mark in the first value is taken for the one behind it
      obtain ⟨before, after, rfl⟩ := hfirst
      refine ⟨before, (mark, after ++ (mark ++ value)) :: parts, rfl, ?_, fun hboth => ?_⟩
      · simp [woven]
      · have hlen := congrArg List.length hboth.1
        simp only [List.length_append] at hlen
        omega
    · by_cases hvalue : mark <:+: value
      · obtain ⟨before, after, rfl⟩ := hvalue
        refine ⟨first ++ (mark ++ before), (mark, after) :: parts, rfl, ?_, fun hboth => ?_⟩
        · simp [woven]
        · have hlen := congrArg List.length hboth.1
          simp only [List.length_append] at hlen
          omega
      · have hrest : ¬Apart value parts := fun hrest => h ⟨hfirst, hvalue, hrest⟩
        obtain ⟨value', parts', hsame, heq, hne⟩ :=
          ih (fun q hq => hmarks q (List.mem_cons_of_mem _ hq)) hrest
        refine ⟨first, (mark, value') :: parts', ?_, ?_, fun hboth => hne ?_⟩
        · rw [List.map_cons, List.map_cons, hsame]
        · rw [woven_cons, woven_cons, heq]
        · obtain ⟨hpart, hparts⟩ := List.cons.inj hboth.2
          exact ⟨(Prod.mk.inj hpart).2, hparts⟩

end RowLedger.Text
