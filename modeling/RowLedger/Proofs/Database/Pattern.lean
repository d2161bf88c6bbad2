import Mathlib.Data.List.Infix
import RowLedger.Proofs.Database.Slice

/-!
What patterns match. A pattern that ends in a percent sign asks for a start of a text, and one that
begins with it for an end. Without wildcards what is asked for is the text of the pattern itself,
but for the case of ASCII letters; with a wildcard in it other texts are found as well.
-/

namespace RowLedger

namespace Datum

variable {c : Char} {p q x y : List Char}

/-- The characters that one character of a pattern stands for. -/
def StandsFor (c : Char) (y : List Char) : Prop :=
  c = '%' ∨ ∃ d, y = [d] ∧ (c = '_' ∨ c.toLower = d.toLower)

theorem matchesPattern_nil : matchesPattern [] x = true ↔ x = [] := by
  rw [matchesPattern, List.isEmpty_iff]

theorem matchesPattern_percent :
    matchesPattern ('%' :: p) x = true ↔ ∃ y z, x = y ++ z ∧ matchesPattern p z = true := by
  induction x with
  | nil =>
    rw [matchesPattern]
    constructor
    · intro h
      exact ⟨[], [], rfl, h⟩
    · rintro ⟨y, z, hx, hz⟩
      rw [(List.append_eq_nil_iff.1 hx.symm).2] at hz
      exact hz
  | cons d x ih =>
    rw [matchesPattern, Bool.or_eq_true, ih]
    constructor
    · rintro (h | ⟨y, z, rfl, hz⟩)
      · exact ⟨[], _, rfl, h⟩
      · exact ⟨d :: y, z, rfl, hz⟩
    · rintro ⟨y, z, hx, hz⟩
      cases y with
      | nil => exact .inl (hx ▸ hz)
      | cons e y => exact .inr ⟨y, z, (List.cons.inj hx).2, hz⟩

theorem matchesPattern_single (hc : c ≠ '%') :
    matchesPattern (c :: p) x = true ↔
      ∃ d z, x = d :: z ∧ (c = '_' ∨ c.toLower = d.toLower) ∧ matchesPattern p z = true := by
  cases x with
  | nil => simp [matchesPattern]
  | cons d x =>
    by_cases hlow : c = '_'
    · subst hlow
      simp [matchesPattern]
    · simp [matchesPattern, hlow]

/-- A pattern matches what its first character stands for with what the others match after it. -/
theorem matchesPattern_cons :
    matchesPattern (c :: p) x = true ↔
      ∃ y z, x = y ++ z ∧ StandsFor c y ∧ matchesPattern p z = true := by
  by_cases hc : c = '%'
  · subst hc
    simp [matchesPattern_percent, StandsFor]
  · rw [matchesPattern_single hc]
    constructor
    · rintro ⟨d, z, rfl, hd, hz⟩
      exact ⟨[d], z, rfl, .inr ⟨d, rfl, hd⟩, hz⟩
    · rintro ⟨_, z, rfl, hy, hz⟩
      obtain ⟨d, rfl, hd⟩ := hy.resolve_left hc
      exact ⟨d, z, rfl, hd, hz⟩

/-- Two patterns one after the other. -/
theorem matchesPattern_append :
    matchesPattern (p ++ q) x = true ↔
      ∃ y z, x = y ++ z ∧ matchesPattern p y = true ∧ matchesPattern q z = true := by
  induction p generalizing x with
  | nil =>
    constructor
    · intro h
      exact ⟨[], x, rfl, matchesPattern_nil.2 rfl, h⟩
    · rintro ⟨y, z, rfl, hy, hz⟩
      rw [matchesPattern_nil.1 hy]
      exact hz
  | cons c p ih =>
    rw [List.cons_append, matchesPattern_cons]
    constructor
    · rintro ⟨y, z, rfl, hy, hz⟩
      obtain ⟨v, w, rfl, hv, hw⟩ := ih.1 hz
      have hyv := matchesPattern_cons.2 ⟨y, v, rfl, hy, hv⟩
      exact ⟨y ++ v, w, (List.append_assoc _ _ _).symm, hyv, hw⟩
    · rintro ⟨y, w, rfl, hy, hw⟩
      obtain ⟨y, v, rfl, hy, hv⟩ := matchesPattern_cons.1 hy
      exact ⟨y, v ++ w, List.append_assoc _ _ _, hy, ih.2 ⟨v, w, rfl, hv, hw⟩⟩

/-! Patterns that are looked for at the ends of a text. -/

/-- Does the pattern match a start of the text? -/
def StartMatches (p x : List Char) : Prop := ∃ y, y <+: x ∧ matchesPattern p y = true

/-- Does the pattern match an end of the text? -/
def EndMatches (p x : List Char) : Prop := ∃ y, y <:+ x ∧ matchesPattern p y = true

theorem matchesPattern_start : matchesPattern (p ++ ['%']) x = true ↔ StartMatches p x := by
  rw [matchesPattern_append]
  constructor
  · rintro ⟨y, z, rfl, hy, -⟩
    exact ⟨y, List.prefix_append y z, hy⟩
  · rintro ⟨y, ⟨z, rfl⟩, hy⟩
    have hany : matchesPattern ['%'] z = true :=
      matchesPattern_percent.2 ⟨z, [], (List.append_nil z).symm, matchesPattern_nil.2 rfl⟩
    exact ⟨y, z, rfl, hy, hany⟩

theorem matchesPattern_end : matchesPattern ('%' :: p) x = true ↔ EndMatches p x := by
  rw [matchesPattern_percent]
  constructor
  · rintro ⟨y, z, rfl, hz⟩
    exact ⟨z, List.suffix_append y z, hz⟩
  · rintro ⟨z, ⟨y, rfl⟩, hz⟩
    exact ⟨y, z, rfl, hz⟩

/-- Is a text like a pattern with any characters after it? -/
theorem like_start (s t : String) :
    ((text s).like ((text t).concat (text "%"))).truth? = some true ↔
      StartMatches t.toList s.toList := by
  change (ofBool (matchesPattern (t ++ "%").toList s.toList)).truth? = some true ↔ _
  rw [truth?_ofBool, Option.some.injEq, String.toList_append]
  exact matchesPattern_start

/-- Is a text like a pattern with any characters before it? -/
theorem like_end (s t : String) :
    ((text s).like ((text "%").concat (text t))).truth? = some true ↔
      EndMatches t.toList s.toList := by
  change (ofBool (matchesPattern ("%" ++ t).toList s.toList)).truth? = some true ↔ _
  rw [truth?_ofBool, Option.some.injEq, String.toList_append]
  exact matchesPattern_end

/-- No character of a pattern stands for others than itself. -/
def NoWildcard (p : List Char) : Prop := '%' ∉ p ∧ '_' ∉ p

instance (p : List Char) : Decidable (NoWildcard p) := inferInstanceAs (Decidable (_ ∧ _))

/-- Without wildcards a pattern matches what it is, in any case. -/
theorem NoWildcard.matchesPattern_iff (hp : NoWildcard p) :
    matchesPattern p x = true ↔ p.map Char.toLower = x.map Char.toLower := by
  induction p generalizing x with
  | nil => rw [matchesPattern_nil, List.map_nil, eq_comm (a := []), List.map_eq_nil_iff]
  | cons c p ih =>
    have hpercent : c ≠ '%' := fun h => hp.1 (h ▸ List.mem_cons_self)
    have hlow : c ≠ '_' := fun h => hp.2 (h ▸ List.mem_cons_self)
    have htail : NoWildcard p :=
      ⟨fun h => hp.1 (List.mem_cons_of_mem c h), fun h => hp.2 (List.mem_cons_of_mem c h)⟩
    rw [matchesPattern_single hpercent]
    cases x with
    | nil => simp
    | cons d x => simp [hlow, ih htail]

/-- A text that a pattern matches, without the wildcards of the pattern. -/
def filled (p : List Char) : List Char := p.map fun c => if c = '%' ∨ c = '_' then 'a' else c

theorem matchesPattern_filled : matchesPattern p (filled p) = true := by
  induction p with
  | nil => exact matchesPattern_nil.2 rfl
  | cons c p ih =>
    refine matchesPattern_cons.2 ⟨[_], filled p, rfl, ?_, ih⟩
    by_cases hpercent : c = '%'
    · exact .inl hpercent
    · refine .inr ⟨_, rfl, ?_⟩
      by_cases hlow : c = '_'
      · exact .inl hlow
      · simp [hpercent, hlow]

/-- What fills a wildcard differs from it, also in small letters. -/
theorem noWildcard_of_filled (h : p.map Char.toLower = (filled p).map Char.toLower) :
    NoWildcard p := by
  rw [filled, List.map_map, List.map_inj_left] at h
  exact ⟨fun hp => absurd (h _ hp) (by decide), fun hp => absurd (h _ hp) (by decide)⟩

/-- A pattern finds the parts of texts in any case, and no others, if it has no wildcard. Parts are
prefixes or suffixes. -/
theorem partMatches_iff {IsPart : List Char → List Char → Prop} (hrefl : ∀ x, IsPart x x)
    (hlength : ∀ {x y}, IsPart x y → x.length = y.length → x = y)
    (hmap : ∀ x y, IsPart x (y.map Char.toLower) ↔ ∃ z, IsPart z y ∧ x = z.map Char.toLower)
    {p : String} :
    (∀ x : String, (∃ y, IsPart y x.toList ∧ matchesPattern p.toList y = true) ↔
      IsPart (Text.foldAscii p) (Text.foldAscii x)) ↔ NoWildcard p.toList := by
  constructor
  · intro h
    have hfilled := h (String.ofList (filled p.toList))
    rw [Text.foldAscii, Text.foldAscii, String.toList_ofList] at hfilled
    have hpart := hfilled.1 ⟨_, hrefl _, matchesPattern_filled⟩
    exact noWildcard_of_filled (hlength hpart (by simp [filled]))
  · intro hp x
    rw [Text.foldAscii, Text.foldAscii, hmap]
    exact exists_congr fun y => and_congr_right fun _ => hp.matchesPattern_iff

theorem startMatches_iff {p : String} :
    (∀ x : String, StartMatches p.toList x.toList ↔ Text.foldAscii p <+: Text.foldAscii x) ↔
      NoWildcard p.toList :=
  partMatches_iff (fun _ => List.prefix_rfl) List.IsPrefix.eq_of_length
    fun _ _ => List.prefix_map_iff

theorem endMatches_iff {p : String} :
    (∀ x : String, EndMatches p.toList x.toList ↔ Text.foldAscii p <:+ Text.foldAscii x) ↔
      NoWildcard p.toList :=
  partMatches_iff (fun _ => List.suffix_rfl) List.IsSuffix.eq_of_length
    fun _ _ => List.suffix_map_iff

end Datum

end RowLedger
