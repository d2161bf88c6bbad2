import Mathlib.Logic.Function.Basic
import RowLedger.Proofs.Cache.Basic
import RowLedger.Proofs.Schema.Mapping
import RowLedger.Schema.Registry

/-!
The mappings in use and the flags that they were built with. A registry only forgets a mapping when
it is asked to, and numbers every one that it builds.
-/

namespace RowLedger

theorem Mapping.flags_of_ofRecord {t : RecordType} {flags : Flags} {m : Mapping}
    (h : Mapping.ofRecord t flags = .ok m) : m.flags = flags := by
  obtain ⟨columns, sync, -, rfl⟩ := Mapping.ofFields_ok h
  rfl

namespace Registry

variable {flags : RecordType → Flags} {r r' first : Registry} {t u : RecordType} {h g : Shared}
  {f : Flags}

/-- A mapping that is asked for is there, or it is added. -/
theorem mapping_ok (hm : r.mapping t = .ok (h, r')) :
    (r.find? t = some h ∧ r' = r) ∨ r.find? t = none ∧
      ∃ m, Mapping.ofRecord t .none = .ok m ∧ h = (r.put t m).1 ∧ r' = (r.put t m).2 := by
  rw [Registry.mapping] at hm
  cases hfind : r.find? t with
  | some g =>
    rw [Cache.serve_of_find? hfind] at hm
    cases hm
    exact .inl ⟨rfl, rfl⟩
  | none =>
    rw [Cache.serve_of_none hfind] at hm
    obtain ⟨m, hbuild, hput⟩ := except_map_ok.1 hm
    exact .inr ⟨rfl, m, hbuild, congrArg Prod.fst hput.symm, congrArg Prod.snd hput.symm⟩

theorem withFlags_of_find? (hfind : r.find? t = some h) :
    r.withFlags t h.value.flags = .ok (h, r) := by
  rw [withFlags, hfind, Option.filter_some, decide_eq_true rfl]
  rfl

theorem withFlags_of_ne (hne : ∀ h, r.find? t = some h → h.value.flags ≠ f) :
    r.withFlags t f = (Mapping.ofRecord t f).map (r.put t) := by
  have hnone : (r.find? t).filter (fun s => s.value.flags = f) = none := by
    rw [Option.filter_eq_none_iff]
    exact fun h hfind hflags => hne h hfind (of_decide_eq_true hflags)
  rw [withFlags, hnone]
  cases Mapping.ofRecord t f <;> rfl

/-- A mapping with flags is there with these flags, or it takes the place of the one that is. -/
theorem withFlags_ok (hm : r.withFlags t f = .ok (h, r')) :
    (r.find? t = some h ∧ h.value.flags = f ∧ r' = r) ∨
      ∃ m, Mapping.ofRecord t f = .ok m ∧ h = (r.put t m).1 ∧ r' = (r.put t m).2 := by
  by_cases hthere : ∃ g, r.find? t = some g ∧ g.value.flags = f
  · obtain ⟨g, hfind, rfl⟩ := hthere
    cases (withFlags_of_find? hfind).symm.trans hm
    exact .inl ⟨hfind, rfl, rfl⟩
  · rw [withFlags_of_ne fun g hfind hflags => hthere ⟨g, hfind, hflags⟩] at hm
    obtain ⟨m, hbuild, hput⟩ := except_map_ok.1 hm
    exact .inr ⟨m, hbuild, congrArg Prod.fst hput.symm, congrArg Prod.snd hput.symm⟩

theorem find?_of_mapping (hm : r.mapping t = .ok (h, r')) : r'.find? t = some h := by
  rcases mapping_ok hm with ⟨hfind, rfl⟩ | ⟨-, m, -, rfl, rfl⟩
  · exact hfind
  · exact Cache.find?_put_self

theorem find?_of_withFlags (hm : r.withFlags t f = .ok (h, r')) : r'.find? t = some h := by
  rcases withFlags_ok hm with ⟨hfind, -, rfl⟩ | ⟨m, -, rfl, rfl⟩
  · exact hfind
  · exact Cache.find?_put_self

theorem find?_withFlags_of_ne (hm : r.withFlags t f = .ok (h, r')) (hu : u ≠ t) :
    r'.find? u = r.find? u := by
  rcases withFlags_ok hm with ⟨-, -, rfl⟩ | ⟨m, -, -, rfl⟩
  · rfl
  · exact Cache.find?_put_of_ne hu

/-- Every shared mapping is that of the flags of its type; a type without one has no flags. -/
def Follows (flags : RecordType → Flags) (r : Registry) : Prop :=
  ∀ t, match r.find? t with
    | some h => Mapping.ofRecord t (flags t) = .ok h.value
    | none => flags t = .none

namespace Follows

theorem reset (r : Registry) : Follows (fun _ => .none) r.reset := fun _ => rfl

theorem of_find? (hr : r.Follows flags) (hfind : r.find? t = some h) :
    Mapping.ofRecord t (flags t) = .ok h.value := by
  have ht := hr t
  rwa [hfind] at ht

theorem of_none (hr : r.Follows flags) (hfind : r.find? t = none) : flags t = .none := by
  have ht := hr t
  rwa [hfind] at ht

theorem put (hr : r.Follows flags) {m : Mapping} (hm : Mapping.ofRecord t f = .ok m) :
    Follows (Function.update flags t f) (r.put t m).2 := by
  intro u
  by_cases hu : u = t
  · subst hu
    rw [Cache.find?_put_self, Function.update_self]
    exact hm
  · rw [Cache.find?_put_of_ne hu, Function.update_of_ne hu]
    exact hr u

/-- The mapping that is answered is that of the flags of its type. -/
theorem mapping_eq (hr : r.Follows flags) (t : RecordType) :
    (r.mapping t).map (fun p => p.1.mapping) = Mapping.ofRecord t (flags t) := by
  rw [Registry.mapping]
  cases hfind : r.find? t with
  | some h =>
    rw [Cache.serve_of_find? hfind, hr.of_find? hfind]
    rfl
  | none =>
    rw [Cache.serve_of_none hfind, hr.of_none hfind]
    cases Mapping.ofRecord t .none <;> rfl

theorem withFlags_eq (hr : r.Follows flags) (t : RecordType) (f : Flags) :
    (r.withFlags t f).map (fun p => p.1.mapping) = Mapping.ofRecord t f := by
  by_cases hthere : ∃ g, r.find? t = some g ∧ g.value.flags = f
  · obtain ⟨g, hfind, rfl⟩ := hthere
    have hmapped := hr.of_find? hfind
    rw [withFlags_of_find? hfind, Mapping.flags_of_ofRecord hmapped, hmapped]
    rfl
  · rw [withFlags_of_ne fun g hfind hflags => hthere ⟨g, hfind, hflags⟩]
    cases Mapping.ofRecord t f <;> rfl

theorem of_mapping (hr : r.Follows flags) (hm : r.mapping t = .ok (h, r')) :
    Mapping.ofRecord t (flags t) = .ok h.value := by
  have heq := hr.mapping_eq t
  rw [hm] at heq
  exact heq.symm

theorem of_withFlags (hr : r.Follows flags) (hm : r.withFlags t f = .ok (h, r')) :
    Mapping.ofRecord t f = .ok h.value := by
  have heq := hr.withFlags_eq t f
  rw [hm] at heq
  exact heq.symm

theorem mapping (hr : r.Follows flags) (hm : r.mapping t = .ok (h, r')) : r'.Follows flags := by
  rcases mapping_ok hm with ⟨-, rfl⟩ | ⟨hfind, m, hbuild, -, rfl⟩
  · exact hr
  · have hput := hr.put hbuild
    rwa [← hr.of_none hfind, Function.update_eq_self] at hput

theorem withFlags (hr : r.Follows flags) (hm : r.withFlags t f = .ok (h, r')) :
    r'.Follows (Function.update flags t f) := by
  rcases withFlags_ok hm with ⟨hfind, hflags, rfl⟩ | ⟨m, hbuild, -, rfl⟩
  · rwa [← hflags, Mapping.flags_of_ofRecord (hr.of_find? hfind), Function.update_eq_self]
  · exact hr.put hbuild

end Follows

/-- What a registry had is still there, and what was added has a number of its own. -/
structure Grown (first r : Registry) : Prop where
  stays : ∀ t h, first.find? t = some h → r.find? t = some h
  counts : first.built ≤ r.built
  numbers : ∀ t h, r.find? t = some h →
    first.find? t = some h ∨ first.built ≤ h.serial ∧ h.serial < r.built

namespace Grown

theorem refl (r : Registry) : Grown r r := ⟨fun _ _ => id, Nat.le_refl _, fun _ _ => .inl⟩

theorem mapping (hr : Grown first r) (hm : r.mapping t = .ok (h, r')) : Grown first r' := by
  rcases mapping_ok hm with ⟨-, rfl⟩ | ⟨hfind, m, -, -, rfl⟩
  · exact hr
  refine ⟨fun u g hg => ?_, Nat.le_succ_of_le hr.counts, fun u g hg => ?_⟩
  · -- Only a type without a mapping gets one.
    have hu : u ≠ t := by
      rintro rfl
      cases hfind.symm.trans (hr.stays u g hg)
    rw [Cache.find?_put_of_ne hu]
    exact hr.stays u g hg
  · by_cases hu : u = t
    · subst hu
      rw [Cache.find?_put_self] at hg
      cases hg
      exact .inr ⟨hr.counts, Nat.lt_succ_self _⟩
    · rw [Cache.find?_put_of_ne hu] at hg
      exact (hr.numbers u g hg).imp id fun hn => ⟨hn.1, Nat.lt_succ_of_lt hn.2⟩

end Grown

/-- Every shared mapping has one of the numbers that were given. -/
def Numbered (r : Registry) : Prop := ∀ t h, r.find? t = some h → h.serial < r.built

theorem Numbered.grown (hr : first.Numbered) (hg : first.Grown r) : r.Numbered := fun t h hfind =>
  (hg.numbers t h hfind).elim (fun hfirst => Nat.lt_of_lt_of_le (hr t h hfirst) hg.counts) And.right

theorem Numbered.put (hr : r.Numbered) (t : RecordType) (m : Mapping) :
    Numbered (r.put t m).2 := by
  intro u g hg
  by_cases hu : u = t
  · subst hu
    rw [Cache.find?_put_self] at hg
    cases hg
    exact Nat.lt_succ_self _
  · rw [Cache.find?_put_of_ne hu] at hg
    exact Nat.lt_succ_of_lt (hr u g hg)

theorem Numbered.withFlags (hr : r.Numbered) (hm : r.withFlags t f = .ok (h, r')) :
    r'.Numbered := by
  rcases withFlags_ok hm with ⟨-, -, rfl⟩ | ⟨m, -, -, rfl⟩
  · exact hr
  · exact hr.put t m

/-- The mapping that had a number is gone for good. -/
structure Past (t : RecordType) (n : Nat) (r : Registry) : Prop where
  given : n < r.built
  newer : ∀ h, r.find? t = some h → n < h.serial

namespace Past

variable {n : Nat}

theorem grown (hp : Past t n first) (hg : first.Grown r) : Past t n r where
  given := Nat.lt_of_lt_of_le hp.given hg.counts
  newer h hfind := (hg.numbers t h hfind).elim (hp.newer h) fun hn =>
    Nat.lt_of_lt_of_le hp.given hn.1

theorem put (hn : n < r.built) (m : Mapping) : Past t n (r.put t m).2 where
  given := Nat.lt_succ_of_lt hn
  newer h hfind := by
    rw [Cache.find?_put_self] at hfind
    cases hfind
    exact hn

theorem withFlags (hp : Past t n r) (hm : r.withFlags u f = .ok (h, r')) : Past t n r' := by
  rcases withFlags_ok hm with ⟨-, -, rfl⟩ | ⟨m, -, -, rfl⟩
  · exact hp
  by_cases hu : t = u
  · subst hu
    exact put hp.given m
  · refine ⟨Nat.lt_succ_of_lt hp.given, fun g hg => hp.newer g ?_⟩
    rwa [Cache.find?_put_of_ne hu] at hg

theorem reset (hn : n < r.built) : Past t n r.reset := ⟨hn, nofun⟩

/-- Other flags make a mapping take the place of the one that was there. -/
theorem of_withFlags (hr : r.Numbered) (hfind : r.find? t = some h) (hf : f ≠ h.value.flags)
    (hm : r.withFlags t f = .ok (g, r')) : Past t h.serial r' := by
  rcases withFlags_ok hm with ⟨hg, rfl, -⟩ | ⟨m, -, -, rfl⟩
  · cases hg.symm.trans hfind
    exact absurd rfl hf
  · exact put (hr t h hfind) m

end Past

end Registry

end RowLedger
