import Mathlib.Logic.Function.Basic
import RowLedger.Connection.Insertion
import RowLedger.Proofs.Cache.Basic

/-!
Callers that share a cache. A caller looks its key up under the lock of the cache. If there is no
value it builds one without the lock, and stores it under the lock unless another caller was faster.
However the steps interleave, callers for one key get one value, which is also what the cache has
for the key from then on.
-/

namespace RowLedger

namespace Cache

variable {ι κ α ε : Type} [DecidableEq κ]

/-- What a caller asks a cache for, and how it builds the value itself. -/
structure Caller (κ α ε : Type) where
  key : κ
  build : Except ε α

/-- How far a caller has come. -/
inductive Stage (α ε : Type)
  | asking
  | building
  | storing (a : α)
  | answered (r : Except ε (Handle α))

namespace Stage

variable {p : Caller κ α ε} {first later : Cache κ α} {x : Stage α ε}

/-- One step of a caller; looking up and storing are one step each. -/
def step (p : Caller κ α ε) (c : Cache κ α) : Stage α ε → Stage α ε × Cache κ α
  | asking =>
    match c.find? p.key with
    | some h => (answered (.ok h), c)
    | none => (building, c)
  | building =>
    match p.build with
    | .ok a => (storing a, c)
    | .error e => (answered (.error e), c)
  | storing a => (answered (.ok (c.keep p.key a).1), (c.keep p.key a).2)
  | answered r => (answered r, c)

/-- How many steps a caller has before it if it finds no value. -/
def stepsLeft : Stage α ε → Nat
  | asking => 3
  | building => 2
  | storing _ => 1
  | answered _ => 0

theorem stepsLeft_step (p : Caller κ α ε) (c : Cache κ α) (x : Stage α ε) :
    (x.step p c).1.stepsLeft ≤ x.stepsLeft - 1 := by
  cases x with
  | asking =>
    rw [step]
    cases c.find? p.key <;> simp [stepsLeft]
  | building =>
    rw [step]
    cases p.build <;> simp [stepsLeft]
  | storing a => exact Nat.le_refl 0
  | answered r => exact Nat.le_refl 0

theorem answered_of_stepsLeft (h : x.stepsLeft = 0) : ∃ r, x = .answered r := by
  cases x with
  | answered r => exact ⟨r, rfl⟩
  | _ => cases h

/-- What a caller has found or built, from a first cache until a later one. It has found nothing
only if there was no value at first. -/
def Sound (p : Caller κ α ε) (first later : Cache κ α) : Stage α ε → Prop
  | asking => True
  | building => first.find? p.key = none
  | storing a => first.find? p.key = none ∧ p.build = .ok a
  | answered (.error e) => first.find? p.key = none ∧ p.build = .error e
  | answered (.ok h) => later.find? p.key = some h

theorem Sound.keep (h : x.Sound p first later) (k : κ) (a : α) :
    x.Sound p first (later.keep k a).2 := by
  match x with
  | asking | building | storing _ | answered (.error _) => exact h
  | answered (.ok _) => exact find?_keep_of_find? h

end Stage

/-- A cache and how far its callers have come. -/
structure Traffic (ι κ α ε : Type) where
  cache : Cache κ α
  stage : ι → Stage α ε

namespace Traffic

variable {callers : ι → Caller κ α ε} {x : Traffic ι κ α ε} {c : Cache κ α}

def start (c : Cache κ α) : Traffic ι κ α ε := ⟨c, fun _ => .asking⟩

/-- What holds between any two steps, from a first cache on. -/
structure Sound (callers : ι → Caller κ α ε) (first : Cache κ α) (x : Traffic ι κ α ε) : Prop where
  stays : ∀ k h, first.find? k = some h → x.cache.find? k = some h
  /-- What is there was there, or one of the callers has built it. -/
  origin : ∀ k h, x.cache.find? k = some h →
    first.find? k = some h ∨ ∃ i, (callers i).key = k ∧ (callers i).build = .ok h.value
  stages : ∀ i, (x.stage i).Sound (callers i) first x.cache

/-- Of callers for one key all fail to build a value, or none does. -/
def Alike (callers : ι → Caller κ α ε) : Prop :=
  ∀ i j e, (callers i).key = (callers j).key →
    (callers i).build = .error e → (callers j).build = .error e

namespace Sound

theorem start (c : Cache κ α) : Sound callers c (start c) where
  stays _ _ := id
  origin _ _ := .inl
  stages _ := trivial

theorem keep (h : Sound callers c x) {i : ι} {a : α} (ha : (callers i).build = .ok a) :
    Sound callers c { x with cache := (x.cache.keep (callers i).key a).2 } where
  stays k g hg := find?_keep_of_find? (h.stays k g hg)
  origin k g hg := by
    rcases of_find?_keep hg with hg | ⟨rfl, rfl⟩
    · exact h.origin k g hg
    · exact .inr ⟨i, rfl, ha⟩
  stages j := (h.stages j).keep _ _

/-- Where building fails nobody can have stored a value. -/
theorem find?_of_failed (h : Sound callers c x) (halike : Alike callers) {i : ι} {e : ε}
    (hmissed : c.find? (callers i).key = none) (herror : (callers i).build = .error e) :
    x.cache.find? (callers i).key = none := by
  cases hfind : x.cache.find? (callers i).key with
  | none => rfl
  | some g =>
    rcases h.origin _ g hfind with hfirst | ⟨j, hkey, hj⟩
    · cases hmissed.symm.trans hfirst
    · cases hj.symm.trans (halike i j e hkey.symm herror)

theorem agree (h : Sound callers c x) (halike : Alike callers) {i j : ι}
    {r r' : Except ε (Handle α)} (hkey : (callers i).key = (callers j).key)
    (hi : x.stage i = .answered r) (hj : x.stage j = .answered r') : r = r' := by
  have hsi := h.stages i
  have hsj := h.stages j
  rw [hi] at hsi
  rw [hj] at hsj
  match r, r' with
  | .ok g, .ok g' =>
    have hfound : x.cache.find? (callers i).key = some g := hsi
    rw [hkey] at hfound
    exact congrArg Except.ok (Option.some.inj (hfound.symm.trans hsj))
  | .ok g, .error e =>
    have hnone := h.find?_of_failed halike hsj.1 hsj.2
    rw [← hkey] at hnone
    cases hnone.symm.trans hsi
  | .error e, .ok g =>
    have hnone := h.find?_of_failed halike hsi.1 hsi.2
    rw [hkey] at hnone
    cases hnone.symm.trans hsj
  | .error e, .error e' =>
    have hbuilt := halike i j e hkey hsi.2
    exact congrArg Except.error (Except.error.inj (hbuilt.symm.trans hsj.2))

end Sound

variable [DecidableEq ι]

variable (callers) in
/-- One of the callers takes a step. -/
def step (x : Traffic ι κ α ε) (i : ι) : Traffic ι κ α ε where
  cache := ((x.stage i).step (callers i) x.cache).2
  stage := Function.update x.stage i ((x.stage i).step (callers i) x.cache).1

variable (callers) in
/-- The callers take their steps in the order of a schedule. -/
def run (x : Traffic ι κ α ε) (schedule : List ι) : Traffic ι κ α ε :=
  schedule.foldl (step callers) x

theorem run_append (schedule more : List ι) :
    x.run callers (schedule ++ more) = (x.run callers schedule).run callers more :=
  List.foldl_append

theorem stage_step_self (i : ι) :
    (x.step callers i).stage i = ((x.stage i).step (callers i) x.cache).1 :=
  Function.update_self ..

theorem stage_step_of_ne {i j : ι} (h : j ≠ i) : (x.step callers i).stage j = x.stage j :=
  Function.update_of_ne h ..

theorem find?_step {k : κ} {g : Handle α} (h : x.cache.find? k = some g) (i : ι) :
    (x.step callers i).cache.find? k = some g := by
  unfold step
  cases x.stage i with
  | asking =>
    rw [Stage.step]
    cases x.cache.find? (callers i).key <;> exact h
  | building =>
    rw [Stage.step]
    cases (callers i).build <;> exact h
  | storing a => exact find?_keep_of_find? h
  | answered r => exact h

/-- A value that is there stays. -/
theorem find?_run {k : κ} {g : Handle α} (h : x.cache.find? k = some g) (schedule : List ι) :
    (x.run callers schedule).cache.find? k = some g := by
  induction schedule generalizing x with
  | nil => exact h
  | cons i schedule ih => exact ih (find?_step h i)

/-- Every step of a caller brings it nearer to its answer. -/
theorem stepsLeft_run (i : ι) (schedule : List ι) :
    ((x.run callers schedule).stage i).stepsLeft ≤ (x.stage i).stepsLeft - schedule.count i := by
  induction schedule generalizing x with
  | nil => exact Nat.le_refl _
  | cons j schedule ih =>
    have h := ih (x := x.step callers j)
    by_cases hj : i = j
    · subst hj
      rw [stage_step_self] at h
      have hstep := Stage.stepsLeft_step (callers i) x.cache (x.stage i)
      rw [List.count_cons_self]
      exact Nat.le_trans h (by omega)
    · rw [stage_step_of_ne hj] at h
      rwa [List.count_cons_of_ne (Ne.symm hj)]

namespace Sound

theorem restage (h : Sound callers c x) {i : ι} {y : Stage α ε}
    (hy : y.Sound (callers i) c x.cache) :
    Sound callers c { x with stage := Function.update x.stage i y } where
  stays := h.stays
  origin := h.origin
  stages j := by
    change (Function.update x.stage i y j).Sound (callers j) c x.cache
    by_cases hj : j = i
    · subst hj
      rwa [Function.update_self]
    · rw [Function.update_of_ne hj]
      exact h.stages j

theorem step (h : Sound callers c x) (i : ι) : Sound callers c (x.step callers i) := by
  have hi := h.stages i
  unfold Traffic.step
  cases hx : x.stage i with
  | asking =>
    rw [Stage.step]
    cases hfind : x.cache.find? (callers i).key with
    | some g => exact h.restage hfind
    | none =>
      -- What is missing now was missing at first, since nothing is ever taken out.
      refine h.restage ?_
      cases hc : c.find? (callers i).key with
      | some g => cases hfind.symm.trans (h.stays _ g hc)
      | none => exact hc
  | building =>
    rw [hx] at hi
    rw [Stage.step]
    cases hbuild : (callers i).build with
    | ok a => exact h.restage ⟨hi, hbuild⟩
    | error e => exact h.restage ⟨hi, hbuild⟩
  | storing a =>
    rw [hx] at hi
    exact (h.keep hi.2).restage find?_keep_self
  | answered r =>
    rw [hx] at hi
    exact h.restage hi

theorem run (h : Sound callers c x) (schedule : List ι) :
    Sound callers c (x.run callers schedule) := by
  induction schedule generalizing x with
  | nil => exact h
  | cons i schedule ih => exact ih (h.step i)

theorem later (h : Sound callers c x) (halike : Alike callers) {i : ι} {r : Except ε (Handle α)}
    (hi : x.stage i = .answered r) (more : List ι) :
    (x.run callers more).cache.serve (callers i).key (callers i).build =
      r.map fun h => (h, (x.run callers more).cache) := by
  have hsi := h.stages i
  rw [hi] at hsi
  cases r with
  | ok g => exact serve_of_find? (find?_run hsi more) _
  | error e =>
    rw [serve_of_none ((h.run more).find?_of_failed halike hsi.1 hsi.2), hsi.2]
    rfl

end Sound

theorem step_of_answered {i : ι} {r : Except ε (Handle α)} (hi : x.stage i = .answered r) :
    x.step callers i = x := by
  simp only [step, hi, Stage.step]
  rw [← hi, Function.update_eq_self]

/-- A caller alone is served as by one call. -/
theorem run_alone (i : ι) (hi : x.stage i = .asking) :
    ∃ r, (x.run callers [i, i, i]).stage i = .answered r ∧
      x.cache.serve (callers i).key (callers i).build =
        r.map fun h => (h, (x.run callers [i, i, i]).cache) := by
  have hrun : x.run callers [i, i, i] = ((x.step callers i).step callers i).step callers i := rfl
  cases hfind : x.cache.find? (callers i).key with
  | some h =>
    have hstep : x.step callers i = ⟨x.cache, Function.update x.stage i (.answered (.ok h))⟩ := by
      simp only [step, hi, Stage.step, hfind]
    have hanswered : (x.step callers i).stage i = .answered (.ok h) := by
      simp only [hstep, Function.update_self]
    rw [hrun, step_of_answered hanswered, step_of_answered hanswered, serve_of_find? hfind]
    exact ⟨.ok h, hanswered, by rw [hstep]; rfl⟩
  | none =>
    have hstep : x.step callers i = ⟨x.cache, Function.update x.stage i .building⟩ := by
      simp only [step, hi, Stage.step, hfind]
    rw [hrun, hstep, serve_of_none hfind]
    cases hbuild : (callers i).build with
    | ok a =>
      refine ⟨.ok (x.cache.keep (callers i).key a).1, ?_, ?_⟩
      · simp [step, Stage.step, hbuild]
      · simp [step, Stage.step, hbuild, Except.map, keep_of_none hfind]
    | error e =>
      refine ⟨.error e, ?_, ?_⟩
      · simp [step, Stage.step, hbuild]
      · rfl

/-- However the steps of some callers interleave, each of them comes to an answer, callers for one
key to the same one, and every later call is answered with it too. -/
structure Converges (callers : ι → Caller κ α ε) (first : Cache κ α) (schedule : List ι) :
    Prop where
  answers : ∀ i, 3 ≤ schedule.count i →
    ∃ r, ((start first).run callers schedule).stage i = .answered r
  agree : ∀ i j r r', (callers i).key = (callers j).key →
    ((start first).run callers schedule).stage i = .answered r →
    ((start first).run callers schedule).stage j = .answered r' → r = r'
  /-- Only building fails. -/
  failed : ∀ i e, ((start first).run callers schedule).stage i = .answered (.error e) →
    (callers i).build = .error e
  later : ∀ i r more, ((start first).run callers schedule).stage i = .answered r →
    let cache := ((start first).run callers (schedule ++ more)).cache
    cache.serve (callers i).key (callers i).build = r.map fun h => (h, cache)

theorem converges (halike : Alike callers) (first : Cache κ α) (schedule : List ι) :
    Converges callers first schedule := by
  have h : Sound callers first ((start first).run callers schedule) :=
    (Sound.start first).run schedule
  refine ⟨fun i hi => ?_, fun i j r r' hkey => h.agree halike hkey, fun i e hi => ?_,
    fun i r more hi => ?_⟩
  · have hleft : (((start first).run callers schedule).stage i).stepsLeft ≤ 3 - schedule.count i :=
      stepsLeft_run i schedule
    exact Stage.answered_of_stepsLeft (by omega)
  · have hsi := h.stages i
    rw [hi] at hsi
    exact hsi.2
  · rw [run_append]
    exact h.later halike hi more

/-- Both callers miss, and both build a value; the first one that is stored is the only one. -/
example :
    let build (i : Bool) : Caller Unit Nat Empty := ⟨(), .ok (if i then 1 else 2)⟩
    let x := (start {}).run build [true, false, true, false, false, true]
    x.stage true = .answered (.ok ⟨0, 2⟩) ∧ x.stage false = .answered (.ok ⟨0, 2⟩) := ⟨rfl, rfl⟩

end Traffic

end Cache

/-- A caller that asks for the mapping of a record type. -/
def RecordType.caller (t : RecordType) : Cache.Caller RecordType Mapping Error :=
  ⟨t, Mapping.ofRecord t .none⟩

/-- A caller that asks for the command that inserts records of a type. -/
structure CommandRequest where
  type : RecordType
  mapping : Mapping
  mode : InsertMode
  dialect : Dialect

def CommandRequest.caller (q : CommandRequest) : Cache.Caller CommandKey InsertCommand Error :=
  ⟨⟨q.type, q.mapping.flags, q.mode, q.dialect⟩, .ok (.derive q.dialect q.mapping q.mode)⟩

open Cache in
/-- Any callers may ask at once for the mappings of record types, and any for commands for inserts:
in every interleaving those for one type get one mapping, and those for one key one command. -/
theorem first_use_converges {ι : Type} [DecidableEq ι] (schedule : List ι) :
    (∀ (r : Registry) (types : ι → RecordType),
      Traffic.Converges (fun i => (types i).caller) r schedule) ∧
    ∀ (commands : Cache CommandKey InsertCommand) (requests : ι → CommandRequest),
      Traffic.Converges (fun i => (requests i).caller) commands schedule := by
  constructor
  · intro r types
    refine Traffic.converges (fun i j e htype hi => ?_) r schedule
    obtain htype : types i = types j := htype
    rwa [← htype]
  · intro commands requests
    exact Traffic.converges (fun i j e _ hi => by cases hi) commands schedule

end RowLedger
