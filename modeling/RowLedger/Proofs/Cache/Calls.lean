import RowLedger.Proofs.Cache.Derived

/-!
The caches that the connections of a process share, through any calls that use them: mappings are
asked for, replaced and forgotten, commands are forgotten, and records are inserted. A command is
remembered for the flags of a mapping, so none that belongs to another mapping is ever taken for one
of the mapping in use.
-/

namespace RowLedger

/-- The caches of a process. -/
structure Caches where
  registry : Registry := .empty
  commands : Cache CommandKey InsertCommand := {}

namespace Caches

variable {σ : Type} {x : Caches} {flags : RecordType → Flags} {t : RecordType} {h : Shared}

/-- A connection of the process. -/
def behind (x : Caches) (c : Connection σ) : Connection σ :=
  { c with registry := x.registry, commands := x.commands }

/-- The calls that use the caches; an insert is through any connection to any database. -/
inductive Call : Type 1
  | mapping (t : RecordType)
  | withFlags (t : RecordType) (f : Flags)
  | resetMappings
  | resetCommands
  | insert {σ : Type} (s : Setup σ) (c : Connection σ) (e : Entity) (mode : InsertMode)

/-- What a call leaves of the caches. -/
def step (x : Caches) : Call → Caches
  | .mapping t =>
    match x.registry.mapping t with
    | .ok (_, registry) => { x with registry }
    | .error _ => x
  | .withFlags t f =>
    match x.registry.withFlags t f with
    | .ok (_, registry) => { x with registry }
    | .error _ => x
  | .resetMappings => { x with registry := x.registry.reset }
  | .resetCommands => { x with commands := x.commands.clear }
  | .insert s c e mode =>
    let c' := ((Act.insert e mode).run s (x.behind c)).2
    ⟨c'.registry, c'.commands⟩

def run (x : Caches) (calls : List Call) : Caches := calls.foldl step x

namespace Call

/-- The flags of the types after a call. Only a mapping that can be built sets those of its type. -/
def setFlags (flags : RecordType → Flags) : Call → RecordType → Flags
  | .withFlags t f => if (Mapping.ofRecord t f).isOk then Function.update flags t f else flags
  | .resetMappings => fun _ => .none
  | .mapping _ | .resetCommands | .insert .. => flags

/-- A call that is answered with a shared mapping of a type. -/
def Hands (x : Caches) (t : RecordType) (h : Shared) : Call → Prop
  | .mapping u => u = t ∧ ∃ r, x.registry.mapping t = .ok (h, r)
  | .withFlags u f => u = t ∧ ∃ r, x.registry.withFlags t f = .ok (h, r)
  | .resetMappings | .resetCommands | .insert .. => False

/-- A call that forgets the mapping of a type, or builds one with other flags in its place. -/
def Replaces (t : RecordType) (f : Flags) : Call → Prop
  | .withFlags u g => u = t ∧ g ≠ f ∧ ∃ m, Mapping.ofRecord t g = .ok m
  | .resetMappings => True
  | .mapping _ | .resetCommands | .insert .. => False

end Call

/-- The flags of the last call that set them, since mappings were last forgotten. -/
def flagsInUse (calls : List Call) : RecordType → Flags :=
  calls.foldl (fun flags call => call.setFlags flags) fun _ => .none

/-- What holds of the caches between any two calls. -/
structure Sound (flags : RecordType → Flags) (x : Caches) : Prop where
  follows : x.registry.Follows flags
  numbered : x.registry.Numbered
  derived : Derived x.commands

theorem Sound.coherent (hx : Sound flags x) (c : Connection σ) :
    Coherent flags x.registry (x.behind c) := ⟨hx.follows, .refl _, hx.derived⟩

theorem Sound.insert (hx : Sound flags x) (s : Setup σ) (c : Connection σ) (e : Entity)
    (mode : InsertMode) :
    Coherent flags x.registry ((Act.insert e mode).run s (x.behind c)).2 := by
  have hc := hx.coherent c
  cases hm : x.registry.mapping e.type with
  | error err =>
    rw [Act.run_insert_unmapped hm]
    exact hc
  | ok p =>
    obtain ⟨w, c', k, hrun, -, hc'⟩ := Act.run_insert_afresh (s := s) hc hm mode
    rw [hrun]
    exact hc'

/-- A call adds mappings at most, or replaces one, or forgets all. -/
theorem Sound.step_cases (hx : Sound flags x) (call : Call) :
    (call.setFlags flags = flags ∧ (x.step call).registry.Follows flags ∧
        x.registry.Grown (x.step call).registry) ∨
      (∃ t f h, call = .withFlags t f ∧ call.setFlags flags = Function.update flags t f ∧
        x.registry.withFlags t f = .ok (h, (x.step call).registry)) ∨
      call = .resetMappings := by
  cases call with
  | mapping t =>
    rw [step]
    cases hm : x.registry.mapping t with
    | error e => exact .inl ⟨rfl, hx.follows, .refl _⟩
    | ok p => exact .inl ⟨rfl, hx.follows.mapping hm, (Registry.Grown.refl _).mapping hm⟩
  | withFlags t f =>
    -- The mapping is replaced exactly if one can be built with the flags.
    have hbuilt := hx.follows.withFlags_eq t f
    rw [step, Call.setFlags, ← hbuilt]
    cases hm : x.registry.withFlags t f with
    | error e => exact .inl ⟨rfl, hx.follows, .refl _⟩
    | ok p => exact .inr (.inl ⟨t, f, p.1, rfl, rfl, hm⟩)
  | resetMappings => exact .inr (.inr rfl)
  | resetCommands => exact .inl ⟨rfl, hx.follows, .refl _⟩
  | insert s c e mode =>
    have hc := hx.insert s c e mode
    exact .inl ⟨rfl, hc.follows, hc.grown⟩

theorem Sound.derived_step (hx : Sound flags x) (call : Call) : Derived (x.step call).commands := by
  cases call with
  | mapping t =>
    rw [step]
    cases x.registry.mapping t <;> exact hx.derived
  | withFlags t f =>
    rw [step]
    cases x.registry.withFlags t f <;> exact hx.derived
  | resetMappings => exact hx.derived
  | resetCommands => exact .clear _
  | insert s c e mode => exact (hx.insert s c e mode).derived

theorem Sound.step (hx : Sound flags x) (call : Call) :
    Sound (call.setFlags flags) (x.step call) := by
  have hderived := hx.derived_step call
  rcases hx.step_cases call with ⟨hflags, hfollows, hgrown⟩ | ⟨t, f, h, -, hflags, hm⟩ | rfl
  · rw [hflags]
    exact ⟨hfollows, hx.numbered.grown hgrown, hderived⟩
  · rw [hflags]
    exact ⟨hx.follows.withFlags hm, hx.numbered.withFlags hm, hderived⟩
  · exact ⟨.reset _, nofun, hderived⟩

theorem Sound.run (hx : Sound flags x) (calls : List Call) :
    Sound (calls.foldl (fun flags call => call.setFlags flags) flags) (x.run calls) := by
  induction calls generalizing x flags with
  | nil => exact hx
  | cons call calls ih => exact ih (hx.step call)

theorem Sound.start : Sound (fun _ => .none) {} := ⟨.reset .empty, nofun, .clear {}⟩

theorem find?_of_hands {call : Call} (hcall : call.Hands x t h) :
    (x.step call).registry.find? t = some h := by
  cases call with
  | mapping u =>
    obtain ⟨rfl, r, hm⟩ := hcall
    rw [step, hm]
    exact Registry.find?_of_mapping hm
  | withFlags u f =>
    obtain ⟨rfl, r, hm⟩ := hcall
    rw [step, hm]
    exact Registry.find?_of_withFlags hm
  | resetMappings | resetCommands | insert s c e mode => cases hcall

/-- A mapping stays through every call that does not replace it. -/
theorem Sound.find?_step (hx : Sound flags x) (hfind : x.registry.find? t = some h) {call : Call}
    (hcall : ¬call.Replaces t h.value.flags) : (x.step call).registry.find? t = some h := by
  rcases hx.step_cases call with ⟨-, -, hgrown⟩ | ⟨u, f, g, rfl, -, hm⟩ | rfl
  · exact hgrown.stays t h hfind
  · by_cases hu : t = u
    · subst hu
      -- With other flags the call would have replaced the mapping.
      have hf : f = h.value.flags := by
        by_contra hne
        exact hcall ⟨rfl, hne, g.value, hx.follows.of_withFlags hm⟩
      subst hf
      have hsame := Except.ok.inj ((Registry.withFlags_of_find? hfind).symm.trans hm)
      rw [← (Prod.mk.inj hsame).2]
      exact hfind
    · rw [Registry.find?_withFlags_of_ne hm hu]
      exact hfind
  · exact absurd trivial hcall

theorem Sound.find?_run (hx : Sound flags x) (hfind : x.registry.find? t = some h)
    {calls : List Call} (hcalls : ∀ call ∈ calls, ¬call.Replaces t h.value.flags) :
    (x.run calls).registry.find? t = some h := by
  induction calls generalizing x flags with
  | nil => exact hfind
  | cons call calls ih =>
    have hstep := hx.find?_step hfind (hcalls call List.mem_cons_self)
    exact ih (hx.step call) hstep fun next hnext => hcalls next (List.mem_cons_of_mem _ hnext)

theorem Sound.past_step (hx : Sound flags x) {n : Nat} (hp : x.registry.Past t n) (call : Call) :
    (x.step call).registry.Past t n := by
  rcases hx.step_cases call with ⟨-, -, hgrown⟩ | ⟨u, f, g, -, -, hm⟩ | rfl
  · exact hp.grown hgrown
  · exact hp.withFlags hm
  · exact .reset hp.given

theorem Sound.past_run (hx : Sound flags x) {n : Nat} (hp : x.registry.Past t n)
    (calls : List Call) : (x.run calls).registry.Past t n := by
  induction calls generalizing x flags with
  | nil => exact hp
  | cons call calls ih => exact ih (hx.step call) (hx.past_step hp call)

/-- A mapping that was replaced is gone. -/
theorem Sound.past_of_replaces (hx : Sound flags x) (hfind : x.registry.find? t = some h)
    {call : Call} (hcall : call.Replaces t h.value.flags) :
    (x.step call).registry.Past t h.serial := by
  cases call with
  | withFlags u f =>
    obtain ⟨rfl, hne, m, hbuild⟩ := hcall
    have hbuilt := hx.follows.withFlags_eq u f
    rw [hbuild] at hbuilt
    obtain ⟨p, hm, -⟩ := except_map_ok.1 hbuilt
    rw [Caches.step, hm]
    exact .of_withFlags hx.numbered hfind hne hm
  | resetMappings => exact .reset (hx.numbered t h hfind)
  | mapping | resetCommands | insert s c e mode => cases hcall

theorem Sound.past_of_mem (hx : Sound flags x) (hfind : x.registry.find? t = some h)
    {calls : List Call} (hcalls : ∃ call ∈ calls, call.Replaces t h.value.flags) :
    (x.run calls).registry.Past t h.serial := by
  induction calls generalizing x flags with
  | nil =>
    obtain ⟨call, hcall, -⟩ := hcalls
    cases hcall
  | cons call calls ih =>
    -- The first call that replaces the mapping is the one that counts.
    by_cases hcall : call.Replaces t h.value.flags
    · exact (hx.step call).past_run (hx.past_of_replaces hfind hcall) calls
    · refine ih (hx.step call) (hx.find?_step hfind hcall) ?_
      obtain ⟨next, hnext, hreplaces⟩ := hcalls
      rcases List.mem_cons.1 hnext with rfl | hnext
      · exact absurd hreplaces hcall
      · exact ⟨next, hnext, hreplaces⟩

/-- What the caches serve, given the flags that the types were last mapped with. -/
structure Truthful (flags : RecordType → Flags) (x : Caches) : Prop where
  mapping (t : RecordType) :
    (x.registry.mapping t).map (fun p => p.1.mapping) = Mapping.ofRecord t (flags t)
  withFlags (t : RecordType) (f : Flags) :
    (x.registry.withFlags t f).map (fun p => p.1.mapping) = Mapping.ofRecord t f
  /-- Flags that a type cannot be mapped with leave its mapping in place. -/
  failed (t : RecordType) (f : Flags) (e : Error) :
    x.registry.withFlags t f = .error e → x.step (.withFlags t f) = x
  /-- A mapping that was handed out is shared until it is replaced. -/
  shared (call : Call) (t : RecordType) (h : Shared) : call.Hands x t h →
    ∀ more : List Call, (∀ next ∈ more, ¬next.Replaces t h.mapping.flags) →
      let y := (x.step call).run more
      y.registry.mapping t = .ok (h, y.registry)
  /-- Once it is replaced it is never handed out again. -/
  replaced (call : Call) (t : RecordType) (h : Shared) : call.Hands x t h →
    ∀ more : List Call, (∃ next ∈ more, next.Replaces t h.mapping.flags) →
      ∀ later : Call, ¬later.Hands ((x.step call).run more) t h
  /-- A record whose type has no mapping is not inserted. -/
  unmapped {σ : Type} (s : Setup σ) (c : Connection σ) (e : Entity) (mode : InsertMode)
    (err : Error) : x.registry.mapping e.type = .error err →
      (Act.insert e mode).run s (x.behind c) = (.ok (e, .error err), x.behind c)
  /-- An insert goes by the mapping in use and by commands that are derived for it. -/
  inserts {σ : Type} (s : Setup σ) (c : Connection σ) (e : Entity) (mode : InsertMode)
    (h : Shared) (registry : Registry) : x.registry.mapping e.type = .ok (h, registry) →
      ∃ w c' k, (Act.insert e mode).run s (x.behind c) = (.ok w, c') ∧
        Act.insertAfresh s h.mapping e mode { c with registry, commands := {} } =
          (w, { c' with commands := k })

theorem Sound.truthful (hx : Sound flags x) : Truthful flags x where
  mapping := hx.follows.mapping_eq
  withFlags := hx.follows.withFlags_eq
  failed t f e hm := by rw [Caches.step, hm]
  shared call t h hcall more hmore := by
    have hfind := (hx.step call).find?_run (find?_of_hands hcall) hmore
    exact Cache.serve_of_find? hfind _
  replaced call t h hcall more hmore later hlater := by
    have hy := (hx.step call).run more
    have hpast := (hx.step call).past_of_mem (find?_of_hands hcall) hmore
    have hnewer := (hy.past_step hpast later).newer h (find?_of_hands hlater)
    exact absurd hnewer (Nat.lt_irrefl _)
  unmapped s c e mode err hm := Act.run_insert_unmapped hm mode
  inserts s c e mode h registry hm := by
    obtain ⟨w, c', k, hrun, hafresh, -⟩ := Act.run_insert_afresh (s := s) (hx.coherent c) hm mode
    exact ⟨w, c', k, hrun, hafresh⟩

/-- Through any calls the caches serve the mappings that were last asked for with flags, or those
without flags, and every insert goes by what is derived from them. -/
theorem truthful_run (calls : List Call) : Truthful (flagsInUse calls) (run {} calls) :=
  (Sound.start.run calls).truthful

end Caches

end RowLedger
