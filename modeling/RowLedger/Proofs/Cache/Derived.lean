import RowLedger.Proofs.Connection.Keeping
import RowLedger.Proofs.Connection.Paired
import RowLedger.Proofs.Ledger.Enrolled
import RowLedger.Proofs.Schema.Registry

/-!
Inserts and the commands that a connection remembers. As long as every command is the one that the
mapping of its key gives, it makes no difference to an insert which of them are remembered: two runs
that differ in nothing else answer alike and issue the same statements.
-/

namespace RowLedger

/-- Every command is the one that the mapping of its key gives. -/
def Derived (commands : Cache CommandKey InsertCommand) : Prop :=
  ∀ key i, commands.find? key = some i → ∀ m, Mapping.ofRecord key.type key.flags = .ok m →
    i.value = .derive key.dialect m key.mode

theorem Derived.clear (commands : Cache CommandKey InsertCommand) : Derived commands.clear := by
  intro key i h
  cases h

theorem Derived.keep {commands : Cache CommandKey InsertCommand} (h : Derived commands)
    {key : CommandKey} {m : Mapping} (hm : Mapping.ofRecord key.type key.flags = .ok m) :
    Derived (commands.keep key (.derive key.dialect m key.mode)).2 := by
  intro k i hi n hn
  rcases Cache.of_find?_keep hi with hi | ⟨rfl, hvalue⟩
  · exact h k i hi n hn
  · cases hm.symm.trans hn
    exact hvalue

/-- A connection that follows the flags of each type and remembers derived commands. Its registry
has grown from a first one. -/
structure Coherent {σ : Type} (flags : RecordType → Flags) (first : Registry) (c : Connection σ) :
    Prop where
  follows : c.registry.Follows flags
  grown : first.Grown c.registry
  derived : Derived c.commands

variable {σ α β : Type} {s : Setup σ} {flags : RecordType → Flags} {first : Registry}
  {c : Connection σ}

theorem Coherent.mapping (hc : Coherent flags first c) {t : RecordType} {h : Shared}
    {registry : Registry} (hm : c.registry.mapping t = .ok (h, registry)) :
    Coherent flags first { c with registry } :=
  ⟨hc.follows.mapping hm, hc.grown.mapping hm, hc.derived⟩

namespace Act

/-- An action keeps a connection coherent, and does the same whatever commands are remembered. -/
def Blind (s : Setup σ) (flags : RecordType → Flags) (first : Registry) (x : Act σ α) : Prop :=
  ∀ c k, Coherent flags first c → Derived k →
    ∃ r c' k', x.run s c = (r, c') ∧
      x.run s { c with commands := k } = (r, { c' with commands := k' }) ∧
      Coherent flags first c' ∧ Derived k'

namespace Blind

theorem coherent {x : Act σ α} (h : Blind s flags first x) (hc : Coherent flags first c)
    {r : Except Error α} {c' : Connection σ} (hrun : x.run s c = (r, c')) :
    Coherent flags first c' := by
  obtain ⟨_, _, -, hx, -, hc', -⟩ := h c c.commands hc hc.derived
  cases hrun.symm.trans hx
  exact hc'

theorem pure (a : α) : Blind s flags first (pure a : Act σ α) :=
  fun c k hc hk => ⟨.ok a, c, k, rfl, rfl, hc, hk⟩

theorem dialect_bind {f : Dialect → Act σ β} (hf : Blind s flags first (f s.config.dialect)) :
    Blind s flags first (dialect >>= f) := hf

theorem ite {p : Prop} [Decidable p] {x y : Act σ α} (hx : Blind s flags first x)
    (hy : Blind s flags first y) : Blind s flags first (if p then x else y) := by
  split
  · exact hx
  · exact hy

/-! What touches neither mappings nor commands. -/

theorem call (f : Driver σ → σ → Reply σ α) : Blind s flags first (call f) :=
  fun c k hc hk => ⟨_, { c with world := (f s.driver c.world).2 }, k, rfl, rfl,
    ⟨hc.follows, hc.grown, hc.derived⟩, hk⟩

theorem exec (sql : Sql) (params : List Param) : Blind s flags first (exec sql params) :=
  .dialect_bind (call _)

theorem query (sql : Sql) (params : List Param) : Blind s flags first (query sql params) :=
  .dialect_bind (call _)

theorem drawGuid : Blind s flags first (drawGuid : Act σ Guid) :=
  fun c k hc hk => ⟨_, { c with guidsDrawn := c.guidsDrawn + 1 }, k, rfl, rfl,
    ⟨hc.follows, hc.grown, hc.derived⟩, hk⟩

theorem setReady : Blind s flags first (update fun c => { c with ledgerReady := true }) :=
  fun c k hc hk => ⟨_, { c with ledgerReady := true }, k, rfl, rfl,
    ⟨hc.follows, hc.grown, hc.derived⟩, hk⟩

theorem notify (m : Mapping) (action : Action) : Blind s flags first (notify m action) := by
  refine .ite (.pure _) fun c k hc hk => ?_
  let world := c.subscribers.foldl (fun w b => b.onChange ⟨m, action⟩ w) c.world
  exact ⟨_, { c with world }, k, rfl, rfl, ⟨hc.follows, hc.grown, hc.derived⟩, hk⟩

/-! What goes by a mapping. -/

theorem mapping (t : RecordType) : Blind s flags first (mapping t) := by
  intro c k hc hk
  rw [run_mapping_eq, run_mapping_eq]
  cases hm : c.registry.mapping t with
  | error e => exact ⟨.error e, c, k, rfl, rfl, hc, hk⟩
  | ok p => exact ⟨.ok p.1.mapping, { c with registry := p.2 }, k, rfl, rfl, hc.mapping hm, hk⟩

end Blind

theorem ofRecord_of_run_mapping (hc : Coherent flags first c) {t : RecordType} {m : Mapping}
    {c' : Connection σ} (hrun : (mapping t).run s c = (.ok m, c')) :
    Mapping.ofRecord t m.flags = .ok m := by
  rw [run_mapping_eq] at hrun
  cases hm : c.registry.mapping t with
  | error e =>
    rw [hm] at hrun
    cases hrun
  | ok p =>
    rw [hm] at hrun
    cases hrun
    have hvalue := hc.follows.of_mapping hm
    rwa [Mapping.flags_of_ofRecord hvalue]

/-- The command that is used is the one that the mapping gives. -/
theorem run_insertCommand_derive (hc : Coherent flags first c) {t : RecordType} {m : Mapping}
    (hm : Mapping.ofRecord t m.flags = .ok m) (mode : InsertMode) :
    ∃ commands, Coherent flags first { c with commands } ∧
      (insertCommand t m mode).run s c =
        (.ok (.derive s.config.dialect m mode), { c with commands }) := by
  let key : CommandKey := ⟨t, m.flags, mode, s.config.dialect⟩
  have hvalue := Cache.value_keep (a := .derive s.config.dialect m mode) fun i hi =>
    hc.derived key i hi m hm
  refine ⟨(c.commands.keep key (.derive s.config.dialect m mode)).2,
    ⟨hc.follows, hc.grown, Derived.keep hc.derived hm⟩, ?_⟩
  rw [run_insertCommand_keep]
  dsimp only
  rw [hvalue]

namespace Blind

theorem insertCommand {t : RecordType} {m : Mapping} (hm : Mapping.ofRecord t m.flags = .ok m)
    (mode : InsertMode) : Blind s flags first (insertCommand t m mode) := by
  intro c k hc hk
  obtain ⟨commands, hc', hrun⟩ := run_insertCommand_derive (s := s) hc hm mode
  have htwin : Coherent flags first { c with commands := k } := ⟨hc.follows, hc.grown, hk⟩
  obtain ⟨k', hk', hrun'⟩ := run_insertCommand_derive (s := s) htwin hm mode
  exact ⟨_, _, k', hrun, hrun', hc', hk'.derived⟩

/-! What is made of these. -/

/-- A connection, and one that remembers other commands. -/
def Beside (flags : RecordType → Flags) (first : Registry) (c d : Connection σ) : Prop :=
  Coherent flags first c ∧ ∃ k, Derived k ∧ d = { c with commands := k }

theorem iff_paired {x : Act σ α} : Blind s flags first x ↔ Paired s s (Beside flags first) x x := by
  constructor
  · rintro h c _ ⟨hc, k, hk, rfl⟩
    obtain ⟨r, c', k', hx, hx', hc', hk'⟩ := h c k hc hk
    exact ⟨r, c', _, hx, hx', hc', k', hk', rfl⟩
  · intro h c k hc hk
    obtain ⟨r, c', _, hx, hx', hc', k', hk', rfl⟩ := h c _ ⟨hc, k, hk, rfl⟩
    exact ⟨r, c', k', hx, hx', hc', hk'⟩

theorem pairing (s : Setup σ) (flags : RecordType → Flags) (first : Registry) :
    Pairing s s (fun t m => Mapping.ofRecord t m.flags = .ok m) (Beside flags first) where
  dialect := rfl
  ready := by
    rintro c _ ⟨-, k, -, rfl⟩
    rfl
  exec sql params := iff_paired.1 (exec sql params)
  query sql params := iff_paired.1 (query sql params)
  drawGuid := iff_paired.1 drawGuid
  setReady := iff_paired.1 setReady
  notify m action := iff_paired.1 (notify m action)
  mapping t := iff_paired.1 (mapping t)
  knows h hrun := ofRecord_of_run_mapping h.1 hrun
  insertCommand mode hm := iff_paired.1 (insertCommand hm mode)

theorem prepare (m : Mapping) (e : Entity) : Blind s flags first (prepare m e) :=
  iff_paired.2 ((pairing s flags first).prepare m e)

theorem ensureLedger : Blind s flags first (ensureLedger : Act σ Unit) :=
  iff_paired.2 (pairing s flags first).ensureLedger

theorem removeEntries (e : Expr) : Blind s flags first (removeEntries e) :=
  iff_paired.2 ((pairing s flags first).removeEntries e)

theorem recordChange (m : Mapping) (row : Option Guid) (action : Action) :
    Blind s flags first (recordChange m row action) :=
  iff_paired.2 ((pairing s flags first).recordChange m row action)

end Blind

/-- An insert by a mapping, with a command that is derived for it. -/
def insertAfresh (s : Setup σ) (m : Mapping) (e : Entity) (mode : InsertMode) (c : Connection σ) :
    Written × Connection σ :=
  match (prepare m e).run s c with
  | (.error err, c') => ((e, .error err), c')
  | (.ok (e, g), c') =>
    let i := InsertCommand.derive s.config.dialect m mode
    match i.columns.mapM fun j => m.param j (m.bound e g j) with
    | .error err => ((e, .error err), c')
    | .ok params => Enrolled.settle s m e g i.sql params c'

theorem settle_blind (hc : Coherent flags first c) {k : Cache CommandKey InsertCommand}
    (hk : Derived k) (m : Mapping) (e : Entity) (g : Guid) (sql : Sql) (params : List Param) :
    ∃ w c' k', Enrolled.settle s m e g sql params c = (w, c') ∧
      Enrolled.settle s m e g sql params { c with commands := k } =
        (w, { c' with commands := k' }) ∧ Coherent flags first c' := by
  obtain ⟨r, c₁, k₁, hexec, hexec', hc₁, hk₁⟩ := Blind.exec (s := s) sql params c k hc hk
  unfold Enrolled.settle
  rw [hexec, hexec']
  cases r with
  | error err => exact ⟨_, _, k₁, rfl, rfl, hc₁⟩
  | ok r =>
    dsimp only
    split
    · exact ⟨_, _, k₁, rfl, rfl, hc₁⟩
    · cases m.withGeneratedKey e r.lastId with
      | error err => exact ⟨_, _, k₁, rfl, rfl, hc₁⟩
      | ok e' =>
        obtain ⟨r', c₂, k₂, hrecord, hrecord', hc₂, -⟩ :=
          Blind.recordChange (s := s) m (some g) .insert c₁ k₁ hc₁ hk₁
        dsimp only
        rw [hrecord, hrecord']
        exact ⟨_, _, k₂, rfl, rfl, hc₂⟩

theorem run_insert_unmapped {e : Entity} {err : Error} (hm : c.registry.mapping e.type = .error err)
    (mode : InsertMode) : (insert e mode).run s c = (.ok (e, .error err), c) := by
  have hmapping : (mapping e.type).run s c = (.error err, c) := by rw [run_mapping_eq, hm]
  rw [insert, run_bind_attempt _ hmapping]
  rfl

/-- Whatever commands a coherent connection remembers, it inserts as if it remembered none. -/
theorem run_insert_afresh (hc : Coherent flags first c) {e : Entity} {h : Shared}
    {registry : Registry} (hm : c.registry.mapping e.type = .ok (h, registry)) (mode : InsertMode) :
    ∃ w c' k, (insert e mode).run s c = (.ok w, c') ∧
      insertAfresh s h.mapping e mode { c with registry, commands := {} } =
        (w, { c' with commands := k }) ∧ Coherent flags first c' := by
  have hc₁ := hc.mapping hm
  have hlookup : (mapping e.type).run s c = (.ok h.mapping, { c with registry }) :=
    run_mapping_ok hm
  have hmapped := ofRecord_of_run_mapping hc hlookup
  obtain ⟨r, c₂, k₂, hp, hp', hc₂, hk₂⟩ :=
    Blind.prepare (s := s) h.mapping e _ {} hc₁ (.clear {})
  cases r with
  | error err =>
    refine ⟨(e, .error err), c₂, k₂, ?_, ?_, hc₂⟩
    · exact Enrolled.run_insert_unstored hlookup (run_insertRow_unprepared hp)
    · rw [insertAfresh, hp']
  | ok p =>
    obtain ⟨e', g⟩ := p
    rw [← type_of_run_prepare hp] at hmapped
    -- From the command on the two runs differ only in what they remember.
    obtain ⟨commands, hc₃, hcommand⟩ := run_insertCommand_derive (s := s) hc₂ hmapped mode
    let i := InsertCommand.derive s.config.dialect h.mapping mode
    cases hparams : i.columns.mapM fun j => h.mapping.param j (h.mapping.bound e' g j) with
    | error err =>
      have hrow := run_insertRow_unstored hp (run_store_unbound hcommand hparams)
      refine ⟨_, _, k₂, Enrolled.run_insert_unstored hlookup hrow, ?_, hc₃⟩
      rw [insertAfresh, hp']
      dsimp only
      rw [hparams]
    | ok params =>
      have hins := Enrolled.run_insert_stored hlookup hp (run_store_bound hcommand hparams)
      obtain ⟨w, c', k', hsettle, hsettle', hc'⟩ :=
        settle_blind (s := s) hc₃ hk₂ h.mapping e' g i.sql params
      rw [hsettle] at hins
      refine ⟨w, c', k', hins, ?_, hc'⟩
      rw [insertAfresh, hp']
      dsimp only
      rw [hparams]
      exact hsettle'

end Act

end RowLedger
