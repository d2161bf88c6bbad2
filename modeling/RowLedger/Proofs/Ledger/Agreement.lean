import RowLedger.Proofs.Cache.Calls
import RowLedger.Proofs.Connection.Traced
import RowLedger.Proofs.Ledger.Prepared

/-!
An insert that succeeds binds one identifier, which the record takes and the ledger is written for.
Beside it only the key of the record may change.
-/

namespace RowLedger

/-- One value, and no other, is bound to a column. -/
def BindsOnce (params : List Param) (column : String) (v : SqlValue) : Prop :=
  params.filter (fun p => p.name == column) = [⟨column, v⟩]

/-- The text of an insert. -/
def Setup.insertText {σ : Type} (s : Setup σ) (m : Mapping) (mode : InsertMode) : String :=
  s.config.dialect.render (InsertCommand.derive s.config.dialect m mode).sql

/-- What a successful insert of `n` rows did: its identifier is the one drawn as the `i`-th, its
statement was answered with a row id or none, and these statements were issued. -/
structure Agreement {σ : Type} (s : Setup σ) (m : Mapping) (mode : InsertMode) (e : Entity)
    (c : Connection σ) (e' : Entity) (n : Nat) (c' : Connection σ) (i : Nat) (params : List Param)
    (id : Option (Sized .i64)) (issues : List Issue) : Prop where
  drawn : c.guidsDrawn ≤ i ∧ i < c'.guidsDrawn
  bound : BindsOnce params m.syncColumn.name (s.guid i).stored
  held : m.hasField m.sync = true → m.get e' m.sync = .guid (s.guid i)
  answered : (s.driver.execute (s.insertText m mode) params c.world).1 = .ok ⟨n, id⟩
  /-- The entry is made for the same identifier, once the ledger is there; without a row nothing is
  issued for it. -/
  issued : ∃ creating : List Issue,
    issues = .execute (s.insertText m mode) params ::
      (if n = 0 then [] else creating ++ [Ledger.removal s.config.dialect (s.guid i),
        Ledger.insertion s.config.dialect m.table (s.guid i) .insert]) ∧
    (∀ a ∈ creating, a.Creates s.config.dialect) ∧ (c.ledgerReady = true → creating = [])
  /-- A key that is drawn where it was nil or absent. -/
  fresh (k : Nat) (col : Column) : m.KeyAt k col → col.autoGuid = true →
    m.get e k = .null ∨ m.get e k = .guid .nil →
    ∃ j, i < j ∧ j < c'.guidsDrawn ∧ s.guid j ≠ .nil ∧ m.get e' k = .guid (s.guid j) ∧
      BindsOnce params col.name (s.guid j).stored
  /-- A key that was counted up. -/
  counted (k : Nat) (col : Column) (a : Sized .i64) : m.KeyAt k col → col.autoIncrement = true →
    0 < n → id = some a → Mapping.HoldsId col a (m.get e' k)
  kept (k : Nat) (col : Column) : m.KeyAt k col →
    ¬(col.autoGuid = true ∧ (m.get e k = .null ∨ m.get e k = .guid .nil)) →
    ¬(col.autoIncrement = true ∧ 0 < n ∧ id ≠ none) → m.get e' k = m.get e k
  /-- Every field keeps its value that is neither behind the identifier nor behind the key. -/
  others : Entity.Alike
    (fun p => m.field? m.sync ≠ some p ∧ ∀ k col, m.KeyAt k col → m.field? k ≠ some p) e e'

namespace Mapping

variable {m : Mapping}

/-- A column that is bound has one parameter, with the value that is bound to it. -/
theorem bindsOnce_of_mapM {p : Nat → Column → Bool} {v : Nat → Value} {params : List Param}
    (hm : m.WellFormed) (h : (m.positionsWhere p).mapM (fun i => m.param i (v i)) = .ok params)
    {k : Nat} {col : Column} (hk : k ∈ m.positionsWhere p) (hcol : m.column? k = some col)
    {x : SqlValue} (hx : (v k).toSql = .ok x) : BindsOnce params col.name x := by
  have hnames := Act.names_of_mapM (fun i hi => isSome_of_mem_positionsWhere hi) h
  obtain ⟨q, hq, hparam⟩ := Act.mem_of_mapM h hk
  rw [param, hcol, hx] at hparam
  cases hparam
  have hnodup : (params.map Param.name).Nodup := by
    rw [hnames]
    exact hm.names_nodup p
  exact filter_eq_singleton hnodup hq

end Mapping

namespace Act

/-- An insert that succeeds has prepared its record, bound it and settled the rest. -/
theorem of_run_insert_ok {σ : Type} {s : Setup σ} {flags : RecordType → Flags} {first : Registry}
    {c c' : Connection σ} (hc : Coherent flags first c) {e e' : Entity} {m : Mapping}
    (hm : c.mapping? e.type = some m) {mode : InsertMode} {n : Nat}
    (hrun : (insert e mode).run s c = (.ok (e', .ok n), c')) :
    Mapping.ofRecord e.type m.flags = .ok m ∧
      ∃ registry e₁ g c₁ commands params,
        (prepare m e).run s { c with registry } = (.ok (e₁, g), c₁) ∧
        (InsertCommand.derive s.config.dialect m mode).columns.mapM
          (fun j => m.param j (m.bound e₁ g j)) = .ok params ∧
        Coherent flags first { c₁ with commands } ∧
        Enrolled.settle s m e₁ g (InsertCommand.derive s.config.dialect m mode).sql params
          { c₁ with commands } = ((e', .ok n), c') := by
  obtain ⟨sh, registry, hmapped, rfl⟩ := registry_of_mapping? hm
  have hlookup : (mapping e.type).run s c = (.ok sh.mapping, { c with registry }) :=
    run_mapping_ok hmapped
  have hvalue := ofRecord_of_run_mapping hc hlookup
  refine ⟨hvalue, registry, ?_⟩
  have hc₁ := hc.mapping hmapped
  rcases hprep : (prepare sh.mapping e).run s { c with registry } with ⟨err | ⟨e₁, g⟩, c₁⟩
  · cases hrun.symm.trans (Enrolled.run_insert_unstored hlookup (run_insertRow_unprepared hprep))
  have hc₂ := (Blind.prepare sh.mapping e).coherent hc₁ hprep
  have htype : Mapping.ofRecord e₁.type sh.mapping.flags = .ok sh.mapping := by
    rw [type_of_run_prepare hprep]
    exact hvalue
  obtain ⟨commands, hc₃, hcommand⟩ := run_insertCommand_derive (s := s) hc₂ htype mode
  cases hparams : (InsertCommand.derive s.config.dialect sh.mapping mode).columns.mapM
      fun j => sh.mapping.param j (sh.mapping.bound e₁ g j) with
  | error err =>
    have hrow := run_insertRow_unstored hprep (run_store_unbound hcommand hparams)
    cases hrun.symm.trans (Enrolled.run_insert_unstored hlookup hrow)
  | ok params =>
    have hins := Enrolled.run_insert_stored hlookup hprep (run_store_bound hcommand hparams)
    obtain ⟨hw, hc'⟩ := Prod.mk.inj (hins.symm.trans hrun)
    exact ⟨e₁, g, c₁, commands, params, rfl, hparams, hc₃, Prod.ext (Except.ok.inj hw) hc'⟩

end Act

/-- What a settled insert has done once its statement was answered. -/
theorem Enrolled.of_settle_ok {σ : Type} {s : Setup σ} {c c' : Connection σ} {m : Mapping}
    {e e' : Entity} {g : Guid} {sql : Sql} {params : List Param} {n : Nat}
    (h : settle s m e g sql params c = ((e', .ok n), c')) :
    ∃ id c₁, (Act.exec sql params).run s c = (.ok ⟨n, id⟩, c₁) ∧
      (n = 0 ∧ e' = e ∧ c' = c₁ ∨ n ≠ 0 ∧ m.withGeneratedKey e id = .ok e' ∧
        (Act.recordChange m (some g) .insert).run s c₁ = (.ok (), c')) := by
  rcases hexec : (Act.exec sql params).run s c with ⟨err | ⟨k, id⟩, c₁⟩
  · rw [settle_error hexec] at h
    cases h
  by_cases hk : k = 0
  · rw [settle_zero hexec hk] at h
    cases h
    subst hk
    exact ⟨id, _, rfl, .inl ⟨rfl, rfl, rfl⟩⟩
  · rw [settle, hexec] at h
    dsimp only at h
    rw [if_neg hk] at h
    cases hkey : m.withGeneratedKey e id with
    | error err =>
      rw [hkey] at h
      cases h
    | ok e₁ =>
      rw [hkey] at h
      dsimp only at h
      rcases hrecord : (Act.recordChange m (some g) .insert).run s c₁ with ⟨err | ⟨⟨⟩⟩, c₂⟩
      · rw [hrecord] at h
        cases h
      · rw [hrecord] at h
        cases h
        exact ⟨id, _, rfl, .inr ⟨hk, hkey, hrecord⟩⟩

section

variable {σ : Type} {s : Setup σ} {m : Mapping} {mode : InsertMode}

/-- A GUID is bound wherever a record is inserted. -/
theorem bindsOnce_guid {t : RecordType} {flags : Flags} (h : Mapping.ofRecord t flags = .ok m)
    {d : Dialect} {v : Nat → Value} {params : List Param}
    (hparams : (InsertCommand.derive d m mode).columns.mapM (fun j => m.param j (v j)) = .ok params)
    {k : Nat} {col : Column} (hcol : m.column? k = some col) (hkind : col.kind = .guid) {g : Guid}
    (hv : v k = .guid g) : BindsOnce params col.name g.stored := by
  have hm := Mapping.wellFormed_ofRecord h
  have hcounts := (Mapping.represents_ofRecord h).guids col (List.mem_of_getElem? hcol) hkind
  rw [Enrolled.columns_derive] at hparams
  refine Mapping.bindsOnce_of_mapM hm hparams (Mapping.mem_positionsWhere.2 ⟨col, hcol, ?_⟩) hcol ?_
  · rw [hcounts, Bool.not_false, Bool.or_true]
  · rw [hv]
    rfl

/-- A settled insert has issued its statement, and has entered the row if there is one. -/
theorem issued_settle {flags : RecordType → Flags} {first : Registry}
    {c c' : Connection (Traced σ)} (hc : Coherent flags first c) (hdiscreet : c.Discreet)
    (hledger : Act.isLedger m = false) {e e' : Entity} {g : Guid} {params : List Param} {n : Nat}
    (h : Enrolled.settle s.traced m e g (InsertCommand.derive s.config.dialect m mode).sql params
      c = ((e', .ok n), c')) :
    ∃ id, (s.driver.execute (s.insertText m mode) params c.world.base).1 = .ok ⟨n, id⟩ ∧
      (n = 0 ∧ e' = e ∨ n ≠ 0 ∧ m.withGeneratedKey e id = .ok e') ∧
      ∃ is, Connection.Issued (.execute (s.insertText m mode) params ::
          (if n = 0 then [] else is ++ [Ledger.removal s.config.dialect g,
            Ledger.insertion s.config.dialect m.table g .insert])) c c' ∧
        (∀ a ∈ is, a.Creates s.config.dialect) ∧ (c.ledgerReady = true → is = []) := by
  obtain ⟨id, c₁, hexec, hsettled⟩ := Enrolled.of_settle_ok h
  have hissued :=
    Act.issued_exec (s := s) (InsertCommand.derive s.config.dialect m mode).sql params c
  rw [hexec] at hissued
  obtain ⟨w, hreply, rfl⟩ := Act.of_run_exec_ok hexec
  refine ⟨id, congrArg Prod.fst hreply, ?_⟩
  obtain ⟨rfl, rfl, rfl⟩ | ⟨hn, hkey, hrecord⟩ := hsettled
  · exact ⟨.inl ⟨rfl, rfl⟩, [], hissued, fun _ ha => absurd ha List.not_mem_nil, fun _ => rfl⟩
  · have hc₁ : Coherent flags first { c with world := w } := ⟨hc.follows, hc.grown, hc.derived⟩
    obtain ⟨is, hentered, hall, hready⟩ :=
      Act.issued_recordChange hledger hc₁ (hissued.discreet hdiscreet) hrecord
    refine ⟨.inr ⟨hn, hkey⟩, is, ?_, hall, hready⟩
    rw [if_neg hn]
    exact hissued.trans hentered

end

/-- GUIDs of version 4, numbered at their end. -/
def Samples.numberedGuid (n : Nat) : Guid := ⟨0x40008#68 ++ BitVec.ofNat 60 n⟩

theorem Samples.version_numberedGuid (n : Nat) : (Samples.numberedGuid n).version = 4 := by
  rw [Guid.version, Samples.numberedGuid, BitVec.extractLsb'_append_eq_of_le (by decide)]
  rfl

/-- A database that takes one row with every statement, as the seventh. -/
def Samples.countingSetup : Setup Unit where
  driver := .buffered (fun _ _ w => (.ok ⟨1, some ⟨7, by decide⟩⟩, w)) (fun _ _ w => (.ok {}, w))
    (fun _ => true) (fun w => (.ok (), w))
  config := .sqlite ":memory:"
  guid := Samples.numberedGuid
  savepointNumber n := n

def Samples.customers : Mapping :=
  { typeName := "Customer"
    table := "Customer"
    columns := (Samples.customer.fields.zipIdx.map fun f => Column.ofField f.1 f.2 .none).modify 3
      Column.markSync
    flags := .none
    key := some 0
    autoKey := some 0
    sync := 3 }

/-- A customer with a key and an identifier. -/
def Samples.customerOf (key : Int) (g : Guid) : Entity :=
  ⟨Samples.customer, [.int (Sized.clamp .i64 key), .text "Ada", .null, .guid g]⟩

end RowLedger
