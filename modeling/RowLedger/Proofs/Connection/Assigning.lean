import RowLedger.Proofs.Connection.Traced
import RowLedger.Samples

/-!
What an update binds. Each parameter stands for one hole of the statement, in the order of the text,
and holds what the record has in the column that is set or compared there. The names differ unless
the key is all that there is to set: then it is bound twice.
-/

namespace RowLedger

/-- The holes of a statement, each with the column that is set to it or compared with it. -/
def Sql.slots : Sql → List (String × String)
  | .name c :: .word " = " :: .hole h :: rest => (c, h) :: slots rest
  | _ :: rest => slots rest
  | [] => []

namespace Act

/-- The positions that an update binds: those that it sets and the key that it looks for. -/
def bound (m : Mapping) (i : Nat) : List Nat := assigned m i ++ [i]

theorem slots_assignments (cs : List Column) (w : String) (rest : Sql) :
    Sql.slots (Sql.joined ", " (cs.map assignment) ++ .word w :: rest) =
      cs.map (fun c => (c.name, c.name)) ++ Sql.slots rest := by
  induction cs with
  | nil => rfl
  | cons c cs ih =>
    cases cs with
    | nil => rfl
    | cons d cs => exact congrArg (List.cons (c.name, c.name)) ih

section

variable {m : Mapping} {e : Entity} {i : Nat} {key : Column} {params : List Param}

theorem columnsAt_bound (hkey : m.column? i = some key) :
    m.columnsAt (bound m i) = m.columnsAt (assigned m i) ++ [key] := by
  simp [bound, Mapping.columnsAt, hkey]

theorem slots_updateStatement (hkey : m.column? i = some key) :
    (updateStatement m (assigned m i) key.name).slots =
      (m.columnsAt (bound m i)).map fun c => (c.name, c.name) := by
  rw [columnsAt_bound hkey, List.map_append]
  exact slots_assignments _ _ _

theorem holes_updateStatement (hkey : m.column? i = some key) :
    (updateStatement m (assigned m i) key.name).holes =
      (m.columnsAt (bound m i)).map Column.name := by
  have hone (c : Column) : Sql.holes (assignment c) = [c.name] := rfl
  rw [columnsAt_bound hkey, List.map_append, List.map_eq_flatMap (l := m.columnsAt _)]
  simp [updateStatement, List.flatMap_map, hone]

theorem isSome_of_mem_bound (hm : m.WellFormed) (hkey : m.key = some i) {j : Nat}
    (hj : j ∈ bound m i) : (m.column? j).isSome := by
  have hi := hm.key i hkey
  rcases List.mem_append.1 hj with hj | hj
  · exact isSome_of_mem_assigned hi hj
  · rwa [List.mem_singleton.1 hj]

/-- Names repeat only where the key is set to itself. -/
theorem nodup_bound_iff (hm : m.WellFormed) (hkey : m.key = some i) :
    ((m.columnsAt (bound m i)).map Column.name).Nodup ↔ m.updateColumns ≠ [] := by
  obtain ⟨key, hcolumn⟩ := Option.isSome_iff_exists.1 (hm.key i hkey)
  rw [columnsAt_bound hcolumn, List.map_append, List.map_singleton, assigned]
  cases hcolumns : m.updateColumns with
  | nil => simp [Mapping.columnsAt, hcolumn]
  | cons j js =>
    rw [← hcolumns, List.isEmpty_eq_false_iff.2 (by simp [hcolumns]), if_neg Bool.false_ne_true,
      List.nodup_append]
    refine iff_of_true ⟨hm.names_nodup _, List.nodup_singleton _, ?_⟩ (by simp [hcolumns])
    intro a ha b hb hab
    rw [List.mem_singleton.1 hb] at hab
    rw [hab] at ha
    exact hm.name_not_mem hcolumn (Mapping.not_mem_updateColumns (.inl hkey)) ha

end

end Act

/-- A parameter has the name of a hole and the value of the column that goes with it. -/
def Mapping.Supplies (m : Mapping) (e : Entity) (slot : String × String) (p : Param) : Prop :=
  p.name = slot.2 ∧
    ∃ j c, m.column? j = some c ∧ c.name = slot.1 ∧ (m.get e j).toSql = .ok p.value

namespace Act

section

variable {m : Mapping} {e : Entity} {positions : List Nat} {params : List Param}

theorem supplies_of_mapM (hpositions : ∀ j ∈ positions, (m.column? j).isSome)
    (h : positions.mapM (fun j => m.param j (m.get e j)) = .ok params) :
    List.Forall₂ (m.Supplies e) ((m.columnsAt positions).map fun c => (c.name, c.name)) params := by
  rw [List.forall₂_map_left_iff]
  refine (columns_of_mapM hpositions h).imp ?_
  rintro c _ ⟨j, x, hc, hx, rfl⟩
  exact ⟨rfl, j, c, hc, rfl, hx⟩

/-- A key that is set to itself is bound twice with one value. -/
theorem eq_pair_of_alone {i : Nat}
    (h : (bound m i).mapM (fun j => m.param j (m.get e j)) = .ok params)
    (halone : m.updateColumns = []) : ∃ k, params = [k, k] := by
  have hbound : bound m i = [i, i] := by simp [bound, assigned, halone]
  rw [hbound] at h
  cases hk : m.param i (m.get e i) with
  | error err => simp [List.mapM_cons, hk, bind, Except.bind] at h
  | ok k =>
    simp only [List.mapM_cons, List.mapM_nil, hk, bind, Except.bind, pure, Except.pure,
      Except.ok.injEq] at h
    exact ⟨k, h.symm⟩

/-- Binding fails with the refusal of a value. -/
theorem exists_refused_of_mapM {err : Error}
    (h : positions.mapM (fun j => m.param j (m.get e j)) = .error err) :
    ∃ j ∈ positions, (m.get e j).toSql = .error err := by
  obtain ⟨j, hj, hparam⟩ := exists_of_mapM_error h
  refine ⟨j, hj, ?_⟩
  rw [Mapping.param] at hparam
  cases hv : (m.get e j).toSql with
  | error err' =>
    rw [hv] at hparam
    cases hparam
    rfl
  | ok v =>
    rw [hv] at hparam
    cases hparam

end

section

variable {σ : Type} {s : Setup σ} {pre : List Issue}

/-- These statements were issued first, and no subscriber touches what is noted. -/
structure Leads (pre : List Issue) (c : Connection (Traced σ)) : Prop where
  issues : ∃ rest, c.world.issues = pre ++ rest
  discreet : c.Discreet

open Connection (Issued)

theorem Leads.issued {l : List Issue} {c c' : Connection (Traced σ)} (h : Leads pre c)
    (hissued : Issued l c c') : Leads pre c' := by
  obtain ⟨rest, hrest⟩ := h.issues
  refine ⟨⟨rest ++ l, ?_⟩, hissued.discreet h.discreet⟩
  rw [hissued.issues, hrest, List.append_assoc]

/-- Whatever is done, no statement is taken back. -/
theorem announcing_leads (s : Setup σ) (pre : List Issue) :
    Announcing s.traced (fun _ => True) fun _ => Leads pre where
  ledger := trivial
  mapping _ c hc := by
    rw [run_mapping_eq]
    split <;> exact hc.issued (.silent rfl rfl rfl)
  drawGuid c hc := ⟨hc.issues, hc.discreet⟩
  store m e g mode := by
    have hcommand : Keeps s.traced (Leads pre) (insertCommand e.type m mode) := by
      intro c hc
      rw [run_insertCommand_keep]
      exact hc.issued (.silent rfl rfl rfl)
    exact hcommand.bind fun _ => .ofExcept_bind fun _ _ c hc => hc.issued (issued_exec _ _ c)
  writes params _ c hc := hc.issued (issued_exec _ params c)
  queries params _ c hc := hc.issued (l := [.query _ params]) ⟨rfl, rfl, rfl⟩
  scalars params _ c hc := hc.issued (l := [.scalar _ params]) ⟨rfl, rfl, rfl⟩
  initLedger c hc := by
    obtain ⟨is, his, -⟩ := creating_initLedger (s := s) c
    exact hc.issued his
  notify action _ c hc := hc.issued (issued_notify _ action hc.discreet)

variable {m : Mapping} {e : Entity} {i : Nat} {key : Column} {c : Connection σ}

theorem run_updateRow_refused {err : Error}
    (h : (bound m i).mapM (fun j => m.param j (m.get e j)) = .error err) :
    (updateRow m i e).run s c = (.error err, c) := by
  rw [bound, List.mapM_append] at h
  rw [updateRow]
  cases hset : (assigned m i).mapM (fun j => m.param j (m.get e j)) with
  | error err' =>
    rw [hset] at h
    cases h
    rfl
  | ok params =>
    rw [hset, List.mapM_cons] at h
    cases hk : m.param i (m.get e i) with
    | error err' =>
      rw [hk] at h
      cases h
      rfl
    | ok k =>
      rw [hk] at h
      cases h

theorem run_updateRow_bound {params : List Param} (hkey : m.column? i = some key)
    (h : (bound m i).mapM (fun j => m.param j (m.get e j)) = .ok params) :
    ∃ k, (updateRow m i e).run s c =
      (do
        return (← execCount (updateStatement m (assigned m i) key.name) params, k) :
          Act σ (Nat × Param)).run s c := by
  rw [bound, List.mapM_append] at h
  obtain ⟨set, hset, h⟩ := except_bind_ok.1 h
  obtain ⟨ks, hks, h⟩ := except_bind_ok.1 h
  cases h
  rw [List.mapM_cons] at hks
  obtain ⟨k, hk, hks⟩ := except_bind_ok.1 hks
  cases hks
  obtain ⟨v, -, rfl⟩ := (param_ok_iff hkey).1 hk
  refine ⟨⟨key.name, v⟩, ?_⟩
  rw [updateRow, hset, hk]
  rfl

/-- The statement is issued whatever becomes of it. -/
theorem leads_updateRow {c : Connection (Traced σ)} (hc : c.Discreet) {params : List Param}
    (hkey : m.column? i = some key)
    (h : (bound m i).mapM (fun j => m.param j (m.get e j)) = .ok params) :
    Leads (c.world.issues ++
        [.execute (s.config.dialect.render (updateStatement m (assigned m i) key.name)) params])
      ((updateRow m i e).run s.traced c).2 := by
  obtain ⟨k, hrow⟩ := run_updateRow_bound (s := s.traced) (c := c) hkey h
  have hissued := issued_execCount (s := s) (updateStatement m (assigned m i) key.name) params c
  rw [hrow, run_bind]
  generalize (execCount _ params).run s.traced c = r at hissued
  have hleads : Leads _ r.2 :=
    ⟨⟨[], by rw [hissued.issues, List.append_nil]⟩, hissued.discreet hc⟩
  obtain ⟨_ | _, c'⟩ := r <;> exact hleads

section

variable {sh : Shared} {registry : Registry}

theorem run_modify_refused {err : Error}
    (hmapped : c.registry.mapping e.type = .ok (sh, registry)) (hkey : sh.mapping.key = some i)
    (h : (bound sh.mapping i).mapM (fun j => sh.mapping.param j (sh.mapping.get e j)) =
      .error err) :
    (modify e).run s c = (.ok (e, .error err), { c with registry }) := by
  rw [modify, run_bind_attempt _ (run_mapping_ok hmapped)]
  dsimp only
  rw [hkey]
  dsimp only
  rw [run_bind_attempt _ (run_updateRow_refused h)]
  rfl

/-- What follows the update of the row takes nothing back. -/
theorem leads_modify {c : Connection (Traced σ)} (hc : c.Discreet)
    (hmapped : c.registry.mapping e.type = .ok (sh, registry)) (hkey : sh.mapping.key = some i)
    (hcolumn : sh.mapping.column? i = some key) {params : List Param}
    (h : (bound sh.mapping i).mapM (fun j => sh.mapping.param j (sh.mapping.get e j)) =
      .ok params) :
    Leads (c.world.issues ++
        [.execute (s.config.dialect.render
          (updateStatement sh.mapping (assigned sh.mapping i) key.name)) params])
      ((modify e).run s.traced c).2 := by
  have hleads := leads_updateRow (s := s) (c := { c with registry }) hc hcolumn h
  rw [modify, run_bind_attempt _ (run_mapping_ok hmapped)]
  dsimp only
  rw [hkey]
  dsimp only
  rw [run_bind_attempt _ rfl]
  exact (announcing_leads s _).updated sh.mapping e _ _ hleads

end

/-- An update of a record with a key begins with the statement that updates its row, unless a value
of it cannot be stored: then nothing is issued. Each hole of the statement has its parameter, in the
order of the text, with the value of the column that is set or compared there. The names differ
exactly if a column other than the key and the identifying one is there to be set; otherwise the one
name of the key stands for two parameters. -/
theorem modify_binds (s : Setup σ) (c : Connection σ) (e : Entity) (flags : Flags)
    (hrecord : Mapping.ofRecord e.type flags = .ok m) (hm : c.mapping? e.type = some m)
    (hkey : m.key = some i) :
    let done := (modify e).run s.traced (c.traced [])
    (∃ j ∈ bound m i, ∃ err, (m.get e j).toSql = .error err ∧ done.1 = .ok (e, .error err) ∧
        done.2.world.issues = []) ∨
      ∃ key params rest, m.column? i = some key ∧
        let sql := updateStatement m (assigned m i) key.name
        done.2.world.issues = .execute (s.config.dialect.render sql) params :: rest ∧
          params.map Param.name = sql.holes ∧ sql.slots.map Prod.snd = sql.holes ∧
          List.Forall₂ (m.Supplies e) sql.slots params ∧
          ((params.map Param.name).Nodup ↔ m.updateColumns ≠ []) ∧
          (m.updateColumns = [] → ∃ k, params = [k, k]) := by
  intro done
  have hwf := Mapping.wellFormed_ofRecord hrecord
  obtain ⟨key, hcolumn⟩ := Option.isSome_iff_exists.1 (hwf.key i hkey)
  obtain ⟨sh, registry, hmapped, rfl⟩ := registry_of_mapping? hm
  have hmapped : (c.traced []).registry.mapping e.type = .ok (sh, registry) := hmapped
  cases hparams : (bound sh.mapping i).mapM
      fun j => sh.mapping.param j (sh.mapping.get e j) with
  | error err =>
    obtain ⟨j, hj, hvalue⟩ := exists_refused_of_mapM hparams
    have hdone : done = _ := run_modify_refused hmapped hkey hparams
    rw [hdone]
    exact .inl ⟨j, hj, err, hvalue, rfl, rfl⟩
  | ok params =>
    obtain ⟨rest, hissues⟩ := (leads_modify (s := s) (Connection.discreet_traced c []) hmapped hkey
      hcolumn hparams).issues
    have hnames := names_of_mapM (fun j hj => isSome_of_mem_bound hwf hkey hj) hparams
    have hholes := holes_updateStatement hcolumn
    have hslots := slots_updateStatement hcolumn
    refine .inr ⟨key, params, rest, hcolumn, hissues, hnames.trans hholes.symm, ?_, ?_, ?_,
      eq_pair_of_alone hparams⟩
    · rw [hslots, hholes, List.map_map]
      rfl
    · rw [hslots]
      exact supplies_of_mapM (fun j hj => isSome_of_mem_bound hwf hkey hj) hparams
    · rw [hnames]
      exact nodup_bound_iff hwf hkey

end

end Act

namespace Samples

/-- Settings whose name is all that there is to set. -/
def codes : Mapping :=
  { typeName := "KeyOnly"
    table := "KeyOnly"
    columns := keyOnly.fields.zipIdx.map (fun f => Column.ofField f.1 f.2 .none) ++ [Column.sync]
    flags := .none
    key := some 0
    autoKey := none
    sync := 1 }

/-- A driver that changes no row. -/
def idleSetup (config : Config) : Setup Unit where
  driver := .buffered (fun _ _ w => (.ok {}, w)) (fun _ _ w => (.ok {}, w))
    (fun _ => true) (fun w => (.ok (), w))
  config
  guid _ := .nil
  savepointNumber n := n

/-- With nothing else to set, both parameters of SQL Server have the name of the key. -/
theorem codes_boundTwice :
    let done := (Act.modify ⟨keyOnly, [.text "x"]⟩).run
      (idleSetup (.sqlServer "localhost" "Sales")).traced (Connection.traced { world := () } [])
    Mapping.ofRecord keyOnly .none = .ok codes ∧
      ({ world := () } : Connection Unit).mapping? keyOnly = some codes ∧ codes.key = some 0 ∧
      codes.updateColumns = [] ∧
      ∃ k rest, k.name = "Code" ∧ done.2.world.issues =
        .execute "update [KeyOnly] set [Code] = @Code where [Code] = @Code" [k, k] :: rest := by
  have hrecord : Mapping.ofRecord keyOnly .none = .ok codes := by decide +kernel
  have hmapping : ({ world := () } : Connection Unit).mapping? keyOnly = some codes := by
    decide +kernel
  have halone : codes.updateColumns = [] := by decide
  refine ⟨hrecord, hmapping, rfl, halone, ?_⟩
  obtain ⟨j, hj, err, hvalue, -⟩ | ⟨key, params, rest, hkey, hissues, hnames, -, -, -, hpair⟩ :=
    Act.modify_binds (idleSetup (.sqlServer "localhost" "Sales")) { world := () }
      ⟨keyOnly, [.text "x"]⟩ .none hrecord hmapping rfl
  · have hj : j = 0 := by simpa [Act.bound, Act.assigned, halone] using hj
    rw [hj] at hvalue
    cases hvalue
  · obtain ⟨k, rfl⟩ := hpair halone
    cases hkey
    exact ⟨k, rest, (List.cons.inj hnames).1, hissues⟩

end Samples

end RowLedger
