import RowLedger.Proofs.Ledger.Enrolled

/-!
What calls leave that fail. A call on one row changes its table by one statement and enters the
change by others, outside of a transaction: where one of these is refused, the table stays changed.
-/

namespace RowLedger

/-- A statement after the one that changes the row may be refused. -/
inductive Refusals.Late (R : Refusals) (m : Mapping) : Prop
  | ledger (h : R.OfLedger)
  | reads {key : Param} (h : R.question (.identifier m key))
  | assigns {d : Contents} {params : List Param} {key : Param}
      (h : R.command d (.update m [m.sync] params key))

/-- One of the rows has the identifier, as it is read. -/
def Mapping.Identifies (m : Mapping) (rs : List Record) (g : Guid) : Prop :=
  ∃ r ∈ rs, Value.ofSql .guid (r m.syncColumn.name) = .ok (.guid g)

theorem Mapping.Identifies.subset {m : Mapping} {rs rs' : List Record} {g : Guid}
    (h : m.Identifies rs g) (hsub : rs ⊆ rs') : m.Identifies rs' g := by
  obtain ⟨r, hr, hg⟩ := h
  exact ⟨r, hsub hr, hg⟩

theorem Mapping.identifies_of_stored {m : Mapping} {rs : List Record} {r : Record} {g : Guid}
    (hr : r ∈ rs) (hg : r m.syncColumn.name = g.stored) : m.Identifies rs g :=
  ⟨r, hr, by rw [hg, Value.ofSql_guid]⟩

namespace Ledger

/-- What a call that fails leaves of the rows. -/
inductive Leftover (R : Refusals) (m : Mapping) (changes : List Record → Prop)
    (rows : String → List Record) (err : Error) : (String → List Record) → Prop
  | nothing : Leftover R m changes rows err rows
  /-- The table is changed, and the change is not entered. -/
  | change {rs : List Record} (h : changes rs) (hlate : R.Late m ∨ err.IsUnreadable) :
      Leftover R m changes rows err (Function.update rows m.table rs)
  /-- Besides, the row has lost the entry that it had. -/
  | lostEntry {rs : List Record} {g : Guid} (h : changes rs)
      (hg : m.Identifies (rows m.table ++ rs) g) (hno : R.OfLedger) :
      Leftover R m changes rows err
        (Function.update (Function.update rows m.table rs) tableName
          (keptApart [g] (rows tableName)))

namespace Leftover

variable {R : Refusals} {m : Mapping} {changes : List Record → Prop}
  {rows rows' : String → List Record} {err : Error}

theorem imp {changes' : List Record → Prop} (h : Leftover R m changes rows err rows')
    (himp : ∀ rs, changes rs → changes' rs) : Leftover R m changes' rows err rows' := by
  cases h with
  | nothing => exact .nothing
  | change h hlate => exact .change (himp _ h) hlate
  | lostEntry h hg hno => exact .lostEntry (himp _ h) hg hno

/-- Nothing is left unless a statement after the change can be refused. -/
theorem eq_of_not_late (h : Leftover R m changes rows err rows') (hR : ¬R.Late m)
    (herr : ¬err.IsUnreadable) : rows' = rows := by
  cases h with
  | nothing => rfl
  | change _ hlate => exact absurd hlate (not_or.2 ⟨hR, herr⟩)
  | lostEntry _ _ hno => exact absurd (.ledger hno) hR

end Leftover

/-- A call on the row of one record. -/
inductive Mutation
  | insert (e : Entity) (ignoring : Bool)
  | update (e : Entity)
  | delete (e : Entity)
  | deleteByKey (t : RecordType) (v : Value)

/-- The rows without those that have the key. -/
def Deletes (M : Meaning) (m : Mapping) (v : Value) (rows rs : List Record) : Prop :=
  ∃ col stored, m.keyColumn? = some col ∧ v.toSql = .ok stored ∧
    rs = rows.filter fun r => !M.holds m.table (.keyed ⟨col.name, stored⟩) r

namespace Mutation

def type : Mutation → RecordType
  | insert e _ | update e | delete e => e.type
  | deleteByKey t _ => t

def act {σ : Type} : Mutation → Act σ Nat
  | insert e ignoring => Call.counted (Act.insert e (if ignoring then .ignore else .insert))
  | update e => Call.counted (Act.modify e)
  | delete e => Act.delete e
  | deleteByKey t v => Act.deleteByKey t v

/-- What a call makes of the rows of its table, before it enters the change. The identifier is the
one that is drawn next. -/
def Changes (M : Meaning) (m : Mapping) (g : Guid) (rows rs : List Record) : Mutation → Prop
  | insert _ _ => ∃ row : Record, row m.syncColumn.name = g.stored ∧ rs = rows ++ [row]
  | update e => ∃ i params k, m.Binds e i params k ∧
      let found := M.holds m.table (.keyed k)
      (rs = rows.map (Record.assignIf found params) ∨
        rs = (rows.map (Record.assignIf found params)).map
          (Record.assignIf found [⟨m.syncColumn.name, g.stored⟩]))
  | delete e => ∃ v, m.keyValue? e = some v ∧ Deletes M m v rows rs
  | deleteByKey _ v => Deletes M m v rows rs

end Mutation

end Ledger

namespace Act

variable {σ : Type} {s : Setup σ} {view : σ → Contents} {M : Meaning} {R : Refusals}
  {m : Mapping} {c : Connection σ}

theorem insertRow_answers (m : Mapping) (e : Entity) (mode : InsertMode) :
    (insertRow m e mode).Answers s := by
  refine (Answers.attempt _).bind fun prepared => ?_
  match prepared with
  | .error err => exact .pure _
  | .ok (e, g) =>
    refine (Answers.attempt _).bind fun stored => ?_
    match stored with
    | .error err => exact .pure _
    | .ok r =>
      dsimp only
      split
      · exact .pure _
      · split <;> exact .pure _

theorem insert_answers (e : Entity) (mode : InsertMode) : (insert e mode).Answers s := by
  refine (Answers.attempt _).bind fun mapped => ?_
  match mapped with
  | .error err => exact .pure _
  | .ok m =>
    refine (insertRow_answers m e mode).bind fun stored => ?_
    match stored with
    | (e, .error err) => exact .pure _
    | (e, .ok (g, 0)) => exact .pure _
    | (e, .ok (g, n + 1)) => exact (Answers.attempt _).bind fun r => .pure _

theorem modify_answers (e : Entity) : (modify e).Answers s := by
  refine (Answers.attempt _).bind fun mapped => ?_
  match mapped with
  | .error err => exact .pure _
  | .ok m =>
    dsimp only
    split
    · exact .pure _
    · refine (Answers.attempt _).bind fun updated => ?_
      match updated with
      | .error err => exact .pure _
      | .ok (0, k) => exact .pure _
      | .ok (n + 1, k) =>
        refine (Answers.attempt _).bind fun identified => ?_
        match identified with
        | .error err => exact .pure _
        | .ok (g, e) => exact (Answers.attempt _).bind fun r => .pure _

/-- Reading the identifier of a row fails where it is refused, or where there is none to read. -/
theorem run_readSync_read {known : List Mapping} (hf : s.Faithful view M R known) (hm : m ∈ known)
    (hhas : (view c.world).tables.Has m.table) (key : Param) :
    ∃ r w, (readSync m key).run s c = (r, { c with world := w }) ∧ view w = view c.world ∧
      (∀ g, r = .ok (some g) → m.Identifies ((view c.world).tables.rows m.table) g) ∧
      ∀ err, r = .error err → R.question (.identifier m key) ∨ err.IsUnreadable := by
  rcases run_readSync_cases hf hm hhas key with
    ⟨v, w, hrun, hw, hrow⟩ | ⟨e, w, hrun, hw, hno⟩
  · refine ⟨_, w, hrun, hw, fun g hg => ?_, fun err herr => .inr ?_⟩
    · obtain ⟨x, hx, hxg⟩ : ∃ x, Value.ofSql .guid v = .ok x ∧ x.guid? = some g := by
        cases hv : Value.ofSql .guid v with
        | error err =>
          rw [hv] at hg
          cases hg
        | ok x =>
          rw [hv] at hg
          exact ⟨x, rfl, Except.ok.inj hg⟩
      obtain rfl : x = .guid g := by
        cases x <;> cases hxg
        rfl
      rcases hrow with ⟨r, hr, -, rfl⟩ | ⟨-, rfl⟩
      · exact ⟨r, hr, hx⟩
      · cases hx
    · exact ((Value.reads_ofSql .guid v).map Value.guid?) err herr
  · exact ⟨_, w, hrun, hw, (nomatch ·, ·), fun _ _ => .inl hno⟩

end Act

namespace Enrolled

open Ledger (Leftover Deletes Mutation)

variable {σ : Type} {s : Setup σ} {view : σ → Contents} {M : Meaning} {R : Refusals}
  {t : RecordType} {m : Mapping} {c c' : Connection σ} {err : Error}

/-- A missing identifier is drawn and written into the rows with the key. -/
theorem run_assignSync {known : List Mapping} (hf : s.Faithful view M R known) (hm : m ∈ known)
    (h : Enrolled s view t m c) (k : Param) :
    ∃ r c', (Act.assignSync m k).run s c = (r, c') ∧ Steady s view [] c' ∧
      (r = .ok (s.guid c.guidsDrawn) ∧
          (view c'.world).tables.rows = Function.update (view c.world).tables.rows m.table
            (((view c.world).tables.rows m.table).map (Record.assignIf
              (M.holds m.table (.keyed k))
              [⟨m.syncColumn.name, (s.guid c.guidsDrawn).stored⟩])) ∨
        (∃ err, r = .error err) ∧ R.Late m ∧
          (view c'.world).tables.rows = (view c.world).tables.rows) := by
  let c₁ : Connection σ := { c with guidsDrawn := c.guidsDrawn + 1 }
  have h₁ : Enrolled s view t m c₁ := h.drawing _
  let params : List Param := [⟨m.syncColumn.name, (s.guid c.guidsDrawn).stored⟩]
  have hnames : params.map Param.name = (m.columnsAt [m.sync]).map Column.name := by
    simp [params, Mapping.columnsAt, h.wellFormed.sync]
  have hrun : (Act.assignSync m k).run s c =
      (Act.exec ((TableCommand.update m [m.sync] params k).sql s.config.dialect)
        (TableCommand.update m [m.sync] params k).params >>= fun _ =>
          pure (s.guid c.guidsDrawn)).run s c₁ := by
    have hstored : (Value.guid (s.guid c.guidsDrawn)).toSql =
        .ok (s.guid c.guidsDrawn).stored := rfl
    rw [Act.assignSync, Act.run_bind_ok _ Act.run_drawGuid, hstored]
    exact Act.run_bind_ok _ (Act.run_ofExcept _)
  rcases Act.run_command (c := c₁) hf (.update m [m.sync] params k)
    (fun n hn => Option.mem_some.1 hn ▸ hm) ⟨h.present, hnames⟩ with
    ⟨res, w, hr, -, hw⟩ | ⟨e, w, hr, hw, hno⟩
  · have k₂ := Leaves.withRows h₁.steady hw
    exact ⟨_, _, hrun.trans (Act.run_bind_ok _ hr), k₂.steady, .inl ⟨rfl, k₂.rows⟩⟩
  · have k₂ := Leaves.sameView h₁.steady hw
    exact ⟨_, _, hrun.trans (Act.run_bind_error _ hr), k₂.steady,
      .inr ⟨⟨_, rfl⟩, .assigns hno, k₂.rows⟩⟩

/-- The identifier of a row that was just updated, which is there or is drawn. -/
theorem run_ensureSync {known : List Mapping} (hf : s.Faithful view M R known) (hm : m ∈ known)
    (h : Enrolled s view t m c) {k : Param} {r₀ : Record}
    (hr₀ : r₀ ∈ (view c.world).tables.rows m.table)
    (hfound : M.holds m.table (.keyed k) r₀ = true) :
    ∃ r c' rs, (Act.ensureSync m k).run s c = (r, c') ∧ Steady s view [] c' ∧
      (rs = (view c.world).tables.rows m.table ∨
        rs = ((view c.world).tables.rows m.table).map (Record.assignIf
          (M.holds m.table (.keyed k)) [⟨m.syncColumn.name, (s.guid c.guidsDrawn).stored⟩])) ∧
      (view c'.world).tables.rows = Function.update (view c.world).tables.rows m.table rs ∧
      (∀ g, r = .ok g → m.Identifies rs g) ∧
      ∀ err, r = .error err → R.Late m ∨ err.IsUnreadable := by
  obtain ⟨r, w, hread, hw, hg, herr⟩ := Act.run_readSync_read hf hm h.present k
  let c₁ : Connection σ := { c with world := w }
  have k₁ := Leaves.sameView h.steady hw
  have h₁ : Enrolled s view t m c₁ := h.atWorld (by rw [hw])
  have hsame : (view w).tables.rows = Function.update (view c.world).tables.rows m.table
      ((view c.world).tables.rows m.table) := by
    rw [Function.update_eq_self, hw]
  have hensure : (Act.ensureSync m k).run s c = _ := Act.run_bind (Act.readSync m k) _
  rw [hread] at hensure
  match r with
  | .error err =>
    refine ⟨_, c₁, _, hensure, k₁.steady, .inl rfl, hsame, (nomatch ·, ·), fun err' he => ?_⟩
    exact (herr err' (congrArg (Except.map some) he)).imp .reads id
  | .ok (some g) =>
    refine ⟨_, c₁, _, hensure, k₁.steady, .inl rfl, hsame, fun g' hg' => ?_, (nomatch ·, ·)⟩
    exact hg g' (congrArg (Except.map some) hg')
  | .ok none =>
    obtain ⟨r, c₂, hassign, hs₂, ⟨rfl, hrows⟩ | ⟨⟨err, rfl⟩, hlate, hrows⟩⟩ :=
      run_assignSync hf hm h₁ k
    · rw [k₁.rows] at hrows
      refine ⟨_, c₂, _, hensure.trans hassign, hs₂, .inr rfl, hrows, fun g hg => ?_,
        (nomatch ·, ·)⟩
      obtain rfl := Except.ok.inj hg
      refine Mapping.identifies_of_stored (List.mem_map_of_mem hr₀) ?_
      rw [Record.assignIf, if_pos hfound]
      exact Record.assign_singleton r₀ ⟨m.syncColumn.name, (s.guid c.guidsDrawn).stored⟩
    · refine ⟨_, c₂, _, hensure.trans hassign, hs₂, .inl rfl, ?_, (nomatch ·, ·), ?_⟩
      · rw [hrows]
        exact hsame
      · exact fun _ _ => .inl hlate

/-- What is left where the table is changed and the change cannot be entered. -/
theorem leftover_recordChange (hM : M.Lawful [Ledger.mapping])
    (hf : s.Faithful view M R [Ledger.mapping]) (hm : m.table ≠ Ledger.tableName)
    {changes : List Record → Prop} {rows : String → List Record} {rs : List Record}
    {g : Option Guid} {action : Action} {n : Nat} (h : Steady s view [] c)
    (hrows : (view c.world).tables.rows = Function.update rows m.table rs) (hchanges : changes rs)
    (hg : ∀ g', g = some g' → m.Identifies (rows m.table ++ rs) g')
    (hrun : (do Act.recordChange m g action; return n : Act σ Nat).run s c = (.error err, c')) :
    Leftover R m changes rows err (view c'.world).tables.rows := by
  cases g with
  | none =>
    have hother : Act.isLedger m = false := beq_false_of_ne hm
    obtain ⟨c₂, h₂, -⟩ := Act.run_notify h m action
    rw [Act.recordChange, hother] at hrun
    simp only [Bool.not_false, if_true] at hrun
    cases (Act.run_bind_ok _ h₂).symm.trans hrun
  | some g =>
    rcases Act.run_recordChange_cases Tracked.Apart.nil hM hf h hm g action with
      ⟨_, _, hok, -⟩ | ⟨e, c₂, herr, hno, k⟩
    · cases (Act.run_bind_ok _ hok).symm.trans hrun
    · obtain ⟨-, rfl⟩ := Prod.mk.inj ((Act.run_bind_error _ herr).symm.trans hrun)
      rcases k with k | k
      · rw [k.rows, hrows]
        exact .change hchanges (.inl (.ledger hno))
      · rw [k.rows, hrows, Function.update_of_ne hm.symm]
        exact .lostEntry hchanges (hg g rfl) hno

/-- A deletion knows the identifier before it changes anything, so only the ledger can stop it. -/
theorem leftover_deleteByValue (hM : M.Lawful [Ledger.mapping])
    (hf : s.Faithful view M R [Ledger.mapping, m]) (h : Enrolled s view t m c) {v : Value}
    (hrun : (Act.deleteByValue m v).run s c = (.error err, c')) :
    Leftover R m (Deletes M m v ((view c.world).tables.rows m.table)) (view c.world).tables.rows err
      (view c'.world).tables.rows := by
  have hm : m ∈ [Ledger.mapping, m] := List.mem_cons_of_mem _ List.mem_cons_self
  rw [Act.deleteByValue] at hrun
  cases hcol : m.keyColumn? with
  | none =>
    rw [hcol] at hrun
    cases hrun
    exact .nothing
  | some col =>
    rw [hcol] at hrun
    dsimp only at hrun
    rw [Act.run_bind, Act.run_ofExcept] at hrun
    cases hv : v.toSql with
    | error err' =>
      rw [hv] at hrun
      cases hrun
      exact .nothing
    | ok stored =>
      let key : Param := ⟨col.name, stored⟩
      rw [hv] at hrun
      dsimp only at hrun
      obtain ⟨r, w, hread, hw, hg, -⟩ := Act.run_readSync_read hf hm h.present key
      let c₁ : Connection σ := { c with world := w }
      have k₁ := Leaves.sameView h.steady hw
      have h₁ : Enrolled s view t m c₁ := h.atWorld (by rw [hw])
      cases r with
      | error err' =>
        obtain ⟨-, rfl⟩ := Prod.mk.inj ((Act.run_bind_error _ hread).symm.trans hrun)
        rw [k₁.rows]
        exact .nothing
      | ok g =>
        have hrun := (Act.run_bind_ok _ hread).symm.trans hrun
        rcases Act.run_delete_cases (c := c₁) hf hm h₁.present (some (.keyed key)) with
          ⟨w₂, hdelete, hw₂⟩ | ⟨e, w₂, hdelete, hw₂⟩
        · have k₂ := Leaves.withRows k₁.steady hw₂
          have hrun := (Act.run_bind_ok _ hdelete).symm.trans hrun
          rw [k₁.rows] at k₂
          split at hrun
          · refine leftover_recordChange hM hf.ledger h.table_ne k₂.steady k₂.rows
              ⟨col, stored, hcol, hv, rfl⟩ (fun g' hg' => ?_) hrun
            exact (hg g' (congrArg _ hg')).subset (List.subset_append_left _ _)
          · cases hrun
        · obtain ⟨-, rfl⟩ := Prod.mk.inj ((Act.run_bind_error _ hdelete).symm.trans hrun)
          rw [(k₁.still (Leaves.sameView k₁.steady hw₂)).rows]
          exact .nothing

/-- A row that was inserted stays, also where its entry is refused. -/
theorem leftover_insert (hM : M.Lawful [Ledger.mapping])
    (hf : s.Faithful view M R [Ledger.mapping, m]) {e e' : Entity} (h : Enrolled s view e.type m c)
    (ignoring : Bool)
    (hrun : (Act.insert e (if ignoring then .ignore else .insert)).run s c =
      (.ok (e', .error err), c')) :
    Leftover R m ((Mutation.insert e ignoring).Changes M m (s.guid c.guidsDrawn)
        ((view c.world).tables.rows m.table))
      (view c.world).tables.rows err (view c'.world).tables.rows := by
  have hm : m ∈ [Ledger.mapping, m] := List.mem_cons_of_mem _ List.mem_cons_self
  rcases h.of_run_insert hrun with ⟨-, hw⟩ |
    ⟨c₁, e₁, params, hw₁, hs₁, hparams, hnames, hsettle⟩
  · rw [hw]
    exact .nothing
  · have hcommand :
        InsertCommand.derive s.config.dialect m (if ignoring then .ignore else .insert) =
          ⟨(TableCommand.insert m ignoring params).sql s.config.dialect, m.insertColumns⟩ := by
      cases ignoring <;> rfl
    rw [hcommand] at hparams hnames hsettle
    have hhas₁ : (view c₁.world).tables.Has m.table := by
      rw [hw₁]
      exact h.present
    rw [← hw₁]
    rcases Act.run_command (c := c₁) hf (.insert m ignoring params)
      (fun n hn => Option.mem_some.1 hn ▸ hm) ⟨hhas₁, hnames⟩ with
      ⟨res, w, hr, ⟨hone, row, hrow, hw⟩ | ⟨-, hzero, hw⟩⟩ | ⟨e, w, hr, hw, -⟩
    · have hid := h.wellFormed.row_sync h.wellFormed.sync_mem_insertColumns hparams hrow
      have hchanges : (Mutation.insert e ignoring).Changes M m (s.guid c.guidsDrawn)
          ((view c₁.world).tables.rows m.table) ((view c₁.world).tables.rows m.table ++ [row]) :=
        ⟨row, hid, rfl⟩
      have k₂ := Leaves.withRows hs₁ hw
      have hne : res.rowsAffected ≠ 0 := by
        rw [hone]
        decide
      -- The row is there: whatever fails from now on leaves it.
      rcases settle_cases hM hf.ledger h.table_ne hr k₂.steady hne with
        ⟨_, _, _, hok, -⟩ | ⟨_, _, c₂, hfail, ⟨k, hlate⟩ | ⟨k, hno⟩⟩
      · cases hok.symm.trans hsettle
      · cases hfail.symm.trans hsettle
        rw [k.rows, k₂.rows]
        exact .change hchanges (hlate.imp .ledger id)
      · cases hfail.symm.trans hsettle
        rw [k.rows, k₂.rows, Function.update_of_ne h.table_ne.symm]
        refine .lostEntry hchanges (Mapping.identifies_of_stored (r := row) ?_ hid) hno
        exact List.mem_append_right _ (List.mem_append_right _ (List.mem_singleton_self _))
    · cases (settle_zero hr hzero).symm.trans hsettle
    · cases (settle_error hr).symm.trans hsettle
      rw [(Leaves.sameView hs₁ hw).rows]
      exact .nothing

/-- What is left of an update that has changed a row. -/
theorem leftover_identified (hM : M.Lawful [Ledger.mapping])
    (hf : s.Faithful view M R [Ledger.mapping, m]) {e e' : Entity} (h : Enrolled s view e.type m c)
    {i : Nat} {params : List Param} {k : Param} (hbinds : m.Binds e i params k) {r₀ : Record}
    (hr₀ : r₀ ∈ (view c.world).tables.rows m.table) (hfound : M.holds m.table (.keyed k) r₀ = true)
    {w : σ} (hw : view w = (view c.world).withRows m.table (((view c.world).tables.rows m.table).map
      (Record.assignIf (M.holds m.table (.keyed k)) params)))
    {n : Nat}
    (hrun : (do
        match ← Act.attempt (do
          let g ← Act.ensureSync m k
          return (g, ← Act.ofExcept (m.set e m.sync (.guid g)))) with
        | .error err => return (e, .error err)
        | .ok (g, e) =>
          return (e, ← Act.attempt (do Act.recordChange m (some g) .update; return n + 1)) :
        Act σ Act.Written).run s { c with world := w } = (.ok (e', .error err), c')) :
    Leftover R m ((Mutation.update e).Changes M m (s.guid c.guidsDrawn)
        ((view c.world).tables.rows m.table))
      (view c.world).tables.rows err (view c'.world).tables.rows := by
  have hm : m ∈ [Ledger.mapping, m] := List.mem_cons_of_mem _ List.mem_cons_self
  let c₂ : Connection σ := { c with world := w }
  have k₂ := Leaves.withRows h.steady hw
  have hrows₂ : (view c₂.world).tables.rows m.table = ((view c.world).tables.rows m.table).map
      (Record.assignIf (M.holds m.table (.keyed k)) params) := by
    rw [k₂.rows, Function.update_self]
  have h₂ : Enrolled s view e.type m c₂ := h.atWorld (by rw [hw]; rfl)
  -- The row is still found by the key, so an identifier that is drawn now lands on it.
  have hfound₂ := (hbinds.holds_assignIf h.wellFormed hM m.table r₀).trans hfound
  obtain ⟨r, c₃, rs, h₃, hs₃, hrs, hrows₃, hid, hlate⟩ :=
    h₂.run_ensureSync hf hm (hrows₂ ▸ List.mem_map_of_mem hr₀) hfound₂
  rw [k₂.rows, Function.update_idem] at hrows₃
  rw [hrows₂] at hrs
  have hchanges : (Mutation.update e).Changes M m (s.guid c.guidsDrawn)
      ((view c.world).tables.rows m.table) rs := ⟨i, params, k, hbinds, hrs⟩
  rw [Act.run_bind_ok _ (Act.run_identifyUpdated h₃)] at hrun
  -- From here on only the record and the ledger are written.
  cases r with
  | error err' =>
    cases hrun
    rw [hrows₃]
    exact .change hchanges (hlate _ rfl)
  | ok g =>
    cases hset : m.set e m.sync (.guid g) with
    | error err' =>
      simp only [Except.bind, hset, Except.map] at hrun
      cases hrun
      rw [hrows₃]
      exact .change hchanges (.inr (Mapping.reads_set _ _ _ _ _ hset))
    | ok e₂ =>
      simp only [Except.bind, hset, Except.map] at hrun
      rw [Act.run_bind, Act.run_attempt] at hrun
      rcases hrecord : (do Act.recordChange m (some g) .update; return n + 1 : Act σ Nat).run s c₃
        with ⟨err' | n', c₄⟩
      · rw [hrecord] at hrun
        cases hrun
        refine leftover_recordChange hM hf.ledger h.table_ne hs₃ hrows₃ hchanges (fun g' hg' => ?_)
          hrecord
        cases hg'
        exact (hid g rfl).subset (List.subset_append_right _ _)
      · rw [hrecord] at hrun
        cases hrun

/-- A row that was updated stays so, also where its identifier or its entry is refused. -/
theorem leftover_modify (hM : M.Lawful [Ledger.mapping])
    (hf : s.Faithful view M R [Ledger.mapping, m]) {e e' : Entity} (h : Enrolled s view e.type m c)
    (hrun : (Act.modify e).run s c = (.ok (e', .error err), c')) :
    Leftover R m ((Mutation.update e).Changes M m (s.guid c.guidsDrawn)
        ((view c.world).tables.rows m.table))
      (view c.world).tables.rows err (view c'.world).tables.rows := by
  have hm : m ∈ [Ledger.mapping, m] := List.mem_cons_of_mem _ List.mem_cons_self
  obtain ⟨c₁, h₁, hw₁, hg₁, hm₁⟩ := h.run_mapping
  rw [← hw₁, ← hg₁]
  rw [Act.modify, Act.run_bind_attempt _ h₁] at hrun
  dsimp only at hrun
  cases hi : m.key with
  | none =>
    rw [hi] at hrun
    cases hrun
    exact .nothing
  | some i =>
    rw [hi] at hrun
    dsimp only at hrun
    rw [Act.run_bind, Act.run_attempt] at hrun
    rcases Act.run_updateRow_cases hf hm h.wellFormed hm₁.present e hi with
      ⟨k, params, w, hbinds, h₂, hw⟩ | ⟨err', w, h₂, hw⟩
    · have k₂ := Leaves.withRows hm₁.steady hw
      rw [h₂] at hrun
      cases hcount : ((view c₁.world).tables.rows m.table).countP (M.holds m.table (.keyed k)) with
      | zero =>
        rw [hcount] at hrun
        cases hrun
      | succ n =>
        rw [hcount] at hrun
        dsimp only at hrun
        obtain ⟨r₀, hr₀, hfound⟩ := List.countP_pos_iff.1 (by rw [hcount]; exact Nat.succ_pos n)
        exact leftover_identified hM hf hm₁ hbinds hr₀ hfound hw hrun
    · rw [h₂] at hrun
      cases hrun
      rw [(Leaves.sameView hm₁.steady hw).rows]
      exact .nothing

end Enrolled

namespace Ledger

variable {σ : Type} {s : Setup σ} {view : σ → Contents} {M : Meaning} {R : Refusals}
  {m : Mapping} {c c' : Connection σ} {err : Error}

/-- A call that only counts fails as the call that also writes into the record. -/
theorem of_counted_error {x : Act σ Act.Written} (hx : x.Answers s)
    (hrun : (Call.counted x).run s c = (.error err, c')) :
    ∃ e, x.run s c = (.ok (e, .error err), c') := by
  obtain ⟨⟨e, r⟩, c₁, hx⟩ := hx c
  obtain ⟨rfl, rfl⟩ := of_counted hx hrun
  exact ⟨e, hx⟩

/-- A call that fails leaves nothing, or its change without the entry: that happens where the
database refuses a statement after the one that changes the table, or has something there that
cannot be read. -/
theorem leftover_of_error {call : Mutation} (hM : M.Lawful [mapping])
    (hf : s.Faithful view M R [mapping, m]) (h : Enrolled s view call.type m c)
    (hrun : call.act.run s c = (.error err, c')) :
    Leftover R m (call.Changes M m (s.guid c.guidsDrawn) ((view c.world).tables.rows m.table))
        (view c.world).tables.rows err (view c'.world).tables.rows ∧
      (¬R.Late m → ¬err.IsUnreadable →
        (view c'.world).tables.rows = (view c.world).tables.rows) := by
  have hleft : Leftover R m
      (call.Changes M m (s.guid c.guidsDrawn) ((view c.world).tables.rows m.table))
      (view c.world).tables.rows err (view c'.world).tables.rows := by
    cases call with
    | insert e ignoring =>
      obtain ⟨e', hrun⟩ := of_counted_error (Act.insert_answers e _) hrun
      exact h.leftover_insert hM hf ignoring hrun
    | update e =>
      obtain ⟨e', hrun⟩ := of_counted_error (Act.modify_answers e) hrun
      exact h.leftover_modify hM hf hrun
    | delete e =>
      obtain ⟨c₁, h₁, hw₁, -, hm₁⟩ := h.run_mapping
      have hrun := (Act.run_bind_ok _ h₁).symm.trans hrun
      rw [← hw₁]
      cases hv : m.keyValue? e with
      | none =>
        rw [hv] at hrun
        cases hrun
        exact .nothing
      | some v =>
        rw [hv] at hrun
        exact (hm₁.leftover_deleteByValue hM hf hrun).imp fun rs hrs => ⟨v, hv, hrs⟩
    | deleteByKey t v =>
      obtain ⟨c₁, h₁, hw₁, -, hm₁⟩ := h.run_mapping
      have hrun := (Act.run_bind_ok _ h₁).symm.trans hrun
      rw [← hw₁]
      exact hm₁.leftover_deleteByValue hM hf hrun
  exact ⟨hleft, hleft.eq_of_not_late⟩

end Ledger

/-! A setting whose update is not entered. -/

namespace Memory

/-- Refuses the statements that begin in some way. -/
@[irreducible] def refuse (ms : List Mapping) (front : List Char) (sql : String)
    (params : List Param) (w : Store ms) : Reply (Store ms) ExecResult :=
  if front.isPrefixOf sql.toList then (.error ⟨.full, "database or disk is full"⟩, w)
  else execute ms sql params w

def refusals (front : List Char) : Refusals where
  command c cmd :=
    Refusals.main.command c cmd ∨
      front.isPrefixOf (Dialect.sqlite.render (cmd.sql .sqlite)).toList = true
  question := Refusals.main.question

def refusing (ms : List Mapping) (front : List Char) (guid : Nat → Guid) : Setup (Store ms) :=
  (setup ms guid).executing (refuse ms front)

theorem refusing_faithful {ts : List Tracked}
    (hapart : (verbs (Tracked.mappings ts)).Pairwise Verb.Apart) (front : List Char)
    (guid : Nat → Guid) :
    (refusing (ts.map Tracked.mapping) front guid).Faithful Subtype.val meaning (refusals front)
      (Tracked.mappings ts) := by
  refine (faithful hapart guid).executing fun w cmd hcmd hfits => ?_
  have hcarried : Carried Subtype.val w
      (fun r : ExecResult => cmd.Effect meaning w.1 r.rowsAffected)
      ((refusals front).command w.1 cmd)
      (refuse (ts.map Tracked.mapping) front (Dialect.sqlite.render (cmd.sql .sqlite)) cmd.params
        w) := by
    rw [refuse]
    split
    · next hfront => exact .refused (.inr hfront) rfl
    · exact (execute_carried hapart cmd hcmd hfits).imp .inl
  exact hcarried

end Memory

def Samples.refusingSetup : Setup (Memory.Store [Samples.settings.mapping]) :=
  Memory.refusing [Samples.settings.mapping] (Memory.Verb.insert Ledger.mapping false).front
    Samples.settingSetup.guid

theorem Samples.refusingSetup_faithful :
    Samples.refusingSetup.Faithful Subtype.val Memory.meaning
      (Memory.refusals (Memory.Verb.insert Ledger.mapping false).front)
      [Ledger.mapping, Samples.settings.mapping] :=
  Memory.refusing_faithful Samples.settings_verbs _ _

/-- The update of a setting whose entry is refused. -/
def Samples.refusedUpdate :
    Except Error Nat × Connection (Memory.Store [Samples.settings.mapping]) :=
  (Ledger.Mutation.update (Samples.settingOf "theme" "light")).act.run Samples.refusingSetup
    { world := Samples.themeStore, guidsDrawn := 1 }

/-- The setting has its new value, and the entry of its insert is gone. -/
theorem Samples.refusedUpdate_leftover :
    ∃ err, Samples.refusedUpdate.1 = .error err ∧
      Ledger.Leftover (Memory.refusals (Memory.Verb.insert Ledger.mapping false).front)
        Samples.settings.mapping
        ((Ledger.Mutation.update (Samples.settingOf "theme" "light")).Changes Memory.meaning
          Samples.settings.mapping (Samples.refusingSetup.guid 1)
          (Samples.themeStore.1.tables.rows "Setting"))
        Samples.themeStore.1.tables.rows err Samples.refusedUpdate.2.world.1.tables.rows ∧
      (Samples.refusedUpdate.2.world.1.tables.rows "Setting").map (· "Value") = [.text "light"] ∧
      (Samples.themeStore.1.tables.rows Ledger.tableName).length = 1 ∧
      (Samples.refusedUpdate.2.world.1.tables.rows Ledger.tableName).length = 0 := by
  have ⟨hfails, hvalue, hlost⟩ :
      Samples.refusedUpdate.1 = .error (.storage ⟨.full, "database or disk is full"⟩) ∧
      (Samples.refusedUpdate.2.world.1.tables.rows "Setting").map (· "Value") = [.text "light"] ∧
      (Samples.refusedUpdate.2.world.1.tables.rows Ledger.tableName).length = 0 := by
    decide +kernel
  have hrun : Samples.refusedUpdate =
      (.error (.storage ⟨.full, "database or disk is full"⟩), Samples.refusedUpdate.2) :=
    Prod.fst_eq_iff.1 hfails
  have hleft := (Ledger.leftover_of_error (Memory.lawful _) Samples.refusingSetup_faithful
    (Samples.themeStore_enrolled _ 1) hrun).1
  exact ⟨_, hfails, hleft, hvalue, rfl, hlost⟩

end RowLedger
