import RowLedger.Proofs.Ledger.Inserting

/-! Updates of tracked tables keep the ledger sound. -/

namespace RowLedger

variable {σ : Type} {s : Setup σ} {view : σ → Contents} {M : Meaning} {ts : List Tracked}

theorem filter_eq_of_countP_le_one {α : Type} {p : α → Bool} {xs : List α} (h : xs.countP p ≤ 1)
    {a : α} (ha : a ∈ xs) (hp : p a = true) : xs.filter p = [a] := by
  rw [List.countP_eq_length_filter] at h
  have hmem : a ∈ xs.filter p := List.mem_filter.2 ⟨ha, hp⟩
  obtain ⟨b, hb⟩ : ∃ b, xs.filter p = [b] := by
    refine List.length_eq_one_iff.1 ?_
    have := List.length_pos_of_mem hmem
    omega
  rw [hb, List.mem_singleton] at hmem
  rw [hb, hmem]

/-- A key parameter finds at most one row. -/
theorem Tracking.countP_le_one (T : Tracking s view M ts) (w : σ) {t : Tracked} (ht : t ∈ ts)
    {c : Column} (hc : t.mapping.keyColumn? = some c) {k : Param} (hk : k.name = c.name) :
    ((view w).tables.rows t.mapping.table).countP (M.holds t.mapping.table (.keyed k)) ≤ 1 := by
  have hkey : t.mapping.key ≠ none := by
    intro hnone
    rw [Mapping.keyColumn?, hnone] at hc
    cases hc
  have h := T.keys w t ht hkey fun _ => k.value
  have hsame : M.holds t.mapping.table (.keyed k) = fun r =>
      (t.mapping.columns.filter Column.primaryKey).all fun c =>
        M.same t.mapping.table c.name (r c.name) k.value := by
    funext r
    rw [T.lawful.keyed, hk, t.primaryKeys hc]
    simp
  rwa [hsame]

/-- The parameter that finds the row of a record. -/
def Mapping.keyParam? (m : Mapping) (e : Entity) : Option Param :=
  m.key.bind fun i => (m.param i (m.get e i)).toOption

/-- The identifiers of the rows that an update of a record changes. -/
def Tracked.touched (t : Tracked) (M : Meaning) (rows : String → List Record) (e : Entity) :
    List SqlValue :=
  match t.mapping.keyParam? e with
  | some k => ((rows t.mapping.table).filter (M.holds t.mapping.table (.keyed k))).map
      (· t.mapping.syncColumn.name)
  | none => []

/-- What an update of the row of a record binds. -/
structure Mapping.Binds (m : Mapping) (e : Entity) (i : Nat) (params : List Param) (k : Param) :
    Prop where
  key : m.key = some i
  params : (Act.assigned m i).mapM (fun j => m.param j (m.get e j)) = .ok params
  keyParam : m.param i (m.get e i) = .ok k

namespace Mapping.Binds

variable {m : Mapping} {e : Entity} {i : Nat} {params : List Param} {k : Param}

theorem keyParam? (h : m.Binds e i params k) : m.keyParam? e = some k := by
  rw [Mapping.keyParam?, h.key, Option.bind_some, h.keyParam]
  rfl

theorem column (h : m.Binds e i params k) (hm : m.WellFormed) :
    ∃ c, m.keyColumn? = some c ∧ m.column? i = some c ∧ k.name = c.name := by
  obtain ⟨c, hc⟩ := Option.isSome_iff_exists.1 (hm.key i h.key)
  refine ⟨c, ?_, hc, ?_⟩
  · rw [Mapping.keyColumn?, h.key]
    exact hc
  · obtain ⟨v, -, rfl⟩ := (Act.param_ok_iff hc).1 h.keyParam
    rfl

theorem names (h : m.Binds e i params k) (hm : m.WellFormed) :
    params.map Param.name = (m.columnsAt (Act.assigned m i)).map Column.name :=
  Act.names_of_mapM (fun _ hj => Act.isSome_of_mem_assigned (hm.key i h.key) hj) h.params

/-- Either the key alone is set to itself, or it is left alone with the identifier. -/
theorem params_eq_or (h : m.Binds e i params k) :
    params = [k] ∨ Act.assigned m i = m.updateColumns := by
  have hparams := h.params
  rw [Act.assigned] at hparams ⊢
  split
  · next hempty =>
    rw [if_pos hempty, List.mapM_cons, h.keyParam] at hparams
    cases hparams
    exact .inl rfl
  · exact .inr rfl

/-- An updated row is still found by its key. -/
theorem holds_assign {ms : List Mapping} {M : Meaning} (h : m.Binds e i params k)
    (hm : m.WellFormed) (hM : M.Lawful ms) {t : String} {r : Record}
    (hr : M.holds t (.keyed k) r = true) : M.holds t (.keyed k) (r.assign params) = true := by
  rw [hM.keyed] at hr ⊢
  obtain hone | hothers := h.params_eq_or
  · rw [hone, Record.assign_singleton]
    exact hM.itself hr
  · obtain ⟨c, -, hc, hname⟩ := h.column hm
    have hout : k.name ∉ params.map Param.name := by
      rw [h.names hm, hothers, hname]
      exact hm.name_not_mem hc (Mapping.not_mem_updateColumns (.inl h.key))
    rwa [Record.assign_of_not_mem r hout]

/-- An update leaves the key finding the rows that it found. -/
theorem holds_assignIf {ms : List Mapping} {M : Meaning} (h : m.Binds e i params k)
    (hm : m.WellFormed) (hM : M.Lawful ms) (t : String) (r : Record) :
    M.holds t (.keyed k) (Record.assignIf (M.holds t (.keyed k)) params r) =
      M.holds t (.keyed k) r := by
  rw [Record.assignIf]
  split
  · next hr => rw [h.holds_assign hm hM hr, hr]
  · rfl

end Mapping.Binds

/-- An updated row keeps its identifier, also where that is the key. -/
theorem Tracked.sync_assign {t : Tracked} (ht : t ∈ ts) (hM : M.Lawful (Tracked.mappings ts))
    {e : Entity} (he : e.type = t.type) (htyped : e.Typed) {i : Nat} {params : List Param}
    {k : Param} (h : t.mapping.Binds e i params k) {r : Record}
    (hid : ∃ g : Guid, r t.mapping.syncColumn.name = g.stored)
    (hr : M.holds t.mapping.table (.keyed k) r = true) :
    r.assign params t.mapping.syncColumn.name = r t.mapping.syncColumn.name := by
  have hm := t.wellFormed
  obtain ⟨c, -, hc, hname⟩ := h.column hm
  obtain hone | hothers := h.params_eq_or
  · by_cases hsync : i = t.mapping.sync
    · rw [hsync, hm.sync, Option.some.injEq] at hc
      rw [hM.keyed, hname, ← hc] at hr
      rw [hone, hc, ← hname, Record.assign_singleton]
      obtain ⟨g, hg⟩ := hid
      have hk := h.keyParam
      rw [hsync] at hk
      obtain ⟨v, hv, hk⟩ := except_bind_ok.1 hk
      cases hk
      have hmapped : Mapping.ofRecord e.type t.flags = .ok t.mapping := by
        rw [he]
        exact t.mapped
      rcases Mapping.get_sync hmapped htyped with hnull | ⟨g', hg'⟩
      · rw [hnull] at hv
        cases hv
        rw [hM.null] at hr
        cases hr
      · rw [hg'] at hv
        cases hv
        rw [hg] at hr
        have hsame := hM.identifier (h := g') (Tracked.mem_mappings (Tracked.mem_known ht)) hr
        rw [hname, ← hc, hg, hsame]
        rfl
    · refine Record.assign_of_not_mem r fun hmem => hsync ?_
      rw [hone, List.map_singleton, List.mem_singleton, hname] at hmem
      exact hm.eq_of_name hc hm.sync hmem.symm
  · refine Record.assign_of_not_mem r ?_
    rw [h.names hm, hothers]
    exact hm.name_not_mem hm.sync (Mapping.not_mem_updateColumns (.inr rfl))

section

variable {M : Meaning} {t : Tracked} {e : Entity} {i : Nat} {params : List Param} {k : Param}
  {rows : String → List Record}

/-- An update leaves every row its identifier. -/
theorem Tracked.sync_assignIf (ht : t ∈ ts) (hM : M.Lawful (Tracked.mappings ts))
    (he : e.type = t.type) (htyped : e.Typed) (h : t.mapping.Binds e i params k)
    (hids : Record.Identified t.mapping.syncColumn.name (rows t.mapping.table)) :
    ∀ r ∈ rows t.mapping.table,
      Record.assignIf (M.holds t.mapping.table (.keyed k)) params r t.mapping.syncColumn.name =
        r t.mapping.syncColumn.name := by
  intro r hr
  rw [Record.assignIf]
  split
  · next hf => exact t.sync_assign ht hM he htyped h (hids r hr) hf
  · rfl

theorem Tracked.touched_of_binds (h : t.mapping.Binds e i params k) :
    t.touched M rows e = ((rows t.mapping.table).filter (M.holds t.mapping.table (.keyed k))).map
      (· t.mapping.syncColumn.name) := by
  rw [Tracked.touched, h.keyParam?]

end

namespace Act

variable {c : Connection σ}

/-- An update of the row of a record changes the rows with its key, or nothing. -/
theorem run_updateRow_cases {R : Refusals} {known : List Mapping} (hf : s.Faithful view M R known)
    {m : Mapping} (hm : m ∈ known) (hwf : m.WellFormed)
    (hhas : (view c.world).tables.Has m.table) (e : Entity) {i : Nat} (hi : m.key = some i) :
    (∃ k params w, m.Binds e i params k ∧
      (updateRow m i e).run s c =
        (.ok (((view c.world).tables.rows m.table).countP (M.holds m.table (.keyed k)), k),
          { c with world := w }) ∧
      view w = (view c.world).withRows m.table (((view c.world).tables.rows m.table).map
        (Record.assignIf (M.holds m.table (.keyed k)) params))) ∨
    ∃ err w, (updateRow m i e).run s c = (.error err, { c with world := w }) ∧
      view w = view c.world := by
  rw [updateRow]
  cases hparams : (assigned m i).mapM (fun j => m.param j (m.get e j)) with
  | error err => exact .inr ⟨err, c.world, rfl, rfl⟩
  | ok params =>
    cases hk : m.param i (m.get e i) with
    | error err => exact .inr ⟨err, c.world, rfl, rfl⟩
    | ok k =>
      have hbinds : m.Binds e i params k := ⟨hi, hparams, hk⟩
      have hok {α β : Type} (a : α) (f : α → Act σ β) :
          (ofExcept (.ok a) >>= f).run s c = (f a).run s c := run_bind_ok f rfl
      rw [hok, hok]
      rcases run_command (c := c) hf (.update m (assigned m i) params k)
        (fun n hn => Option.mem_some.1 hn ▸ hm) ⟨hhas, hbinds.names hwf⟩ with
        ⟨res, w, hr, hn, hw⟩ | ⟨err, w, hr, hw, -⟩
      · refine .inl ⟨k, params, w, hbinds, ?_, hw⟩
        rw [← hn]
        exact run_bind_ok _ (run_execCount_ok hr)
      · exact .inr ⟨_, w, run_bind_error _ (run_execCount_error hr), hw⟩

/-- A row with an identifier is given no other one. -/
theorem run_ensureSync (T : Tracking s view M ts) (h : Steady s view ts c) {t : Tracked}
    (ht : t ∈ ts) (k : Param)
    (hids : Record.Identified t.mapping.syncColumn.name
      ((view c.world).tables.rows t.mapping.table))
    {r : Record} (hr : r ∈ (view c.world).tables.rows t.mapping.table)
    (hfound : M.holds t.mapping.table (.keyed k) r = true) :
    ∃ (g : Guid) (c' : Connection σ), (ensureSync t.mapping k).run s c = (.ok g, c') ∧
      Leaves s view ts c c' (view c.world).tables.rows ∧
      ∃ r ∈ (view c.world).tables.rows t.mapping.table,
        M.holds t.mapping.table (.keyed k) r = true ∧ r t.mapping.syncColumn.name = g.stored := by
  obtain ⟨g, c', h', k', hg⟩ := run_readSync T.faithful h ht k hids
  cases g with
  | none =>
    rw [hg r hr] at hfound
    cases hfound
  | some g => exact ⟨g, c', run_bind_ok _ h', k', hg⟩

/-- The identifier of an updated row is written into the record, or the record cannot hold it. -/
theorem run_identifyUpdated {m : Mapping} {k : Param} {e : Entity} {r : Except Error Guid}
    {c' : Connection σ} (h : (ensureSync m k).run s c = (r, c')) :
    (attempt (do
      let g ← ensureSync m k
      return (g, ← ofExcept (m.set e m.sync (.guid g))))).run s c =
        (.ok (r.bind fun g => (m.set e m.sync (.guid g)).map (g, ·)), c') := by
  rw [run_attempt, run_bind, h]
  cases r with
  | error err => rfl
  | ok g =>
    dsimp only
    rw [run_bind, run_ofExcept]
    cases hset : m.set e m.sync (.guid g) <;> simp [Except.bind, Except.map, hset]

/-- What an update does once it has changed a row. -/
theorem run_entered (T : Tracking s view M ts) {updated : List SqlValue} {c₁ c₂ : Connection σ}
    (h : Ledger.Upheld s view ts updated c₁) {t : Tracked} (ht : t ∈ ts) {e : Entity}
    (he : e.type = t.type) (htyped : e.Typed) {i : Nat} {params : List Param} {k : Param}
    (hbinds : t.mapping.Binds e i params k) {r₀ : Record}
    (hr₀ : r₀ ∈ (view c₁.world).tables.rows t.mapping.table)
    (hfound : M.holds t.mapping.table (.keyed k) r₀ = true)
    (k₂ : Leaves s view ts c₁ c₂
      (Function.update (view c₁.world).tables.rows t.mapping.table
        (((view c₁.world).tables.rows t.mapping.table).map
          (Record.assignIf (M.holds t.mapping.table (.keyed k)) params)))) :
    ∃ (g : Guid) (c₃ c₄ : Connection σ), (ensureSync t.mapping k).run s c₂ = (.ok g, c₃) ∧
      (recordChange t.mapping (some g) .update).run s c₃ = (.ok (), c₄) ∧
      Ledger.Upheld s view ts (t.touched M (view c₁.world).tables.rows e ++ updated) c₄ := by
  have hids := h.kept.sound.identified ht
  have hledger : (view c₂.world).tables.rows Ledger.tableName =
      (view c₁.world).tables.rows Ledger.tableName := by
    rw [k₂.rows, Function.update_of_ne t.table_ne.symm]
  have hrows : (view c₂.world).tables.rows t.mapping.table =
      ((view c₁.world).tables.rows t.mapping.table).map
        (Record.assignIf (M.holds t.mapping.table (.keyed k)) params) := by
    rw [k₂.rows, Function.update_self]
  have hsync := t.sync_assignIf ht T.lawful he htyped hbinds hids
  have hsame : (((view c₁.world).tables.rows t.mapping.table).map
      (Record.assignIf (M.holds t.mapping.table (.keyed k)) params)).map
        (· t.mapping.syncColumn.name) = t.ids (view c₁.world).tables.rows := by
    rw [List.map_map]
    exact List.map_congr_left hsync
  have hone : ((view c₁.world).tables.rows t.mapping.table).filter
      (M.holds t.mapping.table (.keyed k)) = [r₀] := by
    obtain ⟨col, hcol, -, hname⟩ := hbinds.column t.wellFormed
    exact filter_eq_of_countP_le_one (T.countP_le_one c₁.world ht hcol hname) hr₀ hfound
  have hids₂ : Record.Identified t.mapping.syncColumn.name
      ((view c₂.world).tables.rows t.mapping.table) := by
    rw [hrows]
    intro r hr
    obtain ⟨r', hr', rfl⟩ := List.mem_map.1 hr
    rw [hsync r' hr']
    exact hids r' hr'
  have hr₂ : Record.assignIf (M.holds t.mapping.table (.keyed k)) params r₀ ∈
      (view c₂.world).tables.rows t.mapping.table := by
    rw [hrows]
    exact List.mem_map_of_mem hr₀
  have hfinds := hbinds.holds_assignIf t.wellFormed T.lawful t.mapping.table
  obtain ⟨g, c₃, h₃, k₃, r, hr, hf, hg⟩ :=
    run_ensureSync T k₂.steady ht k hids₂ hr₂ ((hfinds r₀).trans hfound)
  -- The row that is found now is the one that was found before.
  rw [hrows] at hr
  obtain ⟨r', hr', rfl⟩ := List.mem_map.1 hr
  have hmem : r' ∈ [r₀] := by
    rw [← hone]
    exact List.mem_filter.2 ⟨hr', (hfinds r').symm.trans hf⟩
  rw [hsync r' hr', List.mem_singleton.1 hmem] at hg
  obtain ⟨entry, c₄, h₄, henters, k₄⟩ :=
    run_recordChange T.apart T.lawful T.faithful k₃.steady t g .update
  rw [k₃.rows, hledger, k₂.rows] at k₄
  have hlive : g.stored ∈ t.ids (view c₁.world).tables.rows := by
    rw [← hg]
    exact List.mem_map_of_mem hr₀
  have htouched : t.touched M (view c₁.world).tables.rows e = [g.stored] := by
    rw [Tracked.touched_of_binds hbinds, hone, List.map_singleton, hg]
  rw [htouched]
  exact ⟨g, c₃, c₄, h₃, h₄, h.leaves ((k₂.still k₃).trans k₄)
    (h.kept.changed T.apart ht hlive hsame henters)⟩

/-- An update is entered for the row that it changed. -/
theorem run_modify (T : Tracking s view M ts) {updated : List SqlValue}
    (h : Ledger.Upheld s view ts updated c) {t : Tracked} (ht : t ∈ ts) {e : Entity}
    (he : e.type = t.type) (htyped : e.Typed) :
    ∃ e' r c', (modify e).run s c = (.ok (e', r), c') ∧
      ((∃ n, r = .ok n) ∧
          Ledger.Upheld s view ts (t.touched M (view c.world).tables.rows e ++ updated) c' ∨
        ∃ err, r = .error err ∧ (Ledger.Upheld s view ts updated c' ∨ err.IsUnreadable)) := by
  obtain ⟨c₁, h₁, k₁⟩ := run_mapping T.apart h.steady (t := e.type) (by
    rw [he]
    exact Tracked.mem_known ht)
  have hu := h.still k₁
  rw [modify, run_bind_attempt _ h₁, ← k₁.rows]
  dsimp only
  cases hi : t.mapping.key with
  | none => exact ⟨e, _, c₁, rfl, .inr ⟨_, rfl, .inl hu⟩⟩
  | some i =>
    dsimp only
    rw [run_bind, run_attempt]
    rcases run_updateRow_cases T.faithful (Tracked.mem_mappings (Tracked.mem_known ht))
      t.wellFormed (k₁.steady.tables t ht) e hi with
      ⟨k, params, w, hbinds, h₂, hw⟩ | ⟨err, w, h₂, hw⟩
    · let c₂ : Connection σ := { c₁ with world := w }
      have k₂ := Leaves.withRows k₁.steady hw
      rw [h₂]
      cases hcount : ((view c₁.world).tables.rows t.mapping.table).countP
          (M.holds t.mapping.table (.keyed k)) with
      | zero =>
        have hnone := List.countP_eq_zero.1 hcount
        have hsame : ((view c₁.world).tables.rows t.mapping.table).map
            (Record.assignIf (M.holds t.mapping.table (.keyed k)) params) =
              (view c₁.world).tables.rows t.mapping.table :=
          (List.map_congr_left fun r hr => if_neg (hnone r hr)).trans (List.map_id _)
        rw [hsame, Function.update_eq_self] at k₂
        rw [Tracked.touched_of_binds hbinds, List.filter_eq_nil_iff.2 hnone]
        exact ⟨e, .ok 0, c₂, rfl, .inl ⟨⟨0, rfl⟩, hu.still k₂⟩⟩
      | succ n =>
        obtain ⟨r₀, hr₀, hfound⟩ := List.countP_pos_iff.1 (by rw [hcount]; exact Nat.succ_pos n)
        obtain ⟨g, c₃, c₄, h₃, h₄, hdone⟩ := run_entered T hu ht he htyped hbinds hr₀ hfound k₂
        have hentered : (attempt (do
            recordChange t.mapping (some g) .update
            return n + 1)).run s c₃ = (.ok (.ok (n + 1)), c₄) := by
          rw [run_attempt, run_bind_ok _ h₄]
          rfl
        dsimp only
        rw [run_bind_ok _ (run_identifyUpdated h₃), Except.bind]
        cases hset : t.mapping.set e t.mapping.sync (.guid g) with
        | error err =>
          exact ⟨e, .error err, c₃, rfl, .inr ⟨err, rfl, .inr (Mapping.reads_set _ _ _ _ _ hset)⟩⟩
        | ok e' =>
          dsimp only [Except.map]
          rw [run_bind_ok _ hentered]
          exact ⟨e', .ok (n + 1), c₄, rfl, .inl ⟨⟨_, rfl⟩, hdone⟩⟩
    · rw [h₂]
      refine ⟨e, .error err, { c₁ with world := w }, rfl, .inr ⟨err, rfl, .inl ?_⟩⟩
      exact hu.still (.sameView k₁.steady hw)

end Act

end RowLedger
