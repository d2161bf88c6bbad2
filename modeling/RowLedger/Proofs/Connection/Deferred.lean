import RowLedger.Connection.Query
import RowLedger.Proofs.Connection.Rows
import RowLedger.Proofs.Connection.Run

/-!
Records that are read one at a time beside the list that is read at once. Where a driver loads the
whole result of a query as it opens it, both come to the same records, or to the same failure.
-/

namespace RowLedger

variable {σ : Type}

/-- A driver that loads the whole result of a query as it opens it, and hands the rows on. -/
structure Driver.Loads (d : Driver σ) : Prop where
  openCursor (sql : String) (params : List Param) (w : σ) :
    d.openCursor sql params w =
      ((d.query sql params w).1.map Cursor.ofResult, (d.query sql params w).2)
  nextRow (c : Cursor) (w : σ) : d.nextRow c w = (.ok c.pop, w)
  closeCursor (c : Cursor) (w : σ) : d.closeCursor c w = ({ c with loaded := [] }, w)

theorem Driver.loads_buffered (execute : String → List Param → σ → Reply σ ExecResult)
    (query : String → List Param → σ → Reply σ ResultSet) (isOpen : σ → Bool)
    (close : σ → Reply σ Unit) : (Driver.buffered execute query isOpen close).Loads :=
  ⟨fun _ _ _ => rfl, fun _ _ => rfl, fun _ _ => rfl⟩

namespace Act

/-- Collecting records into a list: they are read up to the end, or up to the first failure, which
is then the result. What is left is dropped. -/
inductive Collects (s : Setup σ) :
    Records → Connection σ → Except Error (List Entity) → Connection σ → Prop
  | done {rs rs' : Records} {c c₁ c' : Connection σ} :
    (nextOf rs).run s c = (.ok (none, rs'), c₁) →
      (dropRecords rs').run s c₁ = (.ok (), c') → Collects s rs c (.ok []) c'
  | failed {rs rs' : Records} {c c₁ c' : Connection σ} {e : Error} :
    (nextOf rs).run s c = (.ok (some (.error e), rs'), c₁) →
      (dropRecords rs').run s c₁ = (.ok (), c') → Collects s rs c (.error e) c'
  | more {rs rs' : Records} {c c₁ c' : Connection σ} {e : Entity}
    {r : Except Error (List Entity)} :
    (nextOf rs).run s c = (.ok (some (.ok e), rs'), c₁) → Collects s rs' c₁ r c' →
      Collects s rs c (r.map (e :: ·)) c'

/-- Opening a query and collecting its records. -/
def Collected (s : Setup σ) (x : Act σ Records) (c : Connection σ)
    (r : Except Error (List Entity)) (c' : Connection σ) : Prop :=
  match x.run s c with
  | (.ok rs, c₁) => Collects s rs c₁ r c'
  | (.error e, c₁) => r = .error e ∧ c' = c₁

variable {s : Setup σ} {c c₁ c₂ c' : Connection σ} {r r₁ r₂ : Except Error (List Entity)}
  {rs : Records}

/-- Collecting comes to one result. -/
theorem Collects.unique (h₁ : Collects s rs c r₁ c₁) (h₂ : Collects s rs c r₂ c₂) :
    r₁ = r₂ ∧ c₁ = c₂ := by
  induction h₁ generalizing r₂ c₂ with
  | done hnext hdrop =>
    cases h₂ with
    | done hnext' hdrop' =>
      cases hnext.symm.trans hnext'
      cases hdrop.symm.trans hdrop'
      exact ⟨rfl, rfl⟩
    | failed hnext' => cases hnext.symm.trans hnext'
    | more hnext' => cases hnext.symm.trans hnext'
  | failed hnext hdrop =>
    cases h₂ with
    | done hnext' => cases hnext.symm.trans hnext'
    | failed hnext' hdrop' =>
      cases hnext.symm.trans hnext'
      cases hdrop.symm.trans hdrop'
      exact ⟨rfl, rfl⟩
    | more hnext' => cases hnext.symm.trans hnext'
  | more hnext hrest ih =>
    cases h₂ with
    | done hnext' => cases hnext.symm.trans hnext'
    | failed hnext' => cases hnext.symm.trans hnext'
    | more hnext' hrest' =>
      cases hnext.symm.trans hnext'
      obtain ⟨rfl, rfl⟩ := ih hrest'
      exact ⟨rfl, rfl⟩

/-- An action that opens records which collect to what another one answers. -/
def Streams (s : Setup σ) (x : Act σ Records) (y : Act σ (List Entity)) : Prop :=
  ∀ c, Collected s x c (y.run s c).1 (y.run s c).2

theorem Streams.collected_iff {x : Act σ Records} {y : Act σ (List Entity)} (h : Streams s x y) :
    Collected s x c r c' ↔ y.run s c = (r, c') := by
  have hown := h c
  constructor
  · intro hcollected
    unfold Collected at hown hcollected
    rcases hx : x.run s c with ⟨e | rs, c₁⟩
    · rw [hx] at hown hcollected
      exact Prod.ext (hown.1.trans hcollected.1.symm) (hown.2.trans hcollected.2.symm)
    · rw [hx] at hown hcollected
      obtain ⟨hr, hc⟩ := Collects.unique hown hcollected
      exact Prod.ext hr hc
  · intro hrun
    rw [hrun] at hown
    exact hown

/-- What comes before may fail alike. -/
theorem Streams.bind {α : Type} {z : Act σ α} {f : α → Act σ Records}
    {g : α → Act σ (List Entity)} (h : ∀ a, Streams s (f a) (g a)) :
    Streams s (z >>= f) (z >>= g) := by
  intro c
  rcases hz : z.run s c with ⟨e | a, c₁⟩
  · rw [run_bind_error g hz, Collected, run_bind_error f hz]
    exact ⟨rfl, rfl⟩
  · rw [run_bind_ok g hz, Collected, run_bind_ok f hz]
    exact h a c₁

/-! Records that are loaded already. -/

theorem collects_loaded (es : List Entity) (c : Connection σ) :
    Collects s (.loaded es) c (.ok es) c := by
  induction es with
  | nil => exact .done rfl rfl
  | cons e es ih => exact .more rfl ih

theorem streams_loaded (y : Act σ (List Entity)) :
    Streams s (do return .loaded (← y)) y := by
  intro c
  unfold Collected
  rcases hy : y.run s c with ⟨e | es, c₁⟩
  · rw [run_bind_error _ hy]
    exact ⟨rfl, rfl⟩
  · rw [run_bind_ok _ hy]
    exact collects_loaded es c₁

/-! Records that are still to be read. -/

section

variable (hl : s.driver.Loads)
include hl

theorem run_nextRow (k : Cursor) : (nextRow k : Act σ _).run s c = (.ok k.pop, c) := by
  change ((s.driver.nextRow k c.world).1.mapError Error.storage,
    { c with world := (s.driver.nextRow k c.world).2 }) = _
  rw [hl.nextRow]
  rfl

theorem run_dropRows (rows : DeferredRows) : (dropRows rows : Act σ _).run s c = (.ok (), c) := by
  unfold dropRows
  cases rows.done with
  | true => rfl
  | false =>
    change ((.ok () : Except Error Unit),
      { c with world := (s.driver.closeCursor rows.cursor c.world).2 }) = _
    rw [hl.closeCursor]

/-- An open query answers with its next row, decoded, and is done when there is none. -/
theorem run_nextOf (t : RecordType) (m : Mapping) (k : Cursor) :
    (nextOf (.deferred ⟨t, m, k, false⟩)).run s c =
      (.ok (match k.pop with
        | (some row, k) => (some (RowPlan.materialize t m (RowPlan.targets m k.columns) row),
            .deferred ⟨t, m, k, false⟩)
        | (none, k) => (none, .deferred ⟨t, m, k, true⟩)), c) := by
  have hnext : (nextRecord ⟨t, m, k, false⟩).run s c =
      (.ok (match k.pop with
        | (some row, k) => (some (RowPlan.materialize t m (RowPlan.targets m k.columns) row),
            ⟨t, m, k, false⟩)
        | (none, k) => (none, ⟨t, m, k, true⟩)), c) := by
    unfold nextRecord
    simp only [Bool.false_eq_true, if_false]
    rw [run_bind_attempt _ (run_nextRow hl k)]
    rcases k.pop with ⟨_ | row, k⟩ <;> rfl
  rw [nextOf, run_bind_ok _ hnext]
  rcases k.pop with ⟨_ | row, k⟩ <;> rfl

/-- Loaded rows come to the list of their records, or to the failure of the first one that cannot be
decoded. -/
theorem collects_rows (t : RecordType) (m : Mapping) (id : Nat) (columns : List ResultColumn)
    (rows : List Row) (c : Connection σ) :
    Collects s (.deferred ⟨t, m, ⟨id, columns, rows⟩, false⟩) c
      (rows.mapM (RowPlan.materialize t m (RowPlan.targets m columns))) c := by
  induction rows with
  | nil => exact .done (run_nextOf hl t m ⟨id, columns, []⟩) (run_dropRows hl _)
  | cons row rows ih =>
    have hnext : (nextOf (.deferred ⟨t, m, ⟨id, columns, row :: rows⟩, false⟩)).run s c =
        (.ok (some (RowPlan.materialize t m (RowPlan.targets m columns) row),
          .deferred ⟨t, m, ⟨id, columns, rows⟩, false⟩), c) := run_nextOf hl t m _
    rw [List.mapM_cons]
    cases hrow : RowPlan.materialize t m (RowPlan.targets m columns) row with
    | error e =>
      rw [hrow] at hnext
      exact .failed hnext (run_dropRows hl _)
    | ok e =>
      rw [hrow] at hnext
      have hmore := Collects.more hnext ih
      cases hrows : rows.mapM (RowPlan.materialize t m (RowPlan.targets m columns)) <;>
        rwa [hrows] at hmore

/-- Opening a query runs it, and fails where it does. -/
theorem run_openRows (t : RecordType) (m : Mapping) (sql : String) (params : List Param)
    (c : Connection σ) :
    (do return .deferred (← openRows t m sql params) : Act σ Records).run s c =
      (queryText sql params >>= fun set =>
        pure (.deferred ⟨t, m, .ofResult set, false⟩) : Act σ Records).run s c := by
  have hopen : (call fun d => d.openCursor sql params : Act σ Cursor).run s c =
      ((s.driver.openCursor sql params c.world).1.mapError Error.storage,
        { c with world := (s.driver.openCursor sql params c.world).2 }) := rfl
  have hquery : (queryText sql params : Act σ ResultSet).run s c =
      ((s.driver.query sql params c.world).1.mapError Error.storage,
        { c with world := (s.driver.query sql params c.world).2 }) := rfl
  rw [hl.openCursor] at hopen
  rw [openRows, run_bind, run_bind, hopen, run_bind, hquery]
  rcases s.driver.query sql params c.world with ⟨e | set, w⟩ <;> rfl

theorem streams_openRows (t : RecordType) (m : Mapping) (sql : String) (params : List Param) :
    Streams s (do return .deferred (← openRows t m sql params)) (queryRecords t m sql params) := by
  have hset (set : ResultSet) :
      Streams s (pure (.deferred ⟨t, m, .ofResult set, false⟩))
        (ofExcept (set.rows.mapM (RowPlan.materialize t m (RowPlan.targets m set.columns)))) :=
    fun c => collects_rows hl t m 0 set.columns set.rows c
  intro c
  rw [Collected, run_openRows hl]
  exact Streams.bind hset c

theorem streams_iterate (q : TableQuery) : Streams s (iterate q) (toList q) := by
  unfold iterate
  split
  · apply Streams.bind
    intro d
    apply Streams.bind
    intro sel
    exact streams_openRows hl q.type q.mapping (d.render sel.sql) sel.params
  · exact streams_loaded (toList q)

theorem streams_deferredQuery (t : RecordType) (sql : String) (params : List Param) :
    Streams s (deferredQuery t sql params) (queryAll t sql params) := by
  apply Streams.bind
  intro m
  exact streams_openRows hl t m sql params

end

/-! The end of the records. -/

theorem run_nextRecord_of_done {rows : DeferredRows} (h : rows.done = true) (c : Connection σ) :
    (nextRecord rows : Act σ _).run s c = (.ok (none, rows), c) := by
  unfold nextRecord
  rw [if_pos h]
  rfl

theorem done_of_run_nextRecord {rows rows' : DeferredRows}
    (h : (nextRecord rows).run s c = (.ok (none, rows'), c₁)) : rows'.done = true := by
  cases hdone : rows.done with
  | true =>
    rw [run_nextRecord_of_done hdone] at h
    cases h
    exact hdone
  | false =>
    unfold nextRecord at h
    rw [if_neg (by rw [hdone]; exact Bool.false_ne_true)] at h
    obtain ⟨read, c₂, -, h⟩ := of_run_bind_ok h
    -- a failed read is handed on as the next record, so that nothing was left to read
    rcases read with e | ⟨_ | row, cursor⟩
    · obtain ⟨cursor, c₃, -, h⟩ := of_run_bind_ok h
      cases h
    · cases h
      rfl
    · cases h

/-- Once there was no record there is none, however often one is asked for. -/
theorem run_nextOf_of_none {rs' : Records} (h : (nextOf rs).run s c = (.ok (none, rs'), c₁))
    (c : Connection σ) : (nextOf rs').run s c = (.ok (none, rs'), c) := by
  match rs with
  | .loaded [] =>
    cases h
    rfl
  | .loaded (e :: es) => cases h
  | .deferred rows =>
    obtain ⟨⟨next, rows'⟩, c₂, hnext, h⟩ := of_run_bind_ok h
    cases h
    have hdone := done_of_run_nextRecord hnext
    rw [nextOf, run_bind_ok _ (run_nextRecord_of_done hdone c)]
    rfl

/-- The records of a query collect to the list that is read at once, through any driver that loads
what it opens: there are the same records in the same order, or the same failure, be it of the
condition, the keys, the query or the first row that cannot be decoded, and the connection is left
alike. It is so for queries over a table and for those of the caller's. Once there was no record,
there is none any more, through any driver. -/
theorem collected_agrees (hl : s.driver.Loads) (c c' : Connection σ)
    (r : Except Error (List Entity)) :
    (∀ q : TableQuery, Collected s (iterate q) c r c' ↔ (toList q).run s c = (r, c')) ∧
    (∀ (t : RecordType) (sql : String) (params : List Param),
      Collected s (deferredQuery t sql params) c r c' ↔
        (queryAll t sql params).run s c = (r, c')) ∧
    ∀ (rs rs' : Records) (c₁ c₂ : Connection σ),
      (nextOf rs).run s c₁ = (.ok (none, rs'), c₂) →
        ∀ c₃, (nextOf rs').run s c₃ = (.ok (none, rs'), c₃) :=
  ⟨fun q => (streams_iterate hl q).collected_iff,
    fun t sql params => (streams_deferredQuery hl t sql params).collected_iff,
    fun _ _ _ _ hnone c₃ => run_nextOf_of_none hnone c₃⟩

end Act

/-! Shades of which the second one has a colour that is none. -/

def Samples.mauveSetup : Setup Unit where
  driver := .buffered (fun _ _ w => (.ok {}, w))
    (fun _ _ w => (.ok ⟨Samples.shadeColumns,
      [Samples.shadeRow, [.text "Mauve", .null, .null, .null], Samples.shadeRow]⟩, w))
    (fun _ => true) (fun w => (.ok (), w))
  config := .sqlite ":memory:"
  guid _ := .nil
  savepointNumber n := n

def Samples.deferredShades : TableQuery where
  type := Samples.shade
  mapping := Samples.shadeMapping
  deferred := true

/-- The failure of the second row stands for all. -/
theorem Samples.deferredShades_collected :
    Samples.mauveSetup.driver.Loads ∧
      ∃ c', Act.Collected Samples.mauveSetup (Act.iterate Samples.deferredShades) { world := () }
        (.error (.unreadable "Color" (.unknownLabel "Mauve"))) c' := by
  have hloads : Samples.mauveSetup.driver.Loads := Driver.loads_buffered _ _ _ _
  have hlist : ((Act.toList Samples.deferredShades).run Samples.mauveSetup { world := () }).1 =
      .error (.unreadable "Color" (.unknownLabel "Mauve")) := by
    decide +kernel
  rcases hrun : (Act.toList Samples.deferredShades).run Samples.mauveSetup { world := () } with
    ⟨r, c'⟩
  rw [hrun] at hlist
  subst hlist
  exact ⟨hloads, c', ((Act.collected_agrees hloads _ c' _).1 Samples.deferredShades).2 hrun⟩

end RowLedger
