import RowLedger.Proofs.Ledger.Deleting
import RowLedger.Proofs.Ledger.Memory
import RowLedger.Samples

/-!
Runs of the calls that change tracked tables. After each of them the ledger has one entry for every
row, with the last thing done to it, and of rows that are gone only their deletion.
-/

namespace RowLedger.Ledger

variable {σ : Type} {s : Setup σ} {view : σ → Contents} {M : Meaning} {ts : List Tracked}

/-- A call that changes rows of a tracked table. -/
inductive Call
  | insert (t : Tracked) (e : Entity)
  | insertOrIgnore (t : Tracked) (e : Entity)
  | update (t : Tracked) (e : Entity)
  | delete (t : Tracked) (e : Entity)
  | deleteByKey (t : Tracked) (v : Value)
  | deleteWhere (t : Tracked) (q : TableQuery)
  | deleteAll (t : Tracked)

namespace Call

def tracked : Call → Tracked
  | insert t _ | insertOrIgnore t _ | update t _ | delete t _ | deleteByKey t _ | deleteWhere t _
  | deleteAll t => t

/-- The record or the query is one of the table. -/
def Suits : Call → Prop
  | insert t e | insertOrIgnore t e | update t e | delete t e => e.type = t.type ∧ e.Typed
  | deleteWhere t q => q.mapping = t.mapping
  | deleteByKey _ _ | deleteAll _ => True

/-- The number of rows, whatever was written into the record. -/
def counted (x : Act σ Act.Written) : Act σ Nat := do Act.ofExcept (← x).2

def act : Call → Act σ Nat
  | insert _ e => counted (Act.insert e .insert)
  | insertOrIgnore _ e => counted (Act.insert e .ignore)
  | update _ e => counted (Act.modify e)
  | delete _ e => Act.delete e
  | deleteByKey t v => Act.deleteByKey t.type v
  | deleteWhere _ q => Act.deleteQuery q
  | deleteAll t => Act.deleteAll t.type

/-- The identifiers of the rows that a call updates, if it succeeds. -/
def updates (M : Meaning) (rows : String → List Record) (r : Except Error Nat) :
    Call → List SqlValue
  | update t e => if r.toBool then t.touched M rows e else []
  | _ => []

end Call

/-- A call succeeds, or fails by what the database reports. -/
def Settles (r : Except Error Nat) : Prop := ∀ err, r = .error err → ∃ e, err = .storage e

theorem settles_ok (n : Nat) : Settles (.ok n) := by rintro err ⟨⟩

theorem settles_storage (e : StorageError) : Settles (.error (.storage e)) := by
  rintro err ⟨⟩
  exact ⟨e, rfl⟩

theorem Settles.not_unreadable {r : Except Error Nat} (h : Settles r) {err : Error}
    (hr : r = .error err) : ¬err.IsUnreadable := by
  rintro ⟨name, fault, rfl⟩
  obtain ⟨e, he⟩ := h _ hr
  cases he

section

variable {updated : List SqlValue} {c c' : Connection σ} {r : Except Error Nat} {t : Tracked}

theorem of_counted {x : Act σ Act.Written} {e : Entity} {r' : Except Error Nat}
    {c'' : Connection σ} (hx : x.run s c = (.ok (e, r'), c''))
    (hrun : (Call.counted x).run s c = (r, c')) : r' = r ∧ c'' = c' := by
  have h := (Act.run_bind_ok (fun w : Act.Written => Act.ofExcept w.2) hx).symm.trans hrun
  cases h
  exact ⟨rfl, rfl⟩

theorem Upheld.insert (T : Tracking s view M ts) (h : Upheld s view ts updated c) (ht : t ∈ ts)
    {e : Entity} (he : e.type = t.type) (ignoring : Bool)
    (hrun : (Call.counted (Act.insert e (if ignoring then .ignore else .insert))).run s c = (r, c'))
    (hfresh : ∀ n, c.guidsDrawn ≤ n → n < c'.guidsDrawn → s.Fresh n) (hr : Settles r) :
    Upheld s view ts updated c' := by
  obtain ⟨e', r', c'', hx, hdrawn, hup⟩ := Act.run_insert T h ht he ignoring
  obtain ⟨rfl, rfl⟩ := of_counted hx hrun
  rcases hup (hfresh _ (Nat.le_refl _) hdrawn) with hup | ⟨err, herr, hunreadable⟩
  · exact hup
  · exact absurd hunreadable (hr.not_unreadable herr)

theorem Upheld.update (T : Tracking s view M ts) (h : Upheld s view ts updated c) (ht : t ∈ ts)
    {e : Entity} (he : e.type = t.type) (htyped : e.Typed)
    (hrun : (Call.counted (Act.modify e)).run s c = (r, c')) (hr : Settles r) :
    Upheld s view ts
      ((Call.update t e).updates M (view c.world).tables.rows r ++ updated) c' := by
  obtain ⟨e', r', c'', hx, hup⟩ := Act.run_modify T h ht he htyped
  obtain ⟨rfl, rfl⟩ := of_counted hx hrun
  rcases hup with ⟨⟨n, rfl⟩, hup⟩ | ⟨err, rfl, hup | hunreadable⟩
  · exact hup
  · exact hup
  · exact absurd hunreadable (hr.not_unreadable rfl)

/-- A deletion for a record or a key begins by looking the mapping up. -/
theorem Upheld.mapped (T : Tracking s view M ts) (h : Upheld s view ts updated c) (ht : t ∈ ts)
    {f : Mapping → Act σ Nat}
    (hf : ∀ c, Upheld s view ts updated c →
      ∃ r c', (f t.mapping).run s c = (r, c') ∧ Upheld s view ts updated c')
    (hrun : (Act.mapping t.type >>= f).run s c = (r, c')) : Upheld s view ts updated c' := by
  obtain ⟨c₁, h₁, k₁⟩ := Act.run_mapping T.apart h.steady (Tracked.mem_known ht)
  obtain ⟨r', c₂, h₂, hup⟩ := hf c₁ (h.still k₁)
  rw [Act.run_bind_ok _ h₁, h₂] at hrun
  cases hrun
  exact hup

theorem Upheld.delete (T : Tracking s view M ts) (h : Upheld s view ts updated c) (ht : t ∈ ts)
    {e : Entity} (he : e.type = t.type) (hrun : (Act.delete e).run s c = (r, c')) :
    Upheld s view ts updated c' := by
  rw [Act.delete, he] at hrun
  refine h.mapped T ht (fun c₁ hc₁ => ?_) hrun
  cases t.mapping.keyValue? e with
  | none => exact ⟨_, c₁, rfl, hc₁⟩
  | some v => exact Act.run_deleteByValue T hc₁ ht v

theorem Upheld.deleteWhere (T : Tracking s view M ts) (h : Upheld s view ts updated c)
    (ht : t ∈ ts) {q : TableQuery} (hq : q.mapping = t.mapping)
    (hrun : (Act.deleteQuery q).run s c = (r, c')) : Upheld s view ts updated c' := by
  rw [Act.deleteQuery, Act.run_ite] at hrun
  split at hrun
  · cases hrun
    exact h
  · rw [Act.run_bind_ok _ Act.run_dialect, Act.run_bind, Act.run_ofExcept] at hrun
    cases hq' : q.compiled s.config.dialect with
    | error err =>
      rw [hq'] at hrun
      cases hrun
      exact h
    | ok condition =>
      rw [hq'] at hrun
      cases condition with
      | none =>
        cases hrun
        exact h
      | some condition =>
        dsimp only at hrun
        obtain ⟨r', c'', h', hup⟩ := Act.run_deleteMatching T h ht condition
        rw [hq, h'] at hrun
        cases hrun
        exact hup

end

/-- One call keeps the ledger sound. -/
theorem Upheld.call (T : Tracking s view M ts) {updated : List SqlValue} {c c' : Connection σ}
    (h : Upheld s view ts updated c) {call : Call} (ht : call.tracked ∈ ts) (hsuits : call.Suits)
    {r : Except Error Nat} (hrun : call.act.run s c = (r, c'))
    (hfresh : ∀ n, c.guidsDrawn ≤ n → n < c'.guidsDrawn → s.Fresh n) (hr : Settles r) :
    Upheld s view ts (call.updates M (view c.world).tables.rows r ++ updated) c' := by
  cases call with
  | insert t e => exact h.insert T ht hsuits.1 false hrun hfresh hr
  | insertOrIgnore t e => exact h.insert T ht hsuits.1 true hrun hfresh hr
  | update t e => exact h.update T ht hsuits.1 hsuits.2 hrun hr
  | delete t e => exact h.delete T ht hsuits.1 hrun
  | deleteByKey t v => exact h.mapped T ht (fun c₁ hc₁ => Act.run_deleteByValue T hc₁ ht v) hrun
  | deleteWhere t q => exact h.deleteWhere T ht hsuits hrun
  | deleteAll t => exact h.mapped T ht (fun c₁ hc₁ => Act.run_deleteAllOf T hc₁ ht) hrun

/-- A connection outside of transactions that tracks empty tables, with nothing in the ledger. -/
structure Start (s : Setup σ) (view : σ → Contents) (ts : List Tracked) (c : Connection σ) :
    Prop where
  steady : Steady s view ts c
  rows : ∀ t ∈ ts, (view c.world).tables.rows t.mapping.table = []
  ledger : (view c.world).tables.rows tableName = []
  depth : c.depth = 0
  saved : (view c.world).saved = none

theorem Start.upheld {c : Connection σ} (h : Start s view ts c) : Upheld s view ts [] c := by
  have hids {t : Tracked} (ht : t ∈ ts) : t.ids (view c.world).tables.rows = [] := by
    rw [Tracked.ids, h.rows t ht, List.map_nil]
  have hsound : Sound ts (view c.world).tables.rows [] := by
    refine ⟨?_, fun t ht id hid => ?_, fun e he => ?_⟩
    · rw [h.ledger]
      exact List.nodup_nil
    · rw [hids ht] at hid
      cases hid
    · rw [h.ledger] at he
      cases he
  refine ⟨h.steady, ⟨hsound, fun t ht => ?_, fun t ht id hid => ?_, by simp⟩, h.depth, h.saved⟩
  · rw [hids ht]
    exact List.nodup_nil
  · rw [hids ht] at hid
    cases hid

/-- Calls one after the other, with the identifiers of the rows that they have updated. None draws
an identifier that was drawn before. -/
inductive Run (s : Setup σ) (view : σ → Contents) (M : Meaning) (ts : List Tracked) :
    Connection σ → List SqlValue → Prop
  | start {c : Connection σ} (h : Start s view ts c) : Run s view M ts c []
  | call {c c' : Connection σ} {updated : List SqlValue} {r : Except Error Nat}
      (h : Run s view M ts c updated) {call : Call} (ht : call.tracked ∈ ts) (hsuits : call.Suits)
      (hrun : call.act.run s c = (r, c'))
      (hfresh : ∀ n, c.guidsDrawn ≤ n → n < c'.guidsDrawn → s.Fresh n) (hr : Settles r) :
      Run s view M ts c' (call.updates M (view c.world).tables.rows r ++ updated)

/-- The connection after some calls. -/
def after (s : Setup σ) (calls : List Call) (c : Connection σ) : Connection σ :=
  calls.foldl (fun c call => (call.act.run s c).2) c

/-- What calls return one after the other, each with the number of identifiers drawn until then. -/
def outcomes (s : Setup σ) : List Call → Connection σ → List (Except Error Nat × Nat)
  | [], _ => []
  | call :: calls, c =>
    let (r, c') := call.act.run s c
    (r, c'.guidsDrawn) :: outcomes s calls c'

/-- A run goes on with calls that succeed or are refused, as long as the identifiers are fresh. -/
theorem Run.calls {c : Connection σ} {updated : List SqlValue} (h : Run s view M ts c updated)
    (calls : List Call) (hcalls : ∀ call ∈ calls, call.tracked ∈ ts ∧ call.Suits)
    (houtcomes : ∀ p ∈ outcomes s calls c, Settles p.1 ∧ ∀ n < p.2, s.Fresh n) :
    ∃ updated', Run s view M ts (after s calls c) updated' := by
  induction calls generalizing c updated with
  | nil => exact ⟨updated, h⟩
  | cons call calls ih =>
    obtain ⟨⟨ht, hsuits⟩, hcalls⟩ := List.forall_mem_cons.1 hcalls
    obtain ⟨⟨hr, hfresh⟩, houtcomes⟩ := List.forall_mem_cons.1 houtcomes
    exact ih (h.call ht hsuits rfl (fun n _ hn => hfresh n hn) hr) hcalls houtcomes

theorem Run.upheld (T : Tracking s view M ts) {c : Connection σ} {updated : List SqlValue}
    (h : Run s view M ts c updated) : Upheld s view ts updated c := by
  induction h with
  | start h => exact h.upheld
  | call _ ht hsuits hrun hfresh hr ih => exact ih.call T ht hsuits hrun hfresh hr

/-- After every run the ledger agrees with the tables. -/
theorem sound_of_run (T : Tracking s view M ts) {c : Connection σ} {updated : List SqlValue}
    (h : Run s view M ts c updated) : Sound ts (view c.world).tables.rows updated :=
  (h.upheld T).kept.sound

end RowLedger.Ledger

namespace RowLedger

/-! Settings in memory. -/

def Samples.settings : Tracked where
  type := Samples.setting
  flags := .none
  mapping :=
    { typeName := "Setting"
      table := "Setting"
      columns := (Samples.setting.fields.zipIdx.map fun f => Column.ofField f.1 f.2 .none) ++
        [Column.sync]
      flags := .none
      key := some 0
      autoKey := none
      sync := 2 }
  mapped := by decide +kernel
  single := by decide +kernel
  type_ne := by decide +kernel
  table_ne := by decide +kernel

def Samples.settingStore : Memory.Store [Samples.settings.mapping] :=
  ⟨⟨⟨fun t => if t = "Setting" then ["Name", "Value", "SyncGuid"] else [], fun _ => []⟩, none⟩,
    fun _ _ _ => .nil, fun d hd => by cases hd⟩

def Samples.settingSetup : Setup (Memory.Store [Samples.settings.mapping]) :=
  Memory.setup [Samples.settings.mapping] fun n => ⟨BitVec.ofNat 128 (n + 1)⟩

def Samples.settingOf (name value : String) : Entity := ⟨Samples.setting, [.text name, .text value]⟩

/-- One setting is made and changed. Another one is made, is not taken twice, and goes. -/
def Samples.settingCalls : List Ledger.Call :=
  [ .insert Samples.settings (Samples.settingOf "color" "red"),
    .update Samples.settings (Samples.settingOf "color" "blue"),
    .insert Samples.settings (Samples.settingOf "size" "10"),
    .insert Samples.settings (Samples.settingOf "size" "11"),
    .deleteByKey Samples.settings (.text "size") ]

theorem Samples.settings_apart : Tracked.Apart [Samples.settings] :=
  ⟨List.nodup_singleton _, List.nodup_singleton _⟩

theorem Samples.settings_verbs :
    (Memory.verbs (Tracked.mappings [Samples.settings])).Pairwise Memory.Verb.Apart := by
  decide +kernel

theorem Samples.settings_tracking :
    Tracking Samples.settingSetup Subtype.val Memory.meaning [Samples.settings] :=
  Memory.tracking Samples.settings_apart Samples.settings_verbs _

theorem Samples.settings_start :
    Ledger.Start Samples.settingSetup Subtype.val [Samples.settings]
      { world := Samples.settingStore } where
  steady := by
    refine .opened ?_ ?_ ?_
    · exact fun t ht => List.mem_singleton.1 ht ▸ Samples.settings.mapped
    · simp [Tables.Has, Samples.settingStore, Samples.settings]
    · intro h
      exact absurd rfl h
  rows _ _ := rfl
  ledger := rfl
  depth := rfl
  saved := rfl

/-- The first thousand identifiers are all different. -/
theorem Samples.settings_fresh {n : Nat} (hn : n < 1000) : Samples.settingSetup.Fresh n := by
  intro i hi heq
  have hbits := congrArg (fun g : Guid => g.bits.toNat) heq
  simp only [Samples.settingSetup, Memory.setup, BitVec.toNat_ofNat] at hbits
  omega

theorem Samples.settingOf_typed (name value : String) : (Samples.settingOf name value).Typed := by
  intro i f hf
  match i with
  | 0 | 1 =>
    cases hf
    rfl
  | i + 2 => cases hf

/-- The setting that is left has the entry of its update, the other one that of its deletion. -/
theorem settingCalls_sound :
    Ledger.outcomes Samples.settingSetup Samples.settingCalls { world := Samples.settingStore } =
      [(.ok 1, 1), (.ok 1, 1), (.ok 1, 2), (.error (.storage Memory.clash), 3), (.ok 1, 3)] ∧
    ((Ledger.after Samples.settingSetup Samples.settingCalls
      { world := Samples.settingStore }).world.1.tables.rows Ledger.tableName).map
        (fun e => (e "TableName", Except.ok (e "Action"))) =
      [(.text "Setting", Action.update.toValue.toSql),
        (.text "Setting", Action.delete.toValue.toSql)] ∧
    ∃ updated, Ledger.Run Samples.settingSetup Subtype.val Memory.meaning [Samples.settings]
        (Ledger.after Samples.settingSetup Samples.settingCalls { world := Samples.settingStore })
        updated ∧
      Ledger.Sound [Samples.settings]
        (Ledger.after Samples.settingSetup Samples.settingCalls
          { world := Samples.settingStore }).world.1.tables.rows updated := by
  have ⟨houtcomes, hentries⟩ : Ledger.outcomes Samples.settingSetup Samples.settingCalls
      { world := Samples.settingStore } =
        [(.ok 1, 1), (.ok 1, 1), (.ok 1, 2), (.error (.storage Memory.clash), 3), (.ok 1, 3)] ∧
    ((Ledger.after Samples.settingSetup Samples.settingCalls
      { world := Samples.settingStore }).world.1.tables.rows Ledger.tableName).map
        (fun e => (e "TableName", Except.ok (e "Action"))) =
      [(.text "Setting", Action.update.toValue.toSql),
        (.text "Setting", Action.delete.toValue.toSql)] := by
    decide +kernel
  have hcalls : ∀ call ∈ Samples.settingCalls, call.tracked ∈ [Samples.settings] ∧ call.Suits := by
    intro call hcall
    simp only [Samples.settingCalls, List.mem_cons, List.not_mem_nil, or_false] at hcall
    rcases hcall with rfl | rfl | rfl | rfl | rfl
    case inr.inr.inr.inr => exact ⟨List.mem_singleton_self _, trivial⟩
    all_goals exact ⟨List.mem_singleton_self _, rfl, Samples.settingOf_typed _ _⟩
  obtain ⟨updated, hrun⟩ := (Ledger.Run.start (M := Memory.meaning) Samples.settings_start).calls
    Samples.settingCalls hcalls (by
      rw [houtcomes]
      intro p hp
      refine ⟨?_, fun n hn => Samples.settings_fresh ?_⟩
      · simp only [List.mem_cons, List.not_mem_nil, or_false] at hp
        rcases hp with rfl | rfl | rfl | rfl | rfl
        · exact Ledger.settles_ok 1
        · exact Ledger.settles_ok 1
        · exact Ledger.settles_ok 1
        · exact Ledger.settles_storage _
        · exact Ledger.settles_ok 1
      · have hdrawn : p.2 ≤ 3 := by
          simp only [List.mem_cons, List.not_mem_nil, or_false] at hp
          rcases hp with rfl | rfl | rfl | rfl | rfl <;> decide
        omega)
  exact ⟨houtcomes, hentries, updated, hrun, Ledger.sound_of_run Samples.settings_tracking hrun⟩

end RowLedger
