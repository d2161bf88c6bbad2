import RowLedger.Connection.Mutation
import RowLedger.Proofs.Connection.Run
import RowLedger.Proofs.Outcome

/-!
Properties of a connection that its actions keep, whatever they answer. What the statements of a
connection keep is kept by the actions that are made of them; only a change that counts is told to
the subscribers, and that is the last that is done for it.
-/

namespace RowLedger

/-- A condition that a predicate compiles to. -/
def Condition.Compiled (d : Dialect) (c : Condition) : Prop := ∃ e t, compile e t d = .ok c

/-- The statements that write rows. -/
inductive RowStatement (d : Dialect) : Sql → Prop
  | insert (m : Mapping) (mode : InsertMode) : RowStatement d (InsertCommand.derive d m mode).sql
  | update (m : Mapping) (positions : List Nat) (key : String) :
      RowStatement d (Act.updateStatement m positions key)
  | empty (table : String) : RowStatement d [.word "delete from ", .name table]
  | deleteKeyed (table column : String) :
      RowStatement d [.word "delete from ", .name table, .word " where ", .name column,
        .word " = ", .hole column]
  | deleteWhere (table : String) {c : Condition} (h : c.Compiled d) :
      RowStatement d (.word "delete from " :: .name table :: .word " where " :: c.sql)

/-- The statements that read rows, and the listing of the columns of a table. -/
inductive Reading (d : Dialect) : Sql → Prop
  | columns (table : String) : Reading d (d.tableInfo table)
  | identifier (m : Mapping) (key : String) :
      Reading d [.word "select ", .name m.syncColumn.name, .word " from ", .name m.table,
        .word " where ", .name key, .word " = ", .hole key]
  | identifiers (m : Mapping) {c : Option Condition} (h : ∀ k ∈ c, k.Compiled d) :
      Reading d ([.word "select ", .name m.syncColumn.name, .word " from ", .name m.table] ++
        TableQuery.whereClause c)
  | select {q : TableQuery} {c : Condition} (h : q.select d = .ok c) : Reading d c.sql
  | count {q : TableQuery} {c : Condition} (h : q.selection d "count(*)" = .ok c) : Reading d c.sql
  | byKey {m : Mapping} {key : Value} {c : Condition} (h : Act.byKey d m key = .ok c) :
      Reading d c.sql

/-- The statements that make a table or migrate it. -/
inductive TableStatement (d : Dialect) : Sql → Prop
  | create (m : Mapping) : TableStatement d (d.createTable m)
  | addColumn (table : String) (c : Column) : TableStatement d (d.addColumn table c)
  | createIndex (i : Index) : TableStatement d (d.createIndex i)

/-- The mapping that a connection has for a record type, or will make. -/
def Connection.mapping? {σ : Type} (c : Connection σ) (t : RecordType) : Option Mapping :=
  (c.registry.mapping t).toOption.map fun p => p.1.mapping

/-- The change that a call makes of a table, if it counts. -/
def Change.due? (m : Option Mapping) (action : Action) : Except Error Nat → Option Change
  | .ok (_ + 1) => (m.filter fun m => !Act.isLedger m).map fun m => ⟨m, action⟩
  | _ => none

theorem TableQuery.compiled_of_ok {q : TableQuery} {d : Dialect} {c : Condition}
    (h : q.compiled d = .ok (some c)) : c.Compiled d := by
  unfold TableQuery.compiled at h
  split at h
  · cases h
  next e _ =>
  obtain ⟨k, hk, hc⟩ := except_map_ok.1 h
  cases hc
  exact ⟨e, q.mapping, hk⟩

theorem Change.due?_ledger {m : Mapping} (action : Action) (r : Except Error Nat)
    (hm : Act.isLedger m = true) : Change.due? (some m) action r = none := by
  rcases r with e | _ | n
  · rfl
  · rfl
  · rw [Change.due?, Option.filter_some, hm]
    rfl

namespace Act

variable {σ α β : Type} {s : Setup σ} {I : Connection σ → Prop} {c c' : Connection σ}

/-- Whatever an action answers, it keeps a property of the connection. -/
def Keeps (s : Setup σ) (I : Connection σ → Prop) (x : Act σ α) : Prop :=
  ∀ c, I c → I (x.run s c).2

namespace Keeps

theorem pure (a : α) : Keeps s I (pure a : Act σ α) := fun _ h => h

theorem ofExcept (r : Except Error α) : Keeps s I (ofExcept r : Act σ α) := fun _ h => h

theorem fail (e : Error) : Keeps s I (fail e : Act σ α) := fun _ h => h

theorem attempt {x : Act σ α} (h : Keeps s I x) : Keeps s I (attempt x) := h

theorem of_run {x : Act σ α} {r : Except Error α} (h : Keeps s I x) (hc : I c)
    (hrun : x.run s c = (r, c')) : I c' := by
  have hx := h c hc
  rwa [hrun] at hx

/-- The second action is only asked about what the first one may answer. -/
theorem bind_of {x : Act σ α} {f : α → Act σ β} (h : Keeps s I x)
    (hf : ∀ c a c', I c → x.run s c = (.ok a, c') → Keeps s I (f a)) : Keeps s I (x >>= f) := by
  intro c hc
  have hx := h c hc
  rcases hr : x.run s c with ⟨e | a, c'⟩
  · rw [hr] at hx
    rwa [run_bind_error f hr]
  · rw [hr] at hx
    rw [run_bind_ok f hr]
    exact hf c a c' hc hr c' hx

theorem bind {x : Act σ α} {f : α → Act σ β} (h : Keeps s I x) (hf : ∀ a, Keeps s I (f a)) :
    Keeps s I (x >>= f) := h.bind_of fun _ a _ _ _ => hf a

theorem quietly {x : Act σ α} (h : Keeps s I x) : Keeps s I (quietly x) :=
  h.attempt.bind fun _ => .pure _

theorem state_bind {f : Connection σ → Act σ β} (hf : ∀ c, Keeps s I (f c)) :
    Keeps s I (state >>= f) := bind (fun _ h => h) hf

theorem dialect_bind {f : Dialect → Act σ β} (hf : Keeps s I (f s.config.dialect)) :
    Keeps s I (dialect >>= f) := hf

theorem ofExcept_bind {r : Except Error α} {f : α → Act σ β}
    (hf : ∀ a, r = .ok a → Keeps s I (f a)) : Keeps s I (Act.ofExcept r >>= f) := by
  refine (ofExcept r).bind_of fun _ a _ _ hr => hf a ?_
  exact (Prod.mk.inj hr).1

theorem ite {p : Prop} [Decidable p] {x y : Act σ α} (hx : Keeps s I x) (hy : Keeps s I y) :
    Keeps s I (if p then x else y) := by
  split
  · exact hx
  · exact hy

theorem forM {f : α → Act σ PUnit} {as : List α} (hf : ∀ a ∈ as, Keeps s I (f a)) :
    Keeps s I (as.forM f) := by
  induction as with
  | nil => exact .pure _
  | cons a as ih =>
    exact (hf a List.mem_cons_self).bind fun _ => ih fun b hb => hf b (List.mem_cons_of_mem _ hb)

/-- A record is prepared by drawing identifiers. -/
theorem prepare (hdraw : Keeps s I drawGuid) (m : Mapping) (e : Entity) :
    Keeps s I (prepare m e) := by
  have identify : Keeps s I (identify m e) := by
    unfold Act.identify
    split
    · split
      · exact .pure _
      · exact hdraw.bind fun _ => .pure _
    · exact hdraw.bind fun _ => .ofExcept_bind fun _ _ => .pure _
  have fillKey (e : Entity) : Keeps s I (fillKey m e) := by
    unfold Act.fillKey
    split
    · exact .pure _
    · exact .ite (hdraw.bind fun _ => .ofExcept _) (.pure _)
  exact identify.bind fun _ => (fillKey _).bind fun _ => .pure _

/-! A table is made or migrated by its statements. -/

section

variable (hissues : ∀ sql, TableStatement s.config.dialect sql → Keeps s I (issue sql))
include hissues

theorem addColumn (m : Mapping) (c : Column) : Keeps s I (addColumn m c) :=
  .dialect_bind ((hissues _ (.addColumn m.table c)).bind fun _ =>
    .ite (hissues _ (.createIndex _)) (.pure _))

theorem createIndexes (m : Mapping) (outcome : TableOutcome) :
    Keeps s I (do
      (← Act.ofExcept m.indexes).forM fun i => issue (s.config.dialect.createIndex i)
      return outcome) :=
  .ofExcept_bind fun _ _ => (forM fun i _ => hissues _ (.createIndex i)).bind fun _ => .pure _

theorem createTable (hlists : ∀ table, Keeps s I (query (s.config.dialect.tableInfo table) []))
    (m : Mapping) : Keeps s I (createTable m) := by
  have hinfo : Keeps s I (tableInfo m.table) :=
    .dialect_bind ((hlists m.table).bind fun _ => .pure _)
  refine .dialect_bind (hinfo.bind fun existing => ?_)
  split
  · exact (hissues _ (.create m)).bind fun _ => createIndexes hissues m .created
  · exact (forM fun c _ => addColumn hissues m c).bind fun _ => createIndexes hissues m .migrated

end

end Keeps

theorem run_mapping_eq (t : RecordType) :
    (mapping t).run s c =
      match c.registry.mapping t with
      | .ok (sh, registry) => (.ok sh.mapping, { c with registry })
      | .error e => (.error e, c) := by
  rw [mapping, run_bind_ok _ run_state, run_bind, run_ofExcept]
  rcases c.registry.mapping t with e | ⟨sh, r⟩ <;> rfl

theorem run_mapping_ok {t : RecordType} {sh : Shared} {registry : Registry}
    (h : c.registry.mapping t = .ok (sh, registry)) :
    (mapping t).run s c = (.ok sh.mapping, { c with registry }) := by
  rw [run_mapping_eq, h]

theorem mapping?_of_run {t : RecordType} {m : Mapping} (h : (mapping t).run s c = (.ok m, c')) :
    c.mapping? t = some m := by
  rw [run_mapping_eq] at h
  rw [Connection.mapping?]
  rcases hr : c.registry.mapping t with e | ⟨sh, r⟩
  · rw [hr] at h
    cases h
  · rw [hr] at h
    cases h
    rfl

theorem registry_of_mapping? {t : RecordType} {m : Mapping} (h : c.mapping? t = some m) :
    ∃ sh registry, c.registry.mapping t = .ok (sh, registry) ∧ sh.mapping = m := by
  obtain ⟨⟨sh, registry⟩, hr, hm⟩ := Option.map_eq_some_iff.1 h
  cases hmapped : c.registry.mapping t with
  | error e =>
    rw [hmapped] at hr
    cases hr
  | ok p =>
    rw [hmapped] at hr
    cases hr
    exact ⟨sh, registry, rfl, hm⟩

theorem mapping?_of_error {t : RecordType} {e : Error}
    (h : (mapping t).run s c = (.error e, c')) : c.mapping? t = none := by
  rw [run_mapping_eq] at h
  rw [Connection.mapping?]
  rcases hr : c.registry.mapping t with e | ⟨sh, r⟩
  · rfl
  · rw [hr] at h
    cases h

/-- What the parts of the calls keep, but for telling the subscribers. -/
structure Upkeep (s : Setup σ) (known : RecordType → Prop) (I : Connection σ → Prop) : Prop where
  ledger : known Ledger.recordType
  mapping {t : RecordType} : known t → Keeps s I (mapping t)
  drawGuid : Keeps s I drawGuid
  store (m : Mapping) (e : Entity) (g : Guid) (mode : InsertMode) : Keeps s I (store m e g mode)
  writes {sql : Sql} (params : List Param) :
    RowStatement s.config.dialect sql → Keeps s I (exec sql params)
  queries {sql : Sql} (params : List Param) :
    Reading s.config.dialect sql → Keeps s I (query sql params)
  scalars {sql : Sql} (params : List Param) :
    Reading s.config.dialect sql → Keeps s I (scalar sql params)
  initLedger : Keeps s I initLedger

namespace Upkeep

variable {known : RecordType → Prop} (U : Upkeep s known I)
include U

theorem ensureLedger : Keeps s I ensureLedger :=
  .state_bind fun _ => .ite U.initLedger (.pure _)

theorem count {sql : Sql} (params : List Param) (h : RowStatement s.config.dialect sql) :
    Keeps s I (execCount sql params) := (U.writes params h).bind fun _ => .pure _

theorem prepare (m : Mapping) (e : Entity) : Keeps s I (prepare m e) := .prepare U.drawGuid m e

theorem insertRow (m : Mapping) (e : Entity) (mode : InsertMode) :
    Keeps s I (insertRow m e mode) := by
  refine (U.prepare m e).attempt.bind fun r => ?_
  split
  · exact .pure _
  · refine (U.store m _ _ mode).attempt.bind fun r => ?_
    split
    · exact .pure _
    · refine .ite (.pure _) ?_
      split <;> exact .pure _

theorem ledgerTable : Keeps s I ledgerTable := (U.mapping U.ledger).bind fun _ => .pure _

theorem deleteRows (m : Mapping) {c : Condition} (h : c.Compiled s.config.dialect) :
    Keeps s I (deleteRows m c) := U.count _ (.deleteWhere m.table h)

theorem removeEntries (e : Expr) : Keeps s I (removeEntries e) := by
  refine U.ledgerTable.bind fun q => .dialect_bind (.ofExcept_bind fun c hc => ?_)
  exact U.deleteRows _ ⟨e, q.mapping, hc⟩

theorem addEntry (table : String) (row : Guid) (action : Action) :
    Keeps s I (addEntry table row action) :=
  (U.mapping U.ledger).bind fun _ => (U.insertRow _ _ _).bind fun _ =>
    .ofExcept_bind fun _ _ => .pure _

theorem writeEntry (table : String) (row : Guid) (action : Action) :
    Keeps s I (writeEntry table row action) :=
  (U.removeEntries _).bind fun _ => U.addEntry table row action

theorem syncGuids (m : Mapping) {c : Option Condition}
    (h : ∀ k ∈ c, k.Compiled s.config.dialect) : Keeps s I (syncGuids m c) :=
  (U.queries _ (.identifiers m h)).bind fun _ => .ofExcept _

theorem recordDeleteAll (m : Mapping) : Keeps s I (recordDeleteAll m) :=
  U.ensureLedger.bind fun _ => (U.removeEntries _).bind fun _ =>
    (U.syncGuids m (by simp)).bind fun _ => .forM fun g _ => U.addEntry m.table g .delete

theorem readSync (m : Mapping) (key : Param) : Keeps s I (readSync m key) :=
  (U.scalars _ (.identifier m key.name)).bind fun _ => .ofExcept_bind fun _ _ => .pure _

theorem ensureSync (m : Mapping) (key : Param) : Keeps s I (ensureSync m key) := by
  refine (U.readSync m key).bind fun r => ?_
  split
  · exact .pure _
  · exact U.drawGuid.bind fun _ => .ofExcept_bind fun _ _ =>
      (U.writes _ (.update m _ key.name)).bind fun _ => .pure _

theorem updateRow (m : Mapping) (key : Nat) (e : Entity) : Keeps s I (updateRow m key e) :=
  .ofExcept_bind fun _ _ => .ofExcept_bind fun k _ =>
    (U.count _ (.update m _ k.name)).bind fun _ => .pure _

end Upkeep

/-! The calls that change one row or those of a condition. -/

/-- A property for each change that may have been told. The parts of the calls keep it, and telling
of a change leads from one to the other. -/
structure Announcing (s : Setup σ) (known : RecordType → Prop)
    (J : Option Change → Connection σ → Prop) : Prop extends Upkeep s known (J none) where
  notify {m : Mapping} (action : Action) : isLedger m = false → ∀ c, J none c →
    J (some ⟨m, action⟩) ((Act.notify m action).run s c).2

/-- A change is told of exactly if the count of the action says so, for the mapping that it goes
by. -/
def Tells (s : Setup σ) (J : Option Change → Connection σ → Prop)
    (m : Connection σ → Option Mapping) (action : Action) (count : α → Except Error Nat)
    (x : Act σ α) : Prop :=
  ∀ c, J none c → J (Change.due? (m c) action ((x.run s c).1 >>= count)) (x.run s c).2

section Tells

variable {J : Option Change → Connection σ → Prop} {m : Mapping} {action : Action}

namespace Tells

theorem idle {a : α} {m : Connection σ → Option Mapping} {count : α → Except Error Nat}
    (h : ∀ n, count a ≠ .ok (n + 1)) : Tells s J m action count (pure a : Act σ α) := by
  intro c hc
  change J (Change.due? (m c) action (count a)) c
  rcases hr : count a with e | _ | n
  · exact hc
  · exact hc
  · exact absurd hr (h n)

theorem fail {m : Connection σ → Option Mapping} {count : α → Except Error Nat} (e : Error) :
    Tells s J m action count (Act.fail e) := fun _ hc => hc

theorem after {x : Act σ α} {f : α → Act σ β} {count : β → Except Error Nat}
    {m : Option Mapping} (h : Keeps s (J none) x)
    (hf : ∀ a, Tells s J (fun _ => m) action count (f a)) :
    Tells s J (fun _ => m) action count (x >>= f) := by
  intro c hc
  have hx := h c hc
  rcases hr : x.run s c with ⟨e | a, c'⟩
  · rw [hr] at hx
    rw [run_bind_error f hr]
    exact hx
  · rw [hr] at hx
    rw [run_bind_ok f hr]
    exact hf a c' hx

theorem dialect_bind {f : Dialect → Act σ α} {count : α → Except Error Nat}
    {m : Connection σ → Option Mapping} (h : Tells s J m action count (f s.config.dialect)) :
    Tells s J m action count (dialect >>= f) := h

theorem ofExcept_bind {r : Except Error α} {f : α → Act σ β} {count : β → Except Error Nat}
    {m : Connection σ → Option Mapping}
    (hf : ∀ a, r = .ok a → Tells s J m action count (f a)) :
    Tells s J m action count (Act.ofExcept r >>= f) := by
  cases r with
  | error e => exact fun _ hc => hc
  | ok a => exact hf a rfl

/-- What ends alike, and with the same count, tells the same. -/
theorem of_same {x : Act σ α} {y : Act σ β} {count : α → Except Error Nat}
    {count' : β → Except Error Nat} {m : Connection σ → Option Mapping}
    (h : Tells s J m action count x)
    (hsame : ∀ c, ((y.run s c).1 >>= count') = ((x.run s c).1 >>= count) ∧
      (y.run s c).2 = (x.run s c).2) : Tells s J m action count' y := by
  intro c hc
  rw [(hsame c).1, (hsame c).2]
  exact h c hc

theorem returning {x : Act σ α} {g : α → β} {count : β → Except Error Nat}
    {m : Connection σ → Option Mapping}
    (h : Tells s J m action (fun a => count (g a)) x) :
    Tells s J m action count (do return g (← x)) := by
  refine h.of_same fun c => ?_
  rw [run_bind]
  rcases x.run s c with ⟨e | a, c'⟩ <;> exact ⟨rfl, rfl⟩

/-- What an attempt hands on counts as what was attempted. -/
theorem attempted {x : Act σ Nat} {m : Connection σ → Option Mapping} (e : Entity)
    (h : Tells s J m action .ok x) :
    Tells s J m action Prod.snd (do return (e, ← attempt x)) := by
  refine h.of_same fun c => ?_
  rw [run_bind, run_attempt]
  rcases x.run s c with ⟨err | n, c'⟩ <;> exact ⟨rfl, rfl⟩

/-- The count alone counts as it did beside a record. -/
theorem counted {x : Act σ Written} {m : Connection σ → Option Mapping}
    (h : Tells s J m action Prod.snd x) :
    Tells s J m action .ok (do Act.ofExcept (← x).2) := by
  refine h.of_same fun c => ?_
  rw [run_bind]
  rcases x.run s c with ⟨err | ⟨e, err | n⟩, c'⟩ <;> exact ⟨rfl, rfl⟩

theorem of_run {x : Act σ Nat} {m : Connection σ → Option Mapping} {r : Except Error Nat}
    (h : Tells s J m action .ok x) (hc : J none c) (hrun : x.run s c = (r, c')) :
    J (Change.due? (m c) action r) c' := by
  have hx := h c hc
  rw [hrun] at hx
  cases r <;> exact hx

end Tells

namespace Announcing

variable {known : RecordType → Prop} (A : Announcing s known J)
include A

theorem notified (action : Action) {count : Unit → Except Error Nat} {n : Nat}
    (hcount : count () = .ok (n + 1)) :
    Tells s J (fun _ => some m) action count (Act.notify m action) := by
  intro c hc
  by_cases hm : isLedger m = true
  · rw [Change.due?_ledger action _ hm, Act.notify, hm]
    exact hc
  · have hm : isLedger m = false := by simpa using hm
    have hrun : ((Act.notify m action).run s c).1 = .ok () := by
      rw [Act.notify, hm]
      rfl
    have hdue : Change.due? (some m) action (.ok () >>= count) = some ⟨m, action⟩ := by
      change Change.due? (some m) action (count ()) = _
      rw [hcount, Change.due?, Option.filter_some, hm]
      rfl
    rw [hrun, hdue]
    exact A.notify action hm c hc

/-- An entry is made before the subscribers are told. -/
theorem recordChange (row : Option Guid) (action : Action) (n : Nat) :
    Tells s J (fun _ => some m) action (fun _ => .ok (n + 1)) (recordChange m row action) := by
  unfold Act.recordChange
  by_cases hm : isLedger m = true
  · rw [hm]
    intro c hc
    rw [Change.due?_ledger action _ hm]
    exact hc
  · have hm : isLedger m = false := by simpa using hm
    rw [hm]
    cases row with
    | none => exact A.notified action rfl
    | some g =>
      exact .after A.ensureLedger fun _ =>
        .after (A.writeEntry m.table g action) fun _ => A.notified action rfl

theorem recordDeleted (rows : List Guid) (n : Nat) :
    Tells s J (fun _ => some m) .delete (fun _ => .ok (n + 1)) (recordDeleted m rows) := by
  unfold Act.recordDeleted
  by_cases hm : isLedger m = true
  · rw [hm]
    intro c hc
    rw [Change.due?_ledger .delete _ hm]
    exact hc
  · have hm : isLedger m = false := by simpa using hm
    rw [hm]
    exact .after A.ensureLedger fun _ =>
      .after (.forM fun g _ => A.writeEntry m.table g .delete) fun _ => A.notified .delete rfl

/-- A call begins by looking its mapping up. -/
theorem ofMapping {t : RecordType} {f : Mapping → Act σ α} {count : α → Except Error Nat}
    (ht : known t) (hf : ∀ m, Tells s J (fun _ => some m) action count (f m)) :
    Tells s J (fun c => c.mapping? t) action count (mapping t >>= f) := by
  intro c hc
  have hmapping := A.mapping ht c hc
  rcases hr : (Act.mapping t).run s c with ⟨e | m, c'⟩
  · rw [hr] at hmapping
    rw [run_bind_error f hr]
    exact hmapping
  · rw [hr] at hmapping
    rw [run_bind_ok f hr]
    dsimp only
    rw [mapping?_of_run hr]
    exact hf m c' hmapping

theorem ofAttempt {t : RecordType} {f : Except Error Mapping → Act σ α}
    {count : α → Except Error Nat} (ht : known t)
    (hf : ∀ m, Tells s J (fun _ => some m) action count (f (.ok m)))
    (herror : ∀ err, Tells s J (fun _ => none) action count (f (.error err))) :
    Tells s J (fun c => c.mapping? t) action count (attempt (mapping t) >>= f) := by
  intro c hc
  have hmapping := A.mapping ht c hc
  rcases hr : (Act.mapping t).run s c with ⟨err | m, c'⟩
  · rw [hr] at hmapping
    dsimp only
    rw [run_bind_attempt f hr, mapping?_of_error hr]
    exact herror err c' hmapping
  · rw [hr] at hmapping
    dsimp only
    rw [run_bind_attempt f hr, mapping?_of_run hr]
    exact hf m c' hmapping

theorem insert {e : Entity} (mode : InsertMode) (ht : known e.type) :
    Tells s J (fun c => c.mapping? e.type) .insert Prod.snd (insert e mode) := by
  refine A.ofAttempt ht (fun m => .after (A.insertRow m e mode) fun r => ?_) fun _ => .idle nofun
  match r with
  | (e, .error err) => exact .idle nofun
  | (e, .ok (_, 0)) => exact .idle nofun
  | (e, .ok (guid, n + 1)) => exact .attempted e (.returning (A.recordChange (some guid) .insert n))

/-- What is done after the row of a record was updated. -/
theorem updated (m : Mapping) (e : Entity) (r : Except Error (Nat × Param)) :
    Tells s J (fun _ => some m) .update Prod.snd
      (match r with
        | .error err => return (e, .error err)
        | .ok (0, _) => return (e, .ok 0)
        | .ok (n + 1, k) => do
          match ← attempt (do
            let g ← ensureSync m k
            return (g, ← ofExcept (m.set e m.sync (.guid g)))) with
          | .error err => return (e, .error err)
          | .ok (g, e) =>
            return (e, ← attempt (do Act.recordChange m (some g) .update; return n + 1))) := by
  match r with
  | .error err => exact .idle nofun
  | .ok (0, _) => exact .idle nofun
  | .ok (n + 1, k) =>
    have hsync : Keeps s (J none) (do
        let g ← ensureSync m k
        return (g, ← ofExcept (m.set e m.sync (.guid g)))) :=
      (A.ensureSync m k).bind fun _ => .ofExcept_bind fun _ _ => .pure _
    refine .after hsync.attempt fun r => ?_
    match r with
    | .error err => exact .idle nofun
    | .ok (g, e) => exact .attempted e (.returning (A.recordChange (some g) .update n))

theorem modify {e : Entity} (ht : known e.type) :
    Tells s J (fun c => c.mapping? e.type) .update Prod.snd (modify e) := by
  refine A.ofAttempt ht (fun m => ?_) fun _ => .idle nofun
  dsimp only
  split
  · exact .idle nofun
  next key _ => exact .after (A.updateRow m key e).attempt fun r => A.updated m e r

theorem deleteByValue (m : Mapping) (v : Value) :
    Tells s J (fun _ => some m) .delete .ok (deleteByValue m v) := by
  unfold Act.deleteByValue
  split
  · exact .fail _
  next c _ =>
  refine .after (.ofExcept _) fun x => .after (A.readSync m _) fun guid => ?_
  refine .after (A.count _ (.deleteKeyed m.table c.name)) fun n => ?_
  cases n with
  | zero => exact .idle nofun
  | succ n => exact .returning (A.recordChange guid .delete n)

theorem deleteByKey {t : RecordType} (v : Value) (ht : known t) :
    Tells s J (fun c => c.mapping? t) .delete .ok (deleteByKey t v) :=
  A.ofMapping ht fun m => A.deleteByValue m v

theorem delete {e : Entity} (ht : known e.type) :
    Tells s J (fun c => c.mapping? e.type) .delete .ok (delete e) := by
  refine A.ofMapping ht fun m => ?_
  split
  · exact .fail _
  · exact A.deleteByValue m _

theorem deleteMatching (m : Mapping) {k : Condition} (h : k.Compiled s.config.dialect) :
    Tells s J (fun _ => some m) .delete .ok (deleteMatching m k) := by
  have rest (guids : List Guid) : Tells s J (fun _ => some m) .delete .ok (do
      let count ← deleteRows m k
      if 0 < count then Act.recordDeleted m guids
      return count) := by
    refine .after (A.deleteRows m h) fun n => ?_
    cases n with
    | zero => exact .idle nofun
    | succ n => exact .returning (A.recordDeleted guids n)
  unfold Act.deleteMatching
  split
  · exact rest []
  · exact .after (A.syncGuids m fun _ hk => Option.some.inj hk ▸ h) rest

theorem deleteQuery (q : TableQuery) :
    Tells s J (fun _ => some q.mapping) .delete .ok (deleteQuery q) := by
  unfold Act.deleteQuery
  split
  · exact .fail _
  · refine .dialect_bind (.ofExcept_bind fun k hk => ?_)
    cases k with
    | none => exact .fail _
    | some k => exact A.deleteMatching q.mapping (TableQuery.compiled_of_ok hk)

end Announcing

end Tells

end Act

end RowLedger
