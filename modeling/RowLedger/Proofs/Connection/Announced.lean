import RowLedger.Proofs.Connection.KeepingLevels
import RowLedger.Proofs.Connection.Watched
import RowLedger.Proofs.Ledger.Runs

/-!
What subscribers are told of a call that changes many rows in a transaction. They are told while the
transaction is open, so that a failure that undoes the work comes too late for what was told.
-/

namespace RowLedger

namespace Act

variable {σ : Type}

/-- What is done in the transaction that empties a table. -/
def emptyTable (m : Mapping) : Act σ Nat := do
  if !isLedger m then recordDeleteAll m
  let count ← execCount [.word "delete from ", .name m.table] []
  if 0 < count then notify m .delete
  return count

theorem deleteAllOf_eq_emptyTable (m : Mapping) :
    (deleteAllOf m : Act σ Nat) = runInTransaction (emptyTable m) := rfl

end Act

/-- A call that changes many rows in a transaction. -/
inductive BulkCall
  | insertAll (es : List Entity) (mode : InsertMode)
  | updateAll (es : List Entity)
  | deleteAll (t : RecordType)

namespace BulkCall

variable {σ : Type}

def act : BulkCall → Act σ Nat
  | insertAll es mode => do Act.ofExcept (← Act.insertAll es mode true).2
  | updateAll es => do Act.ofExcept (← Act.modifyAll es true).2
  | deleteAll t => Act.deleteAll t

/-- The changes of an action on records one after the other, up to the first that fails. -/
def changesOf (s : Setup σ) (f : Entity → Act σ Act.Written) (action : Action) :
    List Entity → Connection σ → List Change
  | [], _ => []
  | e :: es, c =>
    match (f e).run s c with
    | (.ok (_, .ok n), c') =>
      (Change.due? (c.mapping? e.type) action (.ok n)).toList ++ changesOf s f action es c'
    | _ => []

/-- What a call does once its savepoint is open. -/
def inSavepoint (s : Setup σ) (c : Connection σ) (f : Connection σ → List Change) : List Change :=
  match Act.save.run s c with
  | (.ok _, c') => f c'
  | (.error _, _) => []

/-- The changes that a call makes before anything can undo them: those of the records up to the
first that fails, or the deletion of all rows. -/
def announced (s : Setup σ) (c : Connection σ) : BulkCall → List Change
  | insertAll es mode => inSavepoint s c (changesOf s (Act.insert · mode) .insert es)
  | updateAll es => inSavepoint s c (changesOf s Act.modify .update es)
  | deleteAll t =>
    match (Act.mapping t).run s c with
    | (.ok m, c') =>
      inSavepoint s c' fun c' =>
        (Change.due? (some m) .delete ((Act.emptyTable m).run s c').1).toList
    | (.error _, _) => []

end BulkCall

namespace Act

theorem tells_emptyTable {σ : Type} {s : Setup σ} {known : RecordType → Prop}
    {J : Option Change → Connection σ → Prop} (A : Announcing s known J) (m : Mapping) :
    Tells s J (fun _ => some m) .delete .ok (emptyTable m) := by
  have rest : Tells s J (fun _ => some m) .delete .ok (do
      let count ← execCount [.word "delete from ", .name m.table] []
      if 0 < count then notify m .delete
      return count) := by
    refine .after (A.count _ (.empty m.table)) fun n => ?_
    cases n with
    | zero => exact .idle nofun
    | succ n => exact .returning (A.notified .delete rfl)
  unfold emptyTable
  split
  · exact .after (A.recordDeleteAll m) fun _ => rest
  · exact rest

open Connection (Heard)

variable {σ : Type} {s : Setup σ} {c c₀ : Connection (Watched σ)} {changes : List Change}

/-- Nothing that opens or closes a level tells anybody. -/
theorem transacting : Transacting s.watched (Heard changes c₀) where
  levels _ := .of_silent fun _ => .silent rfl rfl rfl
  drawSavepointNumber := .of_silent fun _ => .silent rfl rfl rfl
  begins := exec_silent _ _
  saves _ _ := exec_silent _ _
  releases _ := exec_silent _ _
  commits := exec_silent _ _
  quietRollback := .of_silent fun _ => .silent rfl rfl rfl

/-- By induction on the records: each that succeeds is told before the next one is tried. -/
theorem heard_eachOf {f : Entity → Act (Watched σ) Written} {action : Action}
    (hf : ∀ (c : Connection (Watched σ)) e, c.Noting →
      Heard (Change.due? (c.mapping? e.type) action (((f e).run s.watched c).1 >>= Prod.snd)).toList
        c ((f e).run s.watched c).2)
    (es : List Entity) (hc : c.Noting) :
    Heard (BulkCall.changesOf s.watched f action es c) c ((eachOf f es).run s.watched c).2 := by
  induction es generalizing c with
  | nil => exact .refl c
  | cons e es ih =>
    have he := hf c e hc
    rw [eachOf, BulkCall.changesOf, run_bind]
    rcases hr : (f e).run s.watched c with ⟨err | ⟨e', err | n⟩, c₁⟩
    · rw [hr] at he
      exact he
    · rw [hr] at he
      exact he
    · rw [hr] at he
      have hrest := he.trans (ih (he.noting hc))
      dsimp only
      rw [run_bind]
      rcases hes : (eachOf f es).run s.watched c₁ with ⟨err | ⟨es', r⟩, c₂⟩
      · rwa [hes] at hrest
      · rwa [hes] at hrest

/-- The subscribers are told before the savepoint is released. -/
theorem heard_batch {f : Entity → Act (Watched σ) Written} {action : Action}
    (hf : ∀ (c : Connection (Watched σ)) e, c.Noting →
      Heard (Change.due? (c.mapping? e.type) action (((f e).run s.watched c).1 >>= Prod.snd)).toList
        c ((f e).run s.watched c).2)
    (es : List Entity) (hc : c.Noting) :
    Heard (BulkCall.inSavepoint s.watched c (BulkCall.changesOf s.watched f action es)) c
      ((batch f es true).run s.watched c).2 := by
  have hsave : Heard [] c (save.run s.watched c).2 := transacting.save c (.refl c)
  change Heard _ c ((keepingInTransaction es (eachOf f es)).run s.watched c).2
  unfold BulkCall.inSavepoint
  rcases hr : save.run s.watched c with ⟨e | name, c₁⟩
  · rw [hr] at hsave
    rwa [run_keepingInTransaction_unopened _ hr]
  · rw [hr] at hsave
    exact transacting.keeping hr (hsave.trans (heard_eachOf hf es (hsave.noting hc)))

theorem heard_deleteAll (t : RecordType) (hc : c.Noting) :
    Heard ((BulkCall.deleteAll t).announced s.watched c) c ((deleteAll t).run s.watched c).2 := by
  have hmapping : Heard [] c ((mapping t).run s.watched c).2 := mapping_silent t c (.refl c)
  rw [deleteAll, run_bind, BulkCall.announced]
  rcases hr : (mapping t).run s.watched c with ⟨e | m, c₁⟩
  · rwa [hr] at hmapping
  rw [hr] at hmapping
  dsimp only
  have hsave : Heard [] c₁ (save.run s.watched c₁).2 := transacting.save c₁ (.refl c₁)
  unfold BulkCall.inSavepoint
  rw [deleteAllOf_eq_emptyTable]
  rcases hr : save.run s.watched c₁ with ⟨e | name, c₂⟩
  · rw [hr] at hsave
    rw [run_runInTransaction_unopened _ hr]
    exact hmapping.trans hsave
  · rw [hr] at hsave
    have hopened := hmapping.trans hsave
    have hbody : Heard
        (Change.due? (some m) .delete ((emptyTable m).run s.watched c₂).1).toList c₂
        ((emptyTable m).run s.watched c₂).2 :=
      (tells_emptyTable (announcing (hopened.noting hc)) m).of_run (.refl c₂) rfl
    exact transacting.running hr (hopened.trans hbody)

/-- The count that an action returns beside something else is taken without another step. -/
theorem run_counted_snd {β : Type} (x : Act σ (β × Except Error Nat)) (c : Connection σ)
    {s : Setup σ} : ((do ofExcept (← x).2 : Act σ Nat).run s c).2 = (x.run s c).2 := by
  rw [run_bind]
  rcases x.run s c with ⟨e | ⟨b, r⟩, c'⟩ <;> rfl

end Act

namespace BulkCall

open Connection (Heard)

variable {σ : Type} {s : Setup σ} {c c' : Connection (Watched σ)}

theorem heard (call : BulkCall) (hc : c.Noting) :
    Heard (call.announced s.watched c) c (call.act.run s.watched c).2 := by
  cases call with
  | insertAll es mode =>
    rw [act, Act.run_counted_snd]
    exact Act.heard_batch (fun c e hc => (Act.announcing hc).insert mode trivial c (.refl c)) es hc
  | updateAll es =>
    rw [act, Act.run_counted_snd]
    exact Act.heard_batch (fun c e hc => (Act.announcing hc).modify trivial c (.refl c)) es hc
  | deleteAll t => exact Act.heard_deleteAll t hc

/-- A call that fails has told its subscribers all the same of what it did before the failure: they
were told nothing exactly if there was nothing to tell. -/
theorem told_of_error (call : BulkCall) (hc : c.Noting) {err : Error}
    (h : call.act.run s.watched c = (.error err, c')) :
    c'.world.told = c.world.told ++
        (call.announced s.watched c).flatMap (fun change => c.subscribers.map fun b =>
          (b.id, change)) ∧
      (c'.world.told = c.world.told ↔ c.subscribers = [] ∨ call.announced s.watched c = []) := by
  have hheard := call.heard (s := s) hc
  rw [h] at hheard
  refine ⟨hheard.told, ?_⟩
  rw [hheard.told, List.append_right_eq_self, List.flatMap_eq_nil_iff]
  constructor
  · intro hnone
    cases hcall : call.announced s.watched c with
    | nil => exact .inr rfl
    | cons change changes =>
      exact .inl (List.map_eq_nil_iff.1 (hnone change (hcall ▸ List.mem_cons_self)))
  · rintro (hnone | hnone) change hchange
    · rw [hnone, List.map_nil]
    · rw [hnone] at hchange
      cases hchange

end BulkCall

namespace Samples

/-- Settings in memory with one subscriber, who does nothing. -/
def watchedSettings : Connection (Watched (Memory.Store [settings.mapping])) where
  world := ⟨settingStore, []⟩
  subscribers := [⟨0, Watched.noting 0 fun _ w => w⟩]
  nextSubscription := 1

/-- Two settings of one name. -/
def clashingBatch : BulkCall :=
  .insertAll [settingOf "theme" "dark", settingOf "theme" "light"] .insert

/-- The first setting was announced, although the second one undoes the batch. -/
theorem clashingBatch_told :
    ∃ c', clashingBatch.act.run settingSetup.watched watchedSettings =
        (.error (.storage Memory.clash), c') ∧
      c'.world.base.1.tables.rows "Setting" = [] ∧
      c'.world.told = [(0, ⟨settings.mapping, .insert⟩)] := by
  have hfailed : (clashingBatch.act.run settingSetup.watched watchedSettings).1 =
      .error (.storage Memory.clash) ∧
      ((clashingBatch.act.run settingSetup.watched watchedSettings).2.world.base.1.tables.rows
        "Setting").length = 0 ∧
      clashingBatch.announced settingSetup.watched watchedSettings =
        [⟨settings.mapping, .insert⟩] := by
    decide +kernel
  obtain ⟨hr, hrows, hannounced⟩ := hfailed
  have hnoting : watchedSettings.Noting := by
    intro b hb
    rw [List.mem_singleton.1 hb]
    exact ⟨fun _ w => w, rfl⟩
  rcases hrun : clashingBatch.act.run settingSetup.watched watchedSettings with ⟨r, c'⟩
  rw [hrun] at hr hrows
  subst hr
  refine ⟨c', rfl, List.length_eq_zero_iff.1 hrows, ?_⟩
  rw [(BulkCall.told_of_error clashingBatch hnoting hrun).1, hannounced]
  rfl

end Samples

end RowLedger
