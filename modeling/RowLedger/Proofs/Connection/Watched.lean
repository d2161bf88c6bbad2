import RowLedger.Proofs.Connection.Keeping

/-!
What reaches the subscribers. Each of them may do what it likes to the state that the driver acts
on; beside that state it is noted whom a change was told, in order.
-/

namespace RowLedger

/-- A state with the changes that were told, each with the number of the subscriber. -/
structure Watched (σ : Type) where
  base : σ
  told : List (Nat × Change) := []

/-- The driver, which does not see what was told. -/
def Driver.watched {σ : Type} (d : Driver σ) : Driver (Watched σ) where
  execute sql params w :=
    ((d.execute sql params w.base).1, { w with base := (d.execute sql params w.base).2 })
  query sql params w :=
    ((d.query sql params w.base).1, { w with base := (d.query sql params w.base).2 })
  scalar sql params w :=
    ((d.scalar sql params w.base).1, { w with base := (d.scalar sql params w.base).2 })
  openCursor sql params w :=
    ((d.openCursor sql params w.base).1, { w with base := (d.openCursor sql params w.base).2 })
  nextRow cursor w :=
    ((d.nextRow cursor w.base).1, { w with base := (d.nextRow cursor w.base).2 })
  closeCursor cursor w :=
    ((d.closeCursor cursor w.base).1, { w with base := (d.closeCursor cursor w.base).2 })
  isOpen w := d.isOpen w.base
  close w := ((d.close w.base).1, { w with base := (d.close w.base).2 })

def Setup.watched {σ : Type} (s : Setup σ) : Setup (Watched σ) where
  driver := s.driver.watched
  config := s.config
  guid := s.guid
  savepointNumber := s.savepointNumber

/-- What a subscriber with a number does, and the note of what it was told. -/
def Watched.noting {σ : Type} (id : Nat) (react : Change → σ → σ) (change : Change)
    (w : Watched σ) : Watched σ :=
  ⟨react change w.base, w.told ++ [(id, change)]⟩

namespace Connection

variable {σ : Type}

/-- Every subscriber is noted under its number. -/
def Noting (c : Connection (Watched σ)) : Prop :=
  ∀ b ∈ c.subscribers, ∃ react, b.onChange = Watched.noting b.id react

/-- From one point to another the subscribers stayed, and all of them were told of some changes. -/
structure Heard (changes : List Change) (c c' : Connection (Watched σ)) : Prop where
  subscribers : c'.subscribers = c.subscribers
  next : c'.nextSubscription = c.nextSubscription
  told : c'.world.told =
    c.world.told ++ changes.flatMap fun change => c.subscribers.map fun b => (b.id, change)

namespace Heard

variable {changes changes' : List Change} {c c₁ c₂ : Connection (Watched σ)}

theorem silent (hsubscribers : c₁.subscribers = c.subscribers)
    (hnext : c₁.nextSubscription = c.nextSubscription) (htold : c₁.world.told = c.world.told) :
    Heard [] c c₁ := ⟨hsubscribers, hnext, by simpa using htold⟩

theorem refl (c : Connection (Watched σ)) : Heard [] c c := silent rfl rfl rfl

theorem trans (h : Heard changes c c₁) (h' : Heard changes' c₁ c₂) :
    Heard (changes ++ changes') c c₂ where
  subscribers := h'.subscribers.trans h.subscribers
  next := h'.next.trans h.next
  told := by
    rw [h'.told, h.told, h.subscribers, List.flatMap_append, List.append_assoc]

theorem noting (h : Heard changes c c₁) (hc : c.Noting) : c₁.Noting := by
  unfold Noting
  rw [h.subscribers]
  exact hc

end Heard

end Connection

namespace Act

open Connection (Heard)

variable {σ α : Type} {s : Setup σ} {c₀ : Connection (Watched σ)} {changes : List Change}

/-- Nobody is told anything. -/
theorem Keeps.of_silent {x : Act (Watched σ) α}
    (h : ∀ c, Heard [] c (x.run s.watched c).2) : Keeps s.watched (Heard changes c₀) x := by
  intro c hc
  have htrans := hc.trans (h c)
  rwa [List.append_nil] at htrans

theorem exec_silent (sql : Sql) (params : List Param) :
    Keeps s.watched (Heard changes c₀) (exec sql params) :=
  .of_silent fun _ => .silent rfl rfl rfl

theorem mapping_silent (t : RecordType) : Keeps s.watched (Heard changes c₀) (mapping t) := by
  refine .of_silent fun c => ?_
  rw [run_mapping_eq]
  rcases c.registry.mapping t with e | ⟨sh, r⟩
  · exact .refl c
  · exact .silent rfl rfl rfl

theorem initLedger_silent : Keeps s.watched (Heard changes c₀) initLedger := by
  have hcreate (m : Mapping) : Keeps s.watched (Heard changes c₀) (createTable m) :=
    .createTable (fun sql _ => (exec_silent sql []).bind fun _ => .pure _)
      (fun _ => .of_silent fun _ => .silent rfl rfl rfl) m
  exact (mapping_silent _).bind fun m => (hcreate m).bind fun _ =>
    .of_silent fun _ => .silent rfl rfl rfl

theorem store_silent (m : Mapping) (e : Entity) (g : Guid) (mode : InsertMode) :
    Keeps s.watched (Heard changes c₀) (store m e g mode) := by
  have hcommand : Keeps s.watched (Heard changes c₀) (insertCommand e.type m mode) := by
    refine .of_silent fun c => ?_
    rw [run_insertCommand_keep]
    exact .silent rfl rfl rfl
  exact hcommand.bind fun i => .ofExcept_bind fun params _ => exec_silent i.sql params

theorem foldl_noting {bs : List (Subscriber (Watched σ))} (change : Change)
    (hbs : ∀ b ∈ bs, ∃ react, b.onChange = Watched.noting b.id react) (w : Watched σ) :
    (bs.foldl (fun w b => b.onChange change w) w).told =
      w.told ++ bs.map fun b => (b.id, change) := by
  induction bs generalizing w with
  | nil => rw [List.foldl_nil, List.map_nil, List.append_nil]
  | cons b bs ih =>
    obtain ⟨react, hreact⟩ := hbs b List.mem_cons_self
    rw [List.foldl_cons, ih fun b hb => hbs b (List.mem_cons_of_mem _ hb), hreact, Watched.noting,
      List.append_assoc, List.singleton_append, List.map_cons]

theorem heard_notify {m : Mapping} (hm : isLedger m = false) (action : Action)
    {c : Connection (Watched σ)} (hc : c.Noting) :
    Heard [⟨m, action⟩] c ((notify m action).run s.watched c).2 := by
  rw [notify, hm]
  refine ⟨rfl, rfl, ?_⟩
  rw [List.flatMap_singleton]
  exact foldl_noting ⟨m, action⟩ hc c.world

/-- Whatever the database answers, the subscribers are told of the changes that count. -/
theorem announcing (hc : c₀.Noting) :
    Announcing s.watched (fun _ => True) fun change => Heard change.toList c₀ where
  ledger := trivial
  mapping _ := mapping_silent _
  drawGuid := .of_silent fun _ => .silent rfl rfl rfl
  store := store_silent
  writes params _ := exec_silent _ params
  queries _ _ := .of_silent fun _ => .silent rfl rfl rfl
  scalars _ _ := .of_silent fun _ => .silent rfl rfl rfl
  initLedger := initLedger_silent
  notify action hm _ h := h.trans (heard_notify hm action (h.noting hc))

end Act

end RowLedger
