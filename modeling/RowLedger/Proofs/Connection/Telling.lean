import Mathlib.Data.List.Nodup
import RowLedger.Proofs.Connection.Watched

/-!
Runs of subscriptions and of the calls that change rows. Every subscription is told of the changes
that were made while it was active, of each once, and of nothing else.
-/

namespace RowLedger

/-- A call that changes rows of one table. -/
inductive RowCall
  | insert (e : Entity) (mode : InsertMode)
  | update (e : Entity)
  | delete (e : Entity)
  | deleteByKey (t : RecordType) (v : Value)
  | deleteWhere (q : TableQuery)

namespace RowCall

variable {σ : Type}

def act : RowCall → Act σ Nat
  | insert e mode => do Act.ofExcept (← Act.insert e mode).2
  | update e => do Act.ofExcept (← Act.modify e).2
  | delete e => Act.delete e
  | deleteByKey t v => Act.deleteByKey t v
  | deleteWhere q => Act.deleteQuery q

/-- The mapping that the call goes by, if there is one. -/
def mapping? (c : Connection σ) : RowCall → Option Mapping
  | insert e _ | update e | delete e => c.mapping? e.type
  | deleteByKey t _ => c.mapping? t
  | deleteWhere q => some q.mapping

def action : RowCall → Action
  | insert _ _ => .insert
  | update _ => .update
  | delete _ | deleteByKey _ _ | deleteWhere _ => .delete

/-- A call tells of its change exactly if it counts. -/
theorem tells {s : Setup σ} {J : Option Change → Connection σ → Prop}
    (A : Act.Announcing s (fun _ => True) J) (call : RowCall) :
    Act.Tells s J (fun c => call.mapping? c) call.action .ok call.act := by
  cases call with
  | insert e mode => exact (A.insert mode trivial).counted
  | update e => exact (A.modify trivial).counted
  | delete e => exact A.delete trivial
  | deleteByKey t v => exact A.deleteByKey v trivial
  | deleteWhere q => exact A.deleteQuery q

end RowCall

/-- A step of a run: a subscription with what the subscriber does, the end of one, or a call. -/
inductive Step (σ : Type)
  | subscribe (react : Change → σ → σ)
  | unsubscribe (id : Nat)
  | call (call : RowCall)

/-- What came of a step. -/
inductive Happening
  | subscribed (id : Nat)
  | unsubscribed (id : Nat) (was : Bool)
  | called (m : Option Mapping) (action : Action) (r : Except Error Nat)

namespace Happening

def change? : Happening → Option Change
  | called m action r => Change.due? m action r
  | _ => none

def subscribed? : Happening → Option Nat
  | subscribed id => some id
  | _ => none

theorem eq_of_subscribed? {h : Happening} {id : Nat} (hid : h.subscribed? = some id) :
    h = subscribed id := by
  cases h with
  | subscribed i => exact congrArg subscribed (Option.some.inj hid)
  | unsubscribed i was => cases hid
  | called m action r => cases hid

/-- Is a subscription active afterwards? -/
def leaves (id : Nat) (active : Bool) : Happening → Bool
  | subscribed i => active || i == id
  | unsubscribed i _ => active && i != id
  | called _ _ _ => active

/-- Is a subscription active after what has happened? -/
def active (id : Nat) (hs : List Happening) : Bool := hs.foldl (leaves id) false

/-- The changes that are due to a subscription, in order: those made while it is active. -/
def due (id : Nat) : Bool → List Happening → List Change
  | _, [] => []
  | active, h :: hs => (if active then h.change?.toList else []) ++ due id (h.leaves id active) hs

end Happening

namespace Step

variable {σ : Type}

/-- A subscriber is noted under the number that its subscription gets. -/
def act : Step σ → Act (Watched σ) Happening
  | subscribe react => do
    let c ← Act.state
    return .subscribed (← Act.subscribe (Watched.noting c.nextSubscription react))
  | unsubscribe id => do return .unsubscribed id (← Act.unsubscribe id)
  | call k => do
    let c ← Act.state
    return .called (k.mapping? c) k.action (← Act.attempt k.act)

/-- The steps of a run one after the other, with what came of each. -/
def acts : List (Step σ) → Act (Watched σ) (List Happening)
  | [] => return []
  | step :: steps => do
    let h ← step.act
    return h :: (← acts steps)

end Step

/-- What a subscriber was told, in order. -/
def Watched.toldTo {σ : Type} (w : Watched σ) (id : Nat) : List Change :=
  (w.told.filter fun p => p.1 == id).map Prod.snd

namespace Connection

variable {σ : Type} {s : Setup σ} {c c' : Connection (Watched σ)}

/-- The connection without subscribers, of whom nobody was told anything. -/
def watched (c : Connection σ) : Connection (Watched σ) :=
  { c with world := ⟨c.world, []⟩, subscribers := [] }

def hasSubscriber (c : Connection σ) (id : Nat) : Bool := c.subscribers.any fun b => b.id == id

/-- The subscribers go by different numbers, which were drawn. -/
structure Numbered (c : Connection (Watched σ)) : Prop where
  noting : c.Noting
  nodup : (c.subscribers.map Subscriber.id).Nodup
  drawn : ∀ b ∈ c.subscribers, b.id < c.nextSubscription

/-- What a step makes of the subscriptions and of what they were told. -/
structure Follows (h : Happening) (c c' : Connection (Watched σ)) : Prop where
  numbered : c'.Numbered
  told (id : Nat) : c'.world.toldTo id =
    c.world.toldTo id ++ if c.hasSubscriber id then h.change?.toList else []
  has (id : Nat) : c'.hasSubscriber id = h.leaves id (c.hasSubscriber id)
  answer {id : Nat} {was : Bool} : h = .unsubscribed id was → was = c.hasSubscriber id
  fresh {id : Nat} : h = .subscribed id → c.nextSubscription ≤ id ∧ id < c'.nextSubscription
  next : c.nextSubscription ≤ c'.nextSubscription

theorem hasSubscriber_iff {c : Connection σ} {id : Nat} :
    c.hasSubscriber id = true ↔ id ∈ c.subscribers.map Subscriber.id := by
  simp [hasSubscriber]

/-- Under distinct numbers each change reaches a subscriber once. -/
theorem told_once {bs : List (Subscriber (Watched σ))} (h : (bs.map Subscriber.id).Nodup)
    (change : Change) (id : Nat) :
    ((bs.map fun b => (b.id, change)).filter fun p => p.1 == id).map Prod.snd =
      if bs.any fun b => b.id == id then [change] else [] := by
  induction bs with
  | nil => rfl
  | cons b bs ih =>
    rw [List.map_cons, List.nodup_cons] at h
    rw [List.map_cons, List.filter_cons, List.any_cons]
    by_cases hb : b.id = id
    · have hnone : (bs.any fun b => b.id == id) = false := by
        rw [List.any_eq_false]
        intro d hd hid
        rw [hb, ← beq_iff_eq.1 hid] at h
        exact h.1 (List.mem_map_of_mem hd)
      have ih := ih h.2
      rw [hnone] at ih
      simpa [hb] using ih
    · have hb : (b.id == id) = false := beq_false_of_ne hb
      rw [hb]
      exact ih h.2

theorem Heard.toldTo {changes : List Change} (h : Heard changes c c') (hc : c.Numbered)
    (id : Nat) : c'.world.toldTo id =
      c.world.toldTo id ++ if c.hasSubscriber id then changes else [] := by
  have hchanges : ((changes.flatMap fun change => c.subscribers.map fun b => (b.id, change)).filter
      fun p => p.1 == id).map Prod.snd = if c.hasSubscriber id then changes else [] := by
    clear h
    induction changes with
    | nil => split <;> rfl
    | cons change changes ih =>
      rw [List.flatMap_cons, List.filter_append, List.map_append, told_once hc.nodup, ih,
        ← hasSubscriber]
      split <;> rfl
  rw [Watched.toldTo, h.told, List.filter_append, List.map_append, hchanges]
  rfl

def withSubscriber (c : Connection (Watched σ)) (react : Change → σ → σ) :
    Connection (Watched σ) :=
  { c with
    subscribers := c.subscribers ++ [⟨c.nextSubscription, Watched.noting c.nextSubscription react⟩]
    nextSubscription := c.nextSubscription + 1 }

theorem Numbered.withSubscriber (hc : c.Numbered) (react : Change → σ → σ) :
    (c.withSubscriber react).Numbered where
  noting b hb := by
    rcases List.mem_append.1 hb with hb | hb
    · exact hc.noting b hb
    · rw [List.mem_singleton.1 hb]
      exact ⟨react, rfl⟩
  nodup := by
    rw [Connection.withSubscriber, List.map_append, List.nodup_append]
    refine ⟨hc.nodup, List.nodup_singleton _, fun i hi j hj => ?_⟩
    obtain ⟨b, hb, rfl⟩ := List.mem_map.1 hi
    rw [List.mem_singleton.1 hj]
    exact Nat.ne_of_lt (hc.drawn b hb)
  drawn b hb := by
    rcases List.mem_append.1 hb with hb | hb
    · exact Nat.lt_succ_of_lt (hc.drawn b hb)
    · rw [List.mem_singleton.1 hb]
      exact Nat.lt_succ_self _

theorem Numbered.subscribe (hc : c.Numbered) (react : Change → σ → σ) :
    ∃ h c', (Step.subscribe react).act.run s.watched c = (.ok h, c') ∧ Follows h c c' := by
  refine ⟨.subscribed c.nextSubscription, c.withSubscriber react, rfl, ?_⟩
  exact {
    numbered := hc.withSubscriber react
    told := fun id => by split <;> exact (List.append_nil _).symm
    has := fun id => by
      rw [hasSubscriber, Connection.withSubscriber, List.any_append, List.any_cons, List.any_nil,
        Bool.or_false]
      rfl
    answer := nofun
    fresh := by
      rintro id ⟨⟩
      exact ⟨Nat.le_refl _, Nat.lt_succ_self _⟩
    next := Nat.le_succ _ }

def withoutSubscriber (c : Connection (Watched σ)) (id : Nat) : Connection (Watched σ) :=
  { c with subscribers := c.subscribers.filter fun b => b.id != id }

theorem Numbered.withoutSubscriber (hc : c.Numbered) (id : Nat) :
    (c.withoutSubscriber id).Numbered where
  noting b hb := hc.noting b (List.mem_of_mem_filter hb)
  nodup := hc.nodup.sublist (List.filter_sublist.map _)
  drawn b hb := hc.drawn b (List.mem_of_mem_filter hb)

theorem hasSubscriber_withoutSubscriber (id i : Nat) :
    (c.withoutSubscriber id).hasSubscriber i = (c.hasSubscriber i && id != i) := by
  rw [Bool.eq_iff_iff, Bool.and_eq_true, hasSubscriber_iff, hasSubscriber_iff, withoutSubscriber,
    List.mem_map, List.mem_map, bne_iff_ne]
  constructor
  · rintro ⟨b, hb, rfl⟩
    rw [List.mem_filter, bne_iff_ne] at hb
    exact ⟨⟨b, hb.1, rfl⟩, hb.2.symm⟩
  · rintro ⟨⟨b, hb, rfl⟩, hne⟩
    exact ⟨b, List.mem_filter.2 ⟨hb, bne_iff_ne.2 hne.symm⟩, rfl⟩

/-- A subscriber was removed exactly if it was there. -/
theorem removed_iff (id : Nat) :
    ((c.withoutSubscriber id).subscribers.length != c.subscribers.length) = c.hasSubscriber id := by
  rw [Bool.eq_iff_iff, bne_iff_ne, ne_eq, withoutSubscriber, List.length_filter_eq_length_iff,
    hasSubscriber, List.any_eq_true]
  simp

theorem Numbered.unsubscribe (hc : c.Numbered) (id : Nat) :
    ∃ h c', (Step.unsubscribe id).act.run s.watched c = (.ok h, c') ∧ Follows h c c' := by
  refine ⟨.unsubscribed id ((c.withoutSubscriber id).subscribers.length != c.subscribers.length),
    c.withoutSubscriber id, rfl, ?_⟩
  exact {
    numbered := hc.withoutSubscriber id
    told := fun id => by split <;> exact (List.append_nil _).symm
    has := hasSubscriber_withoutSubscriber id
    answer := by
      rintro i was ⟨⟩
      exact removed_iff id
    fresh := nofun
    next := Nat.le_refl _ }

theorem Numbered.call (hc : c.Numbered) (call : RowCall) :
    ∃ h c', (Step.call call).act.run s.watched c = (.ok h, c') ∧ Follows h c c' := by
  refine ⟨.called (call.mapping? c) call.action (call.act.run s.watched c).1, _, rfl, ?_⟩
  have heard := (call.tells (s := s.watched) (Act.announcing hc.noting)).of_run (.refl c) rfl
  exact {
    numbered := ⟨heard.noting hc.noting, by rw [heard.subscribers]; exact hc.nodup,
      by rw [heard.subscribers, heard.next]; exact hc.drawn⟩
    told := heard.toldTo hc
    has := fun id => by rw [hasSubscriber, heard.subscribers]; rfl
    answer := nofun
    fresh := nofun
    next := Nat.le_of_eq heard.next.symm }

theorem Numbered.step (hc : c.Numbered) (step : Step σ) :
    ∃ h c', step.act.run s.watched c = (.ok h, c') ∧ Follows h c c' := by
  cases step with
  | subscribe react => exact hc.subscribe react
  | unsubscribe id => exact hc.unsubscribe id
  | call k => exact hc.call k

/-- What a run makes of the subscriptions and of what they were told. -/
structure FollowsAll (hs : List Happening) (c c' : Connection (Watched σ)) : Prop where
  told (id : Nat) : c'.world.toldTo id =
    c.world.toldTo id ++ Happening.due id (c.hasSubscriber id) hs
  answer {pre post : List Happening} {id : Nat} {was : Bool} :
    hs = pre ++ .unsubscribed id was :: post →
      was = pre.foldl (Happening.leaves id) (c.hasSubscriber id)
  fresh : ∀ id ∈ hs.filterMap Happening.subscribed?, c.nextSubscription ≤ id
  nodup : (hs.filterMap Happening.subscribed?).Nodup

theorem Follows.cons {h : Happening} {hs : List Happening} {c₁ : Connection (Watched σ)}
    (hstep : Follows h c c₁) (hrest : FollowsAll hs c₁ c') : FollowsAll (h :: hs) c c' where
  told id := by
    rw [hrest.told, hstep.told, hstep.has, List.append_assoc]
    rfl
  answer {pre post id was} heq := by
    cases pre with
    | nil =>
      cases heq
      exact hstep.answer rfl
    | cons h' pre =>
      cases heq
      rw [List.foldl_cons, ← hstep.has]
      exact hrest.answer rfl
  fresh id hid := by
    rw [List.filterMap_cons] at hid
    split at hid
    · exact Nat.le_trans hstep.next (hrest.fresh id hid)
    next i hi =>
    rcases List.mem_cons.1 hid with rfl | hid
    · exact (hstep.fresh (Happening.eq_of_subscribed? hi)).1
    · exact Nat.le_trans hstep.next (hrest.fresh id hid)
  nodup := by
    rw [List.filterMap_cons]
    split
    · exact hrest.nodup
    next i hi =>
    refine List.nodup_cons.2 ⟨fun hmem => ?_, hrest.nodup⟩
    exact absurd (hstep.fresh (Happening.eq_of_subscribed? hi)).2
      (Nat.not_lt.2 (hrest.fresh i hmem))

/-- By induction on the steps; the subscriptions are the same as in the history all along. -/
theorem Numbered.run (hc : c.Numbered) (steps : List (Step σ)) :
    ∃ hs c', (Step.acts steps).run s.watched c = (.ok hs, c') ∧ FollowsAll hs c c' := by
  induction steps generalizing c with
  | nil => exact ⟨[], c, rfl, ⟨fun id => (List.append_nil _).symm, by simp, by simp, by simp⟩⟩
  | cons step steps ih =>
    obtain ⟨h, c₁, hrun, hstep⟩ := hc.step (s := s) step
    obtain ⟨hs, c', hruns, hrest⟩ := ih hstep.numbered
    refine ⟨h :: hs, c', ?_, hstep.cons hrest⟩
    rw [Step.acts, Act.run_bind_ok _ hrun, Act.run_bind_ok _ hruns, Act.run_pure]

theorem numbered_watched (c : Connection σ) : c.watched.Numbered := ⟨nofun, .nil, nofun⟩

/-- However the database answers, a run from a connection without subscribers tells each
subscription of the changes that were made while it was active: in order, and of each once. A
subscription is found to be there exactly while it is active, and no two have the same number. -/
theorem run_told (s : Setup σ) (c : Connection σ) (steps : List (Step σ)) :
    ∃ hs c', (Step.acts steps).run s.watched c.watched = (.ok hs, c') ∧
      (∀ id, c'.world.toldTo id = Happening.due id false hs) ∧
      (∀ pre id was post, hs = pre ++ .unsubscribed id was :: post →
        was = Happening.active id pre) ∧
      (hs.filterMap Happening.subscribed?).Nodup := by
  obtain ⟨hs, c', hrun, h⟩ := (numbered_watched c).run (s := s) steps
  exact ⟨hs, c', hrun, h.told, fun _ _ _ _ heq => h.answer heq, h.nodup⟩

end Connection

end RowLedger
