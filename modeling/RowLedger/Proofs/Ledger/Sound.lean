import RowLedger.Proofs.Ledger.Recording

/-!
What the ledger knows of the rows of tracked tables, and that it stays so when it is rewritten along
with a table.
-/

namespace RowLedger

namespace Tracked

/-- The stored identifiers of the rows. -/
def ids (t : Tracked) (rows : String → List Record) : List SqlValue :=
  (rows t.mapping.table).map (· t.mapping.syncColumn.name)

variable {ts : List Tracked} {t u : Tracked} (rows : String → List Record) (rs : List Record)

theorem ids_update_ledger : t.ids (Function.update rows Ledger.tableName rs) = t.ids rows := by
  rw [ids, Function.update_of_ne t.table_ne, ids]

theorem ids_update_self :
    t.ids (Function.update rows t.mapping.table rs) = rs.map (· t.mapping.syncColumn.name) := by
  rw [ids, Function.update_self]

theorem Apart.ids_update_of_ne (hts : Apart ts) (ht : t ∈ ts) (hu : u ∈ ts) (hne : u ≠ t) :
    u.ids (Function.update rows t.mapping.table rs) = u.ids rows := by
  have htable : u.mapping.table ≠ t.mapping.table := fun h => hne (hts.eq_of_table hu ht h)
  rw [ids, Function.update_of_ne htable, ids]

end Tracked

namespace Ledger

/-- The last thing done to a row that is still there. -/
def lastAction (updated : List SqlValue) (id : SqlValue) : Action :=
  if id ∈ updated then .update else .insert

/-- The ledger agrees with the tables, where the rows with some identifiers were updated. -/
structure Sound (ts : List Tracked) (rows : String → List Record) (updated : List SqlValue) :
    Prop where
  /-- No two entries share an identifier. -/
  distinct : ((rows tableName).map (· "SyncGuid")).Nodup
  /-- Every row has exactly one entry, with the last thing done to it. -/
  live : ∀ t ∈ ts, ∀ id ∈ t.ids rows, ∃ (g : Guid) (e : Record), id = g.stored ∧
    (rows tableName).filter (fun e => e "SyncGuid" == id) = [e] ∧
    e.Enters t.mapping.table g (lastAction updated id)
  /-- What is entered of other rows is their deletion. -/
  gone : ∀ e ∈ rows tableName, (∀ t ∈ ts, e "SyncGuid" ∉ t.ids rows) →
    Action.delete.toValue.toSql = .ok (e "Action")

theorem mem_keptApart {gs : List Guid} {L : List Record} {e : Record} :
    e ∈ keptApart gs L ↔ e ∈ L ∧ e "SyncGuid" ∉ gs.map Guid.stored := by
  simp only [keptApart, List.mem_filter, Bool.not_eq_true', List.any_eq_false, beq_iff_eq,
    List.mem_map, not_exists, not_and]
  exact and_congr_right fun _ => forall₂_congr fun _ _ => not_congr eq_comm

theorem ids_of_enters {gs : List Guid} {es : List Record} {table : String} {action : Action}
    (h : List.Forall₂ (fun g (e : Record) => e.Enters table g action) gs es) :
    es.map (· "SyncGuid") = gs.map Guid.stored := by
  induction h with
  | nil => rfl
  | cons he _ ih => rw [List.map_cons, List.map_cons, he.row, ih]

theorem exists_of_enters {gs : List Guid} {es : List Record} {table : String} {action : Action}
    (h : List.Forall₂ (fun g (e : Record) => e.Enters table g action) gs es) :
    (∀ g ∈ gs, ∃ e ∈ es, e.Enters table g action) ∧
      ∀ e ∈ es, ∃ g ∈ gs, e.Enters table g action := by
  induction h with
  | nil => simp
  | cons he _ ih =>
    simp only [List.mem_cons, forall_eq_or_imp, exists_eq_or_imp]
    exact ⟨⟨.inl he, fun g hg => .inr (ih.1 g hg)⟩, .inl he, fun e h => .inr (ih.2 e h)⟩

namespace Sound

variable {ts : List Tracked} {t u : Tracked} {rows : String → List Record}
  {updated updated' : List SqlValue} {id : SqlValue}

theorem entry (h : Sound ts rows updated) (ht : t ∈ ts) (hid : id ∈ t.ids rows) :
    ∃ (g : Guid) (e : Record), id = g.stored ∧ e ∈ rows tableName ∧
      e.Enters t.mapping.table g (lastAction updated id) := by
  obtain ⟨g, e, hg, he, henters⟩ := h.live t ht id hid
  have hmem : e ∈ (rows tableName).filter fun e => e "SyncGuid" == id := by
    rw [he]
    exact List.mem_singleton_self e
  exact ⟨g, e, hg, List.mem_of_mem_filter hmem, henters⟩

theorem identified (h : Sound ts rows updated) (ht : t ∈ ts) :
    Record.Identified t.mapping.syncColumn.name (rows t.mapping.table) := by
  intro r hr
  obtain ⟨g, -, hg, -⟩ := h.live t ht _ (List.mem_map_of_mem hr)
  exact ⟨g, hg⟩

/-- The entry of a row names its table. -/
theorem table_of_mem (h : Sound ts rows updated) (ht : t ∈ ts) {e : Record}
    (he : e ∈ rows tableName) (hid : e "SyncGuid" ∈ t.ids rows) :
    e "TableName" = .text t.mapping.table := by
  obtain ⟨g, e', -, hone, henters⟩ := h.live t ht _ hid
  have hmem : e ∈ (rows tableName).filter fun x => x "SyncGuid" == e "SyncGuid" :=
    List.mem_filter.2 ⟨he, beq_self_eq_true _⟩
  rw [hone, List.mem_singleton] at hmem
  rw [hmem]
  exact henters.table

/-- No row of another table has the identifier of a row. -/
theorem eq_of_mem_ids (h : Sound ts rows updated) (hts : Tracked.Apart ts) (ht : t ∈ ts)
    (hu : u ∈ ts) (hid : id ∈ t.ids rows) (hid' : id ∈ u.ids rows) : u = t := by
  obtain ⟨g, e, rfl, he, henters⟩ := h.entry ht hid
  rw [← henters.row] at hid'
  have htable := h.table_of_mem hu he hid'
  rw [henters.table, SqlValue.text.injEq] at htable
  exact hts.eq_of_table hu ht htable.symm

theorem of_entries (hdistinct : ((rows tableName).map (· "SyncGuid")).Nodup)
    (hlive : ∀ t ∈ ts, ∀ id ∈ t.ids rows, ∃ (g : Guid) (e : Record), id = g.stored ∧
      e ∈ rows tableName ∧ e.Enters t.mapping.table g (lastAction updated id))
    (hgone : ∀ e ∈ rows tableName, (∀ t ∈ ts, e "SyncGuid" ∉ t.ids rows) →
      Action.delete.toValue.toSql = .ok (e "Action")) : Sound ts rows updated where
  distinct := hdistinct
  gone := hgone
  live t ht id hid := by
    obtain ⟨g, e, rfl, he, henters⟩ := hlive t ht id hid
    have hone := filter_eq_singleton hdistinct he
    rw [henters.row] at hone
    exact ⟨g, e, rfl, hone, henters⟩

/-- A table and the ledger change together: rows with some identifiers come, change or go, and they
are the ones that are entered anew. -/
theorem rewritten (h : Sound ts rows updated) (hts : Tracked.Apart ts) (ht : t ∈ ts)
    {rs es : List Record} {keep : Record → Bool} {gs : List Guid} {action : Action}
    (hgs : gs.Nodup)
    (hes : List.Forall₂ (fun g (e : Record) => e.Enters t.mapping.table g action) gs es)
    (hkeep : ∀ e ∈ rows tableName, keep e = true → e "SyncGuid" ∉ gs.map Guid.stored)
    (hlost : ∀ e ∈ rows tableName, keep e = false → e "SyncGuid" ∉ gs.map Guid.stored →
      ∀ u ∈ ts, e "SyncGuid" ∉ u.ids rows)
    (hown : ∀ id ∈ gs.map Guid.stored, ∀ u ∈ ts, id ∈ u.ids rows → u = t)
    (hsame : ∀ id ∉ gs.map Guid.stored,
      (id ∈ rs.map (· t.mapping.syncColumn.name) ↔ id ∈ t.ids rows) ∧
        (id ∈ updated' ↔ id ∈ updated))
    (hlast : ∀ id ∈ gs.map Guid.stored, action =
      if id ∈ rs.map (· t.mapping.syncColumn.name) then lastAction updated' id else .delete) :
    Sound ts (Function.update (Function.update rows t.mapping.table rs) tableName
      ((rows tableName).filter keep ++ es)) updated' := by
  obtain ⟨hadded, hadds⟩ := exists_of_enters hes
  have hids {u : Tracked} (hu : u ∈ ts) {id : SqlValue} (hid : id ∉ gs.map Guid.stored) :
      id ∈ u.ids (Function.update (Function.update rows t.mapping.table rs) tableName
        ((rows tableName).filter keep ++ es)) ↔ id ∈ u.ids rows := by
    rw [Tracked.ids_update_ledger]
    by_cases hut : u = t
    · rw [hut, Tracked.ids_update_self]
      exact (hsame id hid).1
    · rw [hts.ids_update_of_ne rows rs ht hu hut]
  refine of_entries ?_ ?_ ?_
  · rw [Function.update_self, List.map_append, List.nodup_append]
    refine ⟨h.distinct.sublist (List.filter_sublist.map _), ?_, ?_⟩
    · rw [ids_of_enters hes]
      exact hgs.map Guid.stored_injective
    · rintro a ha b hb rfl
      rw [ids_of_enters hes] at hb
      obtain ⟨e, he, rfl⟩ := List.mem_map.1 ha
      obtain ⟨he, hk⟩ := List.mem_filter.1 he
      exact hkeep e he hk hb
  · intro u hu id hid
    rw [Function.update_self]
    by_cases hgid : id ∈ gs.map Guid.stored
    · -- A row that is entered anew is one of this table.
      rw [Tracked.ids_update_ledger] at hid
      have hut : u = t := by
        by_contra hut
        rw [hts.ids_update_of_ne rows rs ht hu hut] at hid
        exact hut (hown id hgid u hu hid)
      rw [hut, Tracked.ids_update_self] at hid
      obtain ⟨g, hg, rfl⟩ := List.mem_map.1 hgid
      obtain ⟨e, he, henters⟩ := hadded g hg
      rw [hlast _ hgid, if_pos hid] at henters
      rw [hut]
      exact ⟨g, e, rfl, List.mem_append_right _ he, henters⟩
    · obtain ⟨g, e, rfl, he, henters⟩ := h.entry hu ((hids hu hgid).1 hid)
      have hk : keep e = true := by
        by_contra hk
        rw [← henters.row] at hgid
        refine hlost e he (eq_false_of_ne_true hk) hgid u hu ?_
        rw [henters.row] at hgid ⊢
        exact (hids hu hgid).1 hid
      have hlastAction : lastAction updated g.stored = lastAction updated' g.stored :=
        if_congr (hsame _ hgid).2.symm rfl rfl
      rw [hlastAction] at henters
      exact ⟨g, e, rfl, List.mem_append_left _ (List.mem_filter.2 ⟨he, hk⟩), henters⟩
  · rw [Function.update_self]
    intro e he hdead
    rcases List.mem_append.1 he with he | he
    · obtain ⟨he, hk⟩ := List.mem_filter.1 he
      have hg := hkeep e he hk
      exact h.gone e he fun u hu hid => hdead u hu ((hids hu hg).2 hid)
    · obtain ⟨g, hg, henters⟩ := hadds e he
      have hgone := hdead t ht
      rw [Tracked.ids_update_ledger, Tracked.ids_update_self, henters.row] at hgone
      have haction := hlast _ (List.mem_map_of_mem hg)
      rw [if_neg hgone] at haction
      rw [← haction]
      exact henters.action

/-- New entries take the place of those for the same rows. -/
theorem entered (h : Sound ts rows updated) (hts : Tracked.Apart ts) (ht : t ∈ ts)
    {rs es : List Record} {gs : List Guid} {action : Action} (hgs : gs.Nodup)
    (hes : List.Forall₂ (fun g (e : Record) => e.Enters t.mapping.table g action) gs es)
    (hown : ∀ id ∈ gs.map Guid.stored, ∀ u ∈ ts, id ∈ u.ids rows → u = t)
    (hsame : ∀ id ∉ gs.map Guid.stored,
      (id ∈ rs.map (· t.mapping.syncColumn.name) ↔ id ∈ t.ids rows) ∧
        (id ∈ updated' ↔ id ∈ updated))
    (hlast : ∀ id ∈ gs.map Guid.stored, action =
      if id ∈ rs.map (· t.mapping.syncColumn.name) then lastAction updated' id else .delete) :
    Sound ts (Function.update (Function.update rows t.mapping.table rs) tableName
      (keptApart gs (rows tableName) ++ es)) updated' := by
  refine h.rewritten hts ht hgs hes ?_ ?_ hown hsame hlast
  · exact fun e he hk => (mem_keptApart.1 (List.mem_filter.2 ⟨he, hk⟩)).2
  · intro e he hk hg
    have hkept := (List.mem_filter.1 (mem_keptApart.2 ⟨he, hg⟩)).2
    rw [hk] at hkept
    cases hkept

end Sound

/-- The ledger is sound, and every identifier in the tables or of an updated row is one of the first
that were drawn. -/
structure Kept (guid : Nat → Guid) (n : Nat) (ts : List Tracked) (rows : String → List Record)
    (updated : List SqlValue) : Prop where
  sound : Sound ts rows updated
  apart : ∀ t ∈ ts, (t.ids rows).Nodup
  drawn : ∀ t ∈ ts, ∀ id ∈ t.ids rows, ∃ i < n, id = (guid i).stored
  updated : ∀ id ∈ updated, ∃ i < n, id = (guid i).stored

namespace Kept

variable {guid : Nat → Guid} {n n' : Nat} {ts : List Tracked} {t : Tracked}
  {rows : String → List Record} {updated updated' : List SqlValue}

theorem mono (h : Kept guid n ts rows updated) (hn : n ≤ n') : Kept guid n' ts rows updated where
  sound := h.sound
  apart := h.apart
  drawn t ht id hid := by
    obtain ⟨i, hi, heq⟩ := h.drawn t ht id hid
    exact ⟨i, by omega, heq⟩
  updated id hid := by
    obtain ⟨i, hi, heq⟩ := h.updated id hid
    exact ⟨i, by omega, heq⟩

theorem ne_of_fresh (hfresh : ∀ i < n, guid i ≠ guid n) {id : SqlValue}
    (h : ∃ i < n, id = (guid i).stored) : id ≠ (guid n).stored := by
  obtain ⟨i, hi, rfl⟩ := h
  exact fun heq => hfresh i hi (Guid.stored_injective heq)

/-- The rows of one table and the ledger may change as long as the identifiers are drawn ones. -/
theorem rewritten (h : Kept guid n ts rows updated) (hts : Tracked.Apart ts) (ht : t ∈ ts)
    {rs L : List Record}
    (hsound : Sound ts (Function.update (Function.update rows t.mapping.table rs) tableName L)
      updated')
    (hapart : (rs.map (· t.mapping.syncColumn.name)).Nodup)
    (hdrawn : ∀ id ∈ rs.map (· t.mapping.syncColumn.name), ∃ i < n, id = (guid i).stored)
    (hupdated : ∀ id ∈ updated', ∃ i < n, id = (guid i).stored) :
    Kept guid n ts (Function.update (Function.update rows t.mapping.table rs) tableName L)
      updated' := by
  refine ⟨hsound, fun u hu => ?_, fun u hu => ?_, hupdated⟩ <;> rw [Tracked.ids_update_ledger]
  · by_cases hut : u = t
    · rw [hut, Tracked.ids_update_self]
      exact hapart
    · rw [hts.ids_update_of_ne rows rs ht hu hut]
      exact h.apart u hu
  · by_cases hut : u = t
    · rw [hut, Tracked.ids_update_self]
      exact hdrawn
    · rw [hts.ids_update_of_ne rows rs ht hu hut]
      exact h.drawn u hu

/-- A row comes with the identifier drawn next. -/
theorem inserted (h : Kept guid n ts rows updated) (hts : Tracked.Apart ts)
    (hfresh : ∀ i < n, guid i ≠ guid n) (ht : t ∈ ts) {r e : Record}
    (hr : r t.mapping.syncColumn.name = (guid n).stored)
    (he : e.Enters t.mapping.table (guid n) .insert) :
    Kept guid (n + 1) ts
      (Function.update (Function.update rows t.mapping.table (rows t.mapping.table ++ [r]))
        tableName (keptApart [guid n] (rows tableName) ++ [e])) updated := by
  have hids : (rows t.mapping.table ++ [r]).map (· t.mapping.syncColumn.name) =
      t.ids rows ++ [(guid n).stored] := by
    rw [List.map_append, List.map_singleton, hr, Tracked.ids]
  have hnew {u : Tracked} (hu : u ∈ ts) : (guid n).stored ∉ u.ids rows := fun hid =>
    ne_of_fresh hfresh (h.drawn u hu _ hid) rfl
  have hnotUpdated : (guid n).stored ∉ updated := fun hid =>
    ne_of_fresh hfresh (h.updated _ hid) rfl
  refine (h.mono (Nat.le_succ n)).rewritten hts ht ?_ ?_ ?_ (h.mono (Nat.le_succ n)).updated
  · refine h.sound.entered hts ht (List.nodup_singleton _) (.cons he .nil) ?_ ?_ ?_
    · intro id hid u hu hmem
      rw [List.map_singleton, List.mem_singleton] at hid
      rw [hid] at hmem
      exact absurd hmem (hnew hu)
    · intro id hid
      rw [List.map_singleton, List.mem_singleton] at hid
      rw [hids, List.mem_append, List.mem_singleton, or_iff_left hid]
      exact ⟨Iff.rfl, Iff.rfl⟩
    · intro id hid
      rw [List.map_singleton, List.mem_singleton] at hid
      rw [hids, hid, if_pos (List.mem_append_right _ (List.mem_singleton_self _)), lastAction,
        if_neg hnotUpdated]
  · rw [hids, List.nodup_append]
    refine ⟨h.apart t ht, List.nodup_singleton _, ?_⟩
    rintro a ha b hb rfl
    rw [List.mem_singleton.1 hb] at ha
    exact hnew ht ha
  · rw [hids]
    intro id hid
    rcases List.mem_append.1 hid with hid | hid
    · exact (h.mono (Nat.le_succ n)).drawn t ht id hid
    · exact ⟨n, Nat.lt_succ_self n, List.mem_singleton.1 hid⟩

/-- A row changes and keeps its identifier. -/
theorem changed (h : Kept guid n ts rows updated) (hts : Tracked.Apart ts) (ht : t ∈ ts)
    {rs : List Record} {g : Guid} {e : Record} (hg : g.stored ∈ t.ids rows)
    (hrs : rs.map (· t.mapping.syncColumn.name) = t.ids rows)
    (he : e.Enters t.mapping.table g .update) :
    Kept guid n ts (Function.update (Function.update rows t.mapping.table rs) tableName
      (keptApart [g] (rows tableName) ++ [e])) (g.stored :: updated) := by
  refine h.rewritten hts ht ?_ ?_ ?_ ?_
  · refine h.sound.entered hts ht (List.nodup_singleton g) (.cons he .nil) ?_ ?_ ?_
    · intro id hid u hu hmem
      rw [List.map_singleton, List.mem_singleton] at hid
      rw [hid] at hmem
      exact h.sound.eq_of_mem_ids hts ht hu hg hmem
    · intro id hid
      rw [List.map_singleton, List.mem_singleton] at hid
      rw [hrs, List.mem_cons, or_iff_right hid]
      exact ⟨Iff.rfl, Iff.rfl⟩
    · intro id hid
      rw [List.map_singleton, List.mem_singleton] at hid
      rw [hrs, hid, if_pos hg, lastAction, if_pos List.mem_cons_self]
  · rw [hrs]
    exact h.apart t ht
  · rw [hrs]
    exact h.drawn t ht
  · intro id hid
    rcases List.mem_cons.1 hid with rfl | hid
    · exact h.drawn t ht _ hg
    · exact h.updated id hid

/-- The rows that fulfil a condition go. -/
theorem removed (h : Kept guid n ts rows updated) (hts : Tracked.Apart ts) (ht : t ∈ ts)
    {found : Record → Bool} {gs : List Guid} {es : List Record}
    (hgs : (gs.map Guid.stored).Perm
      (((rows t.mapping.table).filter found).map (· t.mapping.syncColumn.name)))
    (hes : List.Forall₂ (fun g (e : Record) => e.Enters t.mapping.table g .delete) gs es) :
    Kept guid n ts (Function.update
      (Function.update rows t.mapping.table ((rows t.mapping.table).filter fun r => !found r))
      tableName (keptApart gs (rows tableName) ++ es)) updated := by
  have hsub {p : Record → Bool} : (((rows t.mapping.table).filter p).map
      (· t.mapping.syncColumn.name)).Sublist (t.ids rows) := List.filter_sublist.map _
  have hmem {id : SqlValue} : id ∈ gs.map Guid.stored ↔
      ∃ r ∈ rows t.mapping.table, found r = true ∧ r t.mapping.syncColumn.name = id := by
    rw [hgs.mem_iff, List.mem_map]
    simp only [List.mem_filter, and_assoc]
  have hnodup : gs.Nodup :=
    List.Nodup.of_map _ (hgs.nodup_iff.2 ((h.apart t ht).sublist hsub))
  refine h.rewritten hts ht ?_ ((h.apart t ht).sublist hsub)
    (fun id hid => h.drawn t ht id (hsub.subset hid)) h.updated
  refine h.sound.entered hts ht hnodup hes ?_ ?_ ?_
  · intro id hid u hu hid'
    exact h.sound.eq_of_mem_ids hts ht hu (hsub.subset (hgs.subset hid)) hid'
  · intro id hid
    refine ⟨⟨fun h => hsub.subset h, fun hid' => ?_⟩, Iff.rfl⟩
    obtain ⟨r, hr, rfl⟩ := List.mem_map.1 hid'
    refine List.mem_map.2 ⟨r, List.mem_filter.2 ⟨hr, ?_⟩, rfl⟩
    rw [Bool.not_eq_true']
    exact eq_false_of_ne_true fun hfound => hid (hmem.2 ⟨r, hr, hfound, rfl⟩)
  · intro id hid
    refine (if_neg fun hid' => ?_).symm
    obtain ⟨r, hr, hfound, hrid⟩ := hmem.1 hid
    obtain ⟨r', hr', hrid'⟩ := List.mem_map.1 hid'
    obtain ⟨hr', hnot⟩ := List.mem_filter.1 hr'
    have hsame : r' = r := List.inj_on_of_nodup_map (h.apart t ht) hr' hr (hrid'.trans hrid.symm)
    rw [hsame, hfound] at hnot
    cases hnot

/-- All rows of a table go, and the ledger forgets what it knew of the table. -/
theorem emptied (h : Kept guid n ts rows updated) (hts : Tracked.Apart ts) (ht : t ∈ ts)
    {gs : List Guid} {es : List Record} (hgs : (gs.map Guid.stored).Perm (t.ids rows))
    (hes : List.Forall₂ (fun g (e : Record) => e.Enters t.mapping.table g .delete) gs es) :
    Kept guid n ts (Function.update (Function.update rows t.mapping.table []) tableName
      ((rows tableName).filter (fun e => !(e "TableName" == .text t.mapping.table)) ++ es))
      updated := by
  have hnodup : gs.Nodup := List.Nodup.of_map _ (hgs.nodup_iff.2 (h.apart t ht))
  refine h.rewritten hts ht ?_ List.nodup_nil (by simp) h.updated
  refine h.sound.rewritten hts ht hnodup hes ?_ ?_ ?_ ?_ ?_
  · intro e he hk hid
    have htable := h.sound.table_of_mem ht he (hgs.subset hid)
    simp [htable] at hk
  · -- An entry of this table for no row of it is about no row at all.
    intro e he hk hid u hu hmem
    have htable := h.sound.table_of_mem hu he hmem
    rw [Bool.not_eq_false', beq_iff_eq, htable, SqlValue.text.injEq] at hk
    rw [hts.eq_of_table hu ht hk] at hmem
    exact hid (hgs.mem_iff.2 hmem)
  · intro id hid u hu hid'
    exact h.sound.eq_of_mem_ids hts ht hu (hgs.subset hid) hid'
  · intro id hid
    exact ⟨⟨fun h => absurd h List.not_mem_nil, fun h => absurd (hgs.mem_iff.2 h) hid⟩, Iff.rfl⟩
  · intro id hid
    exact (if_neg List.not_mem_nil).symm

end Kept

end Ledger

end RowLedger
