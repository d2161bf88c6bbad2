import RowLedger.Proofs.Ledger.Agreement

/-!
Where an insert writes the row id that the database reports. The column that counts up says how the
id is read, and the key of the mapping takes it, which is the last column of the primary key.
-/

namespace RowLedger

/-- Is a field part of the primary key, by its own marker or by its name? -/
def Field.isKey (f : Field) (flags : Flags) : Bool :=
  f.primaryKey || (flags.implicitKey && Text.sameName f.name "Id")

namespace Mapping

section

variable {m : Mapping} {typeName table : String} {fields : List Field} {flags : Flags} {i k : Nat}
variable (h : ofFields typeName table fields flags = .ok m)
include h

/-- The kept fields tell which columns the primary key has; an added column is not one of them. -/
theorem primaryKeys_ofFields :
    ∃ added, m.columns.map Column.primaryKey =
      ((kept fields).map fun p => p.1.isKey flags) ++ added ∧ ∀ b ∈ added, b = false := by
  have hkept : (columnsOf flags fields).map Column.primaryKey =
      (kept fields).map fun p => p.1.isKey flags := by
    rw [columnsOf_eq, List.map_map]
    rfl
  obtain ⟨columns, sync, hsync, rfl⟩ := ofFields_ok h
  rw [← hkept]
  obtain ⟨rfl, -⟩ | ⟨rfl, -⟩ := withSync_ok hsync
  · exact ⟨[false], List.map_append, fun b hb => List.mem_singleton.1 hb⟩
  · refine ⟨[], ?_, fun b hb => absurd hb List.not_mem_nil⟩
    rw [List.append_nil]
    exact map_modify_markSync (fun _ => rfl) _ _

theorem primaryKey_iff_isKey {j : Nat} :
    (∃ c, m.column? j = some c ∧ c.primaryKey = true) ↔
      ∃ p, (kept fields)[j]? = some p ∧ p.1.isKey flags = true := by
  obtain ⟨added, hcolumns, hadded⟩ := primaryKeys_ofFields h
  have hcolumn : (∃ c, m.column? j = some c ∧ c.primaryKey = true) ↔
      (m.columns.map Column.primaryKey)[j]? = some true := by
    rw [List.getElem?_map, Option.map_eq_some_iff]
    rfl
  have hfield : (∃ p, (kept fields)[j]? = some p ∧ p.1.isKey flags = true) ↔
      ((kept fields).map fun p => p.1.isKey flags)[j]? = some true := by
    rw [List.getElem?_map, Option.map_eq_some_iff]
  rw [hcolumn, hfield, hcolumns]
  constructor
  · intro hj
    by_cases hlt : j < ((kept fields).map fun p => p.1.isKey flags).length
    · rwa [List.getElem?_append_left hlt] at hj
    · rw [List.getElem?_append_right (Nat.le_of_not_lt hlt)] at hj
      cases hadded true (List.mem_of_getElem? hj)
  · intro hj
    obtain ⟨hlt, -⟩ := List.getElem?_eq_some_iff.1 hj
    rwa [List.getElem?_append_left hlt]

theorem exists_key {c : Column} (hc : m.column? i = some c) (hprimary : c.primaryKey = true) :
    ∃ k, m.key = some k := by
  obtain ⟨columns, sync, -, rfl⟩ := ofFields_ok h
  refine Option.ne_none_iff_exists'.1 fun hnone => ?_
  rw [lastIdx?, Option.map_eq_none_iff, List.findIdx?_eq_none_iff] at hnone
  have hnot := hnone c (List.mem_reverse.2 (List.mem_of_getElem? hc))
  rw [hprimary] at hnot
  cases hnot

/-- A column of the primary key is the key exactly if no later field is part of it. -/
theorem key_eq_iff_of_primaryKey (hkey : m.key = some k) {c : Column} (hc : m.column? i = some c)
    (hprimary : c.primaryKey = true) :
    k = i ↔ ∀ j p, i < j → (kept fields)[j]? = some p → p.1.isKey flags = false := by
  have hm := ofFields_represents h
  constructor
  · rintro rfl j p hj hp
    obtain ⟨-, -, -, hlast⟩ := (hm.key k).1 hkey
    refine Bool.eq_false_iff.2 fun hprime => ?_
    obtain ⟨d, hd, hdkey⟩ := (primaryKey_iff_isKey h).2 ⟨p, hp, hprime⟩
    rw [hlast j d hj hd] at hdkey
    cases hdkey
  · intro hlast
    have hi : m.key = some i := by
      refine (hm.key i).2 ⟨c, hc, hprimary, fun j d hj hd => Bool.eq_false_iff.2 fun hdkey => ?_⟩
      obtain ⟨p, hp, hprime⟩ := (primaryKey_iff_isKey h).1 ⟨d, hd, hdkey⟩
      rw [hlast j p hj hp] at hprime
      cases hprime
    exact Option.some.inj (hkey.symm.trans hi)

theorem of_autoKey (hauto : m.autoKey = some i) :
    ∃ c, m.column? i = some c ∧ c.primaryKey = true ∧ c.autoIncrement = true := by
  obtain ⟨columns, sync, -, rfl⟩ := ofFields_ok h
  obtain ⟨hlt, hboth, -⟩ := List.findIdx?_eq_some_iff_getElem.1 hauto
  obtain ⟨hprimary, hcounts⟩ := Bool.and_eq_true_iff.1 hboth
  exact ⟨_, List.getElem?_eq_getElem hlt, hprimary, hcounts⟩

end

variable {m : Mapping} {fields : List Field} {i k : Nat} {c : Column} {e e' : Entity}

theorem withGeneratedKey_of_autoKey (hauto : m.autoKey = some i) (hkey : m.key = some k)
    (hc : m.column? i = some c) (e : Entity) (id : Option (Sized .i64)) :
    m.withGeneratedKey e id =
      match id with
      | some a => do m.set e k (← Value.ofSql c.kind (.bigInt a))
      | none => .ok e := by
  unfold withGeneratedKey autoKeyColumn?
  rw [hauto, hkey, Option.bind_some, hc]
  cases id <;> rfl

/-- A column holds what it held, unless it is the identifying one and has an identifier. -/
def Keeps (m : Mapping) (e e' : Entity) (j : Nat) : Prop :=
  m.get e' j = m.get e j ∨ j = m.sync ∧ ∃ g, m.get e' j = .guid g

/-- What an insert leaves in a record whose mapping has the key at `k` and counts up at `i`, by the
row id that its statement was answered with. -/
structure TakesId (m : Mapping) (i k : Nat) (id : Option (Sized .i64)) (e e' : Entity) :
    Prop where
  /-- The id is read as the one column is, and the field of the other one takes it. -/
  written (a : Sized .i64) : id = some a → ∃ c d v f p,
    m.column? i = some c ∧ Value.ofSql c.kind (.bigInt a) = .ok v ∧
    m.column? k = some d ∧ d.field = some p ∧ e.type.fields[p]? = some f ∧
    f.type.read v = .ok (m.get e' k) ∧ (d.kind = c.kind → HoldsId c a (m.get e' k))
  /-- A column that counts up beside the key is left as it was. -/
  missed : k ≠ i → m.get e' i = m.get e i
  others (j : Nat) : j ≠ k → m.Keeps e e' j

theorem TakesId.refl (m : Mapping) (i k : Nat) (e : Entity) : m.TakesId i k none e e :=
  ⟨fun _ ha => (nomatch ha), fun _ => rfl, fun _ _ => .inl rfl⟩

theorem exists_field_of_primaryKey {t : RecordType} {flags : Flags} (h : ofRecord t flags = .ok m)
    (hc : m.column? i = some c) (hprimary : c.primaryKey = true) :
    ∃ f p, c.field = some p ∧ t.fields[p]? = some f ∧ c.kind = f.type.kind := by
  have hm := represents_ofRecord h
  have hfield : ∃ p, c.field = some p := by
    obtain ⟨rfl, -⟩ | ⟨p, -, hshows⟩ := hm.behind hc
    · obtain rfl := Option.some.inj ((wellFormed_ofRecord h).sync.symm.trans hc)
      obtain ⟨-, hnot⟩ | ⟨f, p, hp, -⟩ := syncField_ofRecord h
      · rw [hprimary] at hnot
        cases hnot
      · exact ⟨p, hp⟩
    · exact ⟨p.2, hshows.field⟩
  obtain ⟨p, hp⟩ := hfield
  obtain ⟨f, hf, hkind⟩ := hm.exists_field hc ((field?_of_column? hc).trans hp)
  exact ⟨f, p, hp, hf, hkind⟩

/-- A record that took a row id, or none, differs from the one that was stored in its key only. -/
theorem takesId_of_withGeneratedKey {flags : Flags} (h : ofRecord e.type flags = .ok m)
    (he : e.Complete) (hauto : m.autoKey = some i) (hkey : m.key = some k)
    {id : Option (Sized .i64)} (hgenerated : m.withGeneratedKey e id = .ok e') :
    m.TakesId i k id e e' := by
  have hm := represents_ofRecord h
  obtain ⟨c, hc, -, hcounts⟩ := of_autoKey h hauto
  rw [withGeneratedKey_of_autoKey hauto hkey hc] at hgenerated
  cases id with
  | none =>
    cases hgenerated
    exact .refl m i k e
  | some a =>
    obtain ⟨v, hv, hset⟩ := except_bind_ok.1 hgenerated
    obtain ⟨d, hd, hprimary, -⟩ := (hm.key k).1 hkey
    obtain ⟨f, p, hp, hf, hkind⟩ := exists_field_of_primaryKey h hd hprimary
    have hfield : m.field? k = some p := (field?_of_column? hd).trans hp
    refine ⟨?_, fun hne => hm.get_of_set_ne hne.symm hset,
      fun j hj => .inl (hm.get_of_set_ne hj hset)⟩
    rintro _ ⟨⟩
    refine ⟨c, d, v, f, p, hc, hv, hd, hp, hf, ?_, fun hsame => ?_⟩
    · rw [get_of_field? hfield]
      rw [set_of_field? hfield] at hset
      exact Entity.read_of_set he hf hset
    have hheld := hm.get_of_set he hd (hsame ▸ Value.kind?_of_ofSql_stored hv rfl) hfield hset
    rw [hheld]
    exact holdsId_of_ofSql hv

end Mapping

namespace Act

variable {σ : Type} {s : Setup σ} {c c' : Connection σ} {m : Mapping} {e e' : Entity} {g : Guid}

section

variable {flags : Flags} (h : Mapping.ofRecord e.type flags = .ok m) (he : e.Complete)
include h he

theorem keeps_of_run_identify (hrun : (identify m e).run s c = (.ok (e', g), c')) :
    e'.Complete ∧ c'.world = c.world ∧ ∀ j, m.Keeps e e' j := by
  have hm := Mapping.represents_ofRecord h
  obtain ⟨rfl | hset, hw⟩ := of_run_identify hrun
  · exact ⟨he, hw, fun j => .inl rfl⟩
  refine ⟨(Mapping.alike_of_set hset).complete he, hw, fun j => ?_⟩
  by_cases hj : j = m.sync
  · subst hj
    obtain ⟨d, hd, hidentifies⟩ := hm.sync
    cases hp : m.field? m.sync with
    | none =>
      left
      rw [Mapping.get_of_field?_eq_none hp, Mapping.get_of_field?_eq_none hp]
    | some p =>
      refine .inr ⟨rfl, g, hm.get_of_set he hd ?_ hp hset⟩
      rw [hidentifies.kind]
      rfl
  · exact .inl (hm.get_of_set_ne hj hset)

/-- Beside its key a record that is prepared has changed in its identifier at most. -/
theorem keeps_of_run_prepare (hrun : (prepare m e).run s c = (.ok (e', g), c')) :
    e'.Complete ∧ c'.world = c.world ∧ ∀ j, m.key ≠ some j → m.Keeps e e' j := by
  obtain ⟨⟨e₁, g₁⟩, c₁, hidentify, hrun⟩ := of_run_bind_ok hrun
  obtain ⟨e₂, c₂, hfill, hrun⟩ := of_run_bind_ok hrun
  cases hrun
  obtain ⟨hcomplete, hw, hkept⟩ := keeps_of_run_identify h he hidentify
  obtain ⟨rfl, rfl, -⟩ | ⟨k, hkey, -, hset, rfl⟩ := of_run_fillKey hfill
  · exact ⟨hcomplete, hw, fun j _ => hkept j⟩
  · refine ⟨(Mapping.alike_of_set hset).complete hcomplete, hw, fun j hj => ?_⟩
    have hjk : j ≠ k := by
      rintro rfl
      exact hj hkey
    unfold Mapping.Keeps
    rw [(Mapping.represents_ofRecord h).get_of_set_ne hjk hset]
    exact hkept j

end

end Act

/-- A record that was prepared before it took a row id. -/
theorem Mapping.TakesId.after {m : Mapping} {i k : Nat} {id : Option (Sized .i64)}
    {e e₁ e' : Entity} (htakes : m.TakesId i k id e₁ e') (htype : e₁.type = e.type)
    (hi : i ≠ m.sync) (hkept : ∀ j, j ≠ k → m.Keeps e e₁ j) : m.TakesId i k id e e' where
  written a ha := by
    rw [← htype]
    exact htakes.written a ha
  missed hne := by
    obtain hsame | ⟨hsync, -⟩ := hkept i hne.symm
    · exact (htakes.missed hne).trans hsame
    · exact absurd hsync hi
  others j hj := by
    obtain hlast | hlast := htakes.others j hj
    · unfold Keeps
      rw [hlast]
      exact hkept j hj
    · exact .inr hlast

/-- The row id of an insert, for every list of fields that has a primary key column that counts up.
That column is the key exactly if no later field is part of the primary key. Through any connection
of a process whose caches were used by any calls, an insert that succeeds reads the id as the column
that counts up and writes it to the key, whatever the key is; a column that counts up beside the key
keeps its value. -/
theorem Act.insert_takesId {typeName table : String} {fields : List Field} {flags : Flags}
    {m : Mapping} {i : Nat} (h : Mapping.ofFields typeName table fields flags = .ok m)
    (hauto : m.autoKey = some i) :
    ∃ k, m.key = some k ∧
      (k = i ↔ ∀ j p, i < j → (Mapping.kept fields)[j]? = some p → p.1.isKey flags = false) ∧
      ∀ {σ : Type} (s : Setup σ) (calls : List Caches.Call) (c c' : Connection σ)
        (e e' : Entity) (mode : InsertMode) (n : Nat), e.Complete →
        ((Caches.run {} calls).behind c).mapping? e.type = some m →
        (insert e mode).run s ((Caches.run {} calls).behind c) = (.ok (e', .ok n), c') →
        ∃ params id,
          (s.driver.execute (s.insertText m mode) params c.world).1 = .ok ⟨n, id⟩ ∧
          m.TakesId i k (if n = 0 then none else id) e e' := by
  obtain ⟨col, hcol, hprimary, hcounts⟩ := Mapping.of_autoKey h hauto
  have hm := Mapping.ofFields_represents h
  obtain ⟨k, hkey⟩ := Mapping.exists_key h hcol hprimary
  refine ⟨k, hkey, Mapping.key_eq_iff_of_primaryKey h hkey hcol hprimary, ?_⟩
  intro σ s calls c c' e e' mode n he hmapped hrun
  have hc := (Caches.Sound.start.run calls).coherent c
  obtain ⟨hvalue, registry, e₁, g, c₁, commands, params, hprepare, -, -, hsettle⟩ :=
    of_run_insert_ok hc hmapped hrun
  obtain ⟨hcomplete, hw, hkept⟩ := keeps_of_run_prepare hvalue he hprepare
  have htype := type_of_run_prepare hprepare
  obtain ⟨id, c₂, hexec, hsettled⟩ := Enrolled.of_settle_ok hsettle
  obtain ⟨w, hanswer, -⟩ := of_run_exec_ok hexec
  refine ⟨params, id, ?_, ?_⟩
  · rw [← show c₁.world = c.world from hw]
    exact congrArg Prod.fst hanswer
  have htakes : m.TakesId i k (if n = 0 then none else id) e₁ e' := by
    obtain ⟨rfl, rfl, -⟩ | ⟨hn, hgenerated, -⟩ := hsettled
    · exact .refl m i k e'
    · rw [if_neg hn]
      rw [← htype] at hvalue
      exact Mapping.takesId_of_withGeneratedKey hvalue hcomplete hauto hkey hgenerated
  refine htakes.after htype (hm.ne_sync hcol hcounts) fun j hj => hkept j fun hj' => hj ?_
  exact Option.some.inj (hj'.symm.trans hkey)

/-- Two columns make up the key, and the first of them counts up. -/
def Samples.splitKeys : Mapping :=
  { typeName := "SplitKey"
    table := "SplitKey"
    columns := (Samples.splitKey.fields.zipIdx.map fun f => Column.ofField f.1 f.2 .none) ++
      [Column.sync]
    flags := .none
    key := some 1
    autoKey := some 0
    sync := 3 }

def Samples.splitKeyOf (seq part : Int) : Entity :=
  ⟨Samples.splitKey,
    [.int (Sized.clamp .i64 seq), .int (Sized.clamp .i64 part), .text "b"]⟩

/-- The id that was counted up for the first column replaces the value of the second one. -/
theorem Samples.splitKey_takesId :
    Mapping.ofFields "SplitKey" "SplitKey" Samples.splitKey.fields .none =
        .ok Samples.splitKeys ∧
      Samples.splitKeys.autoKey = some 0 ∧
      (Samples.splitKeyOf 1 4).Complete ∧
      ((Caches.run {} []).behind ({ world := () } : Connection Unit)).mapping? Samples.splitKey =
        some Samples.splitKeys ∧
      ∃ c',
        (Act.insert (Samples.splitKeyOf 1 4) .insert).run Samples.countingSetup
            ((Caches.run {} []).behind { world := () }) =
          (.ok (Samples.splitKeyOf 1 7, .ok 1), c') ∧
        Samples.splitKeys.TakesId 0 1 (some ⟨7, by decide⟩) (Samples.splitKeyOf 1 4)
          (Samples.splitKeyOf 1 7) := by
  have hmade : Mapping.ofFields "SplitKey" "SplitKey" Samples.splitKey.fields .none =
      .ok Samples.splitKeys := by decide +kernel
  have hcomplete : (Samples.splitKeyOf 1 4).Complete := by
    unfold Entity.Complete
    decide +kernel
  have hmapped : ((Caches.run {} []).behind ({ world := () } : Connection Unit)).mapping?
      Samples.splitKey = some Samples.splitKeys := by decide +kernel
  have hanswer : ((Act.insert (Samples.splitKeyOf 1 4) .insert).run Samples.countingSetup
      ((Caches.run {} []).behind { world := () })).1 =
        .ok (Samples.splitKeyOf 1 7, .ok 1) := by decide +kernel
  rcases hrun : (Act.insert (Samples.splitKeyOf 1 4) .insert).run Samples.countingSetup
    ((Caches.run {} []).behind { world := () }) with ⟨r, c'⟩
  rw [hrun] at hanswer
  subst hanswer
  obtain ⟨k, hkey, -, htakes⟩ := Act.insert_takesId hmade rfl
  obtain rfl : 1 = k := Option.some.inj hkey
  obtain ⟨params, id, hanswered, htaken⟩ :=
    htakes Samples.countingSetup [] _ c' _ _ .insert 1 hcomplete hmapped hrun
  cases hanswered
  exact ⟨hmade, rfl, hcomplete, hmapped, c', rfl, htaken⟩

end RowLedger
