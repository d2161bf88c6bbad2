import RowLedger.Proofs.Ledger.Inserting
import RowLedger.Proofs.Schema.Access

/-!
What an insert writes into its record: the identifier of the row, a key that is drawn where there
is none yet, and a key that the database has counted up.
-/

namespace RowLedger

/-- The version that a GUID tells of itself: 4 if it was drawn at random. -/
def Guid.version (g : Guid) : BitVec 4 := g.bits.extractLsb' 76 4

theorem Guid.ne_nil_of_version {g : Guid} (h : g.version = 4) : g ≠ .nil := by
  rintro rfl
  exact absurd h (by decide)

namespace Mapping

/-- At most one column is the primary key. -/
def SimpleKey (m : Mapping) : Prop := (m.columns.filter Column.primaryKey).length ≤ 1

variable {m : Mapping} {t : RecordType} {flags : Flags} {i : Nat} {c : Column}

theorem represents_ofRecord (h : ofRecord t flags = .ok m) : m.Represents t.fields :=
  ofFields_represents h

theorem key_of_primaryKey (h : ofRecord t flags = .ok m) (hkeys : m.SimpleKey)
    (hc : m.column? i = some c) (hprimary : c.primaryKey = true) : m.key = some i := by
  refine ((represents_ofRecord h).key i).2 ⟨c, hc, hprimary, fun j d hij hd => ?_⟩
  by_contra hne
  have hj : d.primaryKey = true := Bool.of_not_eq_false hne
  exact Nat.ne_of_lt hij (index_eq_of_filter hkeys hc hd hprimary hj)

theorem autoKey_ofRecord (h : ofRecord t flags = .ok m) :
    m.autoKey = m.columns.findIdx? fun c => c.primaryKey && c.autoIncrement := by
  obtain ⟨columns, sync, -, rfl⟩ := ofFields_ok h
  rfl

/-- The key counts up if its column does. -/
theorem autoKey_of_primaryKey (h : ofRecord t flags = .ok m) (hkeys : m.SimpleKey)
    (hc : m.column? i = some c) (hprimary : c.primaryKey = true) :
    m.autoKey = if c.autoIncrement = true then some i else none := by
  rw [autoKey_ofRecord h]
  split
  · next hcounts =>
    obtain ⟨hlt, rfl⟩ := List.getElem?_eq_some_iff.1 hc
    refine List.findIdx?_eq_some_iff_getElem.2 ⟨hlt, by rw [hprimary, hcounts]; rfl, ?_⟩
    intro j hj hboth
    obtain ⟨hj', -⟩ := Bool.and_eq_true_iff.1 hboth
    have hji := index_eq_of_filter hkeys (List.getElem?_eq_getElem _) hc hj' hprimary
    exact Nat.ne_of_lt hj hji
  · next hcounts =>
    refine List.findIdx?_eq_none_iff.2 fun d hd => Bool.eq_false_iff.2 fun hboth => ?_
    obtain ⟨hprimary', hcounts'⟩ := Bool.and_eq_true_iff.1 hboth
    obtain ⟨j, hj⟩ := List.mem_iff_getElem?.1 hd
    obtain rfl := index_eq_of_filter hkeys hj hc hprimary' hprimary
    obtain rfl := Option.some.inj (hj.symm.trans hc)
    exact hcounts hcounts'

theorem withGeneratedKey_of_primaryKey (h : ofRecord t flags = .ok m) (hkeys : m.SimpleKey)
    (hc : m.column? i = some c) (hprimary : c.primaryKey = true) (e : Entity)
    (id : Option (Sized .i64)) :
    m.withGeneratedKey e id =
      match c.autoIncrement, id with
      | true, some n => do m.set e i (← Value.ofSql c.kind (.bigInt n))
      | _, _ => .ok e := by
  unfold withGeneratedKey autoKeyColumn?
  rw [autoKey_of_primaryKey h hkeys hc hprimary, key_of_primaryKey h hkeys hc hprimary]
  cases c.autoIncrement with
  | false => rfl
  | true =>
    rw [if_pos rfl, Option.bind_some, hc]
    cases id <;> rfl

theorem withGeneratedKey_of_key_eq_none {m : Mapping} (h : m.key = none) (e : Entity)
    (id : Option (Sized .i64)) : m.withGeneratedKey e id = .ok e := by
  unfold withGeneratedKey
  rw [h]
  cases m.autoKeyColumn? <;> rfl

/-- A value is what a column reads a row id as; in an integer column it is the same number. -/
structure HoldsId (c : Column) (id : Sized .i64) (v : Value) : Prop where
  read : Value.ofSql c.kind (.bigInt id) = .ok v
  number (w : Width) : c.kind = .int w → ∃ n : Sized w, v = .int n ∧ n.val = id.val

theorem holdsId_of_ofSql {c : Column} {id : Sized .i64} {v : Value}
    (h : Value.ofSql c.kind (.bigInt id) = .ok v) : HoldsId c id v := by
  refine ⟨h, fun w hw => ?_⟩
  rw [hw] at h
  have hread : Value.ofSql (.int w) (.bigInt id) = Decode.sized w (.bigInt id) := rfl
  rw [hread] at h
  obtain ⟨n, hn, h⟩ := except_bind_ok.1 h
  cases hn
  split at h
  · next a ha =>
    cases h
    exact ⟨a, rfl, Sized.ofInt?_eq_some.1 ha⟩
  · cases h

/-- A column of the primary key that is not the identifying one. -/
structure KeyAt (m : Mapping) (i : Nat) (c : Column) : Prop where
  column : m.column? i = some c
  primary : c.primaryKey = true
  ne_sync : i ≠ m.sync

/-- What a record becomes once it takes the key that the database has counted up. -/
structure Counts (m : Mapping) (id : Option (Sized .i64)) (e e' : Entity) : Prop where
  counted (i : Nat) (c : Column) (n : Sized .i64) : m.KeyAt i c → c.autoIncrement = true →
    id = some n → HoldsId c n (m.get e' i)
  kept (i : Nat) (c : Column) : m.KeyAt i c → (c.autoIncrement = true → id = none) →
    m.get e' i = m.get e i
  sync : m.get e' m.sync = m.get e m.sync
  alike : e.Alike (fun p => ∀ i c, m.KeyAt i c → m.field? i ≠ some p) e'

theorem Counts.refl {id : Option (Sized .i64)}
    (h : ∀ i c, m.KeyAt i c → c.autoIncrement = true → id = none) (e : Entity) :
    m.Counts id e e where
  counted i c n hk hcounts hid := by
    rw [h i c hk hcounts] at hid
    cases hid
  kept _ _ _ _ := rfl
  sync := rfl
  alike := .refl _ e

theorem keyAt_of_autoIncrement (h : ofRecord t flags = .ok m) (hc : m.column? i = some c)
    (hprimary : c.primaryKey = true) (hcounts : c.autoIncrement = true) : m.KeyAt i c :=
  ⟨hc, hprimary, (represents_ofRecord h).ne_sync hc hcounts⟩

theorem withGeneratedKey_eq_self (h : ofRecord t flags = .ok m) (hkeys : m.SimpleKey)
    {id : Option (Sized .i64)} (hid : ∀ i c, m.KeyAt i c → c.autoIncrement = true → id = none)
    (e : Entity) : m.withGeneratedKey e id = .ok e := by
  cases hkey : m.key with
  | none => exact withGeneratedKey_of_key_eq_none hkey e id
  | some i =>
    obtain ⟨c, hc, hprimary, -⟩ := ((represents_ofRecord h).key i).1 hkey
    rw [withGeneratedKey_of_primaryKey h hkeys hc hprimary]
    cases hcounts : c.autoIncrement with
    | false => rfl
    | true =>
      rw [hid i c (keyAt_of_autoIncrement h hc hprimary hcounts) hcounts]

theorem counts_of_withGeneratedKey {e e' : Entity} {id : Option (Sized .i64)}
    (h : ofRecord e.type flags = .ok m) (hkeys : m.SimpleKey) (he : e.Complete)
    (hgenerated : m.withGeneratedKey e id = .ok e') : m.Counts id e e' := by
  have hm := represents_ofRecord h
  by_cases hcounts : ∃ i c n, m.KeyAt i c ∧ c.autoIncrement = true ∧ id = some n
  · obtain ⟨i, c, n, hk, hcounts, rfl⟩ := hcounts
    rw [withGeneratedKey_of_primaryKey h hkeys hk.column hk.primary, hcounts] at hgenerated
    obtain ⟨v, hv, hset⟩ := except_bind_ok.1 hgenerated
    obtain ⟨p, hp⟩ := hm.field?_of_ne hk.column hk.ne_sync
    have hheld := hm.get_of_set he hk.column (Value.kind?_of_ofSql_stored hv rfl) hp hset
    have hone {j : Nat} {d : Column} (hj : m.KeyAt j d) : j = i :=
      index_eq_of_filter hkeys hj.column hk.column hj.primary hk.primary
    refine ⟨fun j d a hj _ ha => ?_, fun j d hj hnone => ?_, ?_, ?_⟩
    · obtain rfl := hone hj
      cases ha
      obtain rfl := Option.some.inj (hk.column.symm.trans hj.column)
      rw [hheld]
      exact holdsId_of_ofSql hv
    · obtain rfl := hone hj
      obtain rfl := Option.some.inj (hk.column.symm.trans hj.column)
      cases hnone hcounts
    · exact hm.get_of_set_ne hk.ne_sync.symm hset
    · exact (alike_of_set hset).mono fun p hp => hp i c hk
  · -- nothing is written
    have hnone (i : Nat) (c : Column) (hk : m.KeyAt i c) (hauto : c.autoIncrement = true) :
        id = none := by
      by_contra hid
      obtain ⟨n, hn⟩ := Option.ne_none_iff_exists'.1 hid
      exact hcounts ⟨i, c, n, hk, hauto, hn⟩
    rw [withGeneratedKey_eq_self h hkeys hnone] at hgenerated
    cases hgenerated
    exact .refl hnone e

/-- Only GUIDs are drawn. -/
theorem kind_of_autoGuid (h : ofRecord t flags = .ok m) (hc : m.column? i = some c)
    (hdrawn : c.autoGuid = true) : c.kind = .guid := by
  obtain ⟨columns, sync, hsync, rfl⟩ := ofFields_ok h
  obtain ⟨⟨d, hd, -, hidentifies⟩, hothers⟩ := withSync_at hsync
  by_cases hi : i = sync
  · subst hi
    obtain rfl := Option.some.inj (hd.symm.trans hc)
    exact hidentifies.kind
  · have hc' : (columnsOf flags t.fields)[i]? = some c := (hothers i hi).symm.trans hc
    obtain ⟨f, j, -, rfl⟩ := (ofFields_columnsOf flags t.fields).2 c (List.mem_of_getElem? hc')
    exact beq_iff_eq.1 (Bool.and_eq_true_iff.1 hdrawn).2

/-- What a record becomes before it is stored, with identifiers drawn from one point to another. -/
structure Prepares (m : Mapping) (guid : Nat → Guid) (i j : Nat) (e e' : Entity) : Prop where
  drawn : i < j
  sync : m.hasField m.sync = true → m.get e' m.sync = .guid (guid i)
  /-- A key is drawn where there is none yet. -/
  fresh (k : Nat) : m.key = some k → k ≠ m.sync → m.lacksGuidKey e k = true →
    ∃ l, i < l ∧ l < j ∧ m.get e' k = .guid (guid l)
  kept (k : Nat) : m.key = some k → k ≠ m.sync → m.lacksGuidKey e k = false →
    m.get e' k = m.get e k
  alike : e.Alike (fun p => m.field? m.sync ≠ some p ∧ ∀ k, m.key = some k → m.field? k ≠ some p) e'

theorem lacksGuidKey_iff {e : Entity} {k : Nat} {col : Column} (hcol : m.column? k = some col) :
    m.lacksGuidKey e k = true ↔
      col.autoGuid = true ∧ (m.get e k = .null ∨ m.get e k = .guid .nil) := by
  rw [lacksGuidKey, hcol, Option.map_some, Option.getD_some, Bool.and_eq_true]
  cases m.get e k <;> simp

/-! A record that is prepared and then takes the key that was counted up. -/

namespace Prepares

variable {guid : Nat → Guid} {first last : Nat} {e e₁ e' : Entity} {id : Option (Sized .i64)}

section

variable (hp : m.Prepares guid first last e e₁) (hcounts : m.Counts id e₁ e')
  (h : ofRecord t flags = .ok m)
include hp hcounts h

theorem alike_of_counts : Entity.Alike
    (fun p => m.field? m.sync ≠ some p ∧ ∀ k col, m.KeyAt k col → m.field? k ≠ some p) e e' := by
  refine (hp.alike.mono fun p hp => ⟨hp.1, fun k hk => ?_⟩).trans
    (hcounts.alike.mono fun p hp => hp.2)
  by_cases hsync : k = m.sync
  · rw [hsync]
    exact hp.1
  · obtain ⟨col, hcol, hprimary, -⟩ := ((represents_ofRecord h).key k).1 hk
    exact hp.2 k col ⟨hcol, hprimary, hsync⟩

variable (hkeys : m.SimpleKey) {k : Nat} {col : Column} (hk : m.KeyAt k col)
include hkeys hk

theorem key_of_lacking (hauto : col.autoGuid = true)
    (hlacks : m.get e k = .null ∨ m.get e k = .guid .nil) :
    ∃ j, first < j ∧ j < last ∧ m.get e₁ k = .guid (guid j) ∧ m.get e' k = .guid (guid j) := by
  have hlacking := (lacksGuidKey_iff hk.column).2 ⟨hauto, hlacks⟩
  have hkey := key_of_primaryKey h hkeys hk.column hk.primary
  obtain ⟨j, hfirst, hlast, hget⟩ := hp.fresh k hkey hk.ne_sync hlacking
  refine ⟨j, hfirst, hlast, hget, (hcounts.kept k col hk fun hcounting => ?_).trans hget⟩
  -- a GUID does not count up, so that the key stays as it was drawn
  have hkind := kind_of_autoGuid h hk.column hauto
  rw [(represents_ofRecord h).guids col (List.mem_of_getElem? hk.column) hkind] at hcounting
  cases hcounting

theorem key_of_kept
    (hhas : ¬(col.autoGuid = true ∧ (m.get e k = .null ∨ m.get e k = .guid .nil)))
    (hid : col.autoIncrement = true → id = none) : m.get e' k = m.get e k := by
  have hlacking : m.lacksGuidKey e k = false := by
    rw [← Bool.not_eq_true, lacksGuidKey_iff hk.column]
    exact hhas
  have hkey := key_of_primaryKey h hkeys hk.column hk.primary
  exact (hcounts.kept k col hk hid).trans (hp.kept k hkey hk.ne_sync hlacking)

end

end Prepares

end Mapping

namespace Act

variable {σ : Type} {s : Setup σ} {c c' : Connection σ} {m : Mapping} {e e' : Entity}

/-- A key is drawn if there is none yet. -/
theorem of_run_fillKey (hrun : (fillKey m e).run s c = (.ok e', c')) :
    (e' = e ∧ c' = c ∧ ∀ k, m.key = some k → m.lacksGuidKey e k = false) ∨
      ∃ k, m.key = some k ∧ m.lacksGuidKey e k = true ∧
        m.set e k (.guid (s.guid c.guidsDrawn)) = .ok e' ∧
        c' = { c with guidsDrawn := c.guidsDrawn + 1 } := by
  unfold fillKey at hrun
  split at hrun
  · next hkey =>
    cases hrun
    exact .inl ⟨rfl, rfl, fun k hk => by rw [hkey] at hk; cases hk⟩
  · next k hkey =>
    rw [run_ite] at hrun
    split at hrun
    · next hlacks =>
      rw [run_bind_ok _ run_drawGuid, run_ofExcept] at hrun
      obtain ⟨hset, rfl⟩ := Prod.mk.inj hrun
      exact .inr ⟨k, hkey, hlacks, hset, rfl⟩
    · next hlacks =>
      cases hrun
      refine .inl ⟨rfl, rfl, fun j hj => ?_⟩
      obtain rfl := Option.some.inj (hkey.symm.trans hj)
      exact Bool.eq_false_iff.2 hlacks

theorem lacksGuidKey_congr {k : Nat} (h : m.get e' k = m.get e k) :
    m.lacksGuidKey e' k = m.lacksGuidKey e k := by
  rw [Mapping.lacksGuidKey, h, ← Mapping.lacksGuidKey]

theorem autoGuid_of_lacksGuidKey {k : Nat} {col : Column} (h : m.lacksGuidKey e k = true)
    (hcol : m.column? k = some col) : col.autoGuid = true := by
  rw [Mapping.lacksGuidKey, hcol] at h
  exact (Bool.and_eq_true_iff.1 h).1

section

variable {flags : Flags} (h : Mapping.ofRecord e.type flags = .ok m)
include h

/-- An identifier that is also the key is not drawn twice. -/
theorem lacksGuidKey_sync {g : Guid} (hg : g ≠ .nil) (hkey : m.key = some m.sync)
    (hsync : m.hasField m.sync = true → m.get e' m.sync = .guid g) :
    m.lacksGuidKey e' m.sync = false := by
  have hcolumn := (Mapping.wellFormed_ofRecord h).sync
  have hprimary : m.syncColumn.primaryKey = true := by
    refine Mapping.primaryKey_ofRecord h ?_
    rw [Mapping.keyColumn?, hkey, Option.bind_some, hcolumn]
  obtain ⟨-, hnot⟩ | ⟨f, p, hp, -⟩ := Mapping.syncField_ofRecord h
  · rw [hprimary] at hnot
    cases hnot
  · have hfield : m.hasField m.sync = true := by
      rw [Mapping.hasField, hcolumn, Option.bind_some, hp, Option.isSome_some]
    rw [Mapping.lacksGuidKey, hsync hfield]
    simp [hg]

theorem prepares_of_run (hledger : isLedger m = false) (hguid : ∀ n, s.guid n ≠ .nil)
    (he : e.Complete) {g : Guid} (hrun : (prepare m e).run s c = (.ok (e', g), c')) :
    g = s.guid c.guidsDrawn ∧ m.Prepares s.guid c.guidsDrawn c'.guidsDrawn e e' ∧
      c' = { c with guidsDrawn := c'.guidsDrawn } := by
  have hm := Mapping.represents_ofRecord h
  obtain ⟨col, hcol, hidentifies⟩ := hm.sync
  obtain ⟨⟨e₁, g₁⟩, c₁, hidentify, hrun⟩ := of_run_bind_ok hrun
  obtain ⟨e₂, c₂, hfill, hrun⟩ := of_run_bind_ok hrun
  cases hrun
  rw [run_identify hledger] at hidentify
  obtain ⟨hmap, rfl⟩ := Prod.mk.inj hidentify
  obtain ⟨e₁, hset, hpair⟩ := except_map_ok.1 hmap
  cases hpair
  -- The identifier is there, and nothing else has changed so far.
  have hsync (hfield : m.hasField m.sync = true) :
      m.get e₁ m.sync = .guid (s.guid c.guidsDrawn) := by
    obtain ⟨p, hp⟩ := Option.isSome_iff_exists.1 hfield
    refine hm.get_of_set he hcol ?_ hp hset
    rw [hidentifies.kind]
    rfl
  have hkept (k : Nat) (hk : k ≠ m.sync) : m.get e₁ k = m.get e k := hm.get_of_set_ne hk hset
  have halike := Mapping.alike_of_set hset
  refine ⟨rfl, ?_, ?_⟩
  · obtain ⟨rfl, rfl, hno⟩ | ⟨k, hkey, hlacks, hset', rfl⟩ := of_run_fillKey hfill
    · refine ⟨Nat.lt_succ_self _, hsync, fun k hk hne hlacks => ?_, fun k _ hne _ => hkept k hne,
        halike.mono fun p hp => hp.1⟩
      rw [← lacksGuidKey_congr (hkept k hne), hno k hk] at hlacks
      cases hlacks
    · obtain ⟨kcol, hkcol, -⟩ := (hm.key k).1 hkey
      have hne : k ≠ m.sync := by
        rintro rfl
        rw [lacksGuidKey_sync h (hguid _) hkey hsync] at hlacks
        cases hlacks
      have hkey' {j : Nat} (hj : m.key = some j) : j = k := Option.some.inj (hj.symm.trans hkey)
      obtain ⟨p, hp⟩ := hm.field?_of_ne hkcol hne
      have hdrawn : m.get e' k = .guid (s.guid (c.guidsDrawn + 1)) := by
        rw [← halike.type] at hm
        refine hm.get_of_set (halike.complete he) hkcol ?_ hp hset'
        rw [Mapping.kind_of_autoGuid h hkcol (autoGuid_of_lacksGuidKey hlacks hkcol)]
        rfl
      refine ⟨Nat.lt_add_of_pos_right Nat.two_pos, fun hfield => ?_, fun j hj _ _ => ?_,
        fun j hj _ hhas => ?_, ?_⟩
      · rw [hm.get_of_set_ne hne.symm hset']
        exact hsync hfield
      · obtain rfl := hkey' hj
        exact ⟨_, Nat.lt_succ_self _, Nat.lt_succ_self _, hdrawn⟩
      · obtain rfl := hkey' hj
        rw [lacksGuidKey_congr (hkept j hne), hhas] at hlacks
        cases hlacks
      · exact (halike.mono fun p hp => hp.1).trans
          ((Mapping.alike_of_set hset').mono fun p hp => hp.2 k hkey)
  · obtain ⟨-, rfl, -⟩ | ⟨k, -, -, -, rfl⟩ := of_run_fillKey hfill <;> rfl

end

end Act

end RowLedger
