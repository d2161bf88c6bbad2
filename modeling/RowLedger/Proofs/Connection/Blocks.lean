import RowLedger.Proofs.Connection.Work

/-!
Transactions written as nested blocks, each opened by a savepoint and closed by its release, on a
database that refuses nothing: the texts that reach it, and the names in them.
-/

namespace RowLedger

/-- A sequence of statements and of blocks around sequences, each block with a label. -/
inductive Blocks (ν : Type)
  | done
  | issue (i : Issue) (rest : Blocks ν)
  | block (label : ν) (inner rest : Blocks ν)
  deriving DecidableEq

namespace Blocks

variable {σ ν : Type}

def unlabelled : Blocks ν → Blocks Unit
  | done => done
  | issue i rest => issue i rest.unlabelled
  | block _ inner rest => block () inner.unlabelled rest.unlabelled

/-- How deep the blocks are nested. -/
def height : Blocks ν → Nat
  | done => 0
  | issue _ rest => rest.height
  | block _ inner rest => max (inner.height + 1) rest.height

/-- The label of a block is neither one of those around it nor one of the given. -/
def Apart : List ν → Blocks ν → Prop
  | _, done => True
  | around, issue _ rest => rest.Apart around
  | around, block label inner rest =>
    label ∉ around ∧ inner.Apart (label :: around) ∧ rest.Apart around

/-- A block runs between a savepoint and the release of that savepoint. -/
def act : Blocks Unit → Act σ Unit
  | done => return
  | issue i rest => do
    let _ ← i.perform
    rest.act
  | block _ inner rest => do
    let name ← Act.save
    inner.act
    Act.release name
    rest.act

def inTransaction (b : Blocks Unit) : Act σ Unit := do
  Act.begin
  b.act
  Act.commit

end Blocks

/-- A text that a driver receives: a statement of the program, a command, or the beginning of a
transaction together with its first savepoint. -/
inductive Noted
  | statement (sql : String)
  | command (k : Physical.Command)
  | beginning (name : String)
  deriving DecidableEq

namespace Noted

/-- Only SQL Server begins a transaction that way. -/
def text? : Dialect → Noted → Option String
  | _, statement sql => some sql
  | d, command k => k.text? d
  | .sqlite, beginning _ => none
  | .sqlServer, beginning name => some ("begin transaction; save transaction " ++ name)

def commands : Noted → List Physical.Command
  | statement _ => []
  | command k => [k]
  | beginning name => [.begin, .save name]

/-- Nothing that begins or ends a transaction; in SQL Server no releases either. -/
def Within (d : Dialect) (noted : List Noted) : Prop :=
  ∀ k ∈ noted.flatMap commands,
    (∃ name, k = .save name) ∨ d = .sqlite ∧ ∃ name, k = .release name

end Noted

/-- What a sequence inside a transaction issues when its blocks have these names. SQL Server has
nothing to say at the end of a block. -/
def Blocks.noted (d : Dialect) : Blocks String → List Noted
  | done => []
  | issue i rest => .statement i.sql :: rest.noted d
  | block name inner rest =>
    match d with
    | .sqlite =>
      .command (.save name) :: inner.noted d ++ .command (.release name) :: rest.noted d
    | .sqlServer => .command (.save name) :: inner.noted d ++ rest.noted d

theorem Blocks.noted_within (d : Dialect) (b : Blocks String) : Noted.Within d (b.noted d) := by
  intro k h
  induction b with
  | done => cases h
  | issue i rest ih => exact ih h
  | block name inner rest ihinner ihrest =>
    cases d <;> simp only [noted, List.flatMap_cons, List.flatMap_append, Noted.commands,
      List.mem_append, List.mem_singleton] at h
    · rcases h with (rfl | h) | rfl | h
      · exact .inl ⟨name, rfl⟩
      · exact ihinner h
      · exact .inr ⟨rfl, name, rfl⟩
      · exact ihrest h
    · rcases h with (rfl | h) | h
      · exact .inl ⟨name, rfl⟩
      · exact ihinner h
      · exact ihrest h

namespace Setup

variable {σ : Type} {s : Setup σ}

/-- Every statement succeeds. -/
def Succeeds (s : Setup σ) : Prop :=
  ∀ (i : Issue) (w : σ), ∃ a w', i.reply s.driver w = (.ok a, w')

theorem Succeeds.executes (hs : s.Succeeds) (sql : String) (params : List Param)
    (w : σ × List String) :
    ∃ r w', s.noting.driver.execute sql params w = (.ok r, (w', w.2 ++ [sql])) := by
  obtain ⟨a, w', h⟩ := hs (.execute sql params) w.1
  rcases hr : s.driver.execute sql params w.1 with ⟨e | r, w₁⟩
  · rw [Issue.reply, hr] at h
    cases h
  · refine ⟨r, w₁, ?_⟩
    change ((s.driver.execute sql params w.1).1, (s.driver.execute sql params w.1).2, _) = _
    rw [hr]

/-- The texts noted from one point to another. -/
def Notes (s : Setup σ) (c c' : Connection (σ × List String)) (noted : List Noted) : Prop :=
  ∃ texts, c'.world.2 = c.world.2 ++ texts ∧
    texts.map some = noted.map (Noted.text? s.config.dialect)

variable {c c₁ c₂ : Connection (σ × List String)} {l l₁ l₂ : List Noted}

theorem Notes.refl (s : Setup σ) (c : Connection (σ × List String)) : s.Notes c c [] :=
  ⟨[], (List.append_nil _).symm, rfl⟩

theorem Notes.trans (h₁ : s.Notes c c₁ l₁) (h₂ : s.Notes c₁ c₂ l₂) : s.Notes c c₂ (l₁ ++ l₂) := by
  obtain ⟨t₁, hw₁, ht₁⟩ := h₁
  obtain ⟨t₂, hw₂, ht₂⟩ := h₂
  refine ⟨t₁ ++ t₂, ?_, ?_⟩
  · rw [hw₂, hw₁, List.append_assoc]
  · rw [List.map_append, ht₁, ht₂, List.map_append]

theorem Notes.of_text {x : Noted} {sql : String} (h : c₁.world.2 = c.world.2 ++ [sql])
    (hsql : x.text? s.config.dialect = some sql) : s.Notes c c₁ [x] :=
  ⟨[sql], h, by rw [List.map_singleton, List.map_singleton, hsql]⟩

/-- What opens a savepoint at a depth. -/
def opening (s : Setup σ) (name : String) (depth : Nat) : Noted :=
  if s.config.dialect = .sqlServer ∧ depth = 0 then .beginning name else .command (.save name)

theorem text?_opening (s : Setup σ) (name : String) (depth : Nat) :
    (s.opening name depth).text? s.config.dialect = some (s.savepointText name depth) := by
  cases hd : s.config.dialect <;> by_cases h0 : depth = 0 <;>
    simp [opening, Noted.text?, Physical.Command.text?, savepointText, Dialect.savepoint,
      Dialect.render, Dialect.renderPiece, hd, h0]

/-- What releases it. -/
def closing (s : Setup σ) (name : String) (depth : Nat) : List Noted :=
  match s.config.dialect with
  | .sqlite => [.command (.release name)]
  | .sqlServer => if depth = 0 then [.command .commit] else []

theorem text?_closing (s : Setup σ) (name : String) (depth : Nat) :
    (s.closing name depth).map (Noted.text? s.config.dialect) =
      (s.releaseText? name depth).toList.map some := by
  cases hd : s.config.dialect <;> by_cases h0 : depth = 0 <;>
    simp [closing, Noted.text?, Physical.Command.text?, releaseText?, Dialect.release?,
      Dialect.commit, Dialect.render, Dialect.renderPiece, hd, h0]

end Setup

namespace Act

variable {σ : Type} {s : Setup σ} {c : Connection (σ × List String)}

theorem run_perform_noted (hs : s.Succeeds) (i : Issue) (c : Connection (σ × List String)) :
    ∃ a c', i.perform.run s.noting c = (.ok a, c') ∧ c'.depth = c.depth ∧
      s.Notes c c' [.statement i.sql] := by
  obtain ⟨a, w, h⟩ := hs i c.world.1
  obtain ⟨ha, rfl⟩ := Prod.mk.inj h
  have hreply : (i.reply s.noting.driver c.world).1 = .ok a := by
    rw [← ha]
    cases i <;> rfl
  rw [Issue.run_perform, hreply]
  exact ⟨a, _, rfl, rfl, .of_text (by cases i <;> rfl) rfl⟩

/-- A statement of the connection itself. -/
theorem run_exec_noted (hs : s.Succeeds) {x : Noted} {sql : Sql}
    (hx : x.text? s.config.dialect = some (s.config.dialect.render sql))
    (c : Connection (σ × List String)) :
    ∃ r c', (exec sql []).run s.noting c = (.ok r, c') ∧ c'.depth = c.depth ∧ s.Notes c c' [x] := by
  obtain ⟨r, w, hr⟩ := hs.executes (s.config.dialect.render sql) [] c.world
  exact ⟨r, _, run_exec_ok hr, rfl, .of_text rfl hx⟩

theorem run_begin_noted (hs : s.Succeeds) (hd : c.depth = 0) :
    ∃ c', begin.run s.noting c = (.ok (), c') ∧ c'.depth = 1 ∧
      s.Notes c c' [.command .begin] := by
  have htext : (Noted.command .begin).text? s.config.dialect =
      some (s.config.dialect.render Dialect.begin) := by
    cases s.config.dialect <;> rfl
  obtain ⟨r, c', hexec, hdepth, hnoted⟩ := run_exec_noted hs htext { c with depth := 1 }
  refine ⟨c', ?_, hdepth, hnoted⟩
  rw [run_begin_sql hd]
  exact run_openLevel_ok hexec

theorem run_commit_noted (hs : s.Succeeds) (hd : 0 < c.depth) :
    ∃ c', commit.run s.noting c = (.ok (), c') ∧ c'.depth = 0 ∧
      s.Notes c c' [.command .commit] := by
  have htext : (Noted.command .commit).text? s.config.dialect =
      some (s.config.dialect.render s.config.dialect.commit) := by
    cases s.config.dialect <;> rfl
  obtain ⟨r, c', hexec, hdepth, hnoted⟩ := run_exec_noted hs htext { c with depth := 0 }
  exact ⟨c', run_commit_ok hd hexec, hdepth, hnoted⟩

theorem run_save_noted (hs : s.Succeeds) (c : Connection (σ × List String)) :
    ∃ c', save.run s.noting c = (.ok (nextName s.noting c), c') ∧ c'.depth = c.depth + 1 ∧
      s.Notes c c' [s.opening (nextName s.noting c) c.depth] := by
  obtain ⟨r, w, hr⟩ := hs.executes (s.savepointText (nextName s.noting c) c.depth) [] c.world
  exact ⟨_, run_save_ok hr, rfl, .of_text rfl (s.text?_opening _ _)⟩

theorem run_release_noted (hs : s.Succeeds) {name : String} {k : Nat}
    (hk : Savepoint.depth? name = some k) (hlt : k < c.depth) :
    ∃ c', (release name).run s.noting c = (.ok (), c') ∧ c'.depth = k ∧
      s.Notes c c' (s.closing name k) := by
  have hclosing := s.text?_closing name k
  rcases run_release_cases (s := s.noting) hk hlt with ⟨hnone, hrun⟩ | ⟨sql, hsql, hrun⟩
  · refine ⟨_, hrun, rfl, [], (List.append_nil _).symm, ?_⟩
    rw [hclosing, show s.releaseText? name k = none from hnone]
    rfl
  · obtain ⟨r, w, hr⟩ := hs.executes sql [] c.world
    rcases hrun with ⟨r', w', hexec, hrun⟩ | ⟨e, w', hexec, -⟩
    · rw [hr] at hexec
      obtain ⟨-, rfl⟩ := Prod.mk.inj hexec
      refine ⟨_, hrun, rfl, [sql], rfl, ?_⟩
      rw [hclosing, show s.releaseText? name k = some sql from hsql]
      rfl
    · rw [hr] at hexec
      cases hexec

end Act

namespace Blocks

variable {σ : Type} {s : Setup σ} {c : Connection (σ × List String)}

/-- The savepoints around tell depths less than a given one. -/
def Below (depth : Nat) (around : List String) : Prop :=
  ∀ name ∈ around, ∃ k < depth, Savepoint.depth? name = some k

theorem Below.cons {depth : Nat} {around : List String} {name : String} (h : Below depth around)
    (hname : Savepoint.depth? name = some depth) : Below (depth + 1) (name :: around) := by
  intro n hn
  rcases List.mem_cons.mp hn with rfl | hn
  · exact ⟨depth, Nat.lt_succ_self depth, hname⟩
  · obtain ⟨k, hk, hkn⟩ := h n hn
    exact ⟨k, Nat.lt_succ_of_lt hk, hkn⟩

theorem Below.not_mem {depth : Nat} {around : List String} {name : String} (h : Below depth around)
    (hname : Savepoint.depth? name = some depth) : name ∉ around := by
  intro hmem
  obtain ⟨k, hk, hkn⟩ := h name hmem
  rw [hname, Option.some.injEq] at hkn
  exact absurd hkn (Nat.ne_of_gt hk)

/-- A run inside a transaction, and the names that the blocks get in it. -/
structure Runs (s : Setup σ) (b : Blocks Unit) (around : List String)
    (c c' : Connection (σ × List String)) (named : Blocks String) : Prop where
  erased : named.unlabelled = b
  apart : named.Apart around
  run : b.act.run s.noting c = (.ok (), c')
  depth : c'.depth = c.depth
  notes : s.Notes c c' (named.noted s.config.dialect)

/-- One block, at any depth. -/
theorem run_block (hs : s.Succeeds) {inner : Blocks Unit} {around : List String}
    (hsize : c.depth < UInt64.size)
    (hinner : ∀ name c₁, Savepoint.depth? name = some c.depth → c₁.depth = c.depth + 1 →
      ∃ named c₂, Runs s inner (name :: around) c₁ c₂ named) :
    ∃ (name : String) (named : Blocks String) (c' : Connection (σ × List String)),
      Savepoint.depth? name = some c.depth ∧
      named.unlabelled = inner ∧ named.Apart (name :: around) ∧
      (∀ rest, (block () inner rest).act.run s.noting c = rest.act.run s.noting c') ∧
      c'.depth = c.depth ∧
      s.Notes c c' (s.opening name c.depth :: named.noted s.config.dialect ++
        s.closing name c.depth) := by
  have hname : Savepoint.depth? (Act.nextName s.noting c) = some c.depth := by
    rw [Act.nextName, Savepoint.depth?_name, Option.filter_some, if_pos (decide_eq_true hsize)]
  obtain ⟨c₁, hsave, hdepth₁, hopened⟩ := Act.run_save_noted hs c
  obtain ⟨named, c₂, hruns⟩ := hinner _ c₁ hname hdepth₁
  have hlt : c.depth < c₂.depth := by
    rw [hruns.depth, hdepth₁]
    exact Nat.lt_succ_self _
  obtain ⟨c₃, hrelease, hdepth₃, hclosed⟩ := Act.run_release_noted hs hname hlt
  refine ⟨_, named, c₃, hname, hruns.erased, hruns.apart, fun rest => ?_, hdepth₃,
    (hopened.trans hruns.notes).trans hclosed⟩
  rw [act, Act.run_bind_ok _ hsave, Act.run_bind_ok _ hruns.run, Act.run_bind_ok _ hrelease]

/-- A sequence inside a transaction runs through and leaves the depth as it was. The induction is
on the sequence: what is inside a block runs one level deeper, with one more name around it. -/
theorem runs (hs : s.Succeeds) (b : Blocks Unit) (c : Connection (σ × List String))
    (around : List String) (hpos : 0 < c.depth) (hfit : c.depth + b.height ≤ UInt64.size)
    (hbelow : Below c.depth around) : ∃ named c', Runs s b around c c' named := by
  induction b generalizing c around with
  | done => exact ⟨done, c, rfl, trivial, rfl, rfl, .refl s c⟩
  | issue i rest ih =>
    obtain ⟨a, c₁, hperform, hdepth, hnoted⟩ := Act.run_perform_noted hs i c
    obtain ⟨named, c₂, hruns⟩ :=
      ih c₁ around (by rwa [hdepth]) (by rwa [hdepth]) (by rwa [hdepth])
    refine ⟨issue i named, c₂, ?_, hruns.apart, ?_, hruns.depth.trans hdepth,
      hnoted.trans hruns.notes⟩
    · rw [unlabelled, hruns.erased]
    · rw [act, Act.run_bind_ok _ hperform, hruns.run]
  | block label inner rest ihinner ihrest =>
    rw [height] at hfit
    -- the name tells its depth, which the names around it do not reach
    have hin : c.depth + 1 + inner.height ≤ UInt64.size := by omega
    have hout : c.depth + rest.height ≤ UInt64.size := by omega
    have hinner : ∀ name c₁, Savepoint.depth? name = some c.depth → c₁.depth = c.depth + 1 →
        ∃ named c₂, Runs s inner (name :: around) c₁ c₂ named := by
      intro name c₁ hname hdepth₁
      refine ihinner c₁ _ ?_ ?_ ?_ <;> rw [hdepth₁]
      · exact Nat.succ_pos _
      · exact hin
      · exact hbelow.cons hname
    obtain ⟨name, innerNamed, c₁, hname, herased, hapart, hrun, hdepth, hnoted⟩ :=
      run_block hs (by omega) hinner
    obtain ⟨restNamed, c₂, hrest⟩ :=
      ihrest c₁ around (by rwa [hdepth]) (by rwa [hdepth]) (by rwa [hdepth])
    refine ⟨block name innerNamed restNamed, c₂, ?_, ⟨hbelow.not_mem hname, hapart, hrest.apart⟩,
      (hrun rest).trans hrest.run, hrest.depth.trans hdepth, ?_⟩
    · rw [unlabelled, herased, hrest.erased]
    · -- above depth zero a block neither begins nor commits anything
      have hnotes := hnoted.trans hrest.notes
      have h0 : c.depth ≠ 0 := Nat.pos_iff_ne_zero.1 hpos
      unfold Setup.opening Setup.closing at hnotes
      cases hd : s.config.dialect <;> simpa [noted, hd, h0] using hnotes

/-- From outside transactions and where every statement succeeds, blocks nested to any height, up to
the levels that a count of 64 bits can tell apart, end outside transactions. Between a beginning and
a commit they issue these two, first and last, and nothing but savepoints and releases of the same
names in between; SQL Server releases nothing. A block on its own begins and commits nothing in
SQLite, and in SQL Server what its savepoint has begun is committed in place of the release. No
name is that of a block around it. -/
theorem physical_commands (hs : s.Succeeds) (b : Blocks Unit) (hfit : b.height < UInt64.size)
    (hdepth : c.depth = 0) :
    (∃ (named : Blocks String) (c' : Connection (σ × List String)),
      named.unlabelled = b ∧ named.Apart [] ∧
      b.inTransaction.run s.noting c = (.ok (), c') ∧ c'.depth = 0 ∧
      Noted.Within s.config.dialect (named.noted s.config.dialect) ∧
      s.Notes c c' (.command .begin :: named.noted s.config.dialect ++ [.command .commit])) ∧
    ∃ (name : String) (named : Blocks String) (c' : Connection (σ × List String)),
      (block name named done).unlabelled = block () b done ∧
      (block name named done).Apart [] ∧
      (block () b done).act.run s.noting c = (.ok (), c') ∧ c'.depth = 0 ∧
      Noted.Within s.config.dialect (named.noted s.config.dialect) ∧
      s.Notes c c' (match s.config.dialect with
        | .sqlite =>
          .command (.save name) :: named.noted .sqlite ++ [.command (.release name)]
        | .sqlServer => .beginning name :: named.noted .sqlServer ++ [.command .commit]) := by
  refine ⟨?_, ?_⟩
  · obtain ⟨c₁, hbegin, hdepth₁, hbegun⟩ := Act.run_begin_noted hs hdepth
    obtain ⟨named, c₂, hruns⟩ := b.runs hs c₁ [] (by omega) (by omega)
      fun name h => by cases h
    obtain ⟨c₃, hcommit, hdepth₃, hcommitted⟩ := Act.run_commit_noted (c := c₂) hs (by
      rw [hruns.depth, hdepth₁]
      exact Nat.one_pos)
    refine ⟨named, c₃, hruns.erased, hruns.apart, ?_, hdepth₃, noted_within _ _,
      (hbegun.trans hruns.notes).trans hcommitted⟩
    rw [inTransaction, Act.run_bind_ok _ hbegin, Act.run_bind_ok _ hruns.run, hcommit]
  · have hinner : ∀ name c₁, Savepoint.depth? name = some c.depth → c₁.depth = c.depth + 1 →
        ∃ named c₂, Runs s b [name] c₁ c₂ named := by
      intro name c₁ hname hdepth₁
      rw [hdepth] at hname hdepth₁
      refine b.runs hs c₁ _ ?_ ?_ ?_ <;> rw [hdepth₁]
      · exact Nat.one_pos
      · omega
      · exact Below.cons (fun n hn => by cases hn) hname
    obtain ⟨name, named, c', -, herased, hapart, hrun, hdepth', hnoted⟩ :=
      run_block hs (by omega) hinner
    refine ⟨name, named, c', ?_, ⟨List.not_mem_nil, hapart, trivial⟩, hrun done,
      hdepth'.trans hdepth, noted_within _ _, ?_⟩
    · rw [unlabelled, herased, unlabelled]
    · unfold Setup.opening Setup.closing at hnoted
      cases hd : s.config.dialect <;> simpa [noted, hd, hdepth] using hnoted

end Blocks

/-- A database of SQL Server that refuses nothing. -/
def Samples.willingSetup : Setup Unit where
  driver := .buffered (fun _ _ w => (.ok {}, w)) (fun _ _ w => (.ok {}, w)) (fun _ => true)
    (fun w => (.ok (), w))
  config := .sqlServer "localhost" "themes"
  guid _ := .nil
  savepointNumber n := n

theorem Samples.willingSetup_succeeds : Samples.willingSetup.Succeeds := by
  intro i w
  cases i <;> exact ⟨_, _, rfl⟩

/-- A statement and an empty block, within a block. -/
def Samples.nestedBlocks : Blocks Unit :=
  .block () (.issue (.execute "delete from Setting" []) (.block () .done .done)) .done

theorem Samples.nestedBlocks_commands :
    Samples.willingSetup.Succeeds ∧ Samples.nestedBlocks.height < UInt64.size ∧
      ∃ (named : Blocks String) (c' : Connection (Unit × List String)),
        named.unlabelled = Samples.nestedBlocks ∧ named.Apart [] ∧
        Samples.nestedBlocks.inTransaction.run Samples.willingSetup.noting { world := ((), []) } =
          (.ok (), c') ∧ c'.depth = 0 ∧
        Samples.willingSetup.Notes { world := ((), []) } c'
          (.command .begin :: named.noted .sqlServer ++ [.command .commit]) := by
  have hheight : Samples.nestedBlocks.height < UInt64.size := by decide
  obtain ⟨⟨named, c', hnamed, hapart, hrun, hdepth, -, hnotes⟩, -⟩ :=
    Blocks.physical_commands (c := { world := ((), []) }) Samples.willingSetup_succeeds
      Samples.nestedBlocks hheight rfl
  exact ⟨Samples.willingSetup_succeeds, hheight, named, c', hnamed, hapart, hrun, hdepth, hnotes⟩

example : (Samples.nestedBlocks.act.run Samples.willingSetup.noting
    { world := ((), []) }).2.world.2 =
      ["begin transaction; save transaction S0D0", "delete from Setting",
        "save transaction S1D1", "commit transaction"] := by decide +kernel

end RowLedger
