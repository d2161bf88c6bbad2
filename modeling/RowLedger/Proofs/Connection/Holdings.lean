import RowLedger.Proofs.Connection.Work

/-!
A database that keeps its content through transactions: what is done inside one is committed with
it or undone, and what is done outside of all is committed at once.
-/

namespace RowLedger

/-- What a database holds. -/
structure Holdings (D : Type) where
  transaction : Physical
  content : D
  /-- The content when the transaction was opened. -/
  entry : D

namespace Holdings

variable {D : Type}

/-- The content that a rollback leaves. -/
def committed (h : Holdings D) : D :=
  match h.transaction with
  | .closed => h.content
  | .active _ _ => h.entry

def withContent (h : Holdings D) (d : D) : Holdings D := ⟨h.transaction, d, h.entry⟩

/-- The transaction is opened, goes on or is committed. -/
def moved (h : Holdings D) (p : Physical) : Holdings D where
  transaction := p
  content := h.content
  entry := if h.transaction = .closed then h.content else h.entry

theorem committed_of_closed {h : Holdings D} (hc : h.transaction = .closed) :
    h.committed = h.content := by
  rw [committed, hc]

theorem committed_of_open {h : Holdings D} (hc : h.transaction ≠ .closed) :
    h.committed = h.entry := by
  unfold committed
  split
  · next h => exact absurd h hc
  · rfl

/-- What is done outside of transactions is committed at once. -/
theorem committed_withContent {h : Holdings D} (hc : h.transaction = .closed) (d : D) :
    (h.withContent d).committed = d := committed_of_closed (h := h.withContent d) hc

theorem committed_moved {h : Holdings D} {p : Physical} (hp : p ≠ .closed) :
    (h.moved p).committed = h.committed := by
  rw [committed_of_open (h := h.moved p) hp]
  by_cases hc : h.transaction = .closed
  · rw [moved, if_pos hc, committed_of_closed hc]
  · rw [moved, if_neg hc, committed_of_open hc]

theorem entry_moved {h : Holdings D} {p : Physical} (hc : h.transaction ≠ .closed) :
    (h.moved p).entry = h.entry := if_neg hc

end Holdings

/-- The commands that undo nothing. -/
def Physical.Command.Keeps : Physical.Command → Prop
  | begin | save _ | release _ | commit => True
  | rollback | rollbackTo _ => False

/-- A statement is carried out or, with an error, leaves everything as it was. -/
def Holdings.Takes {σ D α : Type} (view : σ → Holdings D) (w : σ) (h : Holdings D) :
    Reply σ α → Prop
  | (.ok _, w') => view w' = h
  | (.error _, w') => view w' = view w

/-- A driver with the usual transactions. Any statement may be refused except a rollback, which
undoes everything since the transaction was opened. -/
structure Setup.Durable {σ D : Type} (s : Setup σ) (view : σ → Holdings D)
    (allowed : Issue → Prop) (effect : Issue → D → D) : Prop where
  statement {i : Issue} (w : σ) : allowed i →
    Holdings.Takes view w ((view w).withContent (effect i (view w).content))
      (i.reply s.driver w)
  command {k : Physical.Command} {p : Physical} {sql : String} {w : σ} :
    k.text? s.config.dialect = some sql → (view w).transaction.after k = some p → k.Keeps →
      Holdings.Takes view w ((view w).moved p) (s.driver.execute sql [] w)
  /-- In SQL Server one statement begins a transaction together with its first savepoint. -/
  first {name : String} {w : σ} :
    s.config.dialect = .sqlServer → (view w).transaction = .closed →
      Holdings.Takes view w ((view w).moved (.active false [name]))
        (s.driver.execute ("begin transaction; save transaction " ++ name) [] w)
  rollback (w : σ) : (view (s.driver.execute s.rollbackText [] w).2).transaction = .closed ∧
    (view (s.driver.execute s.rollbackText [] w).2).content = (view w).committed

namespace Physical

/-- The transaction after a savepoint is opened. -/
def opened (d : Dialect) (name : String) : Physical → Physical
  | closed => active (d = .sqlite) [name]
  | active saved points => active saved (name :: points)

theorem opened_ne_closed (d : Dialect) (name : String) (p : Physical) :
    p.opened d name ≠ .closed := by
  cases p <;> exact fun h => by cases h

/-- The count is zero outside of transactions. In SQLite a transaction that a savepoint opened lasts
as long as its first savepoint. -/
inductive Level (d : Dialect) : Nat → Physical → Prop
  | closed : Level d 0 .closed
  | active {depth : Nat} {saved : Bool} {points : List String} :
      0 < depth → (d = .sqlite → saved = true → points ≠ []) → Level d depth (.active saved points)

variable {d : Dialect} {depth : Nat} {p p' p'' : Physical}

theorem Level.eq_closed (h : Level d 0 p) : p = .closed := by
  cases h with
  | closed => rfl
  | active h => exact absurd h (Nat.lt_irrefl 0)

theorem Level.ne_closed (h : Level d depth p) (hd : 0 < depth) : p ≠ .closed := by
  cases h with
  | closed => exact absurd hd (Nat.lt_irrefl 0)
  | active => exact fun h => by cases h

theorem Level.opened (h : Level d depth p) (name : String) :
    Level d (depth + 1) (p.opened d name) := by
  cases h <;> exact .active (Nat.succ_pos _) fun _ _ => List.cons_ne_nil _ _

/-- Levels were opened in a transaction and closed again: SQL Server keeps their savepoints. -/
def Resumed (d : Dialect) (p p' : Physical) : Prop :=
  p' ≠ closed ∧ (d = .sqlite → p' = p)

theorem Resumed.refl (h : p ≠ .closed) : Resumed d p p := ⟨h, fun _ => rfl⟩

theorem Resumed.trans (h₁ : Resumed d p p') (h₂ : Resumed d p' p'') : Resumed d p p'' :=
  ⟨h₂.1, fun hd => (h₂.2 hd).trans (h₁.2 hd)⟩

theorem Level.resumed (h : Level d depth p) (hd : 0 < depth) (hr : Resumed d p p') :
    Level d depth p' := by
  cases p' with
  | closed => exact absurd rfl hr.1
  | active saved points =>
    refine .active hd fun hs hsaved => ?_
    rw [← hr.2 hs] at h
    cases h with
    | active _ hpoints => exact hpoints hs hsaved

end Physical

namespace Setup

variable {σ D : Type} {s : Setup σ} {view : σ → Holdings D} {allowed : Issue → Prop}
  {effect : Issue → D → D} {w : σ} {name : String} {depth : Nat}

theorem text?_save (h : s.config.dialect = .sqlite ∨ 0 < depth) :
    (Physical.Command.save name).text? s.config.dialect = some (s.savepointText name depth) := by
  rcases hd : s.config.dialect with _ | _
  · simp [savepointText, hd, Physical.Command.text?, Dialect.savepoint, Dialect.render,
      Dialect.renderPiece]
  · have h0 : depth ≠ 0 := by
      rcases h with h | h
      · rw [hd] at h
        cases h
      · exact Nat.pos_iff_ne_zero.1 h
    simp [savepointText, hd, h0, Physical.Command.text?, Dialect.savepoint, Dialect.render,
      Dialect.renderPiece]

theorem savepointText_first (h : s.config.dialect = .sqlServer) :
    s.savepointText name 0 = "begin transaction; save transaction " ++ name := by
  simp [savepointText, h, Dialect.savepoint, Dialect.render, Dialect.renderPiece]

theorem text?_release {sql : String} (h : s.config.dialect = .sqlite)
    (hsql : s.releaseText? name depth = some sql) :
    (Physical.Command.release name).text? s.config.dialect = some sql := by
  rw [releaseText?, h] at hsql
  simpa [h, Physical.Command.text?, Dialect.release?, Dialect.render, Dialect.renderPiece]
    using hsql

/-- The only level that SQL Server closes by a statement is the outermost. -/
theorem text?_commit {sql : String} (h : s.config.dialect = .sqlServer)
    (hsql : s.releaseText? name depth = some sql) :
    depth = 0 ∧ Physical.Command.commit.text? s.config.dialect = some sql := by
  rw [releaseText?, h] at hsql
  by_cases h0 : depth = 0
  · simpa [h, h0, Physical.Command.text?, Dialect.release?, Dialect.commit, Dialect.render,
      Dialect.renderPiece] using hsql
  · simp [Dialect.release?, h0] at hsql

theorem level_of_releaseText?_eq_none (h : s.releaseText? name depth = none) :
    s.config.dialect = .sqlServer ∧ 0 < depth := by
  rw [releaseText?, Option.map_eq_none_iff] at h
  cases hd : s.config.dialect <;> rw [hd] at h
  · cases h
  · refine ⟨rfl, Nat.pos_of_ne_zero fun h0 => ?_⟩
    rw [Dialect.release?, if_pos h0] at h
    cases h

theorem Durable.save (h : s.Durable view allowed effect) (name : String)
    (hl : Physical.Level s.config.dialect depth (view w).transaction) :
    Holdings.Takes view w ((view w).moved ((view w).transaction.opened s.config.dialect name))
      (s.driver.execute (s.savepointText name depth) [] w) := by
  generalize hp : (view w).transaction = p at hl
  cases hl with
  | closed =>
    rcases hd : s.config.dialect with _ | _
    · exact h.command (text?_save (.inl hd)) (by rw [hp]; rfl) trivial
    · rw [savepointText_first hd]
      exact h.first hd hp
  | active hpos => exact h.command (text?_save (.inr hpos)) (by rw [hp]; rfl) trivial

/-- A level is closed in the transaction that was open when it was opened, or it was the first one
and the transaction is committed. -/
theorem Durable.release (h : s.Durable view allowed effect) {p : Physical} {sql : String}
    (hl : Physical.Level s.config.dialect depth p)
    (hr : Physical.Resumed s.config.dialect (p.opened s.config.dialect name) (view w).transaction)
    (hsql : s.releaseText? name depth = some sql) :
    ∃ p', Holdings.Takes view w ((view w).moved p') (s.driver.execute sql [] w) ∧
      (depth = 0 → p' = .closed) ∧ (0 < depth → Physical.Resumed s.config.dialect p p') := by
  rcases hd : s.config.dialect with _ | _
  · have ht := text?_release hd hsql
    have hp := hr.2 hd
    rw [hd] at hp hl
    cases hl with
    | closed =>
      refine ⟨.closed, h.command ht ?_ trivial, fun _ => rfl, fun hpos => ?_⟩
      · rw [hp]
        simp [Physical.opened, Physical.after, Physical.fromPoint, Physical.released]
      · exact absurd hpos (Nat.lt_irrefl 0)
    | @active depth saved points hpos hpoints =>
      refine ⟨.active saved points, h.command ht ?_ trivial, fun h0 => ?_, fun _ => .refl ?_⟩
      · rw [hp]
        have hleft : Physical.released saved points = .active saved points := by
          cases saved with
          | false => rfl
          | true =>
            obtain ⟨q, rest, rfl⟩ := List.exists_cons_of_ne_nil (hpoints rfl rfl)
            rfl
        simp [Physical.opened, Physical.after, Physical.fromPoint, hleft]
      · exact absurd h0 (Nat.pos_iff_ne_zero.1 hpos)
      · exact fun h => by cases h
  · obtain ⟨h0, ht⟩ := text?_commit hd hsql
    refine ⟨.closed, h.command ht (Physical.after_commit hr.1) trivial, fun _ => rfl,
      fun hpos => ?_⟩
    exact absurd h0 (Nat.pos_iff_ne_zero.1 hpos)

end Setup

end RowLedger
