import RowLedger.Proofs.Connection.Levels

/-!
The count of open levels beside the transaction of the database. Both tell the same, up to the
first return to the savepoint of the outermost level: that keeps the transaction open while the
count says that there is none.
-/

namespace RowLedger

/-- A call that opens or closes levels. -/
inductive LevelCall
  | begin
  | save
  | release (name : String)
  | rollbackTo (name : String)
  | rollback
  | commit
  deriving DecidableEq

/-- A connection, and the savepoints that its calls have opened and not closed since, the innermost
first. -/
structure Nesting (σ : Type) where
  conn : Connection σ
  names : List String := []

namespace LevelCall

variable {σ : Type}

/-- The call itself; it may answer the name of a savepoint. -/
def perform : LevelCall → Act σ (Option String)
  | begin => do
    Act.begin
    return none
  | save => do return some (← Act.save)
  | release name => do
    Act.release name
    return none
  | rollbackTo name => do
    Act.rollbackTo name
    return none
  | rollback => do
    Act.rollback
    return none
  | commit => do
    Act.commit
    return none

/-- The savepoints that are open after a call. A return to a savepoint closes those inside it. -/
def remaining (opened : Option String) (names : List String) : LevelCall → List String
  | begin | save => opened.toList ++ names
  | release name => (Physical.fromPoint name names).tail
  | rollbackTo name => if name = "" then [] else Physical.fromPoint name names
  | rollback | commit => []

def next (s : Setup σ) (n : Nesting σ) (call : LevelCall) : Nesting σ :=
  match call.perform.run s n.conn with
  | (.ok opened, conn) => ⟨conn, call.remaining opened n.names⟩
  | (.error _, conn) => { n with conn }

/-- A name is given only while its savepoint is open. -/
def Allowed (n : Nesting σ) : LevelCall → Prop
  | release name => name ∈ n.names
  | rollbackTo name => name = "" ∨ name ∈ n.names
  | _ => True

/-- Does the call return to the savepoint that stands for the outermost level? -/
def ReturnsOutermost : LevelCall → Prop
  | rollbackTo name => Savepoint.depth? name = some 0
  | _ => False

end LevelCall

namespace Nesting

variable {σ : Type}

/-- The calls of a run give only names of open savepoints. -/
def AllAllowed (s : Setup σ) : Nesting σ → List LevelCall → Prop
  | _, [] => True
  | n, call :: calls => call.Allowed n ∧ AllAllowed s (call.next s n) calls

/-- The connection says that it is in a transaction exactly when the database has one open. -/
def Agrees (s : Setup σ) (view : σ → Physical) (n : Nesting σ) : Prop :=
  (Act.isInTransaction.run s n.conn).1 = .ok (view n.conn.world).isOpen

/-- They agree after every call of a run. -/
def AgreesThroughout (s : Setup σ) (view : σ → Physical) : Nesting σ → List LevelCall → Prop
  | _, [] => True
  | n, call :: calls =>
    Agrees s view (call.next s n) ∧ AgreesThroughout s view (call.next s n) calls

end Nesting

namespace Physical

variable {d : Dialect} {depth : Nat} {names points : List String} {saved : Bool}

/-- A savepoint tells the outermost level exactly when it opened the transaction. -/
structure Rooted (saved : Bool) (points : List String) : Prop where
  nonempty : saved = true → points ≠ []
  root {name : String} {rest : List String} : name :: rest <:+ points →
    (Savepoint.depth? name = some 0 ↔ saved = true ∧ rest = [])

/-- What the count and the open savepoints tell of the transaction. SQL Server keeps savepoints that
the connection has released, and does not know that a savepoint opened the transaction. -/
inductive Fits (d : Dialect) : Nat → List String → Physical → Prop
  | closed : Fits d 0 [] .closed
  | active {depth : Nat} {names points : List String} {saved rooted : Bool} :
      0 < depth → names.Sublist points → Rooted rooted names →
        (d = .sqlite → points = names ∧ saved = rooted) →
          Fits d depth names (.active saved points)

theorem Fits.isOpen {p : Physical} (h : Fits d depth names p) : decide (0 < depth) = p.isOpen := by
  cases h with
  | closed => rfl
  | active hd => exact decide_eq_true hd

theorem Fits.pos_iff {p : Physical} (h : Fits d depth names p) : 0 < depth ↔ p ≠ .closed := by
  cases h with
  | closed => simp
  | active hd => simp [hd]

theorem Fits.of_zero {p : Physical} (h : Fits d depth names p) (hd : depth = 0) :
    names = [] ∧ p = .closed := by
  cases h with
  | closed => exact ⟨rfl, rfl⟩
  | active hpos => omega

theorem Fits.of_pos {p : Physical} (h : Fits d depth names p) (hd : 0 < depth) :
    ∃ saved points, p = .active saved points := by
  cases h with
  | closed => omega
  | active => exact ⟨_, _, rfl⟩

theorem Fits.active_of_mem {p : Physical} {name : String} (h : Fits d depth names p)
    (hmem : name ∈ names) : ∃ saved points, p = .active saved points ∧ name ∈ points := by
  cases h with
  | closed => cases hmem
  | active _ hsub => exact ⟨_, _, rfl, hsub.subset hmem⟩

theorem rooted_nil : Rooted false [] where
  nonempty h := by cases h
  root h := by simp at h

theorem rooted_singleton {name : String} (h : Savepoint.depth? name = some 0) :
    Rooted true [name] where
  nonempty _ := List.cons_ne_nil _ _
  root {m rest} hm := by
    rcases List.suffix_cons_iff.1 hm with heq | hm
    · obtain ⟨rfl, rfl⟩ := List.cons.inj heq
      simp [h]
    · simp at hm

theorem Rooted.suffix {rest : List String} (h : Rooted saved points) (hr : rest <:+ points)
    (hne : saved = true → rest ≠ []) : Rooted saved rest where
  nonempty := hne
  root hm := h.root (hm.trans hr)

theorem Rooted.cons {name : String} (h : Rooted saved points)
    (hname : Savepoint.depth? name ≠ some 0) : Rooted saved (name :: points) where
  nonempty _ := List.cons_ne_nil _ _
  root {m rest} hm := by
    rcases List.suffix_cons_iff.1 hm with heq | hm
    · obtain ⟨rfl, rfl⟩ := List.cons.inj heq
      exact ⟨fun h0 => absurd h0 hname, fun ⟨hs, hn⟩ => absurd hn (h.nonempty hs)⟩
    · exact h.root hm

/-- The name of a released savepoint tells whether anything stays open around it. -/
theorem Rooted.release {name : String} {k : Nat} (h : Rooted saved points) (hmem : name ∈ points)
    (hk : Savepoint.depth? name = some k) :
    if k = 0 then saved = true ∧ (fromPoint name points).tail = []
    else Rooted saved (fromPoint name points).tail := by
  obtain ⟨rest, hrest⟩ := fromPoint_eq_cons hmem
  have hsuf : name :: rest <:+ points := hrest ▸ fromPoint_suffix name points
  have hzero := h.root hsuf
  rw [hk, Option.some.injEq] at hzero
  rw [hrest, List.tail_cons]
  by_cases h0 : k = 0
  · rw [if_pos h0]
    exact hzero.1 h0
  · rw [if_neg h0]
    refine h.suffix ((List.suffix_cons name rest).trans hsuf) fun hs hr => ?_
    exact h0 (hzero.2 ⟨hs, hr⟩)

theorem released_of_rooted (h : Rooted saved points) :
    released saved points = active saved points := by
  cases saved with
  | false => rfl
  | true =>
    obtain ⟨p, rest, rfl⟩ := List.exists_cons_of_ne_nil (h.nonempty rfl)
    rfl

theorem Fits.push {name : String} (h : Fits d depth names (.active saved points))
    (hname : Savepoint.depth? name ≠ some 0) :
    Fits d (depth + 1) (name :: names) (.active saved (name :: points)) := by
  obtain _ | ⟨-, hsub, hroot, hd⟩ := h
  refine .active (Nat.succ_pos _) (hsub.cons_cons name) (hroot.cons hname) fun hl => ?_
  obtain ⟨rfl, rfl⟩ := hd hl
  exact ⟨rfl, rfl⟩

theorem Fits.release {name : String} {k : Nat} (h : Fits .sqlite depth names (.active saved points))
    (hmem : name ∈ names) (hk : Savepoint.depth? name = some k) :
    Fits .sqlite k (fromPoint name names).tail (released saved (fromPoint name points).tail) := by
  obtain _ | ⟨-, -, hroot, hd⟩ := h
  obtain ⟨rfl, rfl⟩ := hd rfl
  have hleft := hroot.release hmem hk
  split at hleft
  · next h0 =>
    obtain ⟨rfl, htail⟩ := hleft
    rw [htail, h0]
    exact .closed
  · next h0 =>
    rw [released_of_rooted hleft]
    exact .active (Nat.pos_of_ne_zero h0) (.refl _) hleft fun _ => ⟨rfl, rfl⟩

/-- SQL Server commits with the outermost level and does nothing for the others. -/
theorem Fits.release_server {name : String} {k : Nat}
    (h : Fits .sqlServer depth names (.active saved points)) (hmem : name ∈ names)
    (hk : Savepoint.depth? name = some k) :
    Fits .sqlServer k (fromPoint name names).tail
      (if k = 0 then .closed else .active saved points) := by
  obtain _ | ⟨-, hsub, hroot, -⟩ := h
  have hleft := hroot.release hmem hk
  split at hleft
  · next h0 =>
    rw [hleft.2, if_pos h0, h0]
    exact .closed
  · next h0 =>
    have htail := (List.tail_sublist _).trans (fromPoint_suffix name names).sublist
    rw [if_neg h0]
    exact .active (Nat.pos_of_ne_zero h0) (htail.trans hsub) hleft fun hl => by cases hl

theorem Fits.rollbackTo {name : String} {k : Nat} (h : Fits d depth names (.active saved points))
    (hmem : name ∈ names) (hk : 0 < k) :
    Fits d k (fromPoint name names) (.active saved (fromPoint name points)) := by
  obtain _ | ⟨-, hsub, hroot, hd⟩ := h
  have hne : fromPoint name names ≠ [] := by
    obtain ⟨rest, hrest⟩ := fromPoint_eq_cons hmem
    rw [hrest]
    exact List.cons_ne_nil _ _
  refine .active hk (fromPoint_sublist hsub)
    (hroot.suffix (fromPoint_suffix name names) fun _ => hne) fun hl => ?_
  obtain ⟨rfl, rfl⟩ := hd hl
  exact ⟨rfl, rfl⟩

end Physical

namespace Nesting

variable {σ : Type} {s : Setup σ} {view : σ → Physical} {n : Nesting σ}

/-- The count fits the transaction of the database. -/
def Matches (s : Setup σ) (view : σ → Physical) (n : Nesting σ) : Prop :=
  Physical.Fits s.config.dialect n.conn.depth n.names (view n.conn.world)

theorem Matches.agrees (h : Matches s view n) : Agrees s view n := by
  rw [Agrees, Act.run_isInTransaction, Physical.Fits.isOpen h]

theorem next_ok {call : LevelCall} {opened : Option String} {c : Connection σ}
    (h : call.perform.run s n.conn = (.ok opened, c)) :
    call.next s n = ⟨c, call.remaining opened n.names⟩ := by
  rw [LevelCall.next, h]

theorem next_error {call : LevelCall} {e : Error}
    (h : call.perform.run s n.conn = (.error e, n.conn)) : call.next s n = n := by
  rw [LevelCall.next, h]

theorem Matches.begin (h : s.KeepsTransactions view) (hn : Matches s view n) :
    Matches s view (LevelCall.begin.next s n) := by
  by_cases hd : n.conn.depth = 0
  · obtain ⟨hnames, hc⟩ := Physical.Fits.of_zero hn hd
    obtain ⟨c, hrun, hdepth, hview⟩ := Act.run_begin h hd hc
    rw [next_ok (Act.run_bind_ok _ hrun)]
    simp only [Matches, LevelCall.remaining, hdepth, hview, hnames]
    exact .active Nat.one_pos (.refl _) Physical.rooted_nil fun _ => ⟨rfl, rfl⟩
  · rw [next_error (Act.run_bind_error _ (Act.run_begin_again hd))]
    exact hn

/-- The first savepoint opens the transaction, in SQL Server by a beginning of its own. -/
theorem save_closed (h : s.KeepsTransactions view) {w : σ} (hw : view w = .closed) (name : String) :
    ∃ r w', s.driver.execute (s.config.dialect.render (s.config.dialect.savepoint name 0)) [] w =
      (.ok r, w') ∧ view w' = .active (s.config.dialect = .sqlite) [name] := by
  rcases hd : s.config.dialect with _ | _
  · have ht : (Physical.Command.save name).text? s.config.dialect =
        some (Dialect.render .sqlite (Dialect.savepoint .sqlite name 0)) := by
      rw [hd]
      simp [Physical.Command.text?, Dialect.savepoint, Dialect.render, Dialect.renderPiece]
    exact h.carries ht (by rw [hw]; rfl)
  · have ht : Dialect.render .sqlServer (Dialect.savepoint .sqlServer name 0) =
        "begin transaction; save transaction " ++ name := by
      simp [Dialect.savepoint, Dialect.render, Dialect.renderPiece]
    rw [ht]
    exact h.carriesFirst hd hw

theorem save_active (h : s.KeepsTransactions view) {w : σ} {saved : Bool} {points : List String}
    {depth : Nat} (hw : view w = .active saved points) (hd : 0 < depth) (name : String) :
    ∃ r w', s.driver.execute (s.config.dialect.render (s.config.dialect.savepoint name depth)) []
      w = (.ok r, w') ∧ view w' = .active saved (name :: points) := by
  have ht : (Physical.Command.save name).text? s.config.dialect =
      some (s.config.dialect.render (s.config.dialect.savepoint name depth)) := by
    have h0 : depth ≠ 0 := Nat.pos_iff_ne_zero.1 hd
    cases s.config.dialect <;>
      simp [Physical.Command.text?, Dialect.savepoint, Dialect.render, Dialect.renderPiece, h0]
  exact h.carries ht (by rw [hw]; rfl)

theorem Matches.save (h : s.KeepsTransactions view) (hn : Matches s view n) :
    Matches s view (LevelCall.save.next s n) := by
  by_cases hd : n.conn.depth = 0
  · obtain ⟨hnames, hc⟩ := Physical.Fits.of_zero hn hd
    have hexec := save_closed h hc (Act.nextName s n.conn)
    rw [← hd] at hexec
    obtain ⟨c, hrun, hdepth, hview⟩ := Act.run_save hexec
    rw [next_ok (Act.run_bind_ok _ hrun)]
    simp only [Matches, LevelCall.remaining, hdepth, hview, hnames, hd]
    refine .active Nat.one_pos (.refl _)
      (Physical.rooted_singleton (Savepoint.depth?_name_eq_zero.2 hd)) fun hl => ?_
    exact ⟨rfl, decide_eq_true hl⟩
  · obtain ⟨saved, points, hv⟩ := Physical.Fits.of_pos hn (Nat.pos_of_ne_zero hd)
    obtain ⟨c, hrun, hdepth, hview⟩ :=
      Act.run_save (save_active h hv (Nat.pos_of_ne_zero hd) (Act.nextName s n.conn))
    rw [next_ok (Act.run_bind_ok _ hrun)]
    simp only [Matches, LevelCall.remaining, hdepth, hview]
    unfold Matches at hn
    rw [hv] at hn
    exact hn.push fun h0 => hd (Savepoint.depth?_name_eq_zero.1 h0)

theorem Matches.release {name : String} (h : s.KeepsTransactions view) (hn : Matches s view n)
    (hmem : name ∈ n.names) : Matches s view ((LevelCall.release name).next s n) := by
  obtain ⟨saved, points, hv, hpoint⟩ := Physical.Fits.active_of_mem hn hmem
  by_cases hk : ∃ k, Savepoint.depth? name = some k ∧ k < n.conn.depth
  · obtain ⟨k, hk, hlt⟩ := hk
    unfold Matches at hn
    rw [hv] at hn
    obtain ⟨p, hafter, hfits⟩ :
        ∃ p, Act.released? s.config.dialect name k (view n.conn.world) = some p ∧
          Physical.Fits s.config.dialect k (Physical.fromPoint name n.names).tail p := by
      rw [hv]
      rcases hd : s.config.dialect with _ | _
      · rw [hd] at hn
        exact ⟨_, if_pos hpoint, hn.release hmem hk⟩
      · rw [hd] at hn
        refine ⟨_, ?_, hn.release_server hmem hk⟩
        by_cases h0 : k = 0 <;> simp [Act.released?, Physical.after, h0]
    obtain ⟨c, hrun, hdepth, hview⟩ := Act.run_release h hk hlt hafter
    rw [next_ok (Act.run_bind_ok _ hrun)]
    simp only [Matches, LevelCall.remaining, hdepth, hview]
    exact hfits
  · have hstale : ∀ k, Savepoint.depth? name = some k → ¬k < n.conn.depth :=
      fun k hd hlt => hk ⟨k, hd, hlt⟩
    rw [next_error (Act.run_bind_error _ (Act.run_release_stale hstale))]
    exact hn

theorem Matches.rollback (h : s.KeepsTransactions view) (hn : Matches s view n) :
    Matches s view (LevelCall.rollback.next s n) := by
  obtain ⟨c, hrun, hdepth, hview⟩ := Act.run_rollback h hn.pos_iff
  rw [next_ok (Act.run_bind_ok _ hrun)]
  simp only [Matches, LevelCall.remaining, hdepth, hview]
  exact .closed

theorem Matches.commit (h : s.KeepsTransactions view) (hn : Matches s view n) :
    Matches s view (LevelCall.commit.next s n) := by
  obtain ⟨c, hrun, hdepth, hview⟩ := Act.run_commit h hn.pos_iff
  rw [next_ok (Act.run_bind_ok _ hrun)]
  simp only [Matches, LevelCall.remaining, hdepth, hview]
  exact .closed

/-- A savepoint that is known and inside the counted levels is returned to. -/
theorem Matches.run_rollbackTo {name : String} {k : Nat} (h : s.KeepsTransactions view)
    (hn : Matches s view n) (hname : name ≠ "") (hmem : name ∈ n.names)
    (hk : Savepoint.depth? name = some k) (hlt : k < n.conn.depth) :
    ∃ saved points c, view n.conn.world = .active saved points ∧
      (Act.rollbackTo name).run s n.conn = (.ok (), c) ∧ c.depth = k ∧
      view c.world = .active saved (Physical.fromPoint name points) := by
  obtain ⟨saved, points, hv, hpoint⟩ := Physical.Fits.active_of_mem hn hmem
  have hafter : (view n.conn.world).after (.rollbackTo name) =
      some (.active saved (Physical.fromPoint name points)) := by
    rw [hv]
    exact if_pos hpoint
  obtain ⟨c, hrun⟩ := Act.run_rollbackTo h hname hk hlt hafter
  exact ⟨saved, points, c, hv, hrun⟩

theorem Matches.rollbackTo {name : String} (h : s.KeepsTransactions view) (hn : Matches s view n)
    (hallowed : (LevelCall.rollbackTo name).Allowed n)
    (hinner : ¬(LevelCall.rollbackTo name).ReturnsOutermost) :
    Matches s view ((LevelCall.rollbackTo name).next s n) := by
  by_cases hname : name = ""
  · subst hname
    exact hn.rollback h
  · have hmem : name ∈ n.names := hallowed.resolve_left hname
    by_cases hk : ∃ k, Savepoint.depth? name = some k ∧ k < n.conn.depth
    · obtain ⟨k, hk, hlt⟩ := hk
      have hpos : 0 < k := by
        rcases Nat.eq_zero_or_pos k with rfl | hpos
        · exact absurd hk hinner
        · exact hpos
      obtain ⟨saved, points, c, hv, hrun, hdepth, hview⟩ :=
        hn.run_rollbackTo h hname hmem hk hlt
      rw [next_ok (Act.run_bind_ok _ hrun)]
      simp only [Matches, LevelCall.remaining, hdepth, hview, if_neg hname]
      unfold Matches at hn
      rw [hv] at hn
      exact hn.rollbackTo hmem hpos
    · have hstale : ∀ k, Savepoint.depth? name = some k → ¬k < n.conn.depth :=
        fun k hd hlt => hk ⟨k, hd, hlt⟩
      rw [next_error (Act.run_bind_error _ (Act.run_rollbackTo_stale hname hstale))]
      exact hn

theorem Matches.next {call : LevelCall} (h : s.KeepsTransactions view) (hn : Matches s view n)
    (hallowed : call.Allowed n) (hinner : ¬call.ReturnsOutermost) :
    Matches s view (call.next s n) := by
  cases call with
  | begin => exact hn.begin h
  | save => exact hn.save h
  | release name => exact hn.release h hallowed
  | rollbackTo name => exact hn.rollbackTo h hallowed hinner
  | rollback => exact hn.rollback h
  | commit => exact hn.commit h

/-- The transaction stays open, and the connection takes it for closed. -/
theorem Matches.not_agrees_of_returnsOutermost {call : LevelCall} (h : s.KeepsTransactions view)
    (hn : Matches s view n) (hallowed : call.Allowed n) (hreturns : call.ReturnsOutermost) :
    ¬Agrees s view (call.next s n) := by
  obtain ⟨name, rfl, hk⟩ : ∃ name, call = .rollbackTo name ∧ Savepoint.depth? name = some 0 := by
    cases call with
    | rollbackTo name => exact ⟨name, rfl, hreturns⟩
    | _ => exact hreturns.elim
  have hname : name ≠ "" := by
    rintro rfl
    exact absurd hk (by decide)
  have hmem : name ∈ n.names := hallowed.resolve_left hname
  obtain ⟨_, _, hv, -⟩ := Physical.Fits.active_of_mem hn hmem
  have hpos : 0 < n.conn.depth := hn.pos_iff.2 (by simp [hv])
  obtain ⟨saved, points, c, -, hrun, hdepth, hview⟩ := hn.run_rollbackTo h hname hmem hk hpos
  rw [next_ok (Act.run_bind_ok _ hrun), Agrees, Act.run_isInTransaction, hview, hdepth]
  simp [Physical.isOpen]

theorem Matches.throughout_iff {calls : List LevelCall} (h : s.KeepsTransactions view)
    (hn : Matches s view n) (hallowed : AllAllowed s n calls) :
    AgreesThroughout s view n calls ↔ ∀ call ∈ calls, ¬call.ReturnsOutermost := by
  induction calls generalizing n with
  | nil => simp [AgreesThroughout]
  | cons call calls ih =>
    obtain ⟨hcall, hrest⟩ := hallowed
    rw [AgreesThroughout, List.forall_mem_cons]
    by_cases hreturns : call.ReturnsOutermost
    · have := hn.not_agrees_of_returnsOutermost h hcall hreturns
      simp [this, hreturns]
    · have hnext := hn.next h hcall hreturns
      rw [ih hnext hrest]
      simp [hnext.agrees, hreturns]

/-- From a connection outside transactions, the count and the database agree after every call of a
run exactly when the run never returns to the savepoint of the outermost level. -/
theorem agreesThroughout_iff (h : s.KeepsTransactions view) {c : Connection σ}
    (hdepth : c.depth = 0) (hclosed : view c.world = .closed) (calls : List LevelCall)
    (hallowed : AllAllowed s ⟨c, []⟩ calls) :
    AgreesThroughout s view ⟨c, []⟩ calls ↔ ∀ call ∈ calls, ¬call.ReturnsOutermost := by
  refine Matches.throughout_iff h ?_ hallowed
  simp only [Matches, hdepth, hclosed]
  exact .closed

end Nesting

/-- What stands behind a front. -/
def Samples.behind? (front : String) (cs : List Char) : Option String :=
  if front.toList.isPrefixOf cs then some (String.ofList (cs.drop front.toList.length)) else none

/-- The command of SQLite that a text is. -/
def Samples.liteCommand? (cs : List Char) : Option Physical.Command :=
  if cs = "begin transaction".toList then some .begin
  else if cs = "commit".toList then some .commit
  else if cs = "rollback".toList then some .rollback
  else ((Samples.behind? "savepoint " cs).map .save).or
    (((Samples.behind? "release " cs).map .release).or
      ((Samples.behind? "rollback to " cs).map .rollbackTo))

/-- A database that holds nothing but a transaction. -/
def Samples.lite : Driver Physical :=
  .buffered
    (fun sql _ p =>
      match (Samples.liteCommand? sql.toList).bind p.after with
      | some p => (.ok {}, p)
      | none => (.error .closed, p))
    (fun _ _ p => (.ok {}, p)) (fun _ => true) (fun p => (.ok (), p))

def Samples.liteSetup : Setup Physical where
  driver := Samples.lite
  config := .sqlite ":memory:"
  guid _ := .nil
  savepointNumber n := n

theorem Samples.liteCommand?_text {k : Physical.Command} {sql : String}
    (h : k.text? .sqlite = some sql) : Samples.liteCommand? sql.toList = some k := by
  cases k with
  | begin | commit | rollback =>
    cases h
    decide
  | save name | release name | rollbackTo name =>
    cases h
    simp [Samples.liteCommand?, Samples.behind?]

theorem Samples.lite_keepsTransactions : Samples.liteSetup.KeepsTransactions id where
  carries {w k p sql} ht hp := by
    have hk := Samples.liteCommand?_text ht
    refine ⟨{}, p, ?_, rfl⟩
    simp only [Samples.liteSetup, Samples.lite, Driver.buffered, hk, Option.bind_some]
    rw [show w.after k = some p from hp]
  carriesFirst hd := by cases hd

/-- Calls that return to an inner savepoint and release the outermost one. -/
def Samples.levelCalls : List LevelCall :=
  [.save, .save, .rollbackTo "S1D1", .save, .release "S0D0", .begin, .commit]

theorem levelCalls_agreesThroughout :
    (∀ call ∈ Samples.levelCalls, ¬call.ReturnsOutermost) ∧
      Nesting.AgreesThroughout Samples.liteSetup id ⟨{ world := .closed }, []⟩
        Samples.levelCalls := by
  have hinner : ∀ call ∈ Samples.levelCalls, ¬call.ReturnsOutermost := by
    simp [Samples.levelCalls, LevelCall.ReturnsOutermost]
    decide
  have hallowed : Nesting.AllAllowed Samples.liteSetup ⟨{ world := .closed }, []⟩
      Samples.levelCalls := by
    refine ⟨trivial, trivial, .inr ?_, trivial, ?_, trivial, trivial, trivial⟩
    · decide +kernel
    · exact show "S0D0" ∈ _ by decide +kernel
  exact ⟨hinner, (Nesting.agreesThroughout_iff Samples.lite_keepsTransactions rfl rfl
    Samples.levelCalls hallowed).2 hinner⟩

end RowLedger
