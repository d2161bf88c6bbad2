import RowLedger.Connection.Transaction
import RowLedger.Proofs.Connection.Run

/-!
The transaction that a database keeps: a stack of savepoints, where the connection has only a
count.
-/

namespace RowLedger

inductive Physical
  | closed
  /-- Whether a savepoint opened the transaction, and the savepoints, the innermost first. -/
  | active (saved : Bool) (points : List String)
  deriving DecidableEq

namespace Physical

inductive Command
  | begin
  | commit
  | rollback
  | save (name : String)
  | release (name : String)
  | rollbackTo (name : String)
  deriving DecidableEq

def isOpen : Physical → Bool
  | closed => false
  | active _ _ => true

/-- The savepoints from a name on; it comes first. -/
def fromPoint (name : String) (points : List String) : List String :=
  points.dropWhile (· ≠ name)

/-- What is left after the outermost of the released savepoints is gone. -/
def released : Bool → List String → Physical
  | true, [] => closed
  | saved, points => active saved points

/-- What a command makes of a transaction; none where the database refuses it. -/
def after : Physical → Command → Option Physical
  | closed, .begin => some (active false [])
  | closed, .save name => some (active true [name])
  | closed, _ => none
  | active _ _, .begin => none
  | active _ _, .commit | active _ _, .rollback => some closed
  | active saved points, .save name => some (active saved (name :: points))
  | active saved points, .release name =>
    if name ∈ points then some (released saved (fromPoint name points).tail) else none
  | active saved points, .rollbackTo name =>
    if name ∈ points then some (active saved (fromPoint name points)) else none

/-- How a command is written; SQL Server has none that releases a savepoint. -/
def Command.text? : Dialect → Command → Option String
  | _, begin => some "begin transaction"
  | .sqlite, commit => some "commit"
  | .sqlite, rollback => some "rollback"
  | .sqlite, save name => some ("savepoint " ++ name)
  | .sqlite, release name => some ("release " ++ name)
  | .sqlite, rollbackTo name => some ("rollback to " ++ name)
  | .sqlServer, commit => some "commit transaction"
  | .sqlServer, rollback => some "rollback transaction"
  | .sqlServer, save name => some ("save transaction " ++ name)
  | .sqlServer, release _ => none
  | .sqlServer, rollbackTo name => some ("rollback transaction " ++ name)

theorem after_rollback {p : Physical} (h : p ≠ .closed) : p.after .rollback = some .closed := by
  cases p with
  | closed => exact absurd rfl h
  | active => rfl

theorem after_commit {p : Physical} (h : p ≠ .closed) : p.after .commit = some .closed := by
  cases p with
  | closed => exact absurd rfl h
  | active => rfl

theorem fromPoint_suffix (name : String) (points : List String) :
    fromPoint name points <:+ points := List.dropWhile_suffix _

/-- The named savepoint stands in front of those around it. -/
theorem fromPoint_eq_cons {name : String} {points : List String} (h : name ∈ points) :
    ∃ rest, fromPoint name points = name :: rest := by
  induction points with
  | nil => cases h
  | cons p points ih =>
    by_cases hp : p = name
    · exact ⟨points, by simp [fromPoint, hp]⟩
    · have hmem : name ∈ points := by
        rcases List.mem_cons.mp h with rfl | h
        · exact absurd rfl hp
        · exact h
      obtain ⟨rest, hrest⟩ := ih hmem
      exact ⟨rest, by simpa [fromPoint, hp] using hrest⟩

theorem fromPoint_sublist {name : String} {names points : List String}
    (h : names.Sublist points) : (fromPoint name names).Sublist (fromPoint name points) := by
  induction h with
  | slnil => exact .slnil
  | @cons names points p h ih =>
    by_cases hp : p = name
    · simp only [fromPoint, hp, List.dropWhile_cons, ne_eq, not_true_eq_false, decide_false,
        Bool.false_eq_true, if_false]
      exact ((fromPoint_suffix name names).sublist.trans h).cons name
    · simpa [fromPoint, hp] using ih
  | @cons_cons names points p h ih =>
    by_cases hp : p = name
    · simpa [fromPoint, hp] using h
    · simpa [fromPoint, hp] using ih

end Physical

/-- A driver that carries out the commands of transactions. In SQL Server one statement begins a
transaction together with its first savepoint. -/
structure Setup.KeepsTransactions {σ : Type} (s : Setup σ) (view : σ → Physical) : Prop where
  carries {w : σ} {k : Physical.Command} {p : Physical} {sql : String} :
    k.text? s.config.dialect = some sql → (view w).after k = some p →
      ∃ r w', s.driver.execute sql [] w = (.ok r, w') ∧ view w' = p
  carriesFirst {w : σ} {name : String} :
    s.config.dialect = .sqlServer → view w = .closed →
      ∃ r w', s.driver.execute ("begin transaction; save transaction " ++ name) [] w = (.ok r, w') ∧
        view w' = .active false [name]

end RowLedger
