/-! Values that are built on first use and then shared. -/

namespace RowLedger

/-- A shared value, with a number that tells one build from another. -/
structure Handle (α : Type) where
  serial : Nat
  value : α
  deriving DecidableEq

/-- One shared value for each key. -/
structure Cache (κ α : Type) where
  /-- How many values were ever stored. -/
  built : Nat := 0
  entries : List (κ × Handle α) := []

namespace Cache

variable {κ α ε : Type} [DecidableEq κ]

def find? (c : Cache κ α) (k : κ) : Option (Handle α) := c.entries.lookup k

/-- Stores a value in the place of the one that was there. -/
def put (c : Cache κ α) (k : κ) (a : α) : Handle α × Cache κ α :=
  let h := ⟨c.built, a⟩
  (h, ⟨c.built + 1, (k, h) :: c.entries.filter fun e => e.1 != k⟩)

/-- Stores a value unless there is one. -/
def keep (c : Cache κ α) (k : κ) (a : α) : Handle α × Cache κ α :=
  match c.find? k with
  | some h => (h, c)
  | none => c.put k a

/-- The shared value, which is built if there is none. -/
def serve (c : Cache κ α) (k : κ) (build : Except ε α) : Except ε (Handle α × Cache κ α) :=
  match c.find? k with
  | some h => .ok (h, c)
  | none => do return c.keep k (← build)

/-- Forgets every value; the numbers go on. -/
def clear (c : Cache κ α) : Cache κ α := { c with entries := [] }

end Cache

end RowLedger
