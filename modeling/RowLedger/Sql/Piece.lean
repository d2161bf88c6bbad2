import RowLedger.Text.Delimited

/-!
Statements as pieces: fixed words, names that a dialect quotes and holes that it marks. The text of
a statement is made from its pieces in one step.
-/

namespace RowLedger

inductive Piece
  | word (s : String)
  /-- The name of a table, a column or an index. -/
  | name (s : String)
  /-- The place of a bound parameter. -/
  | hole (s : String)
  deriving DecidableEq

abbrev Sql := List Piece

namespace Sql

/-- The names of the parameters that the text asks for, from left to right. -/
def holes (s : Sql) : List String :=
  s.filterMap fun
    | .hole n => some n
    | _ => none

@[simp] theorem holes_nil : holes [] = [] := rfl

@[simp] theorem holes_word (w : String) (s : Sql) : holes (.word w :: s) = holes s := rfl

@[simp] theorem holes_name (n : String) (s : Sql) : holes (.name n :: s) = holes s := rfl

@[simp] theorem holes_hole (n : String) (s : Sql) : holes (.hole n :: s) = n :: holes s := rfl

@[simp] theorem holes_append (a b : Sql) : holes (a ++ b) = holes a ++ holes b := by
  simp [holes]

/-- Puts a word between neighbours. -/
def joined (between : String) : List Sql → Sql
  | [] => []
  | [s] => s
  | s :: t :: rest => s ++ .word between :: joined between (t :: rest)

@[simp] theorem holes_joined (between : String) (ss : List Sql) :
    holes (joined between ss) = ss.flatMap holes := by
  induction ss with
  | nil => rfl
  | cons s rest ih =>
    cases rest with
    | nil => simp [joined]
    | cons t rest => simp [joined, ih]

def parenthesized (s : Sql) : Sql := .word "(" :: s ++ [.word ")"]

end Sql

end RowLedger
