import RowLedger.Guid
import RowLedger.Text.Blank

/-!
Masking what is drawn at random: in a text, identifiers and names of savepoints that the user did
not give are replaced by numbers, which count by first appearance.
-/

namespace RowLedger

structure Masking where
  /-- What the user gave, as it is and in lower case. -/
  given : List Char
  givenLower : List Char
  guids : List (List Char) := []
  savepoints : List (List Char) := []

namespace Masking

def start (given : String) : Masking :=
  { given := given.toList, givenLower := Text.foldAscii given }

/-- The number of a text, counted from one, and the texts seen then. -/
def numbered (text : List Char) (seen : List (List Char)) : Nat × List (List Char) :=
  let seen := if seen.contains text then seen else seen ++ [text]
  (seen.idxOf text + 1, seen)

/-- An identifier at the start of the text: what stands for it, and its length. -/
def guid? (m : Masking) (cs : List Char) : Option (String × Nat × Masking) := do
  let text := cs.take 36
  let g ← Guid.read? text
  let bare := text.filter fun c => c != '-'
  let isGiven := Text.occursIn text m.givenLower || Text.occursIn bare m.givenLower
  if g.digits = text ∧ g ≠ .nil ∧ !isGiven then
    let (n, guids) := numbered text m.guids
    return ("<guid:" ++ Text.showInt n ++ ">", 36, { m with guids })
  else none

/-- The name of a savepoint at the start of the text. -/
def savepoint? (m : Masking) : List Char → Option (String × Nat × Masking)
  | 'S' :: cs => do
    let number := cs.takeWhile Char.isDigit
    let behind := cs.dropWhile Char.isDigit
    let depth := behind.tail.takeWhile Char.isDigit
    let text := 'S' :: number ++ 'D' :: depth
    if number ≠ [] ∧ behind.head? = some 'D' ∧ depth ≠ [] ∧ !Text.occursIn text m.given then
      let (n, savepoints) := numbered text m.savepoints
      return ("S<" ++ Text.showInt n ++ ">D" ++ String.ofList depth, text.length,
        { m with savepoints })
    else none
  | _ => none

/-- Scans from left to right, past the characters that a replacement has taken the place of. -/
def scan (m : Masking) (skip : Nat) : List Char → List Char × Masking
  | [] => ([], m)
  | c :: cs =>
    match skip with
    | skip + 1 => m.scan skip cs
    | 0 =>
      match (m.guid? (c :: cs)).orElse fun _ => m.savepoint? (c :: cs) with
      | some (shown, n, m) =>
        let (rest, m) := m.scan (n - 1) cs
        (shown.toList ++ rest, m)
      | none =>
        let (rest, m) := m.scan 0 cs
        (c :: rest, m)

def mask (m : Masking) (s : String) : String × Masking :=
  let (cs, m) := m.scan 0 s.toList
  (String.ofList cs, m)

end Masking

end RowLedger
