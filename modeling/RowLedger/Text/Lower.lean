import RowLedger.Text.CaseTable

/-! Small letters for capitals of every script, with the two forms of the small sigma. -/

namespace RowLedger.Text

/-- Is `n` past an odd number of edges? -/
def withinEdges (edges : List Nat) (n : Nat) : Bool :=
  (edges.takeWhile (· ≤ n)).length % 2 == 1

def isCased (c : Char) : Bool := withinEdges casedEdges c.toNat

def isCaseIgnorable (c : Char) : Bool := withinEdges caseIgnorableEdges c.toNat

/-- The small form of one character on its own; only the dotted capital I has two characters. -/
def lowerChar (c : Char) : List Char :=
  if c.toNat < 0x80 then [c.toLower]
  else if c.toNat = 0x130 then ['i', Char.ofNat 0x307]
  else
    match capitalRuns.find? fun (lo, hi, step, _) =>
        lo ≤ c.toNat && c.toNat ≤ hi && (c.toNat - lo) % step == 0 with
    | some (_, _, _, d) => [Char.ofNat (c.toNat + d).toNat]
    | none => [c]

/-- Is the nearest character that is not looked through a cased letter? -/
def meetsCased (cs : List Char) : Bool :=
  match cs.dropWhile isCaseIgnorable with
  | [] => false
  | c :: _ => isCased c

/-- `before` holds the characters already read, the last one first. -/
def lowerFrom (before : List Char) : List Char → List Char
  | [] => []
  | c :: cs =>
    let small :=
      if c = 'Σ' then (if meetsCased before && !meetsCased cs then ['ς'] else ['σ'])
      else lowerChar c
    small ++ lowerFrom (c :: before) cs

def toLower (s : String) : String := String.ofList (lowerFrom [] s.toList)

end RowLedger.Text
