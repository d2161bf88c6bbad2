import RowLedger.Text.HiddenTable
import RowLedger.Text.Lower

/-! Text in double quotes as messages show it: what cannot be seen is spelled out. -/

namespace RowLedger.Text

def isHidden (c : Char) : Bool := withinEdges hiddenEdges c.toNat

/-- The spelling of one character between quotes. -/
def escapeChar (c : Char) : List Char :=
  if c = '"' then ['\\', '"']
  else if c = '\\' then ['\\', '\\']
  else if c = '\n' then ['\\', 'n']
  else if c = '\t' then ['\\', 't']
  else if c = '\r' then ['\\', 'r']
  else if c = '\x00' then ['\\', '0']
  else if isHidden c then ['\\', 'u', '\x7b'] ++ Nat.toDigits 16 c.toNat ++ ['\x7d']
  else [c]

def quoted (s : String) : String :=
  String.ofList ('"' :: (s.toList.flatMap escapeChar ++ ['"']))

end RowLedger.Text
