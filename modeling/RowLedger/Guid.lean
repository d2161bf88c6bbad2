import RowLedger.Text.Hexadecimal
import RowLedger.Text.Numeral

/-! Identifiers of 128 bits and their hexadecimal text. -/

namespace RowLedger

structure Guid where
  bits : BitVec 128
  deriving DecidableEq

namespace Guid

def nil : Guid := ⟨0⟩

instance : Inhabited Guid := ⟨nil⟩

/-- Groups of 8, 4, 4, 4 and 12 digits between hyphens. -/
def digits (g : Guid) : List Char :=
  let ds := Text.hexDigits 32 g.bits.toNat
  ds.take 8 ++ '-' :: (ds.drop 8).take 4 ++ '-' :: (ds.drop 12).take 4 ++ '-' ::
    (ds.drop 16).take 4 ++ '-' :: ds.drop 20

def text (g : Guid) : String := String.ofList g.digits

def ofHex? (cs : List Char) : Option Guid :=
  (Text.readHex? cs).map fun n => ⟨BitVec.ofNat 128 n⟩

/-- Hyphens at their four places and digits elsewhere. -/
def readGrouped? (cs : List Char) : Option Guid :=
  match cs.drop 8, cs.drop 13, cs.drop 18, cs.drop 23 with
  | '-' :: _, '-' :: _, '-' :: _, '-' :: _ =>
    ofHex? (cs.take 8 ++ (cs.drop 9).take 4 ++ (cs.drop 14).take 4 ++ (cs.drop 19).take 4 ++
      cs.drop 24)
  | _, _, _, _ => none

def braced? : List Char → Option (List Char)
  | '\x7b' :: cs => if cs.getLast? = some '\x7d' then some cs.dropLast else none
  | _ => none

/-- 32 digits, or 36 characters with hyphens, the latter also in braces or as a resource name. -/
def read? (cs : List Char) : Option Guid :=
  let urn := "urn:uuid:".toList
  if cs.length = 32 then ofHex? cs
  else if cs.length = 36 then readGrouped? cs
  else if cs.length = 38 then (braced? cs).bind readGrouped?
  else if cs.length = 45 && (cs.take 9).map Char.toLower == urn then readGrouped? (cs.drop 9)
  else none

/-- A binary form has sixteen bytes, the highest first. -/
def ofBytes? (bytes : List UInt8) : Option Guid :=
  if bytes.length = 16 then
    some ⟨BitVec.ofNat 128 (bytes.foldl (fun n b => 256 * n + b.toNat) 0)⟩
  else none

end Guid

end RowLedger
