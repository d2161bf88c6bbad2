import RowLedger.Cache
import RowLedger.Schema.Mapping

/-! The mappings in use, one for each record type: built on first use and then shared. -/

namespace RowLedger

abbrev Shared := Handle Mapping

abbrev Shared.mapping (s : Shared) : Mapping := s.value

abbrev Registry := Cache RecordType Mapping

namespace Registry

def empty : Registry := {}

/-- The mapping in use, or one without flags. -/
def mapping (r : Registry) (t : RecordType) : Except Error (Shared × Registry) :=
  r.serve t (Mapping.ofRecord t .none)

/-- Replaces a mapping that was built with other flags; a failure changes nothing. -/
def withFlags (r : Registry) (t : RecordType) (flags : Flags) : Except Error (Shared × Registry) :=
  match (r.find? t).filter fun s => s.value.flags = flags with
  | some s => .ok (s, r)
  | none => do return r.put t (← Mapping.ofRecord t flags)

/-- Forgets every mapping. -/
def reset (r : Registry) : Registry := r.clear

end Registry

end RowLedger
