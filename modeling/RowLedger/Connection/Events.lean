import RowLedger.Connection.Basic

/-! Subscribers, told of every effective change of a table other than the ledger. -/

namespace RowLedger.Act

variable {σ : Type}

/-- Adds a subscriber and returns its number. -/
def subscribe (onChange : Change → σ → σ) : Act σ Nat := do
  let c ← state
  update fun c => { c with
    subscribers := c.subscribers ++ [⟨c.nextSubscription, onChange⟩]
    nextSubscription := c.nextSubscription + 1 }
  return c.nextSubscription

/-- Removes a subscriber; was it there? -/
def unsubscribe (id : Nat) : Act σ Bool := do
  let c ← state
  let rest := c.subscribers.filter fun s => s.id != id
  update fun c => { c with subscribers := rest }
  return rest.length != c.subscribers.length

def isLedger (m : Mapping) : Bool := m.table == Ledger.tableName

/-- Tells the subscribers in the order in which they came. -/
def notify (m : Mapping) (action : Action) : Act σ Unit :=
  if isLedger m then pure ()
  else update fun c =>
    { c with world := c.subscribers.foldl (fun w s => s.onChange ⟨m, action⟩ w) c.world }

end RowLedger.Act
