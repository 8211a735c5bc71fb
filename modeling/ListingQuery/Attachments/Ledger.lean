/-!
# Ledgers

A ledger charges amounts against a capacity.  A request that does not fit leaves the ledger as it
is.  The total saturates at the largest word; without a capacity everything fits.
-/

namespace ListingQuery

/-- A capacity, if there is one, and what has been charged. -/
structure Ledger where
  capacity : Option UInt64
  used : UInt64
deriving DecidableEq, Repr

namespace Ledger

/-- The sum of two words, or the largest word if that is smaller. -/
def saturatingAdd (a b : UInt64) : UInt64 :=
  if a.toNat + b.toNat < UInt64.size then a + b else UInt64.ofNat (UInt64.size - 1)

/-- A ledger with nothing charged. -/
def new (capacity : Option UInt64) : Ledger := ⟨capacity, 0⟩

/-- Would the amount fit? -/
def fits (l : Ledger) (amount : UInt64) : Bool :=
  match l.capacity with
  | none => true
  | some capacity => saturatingAdd l.used amount ≤ capacity

/-- The ledger after a request: the amount is charged if it fits. -/
def acquire (l : Ledger) (amount : UInt64) : Ledger :=
  if l.fits amount then { l with used := saturatingAdd l.used amount } else l

/-- A call on a ledger: the question whether an amount would fit, or a request for it. -/
inductive Call where
  | ask (amount : UInt64)
  | request (amount : UInt64)
deriving DecidableEq, Repr

/-- The answer to a call, and the ledger behind it. -/
def answer (l : Ledger) : Call → Bool × Ledger
  | .ask amount => (l.fits amount, l)
  | .request amount =>
    if !l.fits amount then (false, l)
    else (true, { l with used := saturatingAdd l.used amount })

/-- What is left of the capacity. -/
def remaining (l : Ledger) : Option UInt64 :=
  l.capacity.map fun capacity => if l.used ≤ capacity then capacity - l.used else 0

end Ledger

end ListingQuery
