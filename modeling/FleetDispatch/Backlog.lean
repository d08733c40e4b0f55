import FleetDispatch.Record

namespace FleetDispatch

/-- A queued record with what orders it among the others of its endpoint. -/
structure PendingRecord where
  record : Record
  actionName : String
  scheduledAt : Instant
  deriving DecidableEq, Inhabited

namespace PendingRecord

def actionId (p : PendingRecord) : ActionId :=
  p.record.actionId

def before (a b : PendingRecord) : Bool :=
  if a.scheduledAt = b.scheduledAt then a.actionId ≤ b.actionId else a.scheduledAt ≤ b.scheduledAt

end PendingRecord

/-- The queued records of one endpoint for the length of a cycle. -/
structure Backlog where
  items : List PendingRecord
  halted : Bool
  deriving Inhabited

namespace Backlog

/-- Sorts the records; of equal ones the order is kept. -/
def ofPending (pending : List PendingRecord) : Backlog :=
  ⟨pending.mergeSort PendingRecord.before, false⟩

/-- Takes the first record if it is due. A first record in the future halts the backlog for
good. -/
def nextDue (now : Instant) (b : Backlog) : Option PendingRecord × Backlog :=
  if b.halted then (none, b)
  else match b.items with
    | [] => (none, b)
    | head :: rest =>
      if head.scheduledAt ≤ now then (some head, { b with items := rest })
      else (none, { b with halted := true })

def remaining (b : Backlog) : Nat :=
  b.items.length

end FleetDispatch.Backlog
