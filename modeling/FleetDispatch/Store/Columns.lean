import FleetDispatch.Store.Basic
import FleetDispatch.Store.Cell
import FleetDispatch.Store.Rows

namespace FleetDispatch

/-- A stored action. Times are whole milliseconds, and the procedure is JSON text. -/
structure ActionRow where
  id : ActionId
  name : String
  procedure : String
  scheduledAtMs : Cell
  prerequisite : Cell
  createdAtMs : Cell
  deriving DecidableEq, Inhabited

/-- A stored record, as wide as its columns allow. -/
structure RecordRow where
  actionId : ActionId
  endpoint : EndpointId
  status : String
  remainingTries : Cell
  resultCode : Cell
  resultMsg : Option String
  completedAtMs : Cell
  deriving DecidableEq, Inhabited

structure EndpointRow where
  id : EndpointId
  needsRefresh : Cell
  lastCheckinMs : Cell
  deriving DecidableEq, Inhabited

instance : Row ActionRow ActionId := ⟨ActionRow.id, fun a b => a < b⟩

instance : Row RecordRow (ActionId × EndpointId) :=
  ⟨fun r => (r.actionId, r.endpoint), fun a b => a.1 < b.1 || (a.1 == b.1 && a.2 < b.2)⟩

instance : Row EndpointRow EndpointId := ⟨EndpointRow.id, fun a b => a < b⟩

structure Column where
  index : Nat
  name : String

namespace Column

def int (c : Column) : Cell → Except StoreError Int
  | .int n => .ok n
  | cell => .error (.backend (.wrongKind cell.kindName c.index c.name))

def optionalInt (c : Column) : Cell → Except StoreError (Option Int)
  | .null => .ok none
  | cell => (c.int cell).map some

end Column

def timeOf (millis : Int) : Except StoreError Instant :=
  match Instant.ofMillis? millis with
  | some t => .ok t
  | none => .error (.invalidData (.time millis))

def optionalTimeOf : Option Int → Except StoreError (Option Instant)
  | none => .ok none
  | some ms => (timeOf ms).map some

structure RecordNumbers where
  remainingTries : Int
  resultCode : Option Int
  completedAtMs : Option Int

namespace RecordRow

def encode (r : Record) : RecordRow :=
  ⟨r.actionId, r.endpoint, r.status.name, .int r.remainingTries, .ofOption r.resultCode,
    r.resultMsg, .ofOption (r.completedAt.map Instant.toMillis)⟩

def numbers (r : RecordRow) : Except StoreError RecordNumbers := do
  let remainingTries ← Column.int ⟨3, "remaining_tries"⟩ r.remainingTries
  let resultCode ← Column.optionalInt ⟨4, "result_code"⟩ r.resultCode
  let completedAtMs ← Column.optionalInt ⟨6, "completed_at_ms"⟩ r.completedAtMs
  return ⟨remainingTries, resultCode, completedAtMs⟩

def withNumbers (r : RecordRow) (n : RecordNumbers) : Except StoreError Record := do
  let some status := Status.ofText? r.status
    | throw (.invalidData (.status r.status))
  if n.remainingTries < 0 || Width.most32 < n.remainingTries then
    throw (.invalidData (.tries n.remainingTries))
  let completedAt ← optionalTimeOf n.completedAtMs
  return ⟨r.actionId, r.endpoint, status, n.remainingTries.toNat, n.resultCode, r.resultMsg,
    completedAt⟩

def decode (r : RecordRow) : Except StoreError Record := do
  r.withNumbers (← r.numbers)

/-- Only the exact word counts as queued. -/
def isQueued (r : RecordRow) : Bool :=
  r.status == Status.queued.name

end RecordRow

namespace ActionRow

def encode (id : ActionId) (now : Instant) (a : NewAction) : ActionRow :=
  ⟨id, a.name, a.procedure.toText, .int a.scheduledAt.toMillis, .ofOption a.prerequisite,
    .int now.toMillis⟩

def decode (a : ActionRow) : Except StoreError Action := do
  let scheduledAtMs ← Column.int ⟨3, "scheduled_at_ms"⟩ a.scheduledAtMs
  let prerequisite ← Column.optionalInt ⟨4, "prerequisite_id"⟩ a.prerequisite
  let createdAtMs ← Column.int ⟨5, "created_at_ms"⟩ a.createdAtMs
  let procedure ← (Procedure.ofText a.procedure).mapError fun m => .invalidData (.procedure m)
  let scheduledAt ← timeOf scheduledAtMs
  let createdAt ← timeOf createdAtMs
  return ⟨a.id, a.name, scheduledAt, prerequisite, procedure, createdAt⟩

end ActionRow

namespace EndpointRow

def fresh (id : EndpointId) : EndpointRow :=
  ⟨id, .int 0, .null⟩

def encode (e : Endpoint) : EndpointRow :=
  ⟨e.id, .int (if e.needsRefresh then 1 else 0), .ofOption (e.lastCheckin.map Instant.toMillis)⟩

def decode (e : EndpointRow) : Except StoreError Endpoint := do
  let needsRefresh ← Column.int ⟨1, "needs_refresh"⟩ e.needsRefresh
  let lastCheckinMs ← Column.optionalInt ⟨2, "last_checkin_ms"⟩ e.lastCheckinMs
  let lastCheckin ← optionalTimeOf lastCheckinMs
  return ⟨e.id, needsRefresh != 0, lastCheckin⟩

def isFlagged (e : EndpointRow) : Bool :=
  e.needsRefresh != .int 0

end EndpointRow

end FleetDispatch
