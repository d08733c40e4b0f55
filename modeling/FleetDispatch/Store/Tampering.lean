import FleetDispatch.Store.Tables

namespace FleetDispatch

inductive RecordColumn where
  | status
  | remainingTries
  | resultCode
  | resultMsg
  | completedAtMs
  deriving DecidableEq

inductive ActionColumn where
  | name
  | procedure
  | scheduledAtMs
  | prerequisite
  | createdAtMs
  deriving DecidableEq

inductive EndpointColumn where
  | needsRefresh
  | lastCheckinMs
  deriving DecidableEq

/-- What a column for numbers that is never empty holds after a value was put in. -/
def Cell.present? (v : Cell) : Option Cell :=
  if v = .null then none else some v.numeric

namespace RecordColumn

def ofName? : String → Option RecordColumn
  | "status" => some status
  | "remaining_tries" => some remainingTries
  | "result_code" => some resultCode
  | "result_msg" => some resultMsg
  | "completed_at_ms" => some completedAtMs
  | _ => none

def set? (v : Cell) (r : RecordRow) : RecordColumn → Option RecordRow
  | status => v.words?.map fun status => { r with status }
  | remainingTries => v.present?.map fun remainingTries => { r with remainingTries }
  | resultCode => some { r with resultCode := v.numeric }
  | resultMsg =>
    if v = .null then some { r with resultMsg := none }
    else v.words?.map fun s => { r with resultMsg := some s }
  | completedAtMs => some { r with completedAtMs := v.numeric }

end RecordColumn

namespace ActionColumn

def ofName? : String → Option ActionColumn
  | "name" => some name
  | "procedure" => some procedure
  | "scheduled_at_ms" => some scheduledAtMs
  | "prerequisite_id" => some prerequisite
  | "created_at_ms" => some createdAtMs
  | _ => none

def set? (v : Cell) (a : ActionRow) : ActionColumn → Option ActionRow
  | name => v.words?.map fun name => { a with name }
  | procedure => v.words?.map fun procedure => { a with procedure }
  | scheduledAtMs => v.present?.map fun scheduledAtMs => { a with scheduledAtMs }
  | prerequisite => some { a with prerequisite := v.numeric }
  | createdAtMs => v.present?.map fun createdAtMs => { a with createdAtMs }

end ActionColumn

namespace EndpointColumn

def ofName? : String → Option EndpointColumn
  | "needs_refresh" => some needsRefresh
  | "last_checkin_ms" => some lastCheckinMs
  | _ => none

def set? (v : Cell) (e : EndpointRow) : EndpointColumn → Option EndpointRow
  | needsRefresh => v.present?.map fun needsRefresh => { e with needsRefresh }
  | lastCheckinMs => some { e with lastCheckinMs := v.numeric }

end EndpointColumn

namespace Tables

inductive Tampering where
  | record (action : ActionId) (endpoint : EndpointId) (column : RecordColumn) (value : Cell)
  | action (id : ActionId) (column : ActionColumn) (value : Cell)
  | endpoint (id : EndpointId) (column : EndpointColumn) (value : Cell)
  | deleteRecord (action : ActionId) (endpoint : EndpointId)
  | deleteAction (id : ActionId)

/-- Makes the change and counts the rows that it reached, unless a column refuses the value. -/
def tamper? (t : Tables) : Tampering → Option (Tables × Nat)
  | .record action id column value =>
    match Rows.find? (action, id) t.records with
    | none => some (t, 0)
    | some r => (column.set? value r).map fun r => ({ t with records := Rows.put r t.records }, 1)
  | .action id column value =>
    match Rows.find? id t.actions with
    | none => some (t, 0)
    | some a => (column.set? value a).map fun a => ({ t with actions := Rows.put a t.actions }, 1)
  | .endpoint id column value =>
    match Rows.find? id t.endpoints with
    | none => some (t, 0)
    | some e =>
      (column.set? value e).map fun e => ({ t with endpoints := Rows.put e t.endpoints }, 1)
  | .deleteRecord action id =>
    let (records, n) := Rows.delete (action, id) t.records
    some ({ t with records }, n)
  | .deleteAction id =>
    let (actions, n) := Rows.delete id t.actions
    some ({ t with actions }, n)

end FleetDispatch.Tables
