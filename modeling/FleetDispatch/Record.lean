import FleetDispatch.Json.Decode
import FleetDispatch.Text.Pad
import FleetDispatch.Time.Timestamp

namespace FleetDispatch

abbrev ActionId := Int

abbrev EndpointId := String

/-- How far an action has come on one endpoint. -/
inductive Status where
  | queued
  | completed
  | failed
  deriving DecidableEq, Inhabited, Repr

namespace Status

def name : Status → String
  | queued => "queued"
  | completed => "completed"
  | failed => "failed"

def isTerminal : Status → Bool
  | queued => false
  | _ => true

def ofText? (s : String) : Option Status :=
  match s.map Char.toLower with
  | "queued" => some queued
  | "completed" => some completed
  | "failed" => some failed
  | _ => none

def unknownMessage (s : String) : String :=
  s!"Unknown execution status: {s}"

def ofName? : String → Option Status
  | "queued" => some queued
  | "completed" => some completed
  | "failed" => some failed
  | _ => none

/-- A status is written as its name, or as an object that holds nothing under its name. -/
def ofJson? : Json → Option Status
  | .str s => ofName? s
  | .obj [(s, .null)] => ofName? s
  | _ => none

end Status

/-- The state of one action on one endpoint. -/
structure Record where
  actionId : ActionId
  endpoint : EndpointId
  status : Status
  remainingTries : Nat
  resultCode : Option Int
  resultMsg : Option String
  completedAt : Option Instant
  deriving DecidableEq, Inhabited

inductive Refusal where
  | alreadyTerminal (action : ActionId) (endpoint : EndpointId) (status : Status)
  | noAttemptsLeft (action : ActionId) (endpoint : EndpointId)
  deriving DecidableEq

def Refusal.message : Refusal → String
  | alreadyTerminal action endpoint status =>
    s!"Action {action} on {endpoint} is already {status.name}"
  | noAttemptsLeft action endpoint => s!"Action {action} on {endpoint} has no attempts left"

namespace Record

def fresh (action : ActionId) (endpoint : EndpointId) (tries : Nat) : Record :=
  ⟨action, endpoint, .queued, tries, none, none, none⟩

def isTerminal (r : Record) : Bool :=
  r.status.isTerminal

def messageLimit : Nat := 1024

/-- A transition of a record. What it wrote before a refusal stays written. -/
abbrev Transition (α : Type) := EStateM Refusal Record α

def ensureQueued : Transition Unit := do
  let r ← get
  if r.isTerminal then throw (.alreadyTerminal r.actionId r.endpoint r.status)

def consume : Transition Nat := do
  ensureQueued
  let r ← get
  if r.remainingTries < 1 then throw (.noAttemptsLeft r.actionId r.endpoint)
  modify fun r => { r with remainingTries := r.remainingTries - 1 }
  return (← get).remainingTries

def finish (status : Status) (code : Int) (msg : String) (time : Instant) : Transition Unit := do
  ensureQueued
  modify fun r => { r with
    status, resultCode := some code, resultMsg := some (Text.cut messageLimit msg),
    completedAt := some time }

def complete (code : Int) (msg : String) (time : Instant) : Transition Unit :=
  finish .completed code msg time

def fail (code : Int) (msg : String) (time : Instant) : Transition Unit :=
  finish .failed code msg time

def fields (r : Record) : Json.Fields :=
  [("action_id", .int r.actionId), ("endpoint", .str r.endpoint), ("status", .str r.status.name),
    ("remaining_tries", .ofNat r.remainingTries), ("result_code", .ofOption .int r.resultCode),
    ("result_msg", .ofOption .str r.resultMsg),
    ("completed_at", .ofOption (fun t => .str t.stamp) r.completedAt)]

def toJson (r : Record) : Json :=
  .obj r.fields

def ofJson? (v : Json) : Option Record := do
  let member ← v.members ["action_id", "endpoint", "status", "remaining_tries", "result_code",
    "result_msg", "completed_at"] 7
  let actionId ← Json.required Json.int64? (member "action_id")
  let endpoint ← Json.required Json.str? (member "endpoint")
  let status ← Json.required Status.ofJson? (member "status")
  let remainingTries ← Json.required Json.nat32? (member "remaining_tries")
  let resultCode ← Json.optional Json.int64? (member "result_code")
  let resultMsg ← Json.optional Json.str? (member "result_msg")
  let completedAt ← Json.optional Instant.ofJson? (member "completed_at")
  some ⟨actionId, endpoint, status, remainingTries, resultCode, resultMsg, completedAt⟩

end FleetDispatch.Record
