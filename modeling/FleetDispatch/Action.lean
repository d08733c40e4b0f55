import FleetDispatch.Endpoint
import FleetDispatch.Procedure

namespace FleetDispatch

/-- A procedure to run on some endpoints, not before a given time, and not before another action
has succeeded there. -/
structure Action where
  id : ActionId
  name : String
  scheduledAt : Instant
  prerequisite : Option ActionId
  procedure : Procedure
  createdAt : Instant
  deriving Inhabited

namespace Action

def isDue (now : Instant) (a : Action) : Bool :=
  a.scheduledAt ≤ now

def toJson (a : Action) : Json :=
  .obj [("id", .int a.id), ("name", .str a.name), ("scheduled_at", .str a.scheduledAt.stamp),
    ("prerequisite", .ofOption .int a.prerequisite), ("procedure", a.procedure.toJson),
    ("created_at", .str a.createdAt.stamp)]

def ofJson? (v : Json) : Option Action := do
  let member ← v.members ["id", "name", "scheduled_at", "prerequisite", "procedure",
    "created_at"] 6
  let id ← Json.required Json.int64? (member "id")
  let name ← Json.required Json.str? (member "name")
  let scheduledAt ← Json.required Instant.ofJson? (member "scheduled_at")
  let prerequisite ← Json.optional Json.int64? (member "prerequisite")
  let procedure ← Json.required Procedure.ofJson? (member "procedure")
  let createdAt ← Json.required Instant.ofJson? (member "created_at")
  some ⟨id, name, scheduledAt, prerequisite, procedure, createdAt⟩

end Action

/-- An action that is asked for, with the endpoints it is for and the attempts it has on each. -/
structure NewAction where
  name : String
  scheduledAt : Instant
  prerequisite : Option ActionId
  procedure : Procedure
  endpoints : List EndpointId
  retries : Nat

def defaultRetries : Nat := 5

def NewAction.packageRefresh (endpoint : EndpointId) (scheduledAt : Instant) (retries : Nat) :
    NewAction :=
  ⟨"Package List Refresh", scheduledAt, none, .packageRefresh, [endpoint], retries⟩

end FleetDispatch
