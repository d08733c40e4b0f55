import FleetDispatch.Record

namespace FleetDispatch

/-- What is known of an endpoint: whether its package list is stale, and when it last answered. -/
structure Endpoint where
  id : EndpointId
  needsRefresh : Bool
  lastCheckin : Option Instant
  deriving DecidableEq, Inhabited

namespace Endpoint

def fresh (id : EndpointId) : Endpoint :=
  ⟨id, false, none⟩

def markRefresh (e : Endpoint) : Endpoint :=
  { e with needsRefresh := true }

def clearRefresh (e : Endpoint) : Endpoint :=
  { e with needsRefresh := false }

def checkIn (time : Instant) (e : Endpoint) : Endpoint :=
  { e with lastCheckin := some time }

def toJson (e : Endpoint) : Json :=
  .obj [("id", .str e.id), ("needs_refresh", .bool e.needsRefresh),
    ("last_checkin", .ofOption (fun t => .str t.stamp) e.lastCheckin)]

def ofJson? (v : Json) : Option Endpoint := do
  let member ← v.members ["id", "needs_refresh", "last_checkin"] 3
  let id ← Json.required Json.str? (member "id")
  let needsRefresh ← Json.required Json.bool? (member "needs_refresh")
  let lastCheckin ← Json.optional Instant.ofJson? (member "last_checkin")
  some ⟨id, needsRefresh, lastCheckin⟩

end FleetDispatch.Endpoint
