import FleetDispatch.Record

namespace FleetDispatch

inductive Outcome where
  | skipped (action : ActionId) (status : Status)
  | held (action : ActionId) (prerequisite : ActionId)
  | prerequisiteFailed (action : ActionId)
  | retriesExhausted (action : ActionId)
  | completed (action : ActionId) (remainingTries : Nat)
  | failed (action : ActionId) (remainingTries : Nat) (message : String)
  | noResult (action : ActionId) (remainingTries : Nat)
  | error (action : ActionId) (message : String)
  deriving DecidableEq

namespace Outcome

def actionId : Outcome → ActionId
  | skipped a _ => a
  | held a _ => a
  | prerequisiteFailed a => a
  | retriesExhausted a => a
  | completed a _ => a
  | failed a _ _ => a
  | noResult a _ => a
  | error a _ => a

def tag : Outcome → String
  | skipped .. => "skipped"
  | held .. => "held"
  | prerequisiteFailed .. => "prerequisite_failed"
  | retriesExhausted .. => "retries_exhausted"
  | completed .. => "completed"
  | failed .. => "failed"
  | noResult .. => "no_result"
  | error .. => "error"

def label (o : Outcome) : String :=
  o.tag.map fun c => if c = '_' then '-' else c

def details : Outcome → Json.Fields
  | skipped _ status => [("status", .str status.name)]
  | held _ prerequisite => [("prerequisite", .int prerequisite)]
  | prerequisiteFailed _ => []
  | retriesExhausted _ => []
  | completed _ n => [("remaining_tries", .ofNat n)]
  | failed _ n message => [("remaining_tries", .ofNat n), ("message", .str message)]
  | noResult _ n => [("remaining_tries", .ofNat n)]
  | error _ message => [("error", .str message)]

def toJson (o : Outcome) : Json :=
  .obj ([("outcome", .str o.tag), ("action_id", .int o.actionId)] ++ o.details)

end Outcome

inductive Probe where
  | alive
  | silent
  | unreachable (detail : String)
  deriving DecidableEq

def Probe.toJson : Probe → Json
  | alive => .str "alive"
  | silent => .str "silent"
  | unreachable detail => .obj [("unreachable", .str detail)]

structure Report where
  endpoint : EndpointId
  startedAt : Instant
  outcomes : List Outcome
  checkpoint : Option ActionId
  probe : Option Probe
  remoteCalls : Nat
  deferred : Nat
  deriving DecidableEq

namespace Report

def opened (endpoint : EndpointId) (startedAt : Instant) : Report :=
  ⟨endpoint, startedAt, [], none, none, 0, 0⟩

def add (o : Outcome) (r : Report) : Report :=
  { r with outcomes := r.outcomes ++ [o] }

/-- Whether the cycle came to any record, with or without a call. -/
def visitedAny (r : Report) : Bool :=
  !r.outcomes.isEmpty

def outcomeFor (action : ActionId) (r : Report) : Option Outcome :=
  r.outcomes.find? (·.actionId == action)

def fields (r : Report) : Json.Fields :=
  [("endpoint", .str r.endpoint), ("started_at", .str r.startedAt.stamp),
    ("outcomes", .arr (r.outcomes.map Outcome.toJson)),
    ("checkpoint", .ofOption .int r.checkpoint), ("probe", .ofOption Probe.toJson r.probe),
    ("remote_calls", .ofNat r.remoteCalls), ("deferred", .ofNat r.deferred)]

end FleetDispatch.Report
