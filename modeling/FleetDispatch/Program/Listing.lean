import FleetDispatch.Action
import FleetDispatch.Program.Paint
import FleetDispatch.Report

namespace FleetDispatch.Program

open Text

def line (s : String) : String :=
  s ++ "\n"

def lines (ls : List String) : String :=
  String.join (ls.map line)

def paintOf : Status → Paint
  | .queued => .yellow
  | .completed => .green
  | .failed => .red

def recordHead : String :=
  padRight 8 "ACTION" ++ " " ++ padRight 20 "ENDPOINT" ++ " " ++ padRight 10 "STATUS" ++ " " ++
    padLeft 5 "TRIES" ++ " " ++ padLeft 6 "CODE" ++ "  MESSAGE"

def recordLine (color : Bool) (r : Record) : String :=
  padRight 8 (toString r.actionId) ++ " " ++ padRight 20 r.endpoint ++ " " ++
    (paintOf r.status).on color (padRight 10 r.status.name) ++ " " ++
    padLeft 5 (toString r.remainingTries) ++ " " ++
    padLeft 6 ((r.resultCode.map toString).getD "") ++ "  " ++ r.resultMsg.getD ""

def recordTable (color : Bool) : List Record → String
  | [] => line "No execution records"
  | rs => lines (recordHead :: rs.map (recordLine color))

def endpointHead : String :=
  padRight 20 "ENDPOINT" ++ " " ++ padRight 8 "REFRESH" ++ " LAST CHECK-IN"

def endpointLine (e : Endpoint) : String :=
  padRight 20 e.id ++ " " ++ padRight 8 (if e.needsRefresh then "pending" else "-") ++ " " ++
    (e.lastCheckin.map Instant.offsetStamp).getD "never"

def endpointTable : List Endpoint → String
  | [] => line "No endpoints"
  | es => lines (endpointHead :: es.map endpointLine)

def outcomePaint : Outcome → Paint
  | .completed .. => .green
  | .held .. => .yellow
  | .skipped .. => .yellow
  | .noResult .. => .yellow
  | _ => .red

def outcomeDetail : Outcome → String
  | .failed _ _ message => " " ++ message
  | .error _ message => " " ++ message
  | .held _ prerequisite => s!" waiting on action {prerequisite}"
  | _ => ""

def outcomeLine (color : Bool) (o : Outcome) : String :=
  "  action " ++ padLeft 6 (toString o.actionId) ++ "  " ++
    (outcomePaint o).on color o.label ++ outcomeDetail o

def probeLine (color : Bool) : Probe → String
  | .alive => "  probe: " ++ Paint.green.on color "alive"
  | .silent => "  probe: " ++ Paint.yellow.on color "no answer"
  | .unreachable detail => "  probe: " ++ Paint.red.on color "unreachable" ++ " " ++ detail

def reportText (color : Bool) (cycleId : String) (r : Report) : String :=
  lines ([s!"Cycle {cycleId} on " ++ Paint.bold.on color r.endpoint] ++
    r.outcomes.map (outcomeLine color) ++
    (r.checkpoint.map fun id => s!"  package list refresh scheduled as action {id}").toList ++
    (r.probe.map (probeLine color)).toList ++
    [s!"  {r.remoteCalls} remote call(s), {r.deferred} deferred"])

def reportJson (cycleId : String) (r : Report) : Json :=
  .obj (("cycle_id", .str cycleId) :: r.fields)

def createdLine (color : Bool) (a : Action) : String :=
  line (Paint.green.on color "Created" ++
    s!" action {a.id} ({a.procedure.display}) scheduled at {a.scheduledAt.offsetStamp}")

end FleetDispatch.Program
