import FleetDispatch.Report
import FleetDispatch.Scenario.Request

namespace FleetDispatch.Scenario

def ok : Json := .str "ok"

def failure (kind : String) (message : Option String) : Json :=
  match message with
  | some m => .obj [("error", .str kind), ("message", .str m)]
  | none => .obj [("error", .str kind)]

def refusal (e : Refusal) : Json :=
  match e with
  | .alreadyTerminal .. => failure "AlreadyTerminal" e.message
  | .noAttemptsLeft .. => failure "NoAttemptsLeft" e.message

def kindOf : StoreError → String
  | .notFound _ => "NotFound"
  | .backend _ => "Backend"
  | .invalidData _ => "InvalidData"
  | .lockPoisoned => "LockPoisoned"

/-- What is wrong with a stored procedure is not told. -/
def messageOf (e : StoreError) : Option String :=
  match e with
  | .invalidData (.procedure _) => none
  | e => some e.message

def storeFailure (e : StoreError) : Json :=
  failure (kindOf e) (messageOf e)

def fatal (e : StoreError) : Json :=
  .obj [("error", .str (kindOf e)), ("fatal", .bool true),
    ("message", .ofOption (fun m => .str ("Store failure: " ++ m)) (messageOf e))]

def pendingRecord (p : PendingRecord) : Json :=
  .obj [("record", p.record.toJson), ("name", .str p.actionName), ("at", .str p.scheduledAt.stamp)]

def list {α : Type} (encode : α → Json) (xs : List α) : Json :=
  .arr (xs.map encode)

def answer {α : Type} (encode : α → Json) : Except StoreError α → Json
  | .ok a => encode a
  | .error e => storeFailure e

def report (r : Report) : Json :=
  let outcome := match r.checkpoint with
    | some id => [("checkpoint_outcome", .ofOption Outcome.toJson (r.outcomeFor id))]
    | none => []
  .obj (r.fields ++ [("labels", list (fun o => .str o.label) r.outcomes),
    ("visited_any", .bool r.visitedAny)] ++ outcome)

inductive StepResult where
  | tries (n : Nat)
  | done
  | failed (e : Refusal)
  | refused (fault : RequestFault)

def StepResult.toJson : StepResult → Json
  | tries n => .ofNat n
  | done => ok
  | failed e => refusal e
  | refused fault => fault.toJson

def RecordStep.apply (r : Record) : RecordStep → StepResult × Record
  | .consume =>
    match Record.consume r with
    | .ok left r => (.tries left, r)
    | .error e r => (.failed e, r)
  | .complete code message time =>
    match Record.complete code message time r with
    | .ok () r => (.done, r)
    | .error e r => (.failed e, r)
  | .fail code message time =>
    match Record.fail code message time r with
    | .ok () r => (.done, r)
    | .error e r => (.failed e, r)
  | .refused fault => (.refused fault, r)

def recordSteps : List RecordStep → Record → List Json × Record
  | [], r => ([], r)
  | s :: steps, r =>
    let (result, r) := s.apply r
    let shown : Json := .obj [("result", result.toJson), ("terminal", .bool r.isTerminal),
      ("record", r.toJson)]
    let (rest, r) := recordSteps steps r
    (shown :: rest, r)

def applyAll : List RecordStep → Record → Except Json Record
  | [], r => .ok r
  | s :: steps, r =>
    match s.apply r with
    | (.failed e, _) => .error (refusal e)
    | (.refused fault, _) => .error fault.toJson
    | (_, r) => applyAll steps r

end FleetDispatch.Scenario
