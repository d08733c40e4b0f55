import FleetDispatch.Procedure
import FleetDispatch.Record
import FleetDispatch.Time.Span

namespace FleetDispatch

structure CallResult where
  retcode : Int
  success : Bool
  payload : Json
  deriving Inhabited

namespace CallResult

def succeeded (payload : Json) : CallResult :=
  ⟨0, true, payload⟩

def failed (retcode : Int) (payload : Json) : CallResult :=
  ⟨retcode, false, payload⟩

def toJson (r : CallResult) : Json :=
  .obj [("retcode", .int r.retcode), ("return", r.payload), ("success", .bool r.success)]

def ofJson? (v : Json) : Option CallResult := do
  let member ← v.members ["retcode", "success", "return"] 3
  let retcode ← Json.required Json.int64? (member "retcode")
  let success ← Json.required Json.bool? (member "success")
  let payload ← member "return"
  some ⟨retcode, success, payload⟩

end CallResult

inductive CallError where
  | timeout (after : Span)
  | unreachable (detail : String)
  | malformed (detail : String)
  | system (detail : String)
  deriving DecidableEq

def CallError.message : CallError → String
  | timeout after => s!"Remote call timed out after {after.text}"
  | unreachable detail => s!"Endpoint unreachable: {detail}"
  | malformed detail => s!"Malformed reply: {detail}"
  | system detail => s!"I/O error: {detail}"

abbrev InvokeReply := Except CallError (Option CallResult)

abbrev PingReply := Except CallError (Option Bool)

namespace ResultCode

def success : Int := 0

def remoteError : Int := -1

def prerequisiteFailed : Int := -100

def retriesExhausted : Int := -101

end ResultCode

/-- What a result means for the record of a call. -/
structure Verdict where
  status : Status
  code : Int
  message : String
  deriving DecidableEq

namespace Verdict

/-- The comment of a state that did not report success, or the name of the state. -/
def stateComment (id : String) (state : Json) : Option String :=
  if (state.field? "result").bind Json.bool? = some true then none
  else match (state.field? "comment").map Json.render with
    | some comment => if comment.isEmpty then some id else some comment
    | none => some id

/-- The first failure among the states of a result. A list in place of the states holds the
reasons why none was run. -/
def failingState : Json → Option String
  | .obj states => states.findSome? fun s => stateComment s.1 s.2
  | .arr (e :: es) => some ("; ".intercalate ((e :: es).map Json.render))
  | _ => none

def detail : Json → Option String
  | .null => none
  | .bool _ => none
  | .str s => if s.isEmpty then none else some s
  | v => some v.render

def failureOf (p : Procedure) (r : CallResult) : Option String :=
  if p.isStateApply then failingState r.payload else none

def successMessage (p : Procedure) : String :=
  if p.isStateApply then
    if p.args.isEmpty then "Successfully applied highstate"
    else "Successfully applied state(s): " ++ ", ".intercalate (p.args.map Json.render)
  else s!"{p.function} succeeded"

def failureMessage (p : Procedure) (r : CallResult) (failure : Option String) : String :=
  let line := s!"{p.function} failed with return code {r.retcode}"
  match failure <|> detail r.payload with
  | some reason => line ++ ": " ++ reason
  | none => line

/-- A call succeeded if it says so, its code is zero, and no state that it applied failed. -/
def ofResult (p : Procedure) (r : CallResult) : Verdict :=
  let failure := failureOf p r
  if r.success && r.retcode == 0 && failure.isNone then
    ⟨.completed, ResultCode.success, successMessage p⟩
  else ⟨.failed, ResultCode.remoteError, failureMessage p r failure⟩

end FleetDispatch.Verdict
