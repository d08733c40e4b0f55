import FleetDispatch.Text.Blank
import FleetDispatch.Text.Utf8
import FleetDispatch.Verdict

namespace FleetDispatch

inductive StartFailure where
  | missing
  | forbidden
  | notDirectory
  | tooLong
  | nulInside
  deriving DecidableEq

def StartFailure.text : StartFailure → String
  | missing => "No such file or directory (os error 2)"
  | forbidden => "Permission denied (os error 13)"
  | notDirectory => "Not a directory (os error 20)"
  | tooLong => "File name too long (os error 36)"
  | nulInside => "nul byte found in provided data"

/-- What became of a helper program. One that is killed ends without a status. -/
inductive HelperRun where
  | notStarted (cause : StartFailure)
  | outlived (limit : Span)
  | ended (output errors : List Char) (status : Option Nat)

def Procedure.ping : Procedure :=
  ⟨"test.ping", [], []⟩

namespace CallResult

/-- Takes a result out of an object that has it under the name of the endpoint only. -/
def unwrap (endpoint : EndpointId) : Json → Json
  | .obj [(k, v)] => if k = endpoint then v else .obj [(k, v)]
  | v => v

/-- A result with a return code of its own: the status of the helper counts where that is zero. -/
def ofReported (reported : Int) (v : Json) (status : Int) : CallResult :=
  let retcode := if reported = 0 then status else reported
  ⟨retcode, ((v.field? "success").bind Json.bool?).getD true && retcode == 0,
    (v.field? "return").getD v⟩

def ofReply? (v : Json) (status : Int) : Option CallResult :=
  match v with
  | .null => none
  | v =>
    match v.field? "retcode" with
    | some code => some (ofReported (code.int64?.getD (-1)) v status)
    | none => some (if status = 0 then succeeded v else failed status v)

end CallResult

namespace HelperRun

def noConnection : Nat := 255

def ofOctets (output errors : List Nat) (status : Option Nat) : HelperRun :=
  .ended (Text.Utf8.decodeLossy output) (Text.Utf8.decodeLossy errors) status

def isUnreachable (output : List Char) (status : Option Nat) : Bool :=
  status == some noConnection || (status != some 0 && (Text.trim output).isEmpty)

def statusOf (status : Option Nat) : Int :=
  (status.map Int.ofNat).getD (-1)

def unreachableDetail (errors : List Char) (status : Option Nat) : String :=
  String.ofList (Text.trim errors) ++ s!" (exit {statusOf status})"

def reply (endpoint : EndpointId) : HelperRun → InvokeReply
  | notStarted cause => .error (.system cause.text)
  | outlived limit => .error (.timeout limit)
  | ended output errors status =>
    if isUnreachable output status then
      .error (.unreachable (unreachableDetail errors status))
    else if (Text.trim output).isEmpty then .ok none
    else match Json.parse (String.ofList (Text.trim output)) with
      | .error m => .error (.malformed m.text)
      | .ok v => .ok (CallResult.ofReply? (CallResult.unwrap endpoint v) (statusOf status))

/-- An endpoint is alive if its answer says `true` and is a success. -/
def pingReply (endpoint : EndpointId) (run : HelperRun) : PingReply :=
  (run.reply endpoint).map fun r => r.bind fun r => r.payload.bool?.map (· && r.success)

end FleetDispatch.HelperRun
