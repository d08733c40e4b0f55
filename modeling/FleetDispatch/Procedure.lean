import FleetDispatch.Json.Decode
import FleetDispatch.Json.Printer
import FleetDispatch.Json.Skip

namespace FleetDispatch

/-- A call to make on an endpoint: a function with its arguments. -/
structure Procedure where
  function : String
  args : List Json
  kwargs : Json.Fields
  deriving Inhabited

namespace Procedure

def isStateApply (p : Procedure) : Bool :=
  p.function == "state.apply" || p.function == "state.highstate"

def refreshState : String := "packages.profileupdate"

def packageRefresh : Procedure :=
  ⟨"state.apply", [.str refreshState], []⟩

def isPackageRefresh (p : Procedure) : Bool :=
  p.function == "state.apply" && (p.args.head?.bind Json.str?) == some refreshState

def display (p : Procedure) : String :=
  if p.args.isEmpty then p.function
  else p.function ++ "(" ++ ", ".intercalate (p.args.map Json.compact) ++ ")"

def toJson (p : Procedure) : Json :=
  .obj [("args", .arr p.args), ("function", .str p.function), ("kwargs", .obj p.kwargs)]

def memberNames : List String := ["function", "args", "kwargs"]

def ofJson? (v : Json) : Option Procedure := do
  let member ← v.members memberNames 1
  let function ← Json.required Json.str? (member "function")
  let args ← Json.defaulted [] Json.arr? (member "args")
  let kwargs ← Json.defaulted [] Json.obj? (member "kwargs")
  some ⟨function, args, kwargs⟩

def toText (p : Procedure) : String :=
  Json.compact (.obj [("function", .str p.function), ("args", .arr p.args),
    ("kwargs", .obj p.kwargs)])

/-- Reads a stored procedure; of fields with other names only the form counts. A fault without a
place is one of what the text says. -/
def ofText (s : String) : Except (Option Json.Misreading) Procedure :=
  match Json.readNamed memberNames s with
  | .error m => .error (some m)
  | .ok v =>
    match if v.distinctMembers memberNames then ofJson? v.canonical else none with
    | some p => .ok p
    | none => .error none

end FleetDispatch.Procedure
