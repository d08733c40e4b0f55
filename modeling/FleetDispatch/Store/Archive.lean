import FleetDispatch.Store.Tables

namespace FleetDispatch

def optionalStr? (v : Json) : Option (Option String) :=
  Json.optional Json.str? (some v)

/-- A real number is written as the digits of its two parts. -/
def Cell.toJson : Cell → Json
  | .null => .null
  | .int n => .int n
  | .real x => .arr [.str (toString x.num), .str (toString x.den)]
  | .text s => .str s

def Cell.ofJson? : Json → Option Cell
  | .null => some .null
  | .int n => some (.int n)
  | .arr [.str num, .str den] => do
    let num ← num.toInt?
    let den ← den.toNat?
    some (.real (mkRat num den))
  | .str s => some (.text s)
  | _ => none

def ActionRow.toJson (a : ActionRow) : Json :=
  .arr [.int a.id, .str a.name, .str a.procedure, a.scheduledAtMs.toJson, a.prerequisite.toJson,
    a.createdAtMs.toJson]

def ActionRow.ofJson? : Json → Option ActionRow
  | .arr [.int id, .str name, .str procedure, scheduledAtMs, prerequisite, createdAtMs] => do
    let scheduledAtMs ← Cell.ofJson? scheduledAtMs
    let prerequisite ← Cell.ofJson? prerequisite
    let createdAtMs ← Cell.ofJson? createdAtMs
    some ⟨id, name, procedure, scheduledAtMs, prerequisite, createdAtMs⟩
  | _ => none

def RecordRow.toJson (r : RecordRow) : Json :=
  .arr [.int r.actionId, .str r.endpoint, .str r.status, r.remainingTries.toJson,
    r.resultCode.toJson, .ofOption .str r.resultMsg, r.completedAtMs.toJson]

def RecordRow.ofJson? : Json → Option RecordRow
  | .arr [.int actionId, .str endpoint, .str status, tries, code, msg, completedAtMs] => do
    let tries ← Cell.ofJson? tries
    let code ← Cell.ofJson? code
    let msg ← optionalStr? msg
    let completedAtMs ← Cell.ofJson? completedAtMs
    some ⟨actionId, endpoint, status, tries, code, msg, completedAtMs⟩
  | _ => none

def EndpointRow.toJson (e : EndpointRow) : Json :=
  .arr [.str e.id, e.needsRefresh.toJson, e.lastCheckinMs.toJson]

def EndpointRow.ofJson? : Json → Option EndpointRow
  | .arr [.str id, needsRefresh, lastCheckinMs] => do
    let needsRefresh ← Cell.ofJson? needsRefresh
    let lastCheckinMs ← Cell.ofJson? lastCheckinMs
    some ⟨id, needsRefresh, lastCheckinMs⟩
  | _ => none

namespace Tables

def toJson (t : Tables) : Json :=
  .arr [.int t.lastId, .arr (t.actions.map ActionRow.toJson),
    .arr (t.records.map RecordRow.toJson), .arr (t.endpoints.map EndpointRow.toJson)]

def ofJson? : Json → Option Tables
  | .arr [.int lastId, .arr actions, .arr records, .arr endpoints] => do
    let actions ← actions.mapM ActionRow.ofJson?
    let records ← records.mapM RecordRow.ofJson?
    let endpoints ← endpoints.mapM EndpointRow.ofJson?
    some ⟨lastId, actions, records, endpoints⟩
  | _ => none

def toText (t : Tables) : String :=
  t.toJson.compact

def ofText? (s : String) : Option Tables :=
  (Json.parse s).toOption.bind ofJson?

end FleetDispatch.Tables
