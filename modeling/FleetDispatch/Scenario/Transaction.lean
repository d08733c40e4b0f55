import FleetDispatch.Scenario.Answer
import FleetDispatch.Store.Tables

namespace FleetDispatch.Scenario

variable {σ : Type}

def attempt {α : Type} (encode : α → Json) (op : StoreOperation) (script : Script σ α) :
    StateM (Draft σ) Json := fun d =>
  match Work.attempt op script d with
  | .ok a d => (encode a, d)
  | .error e d => (storeFailure e, d)

variable [ActionRows σ]

/-- Loads a record, tries transitions on it, and saves it if all of them went. -/
def update (id : ActionId) (endpoint : EndpointId) (steps : List RecordStep) :
    StateM (Draft σ) Json := fun d =>
  match Work.attempt .loadRecord (ActionRows.loadRecord id endpoint) d with
  | .error e d => (storeFailure e, d)
  | .ok none d => (RequestFault.badInput.toJson, d)
  | .ok (some r) d =>
    match applyAll steps r with
    | .error e => (e, d)
    | .ok r => attempt (fun _ => r.toJson) .save (ActionRows.save r) d

def perform (wall : Instant) : TransactionRequest → StateM (Draft σ) Json
  | .pending e => attempt (list pendingRecord) .pending (ActionRows.pending e)
  | .action id => attempt Action.toJson .loadAction (ActionRows.loadAction id)
  | .record id e => attempt (.ofOption Record.toJson) .loadRecord (ActionRows.loadRecord id e)
  | .save r => attempt (fun _ => ok) .save (ActionRows.save r)
  | .update id e steps => update id e steps
  | .endpoint e => attempt Endpoint.toJson .loadEndpoint (ActionRows.loadEndpoint e)
  | .saveEndpoint e => attempt (fun _ => ok) .saveEndpoint (ActionRows.saveEndpoint e)
  | .checkIn e time => attempt (fun _ => ok) .recordCheckin (ActionRows.recordCheckin e time)
  | .insert a => attempt Action.toJson .insertAction (ActionRows.insertAction wall a)
  | .due now => attempt (list Json.str) .dueEndpoints (ActionRows.dueEndpoints now)
  | .endpoints => attempt (list Endpoint.toJson) .listEndpoints ActionRows.listEndpoints
  | .records e status =>
    attempt (list Record.toJson) .listRecords (ActionRows.listRecords e status)
  | .refused cause => return cause.toJson

/-- Runs operations in one transaction. Their answers are given also when its end fails. -/
def transaction (wall : Instant) (ops : List TransactionRequest) (ending : Ending)
    (s : Store σ) : Json × Store σ :=
  match s.beginDraft with
  | (.error e, s) => (storeFailure e, s)
  | (.ok d, s) =>
    let (answers, d) := ops.mapM (perform wall) d
    let (ended, s) := s.endDraft ending d
    (.obj [("ops", .arr answers), ("end", answer (fun _ => ok) ended)], s)

def actionsFrom (s : Store σ) (id : ActionId) : Nat → List Json
  | 0 => []
  | n + 1 =>
    match (s.perform .loadAction (ActionRows.loadAction id)).1 with
    | .error (.notFound _) => []
    | r => answer Action.toJson r :: actionsFrom s (id + 1) n

/-- Shows all that a store holds. No failure is injected into this. -/
def dump (s : Store σ) : Json :=
  let s := { s with plan := [] }
  if s.poisoned then storeFailure .lockPoisoned
  else .obj [("actions", .arr (actionsFrom s 1 (ActionRows.lastId s.rows).toNat)),
    ("endpoints", answer (list Endpoint.toJson) s.endpoints.1),
    ("records", answer (list Record.toJson) (s.records none none).1)]

/-- How rows can be reached past their store, where they can. A change that the rows do not allow
is refused. -/
abbrev Backdoor (σ : Type) := Option (Tables.Tampering → σ → Option (σ × Nat))

/-- Poisons the lock of a store, by a party that breaks down in a transaction if it can begin
one. -/
def poison (s : Store σ) : Store σ :=
  match s.beginDraft with
  | (.ok _, s) => { s with poisoned := true }
  | (.error _, s) => s

/-- Plans a failure of an operation; other names are passed over. -/
def planFault (op : String) (n : Int) (s : Store σ) : Store σ :=
  match StoreOperation.ofName? op with
  | some op => { s with plan := s.plan.set op n }
  | none => s

def play (wall : Instant) (backdoor : Backdoor σ) (request : StoreRequest)
    (s : Store σ) : Json × Store σ :=
  match request with
  | .create a => (s.createAction wall a).map (answer Action.toJson) id
  | .due now => (s.dueEndpoints now).map (answer (list Json.str)) id
  | .endpoints => s.endpoints.map (answer (list Endpoint.toJson)) id
  | .records e status => (s.records e status).map (answer (list Record.toJson)) id
  | .transaction ops ending => transaction wall ops ending s
  | .dump => (dump s, s)
  | .poison => (ok, poison s)
  | .reopen =>
    match backdoor with
    | some _ => (ok, { s with poisoned := false })
    | none => (RequestFault.badInput.toJson, s)
  | .tamper change =>
    match backdoor.bind fun f => f change s.rows with
    | some (rows, n) => (.obj [("rows", .ofNat n)], { s with rows })
    | none => (RequestFault.badInput.toJson, s)
  | .fault op n => (ok, planFault op n s)
  | .clearFaults => (ok, { s with plan := [] })
  | .refused cause => (cause.toJson, s)

end FleetDispatch.Scenario
