import FleetDispatch.Store.Columns

namespace FleetDispatch

/-- Rows kept in three tables. A record refers to its action and its endpoint, and there is one at
most for each pair. -/
structure Tables where
  lastId : ActionId
  actions : List ActionRow
  records : List RecordRow
  endpoints : List EndpointRow
  deriving DecidableEq, Inhabited

namespace Tables

def empty : Tables :=
  ⟨0, [], [], []⟩

def look {α : Type} (f : Tables → Except StoreError α) : Script Tables α := fun t =>
  match f t with
  | .ok a => .ok a t
  | .error e => .error e t

structure Joined where
  record : RecordRow
  action : ActionRow

namespace Joined

def before (a b : Joined) : Bool :=
  if a.action.scheduledAtMs = b.action.scheduledAtMs then a.action.id ≤ b.action.id
  else a.action.scheduledAtMs.le b.action.scheduledAtMs

def decode (j : Joined) : Except StoreError PendingRecord := do
  let numbers ← j.record.numbers
  let scheduledAtMs ← Column.int ⟨8, "scheduled_at_ms"⟩ j.action.scheduledAtMs
  let record ← j.record.withNumbers numbers
  let scheduledAt ← timeOf scheduledAtMs
  return ⟨record, j.action.name, scheduledAt⟩

end Joined

def queuedJoined (t : Tables) : List Joined :=
  (t.records.filter (·.isQueued)).filterMap fun r =>
    (Rows.find? r.actionId t.actions).map fun a => ⟨r, a⟩

def pending (endpoint : EndpointId) (t : Tables) : Except StoreError (List PendingRecord) :=
  ((t.queuedJoined.filter (·.record.endpoint == endpoint)).mergeSort Joined.before).mapM
    Joined.decode

def action (id : ActionId) (t : Tables) : Except StoreError Action :=
  match Rows.find? id t.actions with
  | some a => a.decode
  | none => .error (.notFound (.action id))

def record (id : ActionId) (endpoint : EndpointId) (t : Tables) :
    Except StoreError (Option Record) :=
  match Rows.find? (id, endpoint) t.records with
  | some r => r.decode.map some
  | none => .ok none

def save (r : Record) : Script Tables Unit := fun t =>
  match Rows.find? (r.actionId, r.endpoint) t.records with
  | some _ => .ok () { t with records := Rows.put (RecordRow.encode r) t.records }
  | none => .error (.notFound (.record r.actionId r.endpoint)) t

def endpoint (id : EndpointId) (t : Tables) : Except StoreError Endpoint :=
  match Rows.find? id t.endpoints with
  | some e => e.decode
  | none => .ok (.fresh id)

def ensureEndpoint (id : EndpointId) (t : Tables) : Tables :=
  { t with endpoints := Rows.ensure (EndpointRow.fresh id) t.endpoints }

def recordCheckin (id : EndpointId) (time : Instant) (t : Tables) : Tables :=
  let t := t.ensureEndpoint id
  { t with
    endpoints := (Rows.update id (fun e => { e with lastCheckinMs := .int time.toMillis })
      t.endpoints).1 }

/-- Adds the records of an action for its endpoints in turn, up to the first one that it has a
record for already. -/
def enlist (action : ActionId) (tries : Nat) : List EndpointId → Script Tables Unit
  | [] => pure ()
  | id :: ids => fun t =>
    let t := t.ensureEndpoint id
    match Rows.find? (action, id) t.records with
    | some _ => .error (.backend .duplicateRecord) t
    | none =>
      enlist action tries ids
        { t with records := Rows.put (RecordRow.encode (.fresh action id tries)) t.records }

/-- The action as it will be read back. -/
def created (id : ActionId) (now : Instant) (a : NewAction) : Except StoreError Action := do
  let scheduledAt ← timeOf a.scheduledAt.toMillis
  let createdAt ← timeOf now.toMillis
  return ⟨id, a.name, scheduledAt, a.prerequisite, a.procedure, createdAt⟩

def insertAction (now : Instant) (a : NewAction) : Script Tables Action := fun t =>
  match a.prerequisite.filter fun p => (Rows.find? p t.actions).isNone with
  | some p => .error (.notFound (.prerequisite p)) t
  | none =>
    let id := t.lastId + 1
    let t := { t with lastId := id, actions := Rows.put (ActionRow.encode id now a) t.actions }
    match enlist id a.retries a.endpoints t with
    | .error e t => .error e t
    | .ok () t => look (fun _ => created id now a) t

def dueEndpoints (now : Instant) (t : Tables) : List EndpointId :=
  sortedNames
    ((t.queuedJoined.filter fun j => j.action.scheduledAtMs.le (.int now.toMillis)).map
      (·.record.endpoint) ++ (t.endpoints.filter (·.isFlagged)).map (·.id))

def listRecords (endpoint : Option EndpointId) (status : Option Status) (t : Tables) :
    Except StoreError (List Record) :=
  (t.records.filter fun r =>
    endpoint.all (· == r.endpoint) && status.all (·.name == r.status)).mapM RecordRow.decode

instance : ActionRows Tables where
  empty := empty
  lastId := lastId
  pending id := look (pending id)
  loadAction id := look (action id)
  loadRecord id ep := look (record id ep)
  save := save
  loadEndpoint id := look (endpoint id)
  saveEndpoint e := fun t =>
    .ok () { t with endpoints := Rows.put (EndpointRow.encode e) t.endpoints }
  recordCheckin id time := fun t => .ok () (t.recordCheckin id time)
  insertAction := insertAction
  dueEndpoints now := look fun t => .ok (t.dueEndpoints now)
  listEndpoints := look fun t => t.endpoints.mapM EndpointRow.decode
  listRecords ep status := look (listRecords ep status)

end FleetDispatch.Tables
