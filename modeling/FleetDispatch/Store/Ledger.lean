import FleetDispatch.Store.Basic
import FleetDispatch.Store.Rows

namespace FleetDispatch

instance : Row Action ActionId := ⟨Action.id, fun a b => a < b⟩

instance : Row Record (ActionId × EndpointId) :=
  ⟨fun r => (r.actionId, r.endpoint), fun a b => a.1 < b.1 || (a.1 == b.1 && a.2 < b.2)⟩

instance : Row Endpoint EndpointId := ⟨Endpoint.id, fun a b => a < b⟩

/-- Rows kept as they are given, in the order of their keys. Of each check-in it is noted who made
it, the latest first. -/
structure Ledger where
  lastId : ActionId
  actions : List Action
  records : List Record
  endpoints : List Endpoint
  checkins : List EndpointId
  deriving Inhabited

namespace Ledger

def empty : Ledger :=
  ⟨0, [], [], [], []⟩

def look {α : Type} (f : Ledger → Except StoreError α) : Script Ledger α := fun l =>
  match f l with
  | .ok a => .ok a l
  | .error e => .error e l

def action (id : ActionId) (l : Ledger) : Except StoreError Action :=
  match Rows.find? id l.actions with
  | some a => .ok a
  | none => .error (.notFound (.action id))

def pendingOf (l : Ledger) (r : Record) : Except StoreError PendingRecord := do
  let a ← l.action r.actionId
  return ⟨r, a.name, a.scheduledAt⟩

def pending (endpoint : EndpointId) (l : Ledger) : Except StoreError (List PendingRecord) := do
  let queued := l.records.filter fun r => r.endpoint == endpoint && r.status == .queued
  let found ← queued.mapM l.pendingOf
  return found.mergeSort PendingRecord.before

def save (r : Record) : Script Ledger Unit := fun l =>
  match Rows.find? (r.actionId, r.endpoint) l.records with
  | some _ => .ok () { l with records := Rows.put r l.records }
  | none => .error (.notFound (.record r.actionId r.endpoint)) l

def endpoint (id : EndpointId) (l : Ledger) : Endpoint :=
  (Rows.find? id l.endpoints).getD (.fresh id)

def recordCheckin (id : EndpointId) (time : Instant) (l : Ledger) : Ledger :=
  { l with
    endpoints := Rows.put ((l.endpoint id).checkIn time) l.endpoints
    checkins := id :: l.checkins }

def checkinCount (id : EndpointId) (l : Ledger) : Nat :=
  l.checkins.count id

def enlist (action : ActionId) (tries : Nat) (l : Ledger) (id : EndpointId) : Ledger :=
  { l with
    endpoints := Rows.ensure (.fresh id) l.endpoints
    records := Rows.put (.fresh action id tries) l.records }

def insertAction (now : Instant) (a : NewAction) : Script Ledger Action := fun l =>
  match a.prerequisite.filter fun p => (Rows.find? p l.actions).isNone with
  | some p => .error (.notFound (.prerequisite p)) l
  | none =>
    let id := l.lastId + 1
    let created : Action := ⟨id, a.name, a.scheduledAt, a.prerequisite, a.procedure, now⟩
    let l := { l with lastId := id, actions := Rows.put created l.actions }
    .ok created (a.endpoints.foldl (enlist id a.retries) l)

def isDue (now : Instant) (l : Ledger) (r : Record) : Bool :=
  r.status == .queued && ((Rows.find? r.actionId l.actions).map (·.isDue now)).getD false

def dueEndpoints (now : Instant) (l : Ledger) : List EndpointId :=
  sortedNames ((l.records.filter (l.isDue now)).map (·.endpoint) ++
    (l.endpoints.filter (·.needsRefresh)).map (·.id))

def listRecords (endpoint : Option EndpointId) (status : Option Status) (l : Ledger) :
    List Record :=
  l.records.filter fun r =>
    endpoint.all (· == r.endpoint) && status.all (· == r.status)

instance : ActionRows Ledger where
  empty := empty
  lastId := lastId
  pending id := look (pending id)
  loadAction id := look (action id)
  loadRecord id ep := look fun l => .ok (Rows.find? (id, ep) l.records)
  save := save
  loadEndpoint id := look fun l => .ok (l.endpoint id)
  saveEndpoint e := fun l => .ok () { l with endpoints := Rows.put e l.endpoints }
  recordCheckin id time := fun l => .ok () (l.recordCheckin id time)
  insertAction := insertAction
  dueEndpoints now := look fun l => .ok (l.dueEndpoints now)
  listEndpoints := look fun l => .ok l.endpoints
  listRecords ep status := look fun l => .ok (l.listRecords ep status)

end FleetDispatch.Ledger
