import FleetDispatch.Action
import FleetDispatch.Backlog
import FleetDispatch.Store.Error

namespace FleetDispatch

/-- Work on the rows of a store. What was written before a failure stays written. -/
abbrev Script (σ α : Type) := EStateM StoreError σ α

/-- Rows of actions, records and endpoints, with the operations that a transaction is made of. -/
class ActionRows (σ : Type) where
  empty : σ
  /-- The highest id that an action was given. -/
  lastId : σ → ActionId
  pending : EndpointId → Script σ (List PendingRecord)
  loadAction : ActionId → Script σ Action
  loadRecord : ActionId → EndpointId → Script σ (Option Record)
  save : Record → Script σ Unit
  loadEndpoint : EndpointId → Script σ Endpoint
  saveEndpoint : Endpoint → Script σ Unit
  recordCheckin : EndpointId → Instant → Script σ Unit
  /-- Inserts an action that is created at the given time, with a record for each endpoint. -/
  insertAction : Instant → NewAction → Script σ Action
  dueEndpoints : Instant → Script σ (List EndpointId)
  listEndpoints : Script σ (List Endpoint)
  listRecords : Option EndpointId → Option Status → Script σ (List Record)

/-- Operations that are to fail, each once, at the given one of its next calls. No call is the one
that a number below 1 gives. -/
abbrev FaultPlan := List (StoreOperation × Int)

namespace FaultPlan

/-- Counts a call of an operation, and tells whether it fails. -/
def count (op : StoreOperation) (plan : FaultPlan) : Bool × FaultPlan :=
  (plan.any fun f => f.1 == op && f.2 == 1,
    plan.map fun f => if f.1 == op then (f.1, f.2 - 1) else f)

def set (op : StoreOperation) (n : Int) (plan : FaultPlan) : FaultPlan :=
  (op, n) :: plan.filter (·.1 != op)

end FaultPlan

/-- The rows as a transaction sees them, and the failures that are still to come. -/
structure Draft (σ : Type) where
  rows : σ
  plan : FaultPlan

abbrev Work (σ α : Type) := EStateM StoreError (Draft σ) α

def Work.attempt {σ α : Type} (op : StoreOperation) (script : Script σ α) : Work σ α := fun d =>
  match d.plan.count op with
  | (true, plan) => .error (.backend (.injected op)) { d with plan }
  | (false, plan) =>
    match script d.rows with
    | .ok a rows => .ok a ⟨rows, plan⟩
    | .error e rows => .error e ⟨rows, plan⟩

inductive Ending where
  | commit
  | rollback
  | drop
  deriving DecidableEq

/-- Committed rows. The lock of a poisoned store is not given out any more. -/
structure Store (σ : Type) where
  rows : σ
  plan : FaultPlan
  poisoned : Bool

namespace Store

variable {σ α : Type}

def ofRows (rows : σ) : Store σ :=
  ⟨rows, [], false⟩

def empty [ActionRows σ] : Store σ :=
  ofRows ActionRows.empty

def beginDraft (s : Store σ) : Except StoreError (Draft σ) × Store σ :=
  match s.plan.count .begin_ with
  | (true, plan) => (.error (.backend (.injected .begin_)), { s with plan })
  | (false, plan) =>
    if s.poisoned then (.error .lockPoisoned, { s with plan })
    else (.ok ⟨s.rows, plan⟩, { s with plan })

/-- Ends a transaction. Only one that commits has an effect on the rows. -/
def endDraft (ending : Ending) (d : Draft σ) (s : Store σ) : Except StoreError Unit × Store σ :=
  match ending with
  | .drop => (.ok (), { s with plan := d.plan })
  | .rollback =>
    match d.plan.count .rollback with
    | (true, plan) => (.error (.backend (.injected .rollback)), { s with plan })
    | (false, plan) => (.ok (), { s with plan })
  | .commit =>
    match d.plan.count .commit with
    | (true, plan) => (.error (.backend (.injected .commit)), { s with plan })
    | (false, plan) => (.ok (), { s with rows := d.rows, plan })

/-- Runs a transaction. One that fails on its way is dropped. -/
def transact (work : Work σ (Ending × α)) (s : Store σ) : Except StoreError α × Store σ :=
  match s.beginDraft with
  | (.error e, s) => (.error e, s)
  | (.ok d, s) =>
    match work d with
    | .error e d => (.error e, (s.endDraft .drop d).2)
    | .ok (ending, a) d =>
      match s.endDraft ending d with
      | (.error e, s) => (.error e, s)
      | (.ok (), s) => (.ok a, s)

def perform (op : StoreOperation) (script : Script σ α) (s : Store σ) :
    Except StoreError α × Store σ :=
  s.transact do
    let a ← Work.attempt op script
    return (.commit, a)

variable [ActionRows σ]

def createAction (now : Instant) (a : NewAction) (s : Store σ) :
    Except StoreError Action × Store σ :=
  s.perform .insertAction (ActionRows.insertAction now a)

def dueEndpoints (now : Instant) (s : Store σ) : Except StoreError (List EndpointId) × Store σ :=
  s.perform .dueEndpoints (ActionRows.dueEndpoints now)

def endpoints (s : Store σ) : Except StoreError (List Endpoint) × Store σ :=
  s.perform .listEndpoints ActionRows.listEndpoints

def records (endpoint : Option EndpointId) (status : Option Status) (s : Store σ) :
    Except StoreError (List Record) × Store σ :=
  s.perform .listRecords (ActionRows.listRecords endpoint status)

end FleetDispatch.Store
