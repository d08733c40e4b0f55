import FleetDispatch.Refresh
import FleetDispatch.Report
import FleetDispatch.Store.Basic

namespace FleetDispatch

structure Policy where
  classify : Classifier
  checkpointRetries : Nat

/-- What a cycle does next: a transaction, or a call that it waits for. -/
inductive Stage where
  | loading
  | preparing (action : ActionId)
  | calling (action : Action) (left : Nat)
  | recording (action : Action) (left : Nat) (result : CallResult)
  | refreshing
  | pinging
  | checkingIn
  | closed
  deriving Inhabited

inductive Call where
  | invoke (procedure : Procedure)
  | ping
  deriving Inhabited

/-- A walk over the backlog of one endpoint at one time. -/
structure Cycle where
  endpoint : EndpointId
  now : Instant
  backlog : Backlog
  report : Report
  stage : Stage

namespace Cycle

def start (endpoint : EndpointId) (now : Instant) : Cycle :=
  ⟨endpoint, now, ⟨[], false⟩, .opened endpoint now, .loading⟩

/-- A cycle that came to no record asks the endpoint for a sign of life. -/
def conclude (c : Cycle) : Cycle :=
  { c with stage := if c.report.visitedAny then .closed else .pinging }

/-- Goes on to the next due record. After a checkpoint there is none. -/
def advance (c : Cycle) : Cycle :=
  if c.report.checkpoint.isSome then c.conclude
  else match c.backlog.nextDue c.now with
    | (some p, backlog) => { c with backlog, stage := .preparing p.actionId }
    | (none, backlog) =>
      { c with
        backlog, stage := .refreshing, report := { c.report with deferred := backlog.remaining } }

def settle (o : Outcome) (c : Cycle) : Cycle :=
  { c with report := c.report.add o }.advance

/-- Gives up a record that does not take a transition, with all that was written for it. -/
def refuse (action : ActionId) (e : Refusal) (c : Cycle) : Ending × Cycle :=
  (.drop, c.settle (.error action s!"Invalid transition: {e.message}"))

def call (action : Action) (left : Nat) (c : Cycle) : Cycle :=
  { c with
    stage := .calling action left
    report := { c.report with remoteCalls := c.report.remoteCalls + 1 } }

def pendingCall (c : Cycle) : Option Call :=
  match c.stage with
  | .calling action _ => some (.invoke action.procedure)
  | .pinging => some .ping
  | _ => none

def invoked (reply : InvokeReply) (c : Cycle) : Cycle :=
  match c.stage with
  | .calling action left =>
    match reply with
    | .error e => c.settle (.error action.id s!"Transport failure: {e.message}")
    | .ok none => c.settle (.noResult action.id left)
    | .ok (some result) => { c with stage := .recording action left result }
  | _ => c

def pinged (reply : PingReply) (c : Cycle) : Cycle :=
  match reply with
  | .ok (some true) => { c with stage := .checkingIn }
  | .ok _ => { c with stage := .closed, report := { c.report with probe := some .silent } }
  | .error e =>
    { c with stage := .closed, report := { c.report with probe := some (.unreachable e.message) } }

variable {σ : Type} [ActionRows σ]

def load (c : Cycle) : Work σ (Ending × Cycle) := do
  let pending ← Work.attempt .pending (ActionRows.pending c.endpoint)
  return (.commit, { c with backlog := .ofPending pending }.advance)

def giveUp (record : Record) (code : Int) (message : String) (wall : Instant) (o : Outcome)
    (c : Cycle) : Work σ (Ending × Cycle) :=
  match Record.fail code message wall record with
  | .error e _ => return c.refuse record.actionId e
  | .ok () record => do
    Work.attempt .save (ActionRows.save record)
    return (.commit, c.settle o)

def prerequisiteFailedMessage : String := "Prerequisite failed."

def retriesExhaustedMessage : String :=
  "Action has been picked up multiple times without a successful transaction; " ++
    "this action is now failed for this endpoint."

def spend (record : Record) (action : Action) (wall : Instant) (c : Cycle) :
    Work σ (Ending × Cycle) :=
  if record.remainingTries < 1 then
    c.giveUp record ResultCode.retriesExhausted retriesExhaustedMessage wall
      (.retriesExhausted record.actionId)
  else match Record.consume record with
    | .error e _ => return c.refuse record.actionId e
    | .ok left record => do
      Work.attempt .save (ActionRows.save record)
      return (.commit, c.call action left)

/-- Decides about a record before any call: what its prerequisite has come to goes first. -/
def prepare (id : ActionId) (wall : Instant) (c : Cycle) : Work σ (Ending × Cycle) := do
  match ← Work.attempt .loadRecord (ActionRows.loadRecord id c.endpoint) with
  | none => throw (.notFound (.record id c.endpoint))
  | some record =>
    if record.isTerminal then
      return (.rollback, c.settle (.skipped id record.status))
    let action ← Work.attempt .loadAction (ActionRows.loadAction id)
    match action.prerequisite with
    | none => c.spend record action wall
    | some p =>
      let prior ← Work.attempt .loadRecord (ActionRows.loadRecord p c.endpoint)
      match prior.map Record.status with
      | some .failed =>
        c.giveUp record ResultCode.prerequisiteFailed prerequisiteFailedMessage wall
          (.prerequisiteFailed id)
      | some .queued => return (.rollback, c.settle (.held id p))
      | _ => c.spend record action wall

/-- Whether the result leaves the package list stale; reading it anew never does. -/
def isStale (policy : Policy) (p : Procedure) (r : CallResult) : Bool :=
  !p.isPackageRefresh && policy.classify p r

def outcomeOf (v : Verdict) (action : ActionId) (left : Nat) : Outcome :=
  match v.status with
  | .completed => .completed action left
  | _ => .failed action left v.message

/-- Stores what a call came to: the record, the refresh flag and the check-in together. -/
def recordResult (policy : Policy) (action : Action) (left : Nat) (result : CallResult)
    (wall : Instant) (c : Cycle) : Work σ (Ending × Cycle) := do
  let verdict := Verdict.ofResult action.procedure result
  match ← Work.attempt .loadRecord (ActionRows.loadRecord action.id c.endpoint) with
  | none => throw (.notFound (.record action.id c.endpoint))
  | some record =>
    match Record.finish verdict.status verdict.code verdict.message wall record with
    | .error e _ => return c.refuse action.id e
    | .ok () record =>
      Work.attempt .save (ActionRows.save record)
      if isStale policy action.procedure result then
        let e ← Work.attempt .loadEndpoint (ActionRows.loadEndpoint c.endpoint)
        Work.attempt .saveEndpoint (ActionRows.saveEndpoint e.markRefresh)
      Work.attempt .recordCheckin (ActionRows.recordCheckin c.endpoint wall)
      return (.commit, c.settle (outcomeOf verdict action.id left))

/-- Turns the refresh flag into an action; the flag goes down in the same transaction. -/
def refresh (policy : Policy) (wall : Instant) (c : Cycle) : Work σ (Ending × Cycle) := do
  let e ← Work.attempt .loadEndpoint (ActionRows.loadEndpoint c.endpoint)
  if e.needsRefresh then
    let action ← Work.attempt .insertAction (ActionRows.insertAction wall
      (.packageRefresh c.endpoint c.now policy.checkpointRetries))
    Work.attempt .saveEndpoint (ActionRows.saveEndpoint e.clearRefresh)
    return (.commit, { c with
      stage := .preparing action.id, report := { c.report with checkpoint := some action.id } })
  else return (.rollback, c.conclude)

def checkIn (wall : Instant) (c : Cycle) : Work σ (Ending × Cycle) := do
  Work.attempt .recordCheckin (ActionRows.recordCheckin c.endpoint wall)
  return (.commit, { c with stage := .closed, report := { c.report with probe := some .alive } })

def work? (policy : Policy) (wall : Instant) (c : Cycle) : Option (Work σ (Ending × Cycle)) :=
  match c.stage with
  | .loading => some c.load
  | .preparing id => some (c.prepare id wall)
  | .recording action left result => some (c.recordResult policy action left result wall)
  | .refreshing => some (c.refresh policy wall)
  | .checkingIn => some (c.checkIn wall)
  | _ => none

structure Channel (χ : Type) where
  invoke : EndpointId → Procedure → StateM χ InvokeReply
  ping : EndpointId → StateM χ PingReply

structure Run (σ χ : Type) where
  cycle : Cycle
  store : Store σ
  channel : χ

/-- Makes the next transaction or call. A store that fails ends the cycle. -/
def step {χ : Type} (policy : Policy) (wall : Instant) (channel : Channel χ) (r : Run σ χ) :
    Except StoreError Unit × Run σ χ :=
  match r.cycle.work? policy wall with
  | some work =>
    match r.store.transact work with
    | (.error e, store) => (.error e, { r with store })
    | (.ok cycle, store) => (.ok (), { r with cycle, store })
  | none =>
    match r.cycle.pendingCall with
    | some (.invoke p) =>
      let (reply, memory) := channel.invoke r.cycle.endpoint p r.channel
      (.ok (), { r with cycle := r.cycle.invoked reply, channel := memory })
    | some .ping =>
      let (reply, memory) := channel.ping r.cycle.endpoint r.channel
      (.ok (), { r with cycle := r.cycle.pinged reply, channel := memory })
    | none => (.ok (), r)

/-- No cycle with this backlog has more steps before it. -/
def stepBound (c : Cycle) : Nat :=
  3 * c.backlog.remaining + 12

variable {χ : Type} (policy : Policy) (channel : Channel χ)

def driveAt : Nat → (Nat → Instant) → Run σ χ → Except StoreError Unit × Run σ χ
  | 0, _, r => (.ok (), r)
  | n + 1, clock, r =>
    match step policy (clock 0) channel r with
    | (.error e, r) => (.error e, r)
    | (.ok (), r) => driveAt n (fun i => clock (i + 1)) r

def runAt (clock : Nat → Instant) (endpoint : EndpointId) (now : Instant) (store : Store σ)
    (memory : χ) : Except StoreError Report × Store σ × χ :=
  match step policy (clock 0) channel ⟨start endpoint now, store, memory⟩ with
  | (.error e, r) => (.error e, r.store, r.channel)
  | (.ok (), r) =>
    match driveAt policy channel r.cycle.stepBound (fun i => clock (i + 1)) r with
    | (.error e, r) => (.error e, r.store, r.channel)
    | (.ok (), r) => (.ok r.cycle.report, r.store, r.channel)

end FleetDispatch.Cycle
