import FleetDispatch.CommandLine.Invocation
import FleetDispatch.Config
import FleetDispatch.Cycle
import FleetDispatch.Helper.Run
import FleetDispatch.Poller
import FleetDispatch.Files.Basic
import FleetDispatch.Program.Failure
import FleetDispatch.Program.Listing

namespace FleetDispatch.Program

/-- What a command finds around it: the time, a name for its cycle, whether colours are wanted,
and how a helper program behaves that has a limited time, among files. -/
structure Surroundings where
  now : Instant
  cycleId : String
  color : Bool
  start : Span → String → List String → Files → HelperRun × Files

structure Place (σ : Type) where
  store : Store σ
  files : Files

/-- The database and the files are taken over and given back, whatever else a command comes to. -/
abbrev Effort (σ α : Type) := Place σ → Except Failure α × Place σ

def failureOf (e : StoreError) : Failure :=
  .plain e.message

variable {σ : Type} [ActionRows σ] (s : Surroundings) (c : Config)

def callHelper (endpoint : EndpointId) (p : Procedure) : StateM Files HelperRun :=
  s.start c.helper.timeout c.helper.program (c.helper.args.render endpoint p)

def channel : Cycle.Channel Files where
  invoke endpoint p := do return (← callHelper s c endpoint p).reply endpoint
  ping endpoint := do return (← callHelper s c endpoint .ping).pingReply endpoint

def policy : Policy :=
  ⟨.standard, c.retries⟩

def runCycle (endpoint : EndpointId) (p : Place σ) : Except StoreError Report × Place σ :=
  let (r, store, files) :=
    Cycle.runAt (policy c) (channel s c) (fun _ => s.now) endpoint s.now p.store p.files
  (r, ⟨store, files⟩)

def onStore {α : Type} (work : Store σ → Except StoreError α × Store σ) (p : Place σ) :
    Except StoreError α × Place σ :=
  let (r, store) := work p.store
  (r, { p with store })

/-- An argument is the JSON value that it reads as, or else itself. -/
def argument (raw : String) : Json :=
  (Json.parse raw).toOption.getD (.str raw)

def scheduledAt (o : ActionOrder) : Except Failure Instant :=
  match o.time with
  | none => .ok s.now
  | some t =>
    match Instant.ofStamp? t with
    | some time => .ok time
    | none => .error (.plain s!"Invalid --at timestamp: {t}")

def addAction (o : ActionOrder) : Effort σ String := fun p =>
  match scheduledAt s o with
  | .error f => (.error f, p)
  | .ok time =>
    let procedure : Procedure := ⟨o.function, o.args.map argument, []⟩
    let action : NewAction :=
      ⟨o.name, time, o.prerequisite, procedure, o.endpoints, o.retries.getD c.retries⟩
    match onStore (·.createAction s.now action) p with
    | (.error e, p) => (.error ((failureOf e).during "Failed to create action"), p)
    | (.ok a, p) => (.ok (createdLine s.color a), p)

def statusOf : Option String → Except Failure (Option Status)
  | none => .ok none
  | some t =>
    match Status.ofText? t with
    | some status => .ok (some status)
    | none => .error (.plain (Status.unknownMessage t))

def listActions (endpoint : Option EndpointId) (status : Option String) (format : OutputFormat) :
    Effort σ String := fun p =>
  match statusOf status with
  | .error f => (.error f, p)
  | .ok status =>
    match onStore (·.records endpoint status) p with
    | (.error e, p) => (.error (failureOf e), p)
    | (.ok rs, p) =>
      match format with
      | .json => (.ok (line (Json.arr (rs.map Record.toJson)).pretty), p)
      | .text => (.ok (recordTable s.color rs), p)

def listEndpoints (format : OutputFormat) : Effort σ String := fun p =>
  match onStore (·.endpoints) p with
  | (.error e, p) => (.error (failureOf e), p)
  | (.ok es, p) =>
    match format with
    | .json => (.ok (line (Json.arr (es.map Endpoint.toJson)).pretty), p)
    | .text => (.ok (endpointTable es), p)

def showCycle (endpoint : EndpointId) (format : OutputFormat) : Effort σ String := fun p =>
  match runCycle s c endpoint p with
  | (.error e, p) =>
    let f := (failureOf e).during s!"Store failure: {e.message}"
    (.error (f.during s!"Dispatch cycle for {endpoint} failed"), p)
  | (.ok r, p) =>
    match format with
    | .json => (.ok (line (reportJson s.cycleId r).pretty), p)
    | .text => (.ok (reportText s.color s.cycleId r), p)

def poll (p : Place σ) : Place σ :=
  match onStore (Poller.candidates c.scheduler.checkinIdle s.now) p with
  | (.error _, p) => p
  | (.ok endpoints, p) => endpoints.foldl (fun p e => (runCycle s c e p).2) p

/-- No more polls than this find due work: each one spends a try or ends a record, and each record
and each flag raised may bring one more record with the usual tries. -/
def pollBound (p : Place σ) : Nat :=
  let queued := ((p.store.records none (some .queued)).1.toOption).getD []
  let stale := (((p.store.endpoints).1.toOption).getD []).filter (·.needsRefresh)
  queued.foldl (fun n r => n + r.remainingTries + 1) 0 +
    (queued.length + stale.length) * (c.retries + 1) + 1

def pollAll : Nat → Place σ → Place σ
  | 0, p => p
  | n + 1, p =>
    let p := poll s c p
    match (p.store.dueEndpoints s.now).1 with
    | .ok (_ :: _) => pollAll n p
    | _ => p

def runPoller : Effort σ String := fun p =>
  (.ok (line (Paint.bold.on s.color "pushqueue" ++
      s!" polling every {c.scheduler.pollSeconds}s (Ctrl-C to stop)")),
    pollAll s c (pollBound c p) p)

def perform : Command → Effort σ String
  | .run => runPoller s c
  | .cycle endpoint format => showCycle s c endpoint format
  | .addAction o => addAction s c o
  | .listActions endpoint status format => listActions s endpoint status format
  | .listEndpoints format => listEndpoints format

end FleetDispatch.Program
