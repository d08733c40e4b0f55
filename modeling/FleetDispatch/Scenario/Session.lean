import FleetDispatch.Cycle
import FleetDispatch.Poller
import FleetDispatch.Scenario.Transaction

namespace FleetDispatch.Scenario

inductive SessionRequest where
  | store (request : StoreRequest)
  | reply (endpoint : EndpointId) (replies : List (ScriptedReply InvokeReply))
  | pingReply (endpoint : EndpointId) (replies : List (ScriptedReply PingReply))
  | gate (on : Bool)
  | cycle (endpoint : EndpointId) (now : Option Instant)
  | schedule (endpoint : EndpointId)
  | settle
  | release (endpoint : EndpointId)
  | state
  | stats
  | close
  | waitIdle
  | shutdown
  | poll (now : Instant)
  | runPoller
  | refused (cause : RequestFault)

/-- What stays as it is while a session lasts. The wall clock stands still. -/
structure Setting (σ : Type) where
  policy : Policy
  probeIdle : Bool
  wall : Instant
  backdoor : Backdoor σ

inductive Owner where
  | worker
  | session

inductive CycleEnd where
  | finished (report : Report)
  | failed (e : StoreError)
  | broken

def CycleEnd.toJson : CycleEnd → Json
  | .finished r => report r
  | .failed e => fatal e
  | .broken => failure "Panic" none

/-- A cycle on its way. Nothing is left of one whose call breaks down. -/
structure Strand where
  owner : Owner
  endpoint : EndpointId
  cycle : Option Cycle

/-- What waits for its turn: a worker that wants a slot, one that was given one, a cycle that
goes on, and a worker that learns how its cycle ended. -/
inductive Task where
  | ask (endpoint : EndpointId)
  | start (endpoint : EndpointId)
  | carry (strand : Strand)
  | count (endpoint : EndpointId) (completed : Bool)

structure LoggedCall where
  endpoint : EndpointId
  call : Call
  during : List Json

def LoggedCall.toJson (c : LoggedCall) : Json :=
  let call := match c.call with
    | .invoke p => p.toJson
    | .ping => .str "ping"
  let during := if c.during.isEmpty then [] else [("during", Json.arr c.during)]
  .obj ([("endpoint", .str c.endpoint), ("call", call)] ++ during)

abbrev Replies (ρ : Type) := List (EndpointId × ScriptedReply ρ)

def Replies.take {ρ : Type} (e : EndpointId) (rs : Replies ρ) :
    Option (ScriptedReply ρ) × Replies ρ :=
  (rs.lookup e, rs.eraseP (·.1 == e))

structure Session (σ : Type) where
  store : Store σ
  pool : Pool
  invokeReplies : Replies InvokeReply
  pingReplies : Replies PingReply
  gated : Bool
  tasks : List Task
  blocked : List Strand
  calls : List LoggedCall
  concluded : Option CycleEnd

namespace Session

variable {σ : Type} [ActionRows σ]

/-- There is no session with a pool too large to be made. -/
def opened? (poolSize : Nat) : Option (Session σ) :=
  (Pool.ofSize? poolSize).map fun pool => ⟨.empty, pool, [], [], false, [], [], [], none⟩

def push (t : Task) (s : Session σ) : Session σ :=
  { s with tasks := s.tasks ++ [t] }

def playAll (cfg : Setting σ) (requests : List StoreRequest) : StateM (Store σ) (List Json) :=
  requests.mapM fun r s => play cfg.wall cfg.backdoor r s

def logCall {ρ : Type} (cfg : Setting σ) (endpoint : EndpointId) (call : Call)
    (reply : ScriptedReply ρ) (s : Session σ) : Session σ :=
  let (during, store) := playAll cfg reply.during s.store
  { s with store, calls := s.calls ++ [⟨endpoint, call, during⟩] }

def makeCall (cfg : Setting σ) (c : Cycle) (call : Call) (s : Session σ) :
    Option Cycle × Session σ :=
  match call with
  | .invoke _ =>
    let (scripted, invokeReplies) := s.invokeReplies.take c.endpoint
    let reply := scripted.getD ⟨[], some (.ok (some (.succeeded (.bool true))))⟩
    (reply.reply.map c.invoked, { s with invokeReplies }.logCall cfg c.endpoint call reply)
  | .ping =>
    let (scripted, pingReplies) := s.pingReplies.take c.endpoint
    let reply := scripted.getD ⟨[], some (.ok (some true))⟩
    (reply.reply.map c.pinged, { s with pingReplies }.logCall cfg c.endpoint call reply)

/-- How far a cycle got: it can go on at once, it waits at the gate, or it is over. -/
inductive Progress where
  | going (c : Cycle)
  | waiting (c : Option Cycle)
  | ended (e : CycleEnd)

def stepCycle (cfg : Setting σ) (c : Cycle) (s : Session σ) : Progress × Session σ :=
  match c.work? cfg.policy cfg.wall with
  | some work =>
    match s.store.transact work with
    | (.error e, store) => (.ended (.failed e), { s with store })
    | (.ok c, store) => (.going c, { s with store })
  | none =>
    match c.pendingCall with
    | none => (.ended (.finished c.report), s)
    | some call =>
      match s.makeCall cfg c call with
      | (next, s) =>
        if s.gated then (.waiting next, s)
        else match next with
          | some c => (.going c, s)
          | none => (.ended .broken, s)

def carry (cfg : Setting σ) : Nat → Cycle → Session σ → Progress × Session σ
  | 0, c, s => (.going c, s)
  | n + 1, c, s =>
    match s.stepCycle cfg c with
    | (.going c, s) => carry cfg n c s
    | r => r

def carryOn (cfg : Setting σ) (c : Cycle) (s : Session σ) : Progress × Session σ :=
  match s.stepCycle cfg c with
  | (.going c, s) => carry cfg c.stepBound c s
  | r => r

def conclude (owner : Owner) (endpoint : EndpointId) (e : CycleEnd) (s : Session σ) :
    Session σ :=
  match owner with
  | .session => { s with concluded := some e }
  | .worker => s.push (.count endpoint (e matches .finished _))

def startCycle (owner : Owner) (endpoint : EndpointId) (now : Instant) (s : Session σ) :
    Session σ :=
  s.push (.carry ⟨owner, endpoint, some (Cycle.start endpoint now)⟩)

def startWorker (cfg : Setting σ) (endpoint : EndpointId) (s : Session σ) : Session σ :=
  { s with pool := s.pool.markStarted endpoint }.startCycle .worker endpoint cfg.wall

def runTask (cfg : Setting σ) (t : Task) (s : Session σ) : Session σ :=
  match t with
  | .ask e =>
    match s.pool.acquire e with
    | (true, pool) => { s with pool }.startWorker cfg e
    | (false, pool) => { s with pool }
  | .start e => s.startWorker cfg e
  | .carry strand =>
    match strand.cycle with
    | none => s.conclude strand.owner strand.endpoint .broken
    | some c =>
      match s.carryOn cfg c with
      | (.going _, s) => s
      | (.waiting cycle, s) => { s with blocked := s.blocked ++ [{ strand with cycle }] }
      | (.ended e, s) => s.conclude strand.owner strand.endpoint e
  | .count e completed =>
    match (s.pool.countCycle e completed).finish e with
    | (.again, pool) => { s with pool }.startCycle .worker e cfg.wall
    | (.left none, pool) => { s with pool }
    | (.left (some next), pool) => { s with pool }.push (.start next)

def runTasks (cfg : Setting σ) : Nat → Session σ → Session σ
  | 0, s => s
  | n + 1, s =>
    match s.tasks with
    | [] => s
    | t :: tasks => runTasks cfg n (runTask cfg t { s with tasks })

/-- No more turns than this are taken before all tasks are done or blocked: four by each worker,
and two by each further cycle. -/
def turnBound (s : Session σ) : Nat :=
  4 * s.pool.active.length + 2 * s.pool.reruns.length + s.tasks.length + 1

def runAll (cfg : Setting σ) (s : Session σ) : Session σ :=
  s.runTasks cfg s.turnBound

def unblock (endpoint : EndpointId) (s : Session σ) : Bool × Session σ :=
  match s.blocked.find? (·.endpoint == endpoint) with
  | none => (false, s)
  | some strand =>
    (true, { s with blocked := s.blocked.eraseP (·.endpoint == endpoint) }.push (.carry strand))

/-- Shows the calls since the last showing, with those of each endpoint together. -/
def takeCalls (s : Session σ) : Json × Session σ :=
  let endpoints := sortedNames (s.calls.map (·.endpoint))
  let grouped := endpoints.flatMap fun e => s.calls.filter (·.endpoint == e)
  (list LoggedCall.toJson grouped, { s with calls := [] })

def settled (s : Session σ) : Json.Fields × Session σ :=
  let (calls, s) := s.takeCalls
  ([("state", s.pool.toJson), ("idle", .bool s.pool.isIdle),
    ("blocked", list .str (sortedNames (s.blocked.map (·.endpoint)))), ("calls", calls)], s)

def poll (cfg : Setting σ) (now : Instant) (s : Session σ) :
    Except StoreError Nat × Session σ :=
  match Poller.poll cfg.probeIdle now s.store s.pool with
  | (.error e, store, pool) => (.error e, { s with store, pool })
  | (.ok started, store, pool) =>
    (.ok started.length, { s with store, pool, tasks := s.tasks ++ started.map .ask })

def runPoller (cfg : Setting σ) (s : Session σ) : Json × Session σ :=
  let s := ((s.runAll cfg).poll cfg cfg.wall).2.runAll cfg
  let (first, s) := s.settled
  let s := { s with pool := s.pool.close }.runAll cfg
  let (after, s) := s.settled
  (.obj [("first", .obj first), ("ended", .bool s.pool.isIdle), ("after", .obj after)], s)

def answer (cfg : Setting σ) (r : SessionRequest) (s : Session σ) : Json × Session σ :=
  match r with
  | .store request =>
    let (a, store) := play cfg.wall cfg.backdoor request s.store
    (a, { s with store })
  | .reply e rs => (ok, { s with invokeReplies := s.invokeReplies ++ rs.map (e, ·) })
  | .pingReply e rs => (ok, { s with pingReplies := s.pingReplies ++ rs.map (e, ·) })
  | .gate on => (ok, { s with gated := on })
  | .cycle e now =>
    let s := { s with concluded := none }.startCycle .session e (now.getD cfg.wall)
    let s := s.runAll cfg
    let (calls, s) := s.takeCalls
    (.obj [("report", .ofOption CycleEnd.toJson s.concluded), ("calls", calls)], s)
  | .schedule e =>
    let (a, pool) := s.pool.schedule e
    let s := { s with pool }
    (a.toJson, if a.isClaim then s.push (.ask e) else s)
  | .settle =>
    let (fields, s) := (s.runAll cfg).settled
    (.obj fields, s)
  | .release e =>
    let (released, s) := s.unblock e
    let (fields, s) := (s.runAll cfg).settled
    (.obj (("released", .bool released) :: fields), s)
  | .state => (s.pool.toJson, s)
  | .stats => (s.pool.stats.toJson, s)
  | .close => (ok, { s with pool := s.pool.close })
  | .waitIdle =>
    let (fields, s) := (s.runAll cfg).settled
    (.obj [("idle", .bool s.pool.isIdle), ("after", .obj fields)], s)
  | .shutdown =>
    let s := { s with pool := s.pool.close }.runAll cfg
    (.bool s.pool.isIdle, s)
  | .poll now =>
    let (a, s) := s.poll cfg now
    (Scenario.answer Json.ofNat a, s)
  | .runPoller => s.runPoller cfg
  | .refused cause => (cause.toJson, s)

def answerAll (cfg : Setting σ) (requests : List SessionRequest) :
    StateM (Session σ) (List Json) :=
  requests.mapM fun r s => answer cfg r s

end FleetDispatch.Scenario.Session
