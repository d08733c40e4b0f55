import FleetDispatch.Record

namespace FleetDispatch

structure PoolStats where
  totalScheduled : Nat
  totalCompleted : Nat
  totalFailed : Nat
  deferredDuplicates : Nat
  totalReruns : Nat
  peakConcurrent : Nat
  deriving DecidableEq, Inhabited

def PoolStats.toJson (s : PoolStats) : Json :=
  .obj [("deferred_duplicates", .ofNat s.deferredDuplicates),
    ("peak_concurrent", .ofNat s.peakConcurrent), ("total_completed", .ofNat s.totalCompleted),
    ("total_failed", .ofNat s.totalFailed), ("total_reruns", .ofNat s.totalReruns),
    ("total_scheduled", .ofNat s.totalScheduled)]

/-- Where the worker of an endpoint stands: it has not asked for a slot, it waits for one, it has
one, its cycle runs, or its cycle is over and counted. -/
inductive WorkerStage where
  | spawned
  | waiting
  | granted
  | cycling
  | counted
  deriving DecidableEq

/-- An endpoint that is served, and whether its worker has been counted as running. -/
structure Worker where
  endpoint : EndpointId
  started : Bool
  stage : WorkerStage
  deriving DecidableEq

inductive ScheduleAnswer where
  | ready
  | queued (position : Nat)
  | alreadyActive
  | rejected (reason : String)
  deriving DecidableEq

def ScheduleAnswer.toJson : ScheduleAnswer → Json
  | ready => .str "ready"
  | queued position => .obj [("queued", .ofNat position)]
  | alreadyActive => .str "already_active"
  | rejected reason => .obj [("rejected", .str reason)]

def ScheduleAnswer.isClaim : ScheduleAnswer → Bool
  | ready => true
  | queued _ => true
  | _ => false

/-- Workers for endpoints, one at most for each, of which a limited number hold a slot. -/
structure Pool where
  capacity : Nat
  active : List Worker
  reruns : List EndpointId
  running : Nat
  free : Nat
  line : List EndpointId
  stats : PoolStats
  closed : Bool
  deriving DecidableEq, Inhabited

namespace Pool

/-- A pool has one slot at least. -/
def ofSize (size : Nat) : Pool :=
  ⟨max size 1, [], [], 0, max size 1, [], default, false⟩

def greatestSize : Nat := 2305843009213693951

def ofSize? (size : Nat) : Option Pool :=
  if size ≤ greatestSize then some (ofSize size) else none

def isActive (e : EndpointId) (p : Pool) : Bool :=
  p.active.any (·.endpoint == e)

def isIdle (p : Pool) : Bool :=
  p.active.isEmpty

/-- Claims an endpoint; one that is claimed already is to have one more cycle. -/
def claim (e : EndpointId) (p : Pool) : Bool × Pool :=
  if p.isActive e then
    (false, { p with
      reruns := if p.reruns.contains e then p.reruns else p.reruns ++ [e]
      stats := { p.stats with deferredDuplicates := p.stats.deferredDuplicates + 1 } })
  else
    (true, { p with
      active := p.active ++ [⟨e, false, .spawned⟩]
      stats := { p.stats with totalScheduled := p.stats.totalScheduled + 1 } })

def schedule (e : EndpointId) (p : Pool) : ScheduleAnswer × Pool :=
  if p.closed then (.rejected "Scheduler is shutting down", p)
  else match p.claim e with
    | (false, p) => (.alreadyActive, p)
    | (true, p) =>
      if p.active.length ≤ p.capacity then (.ready, p)
      else (.queued (p.active.length - p.capacity), p)

def close (p : Pool) : Pool :=
  { p with closed := true }

def setStage (e : EndpointId) (stage : WorkerStage) (p : Pool) : Pool :=
  { p with active := p.active.map fun w => if w.endpoint = e then { w with stage } else w }

def acquire (e : EndpointId) (p : Pool) : Bool × Pool :=
  if 0 < p.free then (true, { p with free := p.free - 1 }.setStage e .granted)
  else (false, { p with line := p.line ++ [e] }.setStage e .waiting)

/-- A worker that has a slot starts its first cycle. An endpoint without a worker starts none. -/
def markStarted (e : EndpointId) (p : Pool) : Pool :=
  if p.isActive e then
    let running := p.running + 1
    { p with
      active := p.active.map fun w =>
        if w.endpoint = e then { w with started := true, stage := .cycling } else w
      running
      stats := { p.stats with peakConcurrent := max p.stats.peakConcurrent running } }
  else p

def countCycle (e : EndpointId) (completed : Bool) (p : Pool) : Pool :=
  let p := p.setStage e .counted
  if completed then
    { p with stats := { p.stats with totalCompleted := p.stats.totalCompleted + 1 } }
  else { p with stats := { p.stats with totalFailed := p.stats.totalFailed + 1 } }

/-- Gives a slot back: to the first in line, or to the free ones. -/
def releaseSlot (p : Pool) : Option EndpointId × Pool :=
  match p.line with
  | [] => (none, { p with free := p.free + 1 })
  | e :: line => (some e, { p with line }.setStage e .granted)

/-- What a worker does after a cycle: another one, or it leaves, and its slot may go on to the
next in line. -/
inductive Finish where
  | again
  | left (next : Option EndpointId)
  deriving DecidableEq

def finish (e : EndpointId) (p : Pool) : Finish × Pool :=
  if p.reruns.contains e then
    (.again, { p with
      reruns := p.reruns.filter (· != e)
      stats := { p.stats with totalReruns := p.stats.totalReruns + 1 } }.setStage e .cycling)
  else
    let started := p.active.any fun w => w.endpoint == e && w.started
    let p := { p with
      active := p.active.filter (·.endpoint != e)
      running := if started then p.running - 1 else p.running }
    let (next, p) := p.releaseSlot
    (.left next, p)

def waiting (p : Pool) : Nat :=
  p.active.length - p.running

def toJson (p : Pool) : Json :=
  .obj [("active", .arr ((p.active.map (·.endpoint)).mergeSort.map Json.str)),
    ("running", .ofNat p.running), ("stats", p.stats.toJson), ("waiting", .ofNat p.waiting)]

end FleetDispatch.Pool
