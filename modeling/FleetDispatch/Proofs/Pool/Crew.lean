import FleetDispatch.Pool

namespace FleetDispatch

structure Hand where
  endpoint : EndpointId
  stage : WorkerStage
  deriving DecidableEq

/-- A pool with the workers that were started for it, each of which goes its own way. -/
structure Crew where
  pool : Pool
  hands : List Hand

namespace Crew

/-- What can happen next: a cycle is requested for an endpoint, one of the workers makes its next
step, or the pool is closed. A worker whose cycle runs ends it, and the cycle may have failed or
broken down. -/
inductive Move where
  | schedule (e : EndpointId)
  | work (i : Nat) (completed : Bool)
  | close

/-- What a move shows of itself: the answer to a request, a cycle that begins, the first of a worker
or one more, and a worker that is done. -/
inductive Event where
  | answered (e : EndpointId) (a : ScheduleAnswer)
  | began (e : EndpointId) (again : Bool)
  | left (e : EndpointId)
  deriving DecidableEq

def ofSize (size : Nat) : Crew :=
  ⟨.ofSize size, []⟩

def grant (next : Option EndpointId) : List Hand → List Hand
  | [] => []
  | h :: hands =>
    if next = some h.endpoint ∧ h.stage = .waiting then { h with stage := .granted } :: hands
    else h :: grant next hands

def schedule (e : EndpointId) (c : Crew) : Option Event × Crew :=
  match c.pool.schedule e with
  | (a, pool) =>
    (some (.answered e a), ⟨pool, if a.isClaim then c.hands ++ [⟨e, .spawned⟩] else c.hands⟩)

def work (i : Nat) (h : Hand) (completed : Bool) (c : Crew) : Option Event × Crew :=
  let moved (stage : WorkerStage) : List Hand := c.hands.set i { h with stage }
  match h.stage with
  | .spawned =>
    match c.pool.acquire h.endpoint with
    | (true, pool) => (none, ⟨pool, moved .granted⟩)
    | (false, pool) => (none, ⟨pool, moved .waiting⟩)
  | .waiting => (none, c)
  | .granted => (some (.began h.endpoint false), ⟨c.pool.markStarted h.endpoint, moved .cycling⟩)
  | .cycling => (none, ⟨c.pool.countCycle h.endpoint completed, moved .counted⟩)
  | .counted =>
    match c.pool.finish h.endpoint with
    | (.again, pool) => (some (.began h.endpoint true), ⟨pool, moved .cycling⟩)
    | (.left next, pool) =>
      (some (.left h.endpoint), ⟨pool, grant next (c.hands.eraseIdx i)⟩)

def step (m : Move) (c : Crew) : Option Event × Crew :=
  match m with
  | .schedule e => c.schedule e
  | .work i completed =>
    match c.hands[i]? with
    | none => (none, c)
    | some h => c.work i h completed
  | .close => (none, { c with pool := c.pool.close })

def after (moves : List Move) (c : Crew) : Crew :=
  moves.foldl (fun c m => (c.step m).2) c

def events : List Move → Crew → List Event
  | [], _ => []
  | m :: moves, c => (c.step m).1.toList ++ events moves (c.step m).2

theorem after_cons (m : Move) (moves : List Move) (c : Crew) :
    c.after (m :: moves) = (c.step m).2.after moves :=
  rfl

theorem after_append (moves later : List Move) (c : Crew) :
    c.after (moves ++ later) = (c.after moves).after later :=
  List.foldl_append

end FleetDispatch.Crew
