import FleetDispatch.Pool
import FleetDispatch.Store.Basic
import FleetDispatch.Store.Rows

namespace FleetDispatch.Poller

/-- Asks for a cycle on each endpoint in turn; gives the endpoints that this starts a worker for. -/
def scheduleAll (names : List EndpointId) (p : Pool) : List EndpointId × Pool :=
  names.foldl (fun (started, p) e =>
    match p.schedule e with
    | (answer, p) => (if answer.isClaim then started ++ [e] else started, p))
    ([], p)

variable {σ : Type} [ActionRows σ]

/-- The endpoints with due work, and with `idle` all others that are known as well. -/
def candidates (idle : Bool) (now : Instant) (s : Store σ) :
    Except StoreError (List EndpointId) × Store σ :=
  match s.dueEndpoints now with
  | (.error e, s) => (.error e, s)
  | (.ok due, s) =>
    if idle then
      match s.endpoints with
      | (.error e, s) => (.error e, s)
      | (.ok all, s) => (.ok (sortedNames (due ++ all.map (·.id))), s)
    else (.ok (sortedNames due), s)

def poll (idle : Bool) (now : Instant) (s : Store σ) (p : Pool) :
    Except StoreError (List EndpointId) × Store σ × Pool :=
  match candidates idle now s with
  | (.error e, s) => (.error e, s, p)
  | (.ok names, s) =>
    let (started, p) := scheduleAll names p
    (.ok started, s, p)

end FleetDispatch.Poller
