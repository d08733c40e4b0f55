import FleetDispatch.Store.Tampering
import FleetDispatch.Verdict

namespace FleetDispatch.Scenario

inductive RequestFault where
  | badInput
  | decode
  deriving DecidableEq

def RequestFault.toJson : RequestFault → Json
  | badInput => .obj [("error", .str "BadInput")]
  | decode => .obj [("error", .str "Decode")]

inductive RecordStep where
  | consume
  | complete (code : Int) (message : String) (time : Instant)
  | fail (code : Int) (message : String) (time : Instant)
  | refused (fault : RequestFault)

inductive TransactionRequest where
  | pending (endpoint : EndpointId)
  | action (id : ActionId)
  | record (id : ActionId) (endpoint : EndpointId)
  | save (record : Record)
  | update (id : ActionId) (endpoint : EndpointId) (steps : List RecordStep)
  | endpoint (id : EndpointId)
  | saveEndpoint (endpoint : Endpoint)
  | checkIn (endpoint : EndpointId) (time : Instant)
  | insert (action : NewAction)
  | due (now : Instant)
  | endpoints
  | records (endpoint : Option EndpointId) (status : Option Status)
  | refused (fault : RequestFault)

inductive StoreRequest where
  | create (action : NewAction)
  | due (now : Instant)
  | endpoints
  | records (endpoint : Option EndpointId) (status : Option Status)
  | transaction (ops : List TransactionRequest) (ending : Ending)
  | dump
  | poison
  | reopen
  | tamper (change : Tables.Tampering)
  | fault (op : String) (n : Int)
  | clearFaults
  | refused (fault : RequestFault)

/-- What a scripted endpoint does when it is called: requests that another party makes to the
store meanwhile, and then the reply, without which the call breaks down. -/
structure ScriptedReply (ρ : Type) where
  during : List StoreRequest
  reply : Option ρ

end FleetDispatch.Scenario
