import FleetDispatch.Json.Fault
import FleetDispatch.Record

namespace FleetDispatch

inductive StoreOperation where
  | begin_
  | commit
  | rollback
  | pending
  | loadAction
  | loadRecord
  | save
  | loadEndpoint
  | saveEndpoint
  | recordCheckin
  | insertAction
  | dueEndpoints
  | listEndpoints
  | listRecords
  deriving DecidableEq

namespace StoreOperation

def name : StoreOperation → String
  | begin_ => "begin"
  | commit => "commit"
  | rollback => "rollback"
  | pending => "load_pending_execution_records"
  | loadAction => "load_action"
  | loadRecord => "load_record"
  | save => "save"
  | loadEndpoint => "load_endpoint"
  | saveEndpoint => "save_endpoint"
  | recordCheckin => "record_checkin"
  | insertAction => "insert_action"
  | dueEndpoints => "due_endpoints"
  | listEndpoints => "list_endpoints"
  | listRecords => "list_records"

def all : List StoreOperation :=
  [begin_, commit, rollback, pending, loadAction, loadRecord, save, loadEndpoint, saveEndpoint,
    recordCheckin, insertAction, dueEndpoints, listEndpoints, listRecords]

def ofName? (s : String) : Option StoreOperation :=
  all.find? (·.name == s)

end StoreOperation

inductive Missing where
  | action (id : ActionId)
  | record (id : ActionId) (endpoint : EndpointId)
  | prerequisite (id : ActionId)
  deriving DecidableEq

def Missing.text : Missing → String
  | action id => s!"Action {id}"
  | record id endpoint => s!"Execution record for action {id} on {endpoint}"
  | prerequisite id => s!"Prerequisite action {id}"

inductive Unreadable where
  | status (text : String)
  | tries (n : Int)
  | time (millis : Int)
  | procedure (fault : Option Json.Misreading)
  deriving DecidableEq

def Unreadable.text : Unreadable → String
  | status text => Status.unknownMessage text
  | tries n => s!"remaining_tries out of range: {n}"
  | time millis => s!"timestamp out of range: {millis}"
  | procedure none => "malformed procedure"
  | procedure (some m) => m.text

inductive BackendFailure where
  | injected (op : StoreOperation)
  | duplicateRecord
  | cannotOpen (path : String)
  | notADatabase
  | readOnly
  | nulInName (position : Nat)
  | unknownOption (kind value : String)
  | unknownAuthority (name : String)
  | wrongKind (kind : String) (index : Nat) (column : String)
  deriving DecidableEq

def BackendFailure.text : BackendFailure → String
  | injected op => s!"injected {op.name} failure"
  | duplicateRecord =>
    "UNIQUE constraint failed: execution_records.action_id, execution_records.endpoint_id"
  | cannotOpen path => s!"unable to open database file: {path}"
  | notADatabase => "file is not a database"
  | readOnly => "attempt to write a readonly database"
  | nulInName position => s!"nul byte found in provided data at position: {position}"
  | unknownOption kind value => s!"no such {kind}: {value}"
  | unknownAuthority name => s!"invalid uri authority: {name}"
  | wrongKind kind index column =>
    s!"Invalid column type {kind} at index: {index}, name: {column}"

inductive StoreError where
  | notFound (what : Missing)
  | backend (failure : BackendFailure)
  | invalidData (what : Unreadable)
  | lockPoisoned
  deriving DecidableEq

def StoreError.message : StoreError → String
  | notFound what => s!"Record not found: {what.text}"
  | backend failure => s!"Store error: {failure.text}"
  | invalidData what => s!"Invalid data: {what.text}"
  | lockPoisoned => "Lock poisoned"

end FleetDispatch
