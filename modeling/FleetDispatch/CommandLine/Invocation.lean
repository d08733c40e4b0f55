import FleetDispatch.CommandLine.Format
import FleetDispatch.CommandLine.Grammar
import FleetDispatch.Record

namespace FleetDispatch

structure ActionOrder where
  name : String
  function : String
  args : List String
  endpoints : List EndpointId
  time : Option String
  prerequisite : Option ActionId
  retries : Option Nat

inductive Command where
  | run
  | cycle (endpoint : EndpointId) (format : OutputFormat)
  | addAction (order : ActionOrder)
  | listActions (endpoint : Option EndpointId) (status : Option String) (format : OutputFormat)
  | listEndpoints (format : OutputFormat)

/-- A command with the settings that go before those of a file. -/
structure Invocation where
  configPath : Option String
  logLevel : Option String
  database : Option String
  command : Command

open CommandLine

namespace Invocation

def digits? (cs : List Char) : Option Nat :=
  if cs.isEmpty then none
  else cs.foldlM (fun n c => if c.isDigit then some (n * 10 + (c.toNat - 48)) else none) 0

def int? (s : String) : Option Int :=
  match s.toList with
  | '+' :: cs => (digits? cs).map Int.ofNat
  | '-' :: cs => (digits? cs).map fun n => -(n : Int)
  | cs => (digits? cs).map Int.ofNat

def intWithin? (low high : Int) (s : String) : Option Int :=
  (int? s).bind fun n => if low ≤ n && n ≤ high then some n else none

def actionId? (s : String) : Option ActionId :=
  intWithin? Width.least64 Width.greatest64 s

def retries? (s : String) : Option Nat :=
  (intWithin? 0 Width.most32 s).map Int.toNat

def anyText : String → Option UsageFault :=
  fun _ => none

def path (s : String) : Option UsageFault :=
  if s.isEmpty then some .missingValue else none

def valid {α : Type} (decode : String → Option α) (s : String) : Option UsageFault :=
  if (decode s).isSome then none else some .invalidValue

def single (key long : String) (short : Option Char) (check : String → Option UsageFault) :
    OptionRule :=
  ⟨key, long, short, false, false, check⟩

def everywhere : List OptionRule :=
  [single "config" "config" (some 'c') path, single "log-level" "log-level" (some 'l') anyText,
    single "db" "db" none path]

def formatOption : OptionRule :=
  single "format" "format" (some 'f') (valid OutputFormat.ofText?)

def addOptions : List OptionRule :=
  [{ single "name" "name" (some 'n') anyText with required := true },
    { single "function" "function" (some 'f') anyText with required := true },
    { single "arg" "arg" (some 'a') anyText with repeatable := true },
    { single "endpoint" "endpoint" (some 'e') anyText with repeatable := true, required := true },
    single "at" "at" none anyText,
    single "prerequisite" "prerequisite" (some 'p') (valid actionId?),
    single "retries" "retries" (some 'r') (valid retries?)]

def listOptions : List OptionRule :=
  [single "endpoint" "endpoint" (some 'e') anyText, single "status" "status" (some 's') anyText,
    formatOption]

def leaf (name : String) (options : List OptionRule) (words : List String) : CommandRule :=
  .mk name (options ++ everywhere) words []

def group (name : String) (commands : List CommandRule) : CommandRule :=
  .mk name everywhere [] commands

def grammar : CommandRule :=
  group "pq" [leaf "run" [] [], leaf "cycle" [formatOption] ["endpoint"],
    group "action" [leaf "add" addOptions [], leaf "list" listOptions []],
    group "endpoint" [leaf "list" [formatOption] []]]

def formatOf (b : Bindings) : OutputFormat :=
  ((b.first? "format").bind OutputFormat.ofText?).getD .text

def orderOf (b : Bindings) : ActionOrder :=
  { name := (b.first? "name").getD ""
    function := (b.first? "function").getD ""
    args := b.all "arg"
    endpoints := b.all "endpoint"
    time := b.first? "at"
    prerequisite := (b.first? "prerequisite").bind actionId?
    retries := (b.first? "retries").bind retries? }

def commandOf (m : Matches) : Except UsageFault Command :=
  match m.path with
  | ["run"] => .ok .run
  | ["cycle"] => .ok (.cycle ((m.values.first? "endpoint").getD "") (formatOf m.values))
  | ["action", "add"] => .ok (.addAction (orderOf m.values))
  | ["action", "list"] =>
    .ok (.listActions (m.values.first? "endpoint") (m.values.first? "status") (formatOf m.values))
  | ["endpoint", "list"] => .ok (.listEndpoints (formatOf m.values))
  | _ => .error .missingCommand

def ofWords (words : List String) : Except UsageFault Invocation := do
  let m ← grammar.parse words
  let command ← commandOf m
  return ⟨m.values.first? "config", m.values.first? "log-level", m.values.first? "db", command⟩

end FleetDispatch.Invocation
