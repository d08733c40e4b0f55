import FleetDispatch.Action
import FleetDispatch.Helper.Template
import FleetDispatch.Text.Blank
import FleetDispatch.Time.Span
import FleetDispatch.Yaml.Decode

namespace FleetDispatch

structure SchedulerSettings where
  poolSize : Nat
  pollSeconds : Nat
  shutdownSeconds : Nat
  checkinIdle : Bool
  deriving DecidableEq

structure HelperSettings where
  program : String
  args : Template
  timeoutMs : Nat
  deriving DecidableEq

structure Config where
  logLevel : Option String
  scheduler : SchedulerSettings
  retries : Nat
  helper : HelperSettings
  databasePath : String
  deriving DecidableEq

namespace SchedulerSettings

def standard : SchedulerSettings :=
  ⟨4, 60, 30, false⟩

def pollMillis (s : SchedulerSettings) : Nat :=
  s.pollSeconds * 1000

def shutdownMillis (s : SchedulerSettings) : Nat :=
  s.shutdownSeconds * 1000

def toJson (s : SchedulerSettings) : Json :=
  .obj [("pool-size", .ofNat s.poolSize), ("poll-interval-secs", .ofNat s.pollSeconds),
    ("shutdown-timeout-secs", .ofNat s.shutdownSeconds), ("checkin-idle", .bool s.checkinIdle)]

end SchedulerSettings

namespace HelperSettings

def standard : HelperSettings :=
  ⟨"salt-ssh", .standard, 120000⟩

def timeout (h : HelperSettings) : Span :=
  ⟨h.timeoutMs⟩

def toJson (h : HelperSettings) : Json :=
  .obj [("program", .str h.program), ("args", .arr (h.args.map .str)),
    ("timeout-ms", .ofNat h.timeoutMs)]

end HelperSettings

inductive ConfigFault where
  | noSlots
  | noPollInterval
  | noProgram
  | noTimeout
  deriving DecidableEq

def ConfigFault.message : ConfigFault → String
  | noSlots => "scheduler.pool-size must be at least 1"
  | noPollInterval => "scheduler.poll-interval-secs must be at least 1"
  | noProgram => "channel.program must not be empty"
  | noTimeout => "channel.timeout-ms must be positive"

namespace Config

def databaseBelow (dataHome : Option String) : String :=
  match dataHome with
  | some dir => dir ++ "/pushqueue/pushqueue.db"
  | none => ".pushqueue/pushqueue.db"

def standard (dataHome : Option String) : Config :=
  ⟨none, .standard, defaultRetries, .standard, databaseBelow dataHome⟩

def fault? (c : Config) : Option ConfigFault :=
  if c.scheduler.poolSize = 0 then some .noSlots
  else if c.scheduler.pollSeconds = 0 then some .noPollInterval
  else if (Text.trim c.helper.program.toList).isEmpty then some .noProgram
  else if c.helper.timeoutMs = 0 then some .noTimeout
  else none

def toJson (c : Config) : Json :=
  .obj [("log-level", .ofOption .str c.logLevel), ("scheduler", c.scheduler.toJson),
    ("dispatch", .obj [("default-retries", .ofNat c.retries)]), ("channel", c.helper.toJson),
    ("storage", .obj [("db-path", .str c.databasePath)])]

open Yaml

def schedulerOf? (s : SchedulerSettings) (v : Value) : Option SchedulerSettings := do
  let member ← v.members? ["pool-size", "poll-interval-secs", "shutdown-timeout-secs",
    "checkin-idle"]
  let poolSize ← Value.field s.poolSize (Value.nat? Width.most64) (member "pool-size")
  let pollSeconds ←
    Value.field s.pollSeconds (Value.nat? Width.most64) (member "poll-interval-secs")
  let shutdownSeconds ←
    Value.field s.shutdownSeconds (Value.nat? Width.most64) (member "shutdown-timeout-secs")
  let checkinIdle ← Value.field s.checkinIdle Value.bool? (member "checkin-idle")
  some ⟨poolSize, pollSeconds, shutdownSeconds, checkinIdle⟩

def retriesOf? (n : Nat) (v : Value) : Option Nat := do
  let member ← v.members? ["default-retries"]
  Value.field n (Value.nat? Width.most32) (member "default-retries")

def helperOf? (h : HelperSettings) (v : Value) : Option HelperSettings := do
  let member ← v.members? ["program", "args", "timeout-ms"]
  let program ← Value.field h.program Value.text? (member "program")
  let args ← Value.field h.args Value.texts? (member "args")
  let timeoutMs ← Value.field h.timeoutMs (Value.nat? Width.most64) (member "timeout-ms")
  some ⟨program, args, timeoutMs⟩

def databaseOf? (path : String) (v : Value) : Option String := do
  let member ← v.members? ["db-path"]
  Value.field path Value.text? (member "db-path")

/-- Reads settings; what is left out is as in `c`. -/
def ofValue? (c : Config) (v : Value) : Option Config := do
  let member ← v.members? ["log-level", "scheduler", "dispatch", "channel", "storage"]
  let logLevel ← Value.field c.logLevel Value.optionalText? (member "log-level")
  let scheduler ← Value.field c.scheduler (schedulerOf? c.scheduler) (member "scheduler")
  let retries ← Value.field c.retries (retriesOf? c.retries) (member "dispatch")
  let helper ← Value.field c.helper (helperOf? c.helper) (member "channel")
  let databasePath ← Value.field c.databasePath (databaseOf? c.databasePath) (member "storage")
  some ⟨logLevel, scheduler, retries, helper, databasePath⟩

def ofText? (dataHome : Option String) (s : String) : Option Config :=
  (Value.ofText? s).bind (ofValue? (standard dataHome))

end FleetDispatch.Config
