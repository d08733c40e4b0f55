import FleetDispatch.Program.Commands
import FleetDispatch.Program.Database
import FleetDispatch.Store.Sealed
import FleetDispatch.Text.Upper

namespace FleetDispatch.Program

open CommandLine

structure Homes where
  data : Option String
  config : Option String

/-- Where the directories are, by the variables of the environment. Only absolute paths count. -/
def Homes.of (variableOf : String → Option String) : Homes :=
  let below (name dir : String) : Option String :=
    ((variableOf name).filter Path.isAbsolute) <|> (variableOf "HOME").map (· ++ "/" ++ dir)
  ⟨below "XDG_DATA_HOME" ".local/share", below "XDG_CONFIG_HOME" ".config"⟩

/-- Whether output has colours: as the user forces it, or else on a terminal. -/
def wantsColor (variableOf : String → Option String) (terminal : Bool) : Bool :=
  if ((variableOf "CLICOLOR_FORCE").map (· != "0")).getD false then true
  else if (variableOf "NO_COLOR").isSome then false
  else ((variableOf "CLICOLOR").map (· != "0")).getD true && terminal

structure Output where
  status : Nat
  out : String
  err : String
  deriving DecidableEq

def loadConfig (homes : Homes) (files : Files) (path : String) : Except Failure Config :=
  match files.read path with
  | .error fault => .error ((Failure.plain fault.text).during "Failed to read config file")
  | .ok text =>
    match Config.ofText? homes.data text with
    | some c => .ok c
    | none => .error (.plain "Failed to parse config file")

def configPaths (homes : Homes) : List String :=
  ".pushqueue.yml" :: (homes.config.map (· ++ "/pushqueue/pushqueue.yml")).toList

/-- Settings come from the file that is named, or from the first of the usual ones that can be
read, or else they are the standard ones. -/
def chooseConfig (homes : Homes) (files : Files) (named : Option String) :
    Except Failure Config :=
  match named with
  | some path =>
    match loadConfig homes files path with
    | .ok c => .ok c
    | .error f =>
      .error ((f.during s!"Failed to load config from {path}").during
        "Failed to load configuration")
  | none =>
    .ok (((configPaths homes).findSome? fun p => (loadConfig homes files p).toOption).getD
      (.standard homes.data))

def logLevels : List String :=
  ["TRACE", "DEBUG", "INFO", "WARN", "WARNING", "ERROR"]

def logWarning : Option String → String
  | none => ""
  | some level =>
    let level := Text.upper level
    if logLevels.contains level then ""
    else line ("Warning: Unknown log-level '" ++ level ++ "', defaulting to INFO")

def databasePath (i : Invocation) (c : Config) : String :=
  i.database.getD c.databasePath

def makeParent (files : Files) (path : String) : Except Failure Files :=
  match Path.parent path with
  | none => .ok files
  | some parent =>
    match files.makeDirectory parent with
    | .ok files => .ok files
    | .error fault => .error ((Failure.plain fault.text).during s!"Failed to create {parent}")

/-- A database that is open: one that is gone with the program, or a file, of which a sealed one is
not written. -/
inductive Opened where
  | passing
  | file (path : String) (rows : Tables)
  | sealed (rows : Tables)

def openNamed (files : Files) (name : String) : Except BackendFailure Opened := do
  match ← DatabaseName.ofString name with
  | .passing isSealed => if isSealed then throw .readOnly else return .passing
  | .file path creates isSealed =>
    let rows ← DatabaseName.openFile name path creates isSealed files
    return if isSealed then .sealed rows else .file path rows

def withDatabase (name : String) (files : Files) : Files :=
  match DatabaseName.ofString name with
  | .ok (.file path creates _) =>
    if DatabaseName.isMade path creates files then files.put (files.locate path) (.file [])
    else files
  | _ => files

def openStore (files : Files) (name : String) : Except Failure Opened × Files :=
  match makeParent files name with
  | .error f => (.error f, files)
  | .ok files =>
    let opened := (openNamed files name).mapError fun e =>
      (failureOf (.backend e)).during s!"Failed to open database {name}"
    (opened, withDatabase name files)

/-- Writes a database file. Nothing is left of what is written to a device. -/
def saveStore (files : Files) (path : String) (rows : Tables) : Files :=
  let p := files.locate path
  match files.find? p with
  | some .device => files
  | _ => files.put p (.database rows)

/-- Help and the version are no failures. -/
def usageOutput : UsageFault → Output
  | .helpAsked => ⟨0, "Usage: pq [OPTIONS] <COMMAND>\n", ""⟩
  | .versionAsked => ⟨0, "pq\n", ""⟩
  | _ => ⟨2, "", "Usage: pq [OPTIONS] <COMMAND>"⟩

def outputOf (warning : String) : Except Failure String → Output
  | .ok out => ⟨0, out, warning⟩
  | .error f => ⟨1, "", warning ++ f.text⟩

def execute (s : Surroundings) (files : Files) (i : Invocation) (c : Config) (warning : String) :
    Output × Files :=
  match openStore files (databasePath i c) with
  | (.error f, files) => (outputOf warning (.error f), files)
  | (.ok .passing, files) =>
    let (r, p) := perform s c i.command ⟨(Store.empty : Store Tables), files⟩
    (outputOf warning r, p.files)
  | (.ok (.sealed rows), files) =>
    let (r, p) := perform s c i.command ⟨Store.ofRows (Sealed.mk rows), files⟩
    (outputOf warning r, p.files)
  | (.ok (.file path rows), files) =>
    let (r, p) := perform s c i.command ⟨Store.ofRows rows, files⟩
    (outputOf warning r, saveStore p.files path p.store.rows)

def logDirectory (homes : Homes) : String :=
  homes.data.getD "." ++ "/pushqueue/logs"

def logPath (homes : Homes) : String :=
  logDirectory homes ++ "/pushqueue.log"

/-- The log levels at which nothing is written of a run that goes well. -/
def quietLevels : List String :=
  ["WARN", "WARNING", "ERROR"]

def makeLogDirectory (homes : Homes) (files : Files) : Except Failure Files :=
  match files.makeDirectory (logDirectory homes) with
  | .ok files => .ok files
  | .error fault =>
    .error (((Failure.plain fault.text).during "Failed to create log directory").during
      "Failed to setup logging")

def startLog (homes : Homes) (level : Option String) (files : Files) : Except Failure Files :=
  let p := files.locate (logPath homes)
  let quiet := (level.map fun l => quietLevels.contains (Text.upper l)).getD false
  match files.find? p with
  | none => .ok (files.put p (.file (if quiet then [] else ['\n'])))
  | some (.file []) => .ok (if quiet then files else files.put p (.file ['\n']))
  | some e =>
    if e.isDirectory then
      .error (((Failure.plain PathFault.isDirectory.text).during "Failed to open log file").during
        "Failed to setup logging")
    else .ok files

def runWith (s : Surroundings) (homes : Homes) (files : Files) (i : Invocation) (c : Config) :
    Output × Files :=
  let level := i.logLevel <|> c.logLevel
  let warning := logWarning level
  match makeLogDirectory homes files with
  | .error f => (⟨1, "", f.text⟩, files)
  | .ok files =>
    match startLog homes level files with
    | .error f => (outputOf warning (.error f), files)
    | .ok files =>
      match c.fault? with
      | some fault => (outputOf warning (.error (.plain fault.message)), files)
      | none => execute s files i c warning

def run (s : Surroundings) (homes : Homes) (files : Files) (words : List String) :
    Output × Files :=
  match Invocation.ofWords words with
  | .error fault => (usageOutput fault, files)
  | .ok i =>
    match chooseConfig homes files i.configPath with
    | .error f => (⟨1, "", f.text⟩, files)
    | .ok c => runWith s homes files i c

def settingsPaths (homes : Homes) (words : List String) : List String :=
  match Invocation.ofWords words with
  | .ok i => (i.configPath.map fun p => [p]).getD (configPaths homes)
  | .error _ => []

def settings? (homes : Homes) (files : Files) (words : List String) :
    Option (Invocation × Config) := do
  let i ← (Invocation.ofWords words).toOption
  let c ← (chooseConfig homes files i.configPath).toOption
  some (i, c)

/-- The seconds after which a command line that goes on polling is carried out again. -/
def pause? (homes : Homes) (files : Files) (words : List String) : Option Nat :=
  match settings? homes files words with
  | some (⟨_, _, _, .run⟩, c) => some c.scheduler.pollSeconds
  | _ => none

end FleetDispatch.Program
