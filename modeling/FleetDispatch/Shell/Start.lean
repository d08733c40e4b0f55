import FleetDispatch.Helper.Run
import FleetDispatch.Shell.Run

namespace FleetDispatch.Shell

def programDirectories : List String := ["/usr/bin", "/bin"]

def systemEntries : List (Path × Entry) :=
  let at_ (path : String) (e : Entry) : Path × Entry := (Path.steps path, e)
  ["/bin", "/dev", "/etc", "/home", "/opt", "/root", "/sbin", "/usr", "/usr/bin", "/usr/lib",
      "/usr/local", "/usr/local/bin", "/usr/local/sbin", "/usr/sbin", "/usr/share", "/var",
      "/tmp"].map (at_ · .directory) ++
    ["/proc", "/sys"].map (at_ · .sealed) ++
    [at_ "/dev/null" .device] ++
    ["/etc/group", "/etc/hosts", "/etc/passwd"].map (at_ · (.ofString "root\n")) ++
    programNames.flatMap fun name => programDirectories.map fun dir =>
      at_ (dir ++ "/" ++ name) .program

def standardSearchPath : String :=
  "/usr/local/sbin:/usr/local/bin:/usr/sbin:/usr/bin:/sbin:/bin"

/-- How many commands a script may run before it is taken to run forever. -/
def greatestBudget : Nat := 200000

def helperProcess : Nat := 2

def helperState (limit : Span) (files : Files) : State :=
  let machine : Machine :=
    ⟨files, [.nothing, .record [], .record []], 0, limit.millis, greatestBudget, 0, helperProcess⟩
  (State.fresh machine 1 [] [("PATH".toList, standardSearchPath.toList)] files.here
    [(0, 0), (1, 1), (2, 2)] 18).withDefaults

def faultOf : PathFault → StartFailure
  | .missing => .missing
  | .notDirectory => .notDirectory
  | .tooLong => .tooLong
  | .unnameable => .nulInside
  | _ => .forbidden

def startable (path : Octets) (s : State) : Except StartFailure Unit :=
  match s.look path with
  | .ok .program => .ok ()
  | .ok _ => .error .forbidden
  | .error f => .error (faultOf f)

/-- Why a program cannot be started, if it cannot. One that is not named by a path is looked for,
and something in its place is told rather than nothing. -/
def startFault? (name : Octets) (s : State) : Option StartFailure :=
  let tried (path : Octets) : Option StartFailure :=
    match startable path s with
    | .ok () => none
    | .error f => some f
  if name.isEmpty then some .missing
  else if name.contains '/' then tried name
  else
    let faults := s.searchPath.map fun dir => tried (dir ++ '/' :: name)
    if faults.contains none then none
    else if faults.contains (some .tooLong) then some .tooLong
    else if faults.contains (some .forbidden) then some .forbidden
    else some .missing

def refusal? (program : String) (args : List String) (files : Files) : Option StartFailure :=
  if (program :: args).any (·.toList.contains '\x00') then some .nulInside
  else startFault? (Octets.ofString program) (helperState ⟨1⟩ files)

def start (limit : Span) (program : String) (args : List String) (files : Files) :
    HelperRun × Files :=
  match refusal? program args files with
  | some fault => (.notStarted fault, files)
  | none =>
    let t := runProgram (4 * greatestBudget) (Octets.ofString program) (args.map Octets.ofString)
      (helperState limit files)
    let after := { t.machine.files with here := files.here }
    if t.flow = .outlasted || limit.millis ≤ max t.machine.millis t.machine.lasting then
      (.outlived limit, after)
    else
      (.ofOctets ((t.machine.recorded 1).map Char.toNat) ((t.machine.recorded 2).map Char.toNat)
        (if t.flow = .killed then none else some t.status), after)

end FleetDispatch.Shell
