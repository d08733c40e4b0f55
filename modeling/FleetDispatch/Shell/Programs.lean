import FleetDispatch.Shell.Builtin
import FleetDispatch.Shell.Edit
import FleetDispatch.Shell.Reckoning
import FleetDispatch.Shell.Search
import FleetDispatch.Shell.Upkeep

namespace FleetDispatch.Shell

def printfProgram (j : Job) : Effect :=
  let args := match j.args with
    | ['-', '-'] :: args => args
    | args => args
  match args with
  | [] => j.misused "missing operand" 1
  | format :: args =>
    let p := printed true format args
    let warning := match p.args with
      | extra :: _ =>
        if p.stopped then []
        else j.say ("warning: ignoring excess arguments, starting with '".toList ++ extra ++
          ['\x27'])
      | [] => []
    ⟨p.output, p.complaints.flatMap j.say ++ warning, if p.failed then 1 else 0, false⟩

def filters : List (String × (Job → Effect)) :=
  [("basename", Filter.basename), ("cat", Filter.cat), ("cut", Filter.cut),
    ("dirname", Filter.dirname), ("echo", fun j => .writes (programEchoed j.args)),
    ("expr", Reckoning.expr), ("false", fun _ => .quiet 1), ("grep", Search.grep),
    ("head", Filter.head), ("printf", printfProgram), ("rev", Filter.rev), ("sed", Edit.sed),
    ("seq", Filter.seq), ("sort", Filter.sort), ("tac", Filter.tac), ("tail", Filter.tail),
    ("tr", Filter.tr), ("true", fun _ => .quiet 0), ("uniq", Filter.uniq), ("wc", Filter.wc)]

def starters : List String :=
  ["[", "dash", "env", "kill", "nice", "nohup", "printenv", "pwd", "sh", "sleep", "test", "timeout",
    "xargs"]

def programNames : List String :=
  filters.map (·.1) ++ Upkeep.works.map (·.1) ++ starters

/-- Why a program cannot be started by a shell. What was looked for and is found, but is no
program, is blocked. -/
inductive Unstarted where
  | notFound
  | blocked
  | forbidden
  deriving DecidableEq

namespace Unstarted

def status : Unstarted → Nat
  | forbidden => 126
  | _ => 127

def text : Unstarted → String
  | notFound => "not found"
  | _ => "Permission denied"

end Unstarted

namespace State

def searchPath (s : State) : List Octets :=
  Filter.splitAt ':' ((s.value? "PATH".toList).getD [])

def findProgram (name : Octets) (s : State) : Except Unstarted Octets :=
  if name.contains '/' then
    match s.look name with
    | .ok .program => .ok name
    | .ok _ => .error .forbidden
    | .error _ => .error .notFound
  else
    let paths := s.searchPath.map fun dir => if dir.isEmpty then name else dir ++ '/' :: name
    match paths.find? fun p => match s.look p with
      | .ok .program => true
      | _ => false with
    | some p => .ok p
    | none =>
      .error (if paths.any fun p => (s.look p).toOption.isSome then .blocked else .notFound)

def input (s : State) : Octets :=
  ((s.streams.lookup 0).map s.machine.unread).getD []

def takeInput (s : State) : State :=
  match s.streams.lookup 0 with
  | some id => { s with machine := s.machine.advance id (s.machine.unread id).length }
  | none => s

def filesHere (s : State) : Files :=
  { s.machine.files with here := s.here }

def setFiles (fs : Files) (s : State) : State :=
  { s with machine := { s.machine with files := { fs with here := s.machine.files.here } } }

def openFile (path : Octets) (s : State) : Except PathFault Octets :=
  if path == "/dev/stdin".toList then .ok s.input
  else do
    let _ ← s.look path
    s.filesHere.octets (s.locate path)

def jobOf (name : Octets) (args : List Octets) (s : State) : Job :=
  ⟨name, args, s.input, fun path => s.openFile path⟩

def apply (name : Octets) (e : Effect) (s : State) : State :=
  let s := if e.used then s.takeInput else s
  if e.output.isEmpty || Builtin.canWrite s then
    ((s.write 1 e.output).write 2 e.errors).setStatus e.status
  else
    ((s.write 2 e.errors).write 2 (name ++ ": write error: Bad file descriptor\n".toList)).setStatus
      1

/-- Time passes, perhaps more than there is. -/
def pass (millis : Nat) (s : State) : State :=
  let machine := { s.machine with millis := s.machine.millis + millis }
  if machine.limit ≤ machine.millis then
    { s with machine := { machine with millis := machine.limit }, flow := .outlasted }
  else { s with machine }

def durationOf (cs : Octets) : Option Nat :=
  let (number, unit) := match cs.reverse with
    | 's' :: r => (r.reverse, 1000)
    | 'm' :: r => (r.reverse, 60000)
    | 'h' :: r => (r.reverse, 3600000)
    | 'd' :: r => (r.reverse, 86400000)
    | _ => (cs, 1000)
  if cs == "inf".toList || cs == "infinity".toList then some (10 * Width.most32)
  else
    match magnitudeOf false number with
    | (m, .none) =>
      if number.isEmpty || m.negative then none
      else some ((2 * m.num * unit + m.den) / (2 * m.den))
    | _ => none

def sleep (j : Job) (s : State) : State :=
  match j.optionsOf [] [] with
  | .error c => s.apply j.name (j.invalidOption c 1)
  | .ok (_, args) =>
    match args.find? fun a => (durationOf a).isNone with
    | some bad => s.apply j.name (j.misused s!"invalid time interval '{Octets.text bad}'" 1)
    | none =>
      if args.isEmpty then s.apply j.name (j.misused "missing operand" 1)
      else (s.pass ((args.filterMap durationOf).foldl (· + ·) 0)).setStatus 0

def exported (s : State) : List (Octets × Octets) :=
  s.vars.filterMap fun (x, v) =>
    if v.exported then v.value.map fun cs => (x, cs) else none

def printenv (j : Job) (s : State) : State :=
  match j.args with
  | [] =>
    s.apply j.name (.writes (s.exported.reverse.flatMap fun (x, v) => x ++ '=' :: v ++ ['\n']))
  | names =>
    let values := names.map fun x => s.exported.lookup x
    s.apply j.name ⟨values.flatMap fun v => (v.map (· ++ ['\n'])).getD [], [],
      if values.all Option.isSome then 0 else 1, false⟩

def judgeProgram (j : Job) (s : State) : State :=
  let isBracket := "[".toList.isSuffixOf j.name
  if isBracket && j.args.getLast? != some [']'] then
    s.apply j.name (j.fails "missing ']'".toList 2)
  else
    match judge s (if isBracket then j.args.dropLast else j.args) with
    | .ok b => s.setStatus (if b then 0 else 1)
    | .error m => s.apply j.name (j.fails m 2)

def fresh (m : Machine) (process : Nat) (name : Octets) (vars : List (Octets × Octets))
    (here : Path) (streams : List (Nat × Nat)) (mask : Nat) : State where
  machine := m
  process := process
  name := name
  speaker := none
  args := []
  vars := vars.map fun (x, v) => (x, ⟨some v, true, false⟩)
  functions := []
  documents := []
  nextDocument := 0
  options := []
  here := here
  streams := streams
  status := 0
  traps := []
  line := 0
  flow := .on
  loops := 0
  saved := []
  taken := 0
  tested := false
  signals := []
  letters := 0
  jobs := []
  mask := mask

/-- What a variable is set to in a new shell, whatever it was. -/
def withDefaults (s : State) : State :=
  let put := fun (x v : String) (s : State) =>
    s.putVariable x.toList ⟨some v.toList, false, false⟩
  ((s.putVariable "IFS".toList ⟨some [' ', '\t', '\n'], false, false⟩) |> put "OPTIND" "1" |>
    put "PS4" "+ ").putVariable "PWD".toList
      ⟨some (Octets.ofString (Path.text s.here)), true, false⟩

def leave (inner s : State) : State :=
  let flow := match inner.flow with
    | .killed => Flow.killed
    | .outlasted => .outlasted
    | _ => .on
  { s with machine := inner.machine, status := inner.status, flow }

end State

end FleetDispatch.Shell
