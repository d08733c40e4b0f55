import FleetDispatch.Files.Basic
import FleetDispatch.Shell.Source

namespace FleetDispatch.Shell

/-- Where a command reads from or writes to. A pipe holds what was written to it and is not read
yet, first what stands in front, and then what stands at the back in the order of writing turned
around. A record holds what was written with the time of it, the last first. -/
inductive Stream where
  | nothing
  | pipe (front back : Octets)
  | record (written : List (Nat × Octets))
  | file (path : Path) (offset : Nat) (append : Bool)

/-- What the commands of a script share: files, open streams, the time that has passed, the time
that there is, and how many commands may still be run. -/
structure Machine where
  files : Files
  streams : List Stream
  millis : Nat
  limit : Nat
  budget : Nat
  /-- Until when a command in the background keeps what the script writes open. -/
  lasting : Nat
  nextProcess : Nat

namespace Machine

def setStream (id : Nat) (s : Stream) (m : Machine) : Machine :=
  { m with streams := m.streams.set id s }

def openStream (s : Stream) (m : Machine) : Nat × Machine :=
  (m.streams.length, { m with streams := m.streams ++ [s] })

def content (p : Path) (m : Machine) : Octets :=
  ((m.files.octets p).toOption).getD []

def write (id : Nat) (cs : Octets) (m : Machine) : Machine :=
  match m.streams[id]? with
  | some (.pipe front back) => m.setStream id (.pipe front (cs.reverse ++ back))
  | some (.record written) => m.setStream id (.record ((m.millis, cs) :: written))
  | some (.file p offset append) =>
    let old := m.content p
    let start := if append then old.length else offset
    let gap := List.replicate (start - old.length) '\x00'
    let new := old.take start ++ gap ++ cs ++ old.drop (start + cs.length)
    { m with files := m.files.put p (.file new) }.setStream id
      (.file p (start + cs.length) append)
  | _ => m

def recorded (id : Nat) (m : Machine) : Octets :=
  match m.streams[id]? with
  | some (.record written) =>
    (written.reverse.mergeSort fun a b => decide (a.1 ≤ b.1)).flatMap (·.2)
  | _ => []

def unread (id : Nat) (m : Machine) : Octets :=
  match m.streams[id]? with
  | some (.pipe front back) => front ++ back.reverse
  | some (.file p offset _) => (m.content p).drop offset
  | _ => []

def advance (id n : Nat) (m : Machine) : Machine :=
  match m.streams[id]? with
  | some (.pipe front back) => m.setStream id (.pipe ((front ++ back.reverse).drop n) [])
  | some (.file p offset append) => m.setStream id (.file p (offset + n) append)
  | _ => m

end Machine

/-- How a script goes on: with its next command, out of some loops, with the next turn of a loop
around some others, out of a function, to its end, or not at all, since it was killed or takes too
long. -/
inductive Flow where
  | on
  | breaking (loops : Nat)
  | continuing (loops : Nat)
  | returning
  | leaving
  | killed
  | outlasted
  deriving DecidableEq

structure Variable where
  value : Option Octets
  exported : Bool
  readonly : Bool

structure State where
  machine : Machine
  /-- The number of the process, which a script can name. -/
  process : Nat
  name : Octets
  /-- The command that has others carried out, which complaints name. -/
  speaker : Option String
  args : List Octets
  vars : List (Octets × Variable)
  functions : List (Octets × Command)
  documents : List (Nat × Word)
  nextDocument : Nat
  options : List Char
  here : Path
  streams : List (Nat × Nat)
  status : Nat
  traps : List (Octets × Octets)
  line : Nat
  flow : Flow
  loops : Nat
  /-- For each function that runs, the variables as they were before it made them its own. -/
  saved : List (List (Octets × Option Variable))
  /-- The status of the last script whose output was taken. -/
  taken : Nat
  /-- Whether a failure does not count, since it is looked at. -/
  tested : Bool
  /-- The signals that came and were not acted upon yet. -/
  signals : List Octets
  /-- How far the letters of an argument were looked at. -/
  letters : Nat
  /-- The processes in the background, each with the time of its end and its status. -/
  jobs : List (Nat × Nat × Nat)
  /-- The access that new files do not give. -/
  mask : Nat

namespace State

def isOn (s : State) : Bool :=
  s.flow == .on

def setStatus (n : Nat) (s : State) : State :=
  { s with status := n }

def value? (name : Octets) (s : State) : Option Octets :=
  (s.vars.lookup name).bind (·.value)

def putVariable (name : Octets) (v : Variable) (s : State) : State :=
  { s with vars := (name, v) :: s.vars.filter (·.1 != name) }

/-- Writes to a stream by its number; one that is not open takes nothing. -/
def write (fd : Nat) (cs : Octets) (s : State) : State :=
  match s.streams.lookup fd with
  | some id => { s with machine := s.machine.write id cs }
  | none => s

def complain (command : Option String) (message : Octets) (s : State) : State :=
  let head := s.name ++ s!": {s.line}: ".toList ++
    (((command <|> s.speaker).map fun c => Octets.ofString (c ++ ": ")).getD [])
  s.write 2 (head ++ message ++ ['\n'])

def quit (command : Option String) (message : Octets) (s : State) : State :=
  { s.complain command message with status := 2, flow := .leaving }

def change (name : Octets) (f : Variable → Variable) (s : State) : Except Octets State :=
  let v := (s.vars.lookup name).getD ⟨none, false, false⟩
  if v.readonly then .error (name ++ ": is read only".toList) else .ok (s.putVariable name (f v))

def assigned (name value : Octets) (s : State) : Except Octets State :=
  let s := if name == "OPTIND".toList then { s with letters := 0 } else s
  s.change name fun v =>
    { v with value := some value, exported := v.exported || s.options.contains 'a' }

/-- Gives a variable a value; one that is not to be changed ends the script. -/
def assign (name value : Octets) (s : State) : State :=
  match s.assigned name value with
  | .ok t => t
  | .error message => s.quit none message

def locate (path : Octets) (s : State) : Path :=
  let text := Octets.text path
  ({ s.machine.files with here := s.here }.locate text).resolve

def look (path : Octets) (s : State) : Except PathFault Entry :=
  if path.isEmpty then .error .missing
  else
    let p := ({ s.machine.files with here := s.here }.locate (Octets.text path))
    match s.machine.files.look p with
    | .ok e =>
      if path.getLast? == some '/' && !e.isDirectory then .error .notDirectory else .ok e
    | .error f => .error f

def splitters (s : State) : Octets :=
  match s.vars.lookup "IFS".toList with
  | some v => (v.value).getD [' ', '\t', '\n']
  | none => [' ', '\t', '\n']

def parameter? (name : Octets) (s : State) : Option Octets :=
  match name with
  | ['#'] => some (toString s.args.length).toList
  | ['?'] => some (toString s.status).toList
  | ['$'] => some (toString s.process).toList
  | ['-'] => some s.options.reverse
  | ['!'] => s.jobs.head?.map fun j => (toString j.1).toList
  | ['0'] => some s.name
  | name =>
    match (String.ofList name).toNat? with
    | some n => s.args[n - 1]?
    | none => s.value? name

end State

end FleetDispatch.Shell
