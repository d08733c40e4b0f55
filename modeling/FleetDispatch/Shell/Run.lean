import FleetDispatch.Shell.Expansion
import FleetDispatch.Shell.Programs

namespace FleetDispatch.Shell

namespace State

def startDelay : Nat := 1

def outlast (s : State) : State :=
  { s with flow := .outlasted }

def spend (s : State) : State :=
  match s.machine.budget with
  | 0 => s.outlast
  | n + 1 => { s with machine := { s.machine with budget := n } }

/-- Where failures count, one ends the script. -/
def checked (s : State) : State :=
  if s.isOn && s.options.contains 'e' && !s.tested && s.status != 0 then
    { s with flow := .leaving }
  else s

def testing (work : State → State) (s : State) : State :=
  { work { s with tested := true } with tested := s.tested }

/-- The end of a turn of a loop: whether the loop is left. -/
def endTurn (s : State) : State × Bool :=
  match s.flow with
  | .on => (s, false)
  | .breaking n =>
    ({ s with flow := if n ≤ 1 then .on else .breaking (n - 1) }, true)
  | .continuing n =>
    if n ≤ 1 then ({ s with flow := .on }, false)
    else ({ s with flow := .continuing (n - 1) }, true)
  | _ => (s, true)

/-- The status of a loop is that of the last command in it, unless the script goes no further. -/
def endLoop (status : Nat) (s : State) : State :=
  match s.flow with
  | .on => s.setStatus status
  | .breaking _ => s.setStatus status
  | .continuing _ => s.setStatus status
  | _ => s

def restoreStreams (rs : List Redirect) (old s : State) : State :=
  let numbers := rs.map fun
    | .file fd _ _ => fd
    | .copy fd _ => fd
    | .document fd _ => fd
  let kept := s.streams.filter fun p => !numbers.contains p.1
  let streams := old.streams.filter (fun p => numbers.contains p.1) ++ kept
  let count := old.machine.streams.length
  if streams.all (·.2 < count) then
    { s with
      streams
      machine := { s.machine with streams := s.machine.streams.take count } }
  else { s with streams }

def setStream (fd : Nat) (id : Option Nat) (s : State) : State :=
  let others := s.streams.filter (·.1 != fd)
  { s with streams := match id with
    | some id => (fd, id) :: others
    | none => others }

def openStream (fd : Nat) (stream : Stream) (s : State) : State :=
  let (id, machine) := s.machine.openStream stream
  { s with machine }.setStream fd (some id)

def withPipes (input output : Option Nat) (s : State) : State :=
  let s := if input.isSome then s.setStream 0 input else s
  if output.isSome then s.setStream 1 output else s

def openFault (creates : Bool) (name : Octets) (f : PathFault) : Octets :=
  let words := match f with
    | .missing => if creates then "Directory nonexistent" else "No such file"
    | .notDirectory => if creates then "Directory nonexistent" else "No such file"
    | f => faultText f
  (if creates then "cannot create " else "cannot open ").toList ++ name ++ ':' :: ' ' ::
    words.toList

def namedStreams : List (String × Nat) :=
  [("/dev/stdin", 0), ("/dev/stdout", 1), ("/dev/stderr", 2), ("/dev/fd/0", 0), ("/dev/fd/1", 1),
    ("/dev/fd/2", 2)]

/-- Opens a file; it gives what is wrong if this fails. -/
def openPath (fd : Nat) (access : Access) (name : Octets) (s : State) : Option Octets × State :=
  let creates := access != .read
  let p := s.locate name
  match namedStreams.lookup (Octets.text name), s.look name with
  | some source, _ =>
    match s.streams.lookup source with
    | some id => (none, s.setStream fd (some id))
    | none => (some (openFault creates name .missing), s)
  | none, .ok .device => (none, s.openStream fd .nothing)
  | none, .ok e =>
    if e.isDirectory then
      if creates then (some (openFault true name .isDirectory), s)
      else (none, s.openStream fd (.file p 0 false))
    else if access = .write then
      if s.options.contains 'C' then (some (openFault true name .occupied), s)
      else (none, (s.setFiles (s.machine.files.put p (.file []))).openStream fd (.file p 0 false))
    else (none, s.openStream fd (.file p 0 (access = .append)))
  | none, .error f =>
    if creates && f = .missing && !name.isEmpty && (s.machine.files.wayFault? p).isNone then
      if name.getLast? == some '/' then (some (openFault true name .isDirectory), s)
      else if s.machine.files.isOpen p then
        (none, (s.setFiles (s.machine.files.put p (.file []))).openStream fd
          (.file p 0 (access = .append)))
      else ((some ("cannot create ".toList ++ name ++ ": Permission denied".toList)), s)
    else (some (openFault creates name f), s)

def copyStream (fd : Nat) (source : Octets) (s : State) : Option Octets × State :=
  match source with
  | ['-'] => (none, s.setStream fd none)
  | [c] =>
    if c.isDigit then
      match s.streams.lookup (c.toNat - 48) with
      | some id => (none, s.setStream fd (some id))
      | none => (some (c :: ": Bad file descriptor".toList), s)
    else (none, s.quit none "Syntax error: Bad fd number".toList)
  | _ => (none, s.quit none "Syntax error: Bad fd number".toList)

/-- Changes streams as a command asks for, up to the first failure. -/
def openAll (taking : Taking) : List Redirect → StateM State (Option Octets)
  | [] => return none
  | r :: rs => do
    let fault ← match r with
      | .file fd access w => do
        let name ← expandText taking w
        if (← get).isOn then modifyGet (openPath fd access name) else pure none
      | .copy fd w => do
        let source ← expandText taking w
        if (← get).isOn then modifyGet (copyStream fd source) else pure none
      | .document fd number => do
        let parts ← wordParts taking false (((← get).documents.lookup number).getD [])
        modify (openStream fd (.pipe (Part.join parts) []))
        pure none
    match fault with
    | some message => return some message
    | none => if (← get).isOn then openAll taking rs else return none

/-- Whether words behind a command give names values, which are not split. -/
def declares (name : Octets) : Bool :=
  ["export", "readonly", "local"].contains (String.ofList name)

def expandDeclared (taking : Taking) (w : Word) : StateM State (List Octets) := do
  unless (← get).isOn do return []
  match assignment? w with
  | some (name, value) => return [name ++ '=' :: (← expandText taking value)]
  | none => expandWord taking w

/-- Expands the words of a command, the first one before it is known what the others are. -/
def expandCommand (taking : Taking) : List Word → StateM State (List Octets)
  | [] => return []
  | w :: ws => do
    let front ← expandWord taking w
    unless (← get).isOn do return []
    match front with
    | [] => expandCommand taking ws
    | name :: _ =>
      if declares name then
        let rest ← ws.mapM (expandDeclared taking)
        return front ++ rest.flatten
      return front ++ (← expandWords taking ws)

/-- Gives variables their values, one after the other; it gives what is to be shown of it. -/
def assignAll (taking : Taking) (exports : Bool) :
    List (Octets × Word) → StateM State (List Octets)
  | [] => return []
  | (name, w) :: rest => do
    let value ← expandText taking w
    if (← get).isOn then
      modify (·.assign name value)
      unless (← get).isOn do return []
      if exports then
        modify fun s => match s.vars.lookup name with
          | some v => s.putVariable name { v with exported := true }
          | none => s
      return (name ++ '=' :: value) :: (← assignAll taking exports rest)
    return []

def restoreVariables (kept : List (Octets × Option Variable)) (s : State) : State :=
  kept.foldl (fun s (name, old) =>
    match old with
    | some v => s.putVariable name v
    | none => { s with vars := s.vars.filter (·.1 != name) }) s

def isSpecial (name : Octets) : Bool :=
  Builtin.carriers.contains (String.ofList name) ||
    (Builtin.special.lookup (String.ofList name)).isSome

def isBuiltin (name : Octets) : Bool :=
  isSpecial name || ["command", "type"].contains (String.ofList name) ||
    (Builtin.regular.lookup (String.ofList name)).isSome

def describe (verbose : Bool) (name : Octets) (s : State) : Octets × Bool :=
  let say := fun (words : String) =>
    (name ++ (if verbose then words.toList else []) ++ ['\n'], true)
  if (Keyword.ofOctets? name).isSome then say " is a shell keyword"
  else if isSpecial name then say " is a special shell builtin"
  else if (s.functions.lookup name).isSome then say " is a shell function"
  else if isBuiltin name then say " is a shell builtin"
  else match s.findProgram name with
    | .ok p => ((if verbose then name ++ " is ".toList ++ p else p) ++ ['\n'], true)
    | .error _ => (if verbose then name ++ ": not found\n".toList else [], false)

def describeAll (verbose : Bool) (names : List Octets) (s : State) : State :=
  let answers := names.map fun name => s.describe verbose name
  (s.write 1 (answers.flatMap (·.1))).setStatus (if answers.all (·.2) then 0 else 127)

/-- Carries out a command of the shell itself; a mistake may end the script. -/
def runBuiltin (fatal : Bool) (name : Octets) (f : Builtin) (args : List Octets) (s : State) :
    State :=
  match f args s with
  | .ok s => s
  | .error message =>
    let s := (s.complain (some (Octets.text name)) message).setStatus 2
    if fatal then { s with flow := .leaving } else s

def notStarted (command : Option String) (name : Octets) (u : Unstarted) (s : State) : State :=
  (s.complain command (name ++ ':' :: ' ' :: u.text.toList)).setStatus u.status

def notStartedBy (starter shown : Octets) (u : Unstarted) (s : State) : State :=
  let words := match u with
    | .forbidden => "Permission denied"
    | _ => "No such file or directory"
  (s.write 2 (starter ++ ": ".toList ++ shown ++ ": ".toList ++ words.toList ++ ['\n'])).setStatus
    u.status

def mourn (s : State) : State :=
  if s.flow = .killed then
    let text := ((Signal.ofNumber? (s.status - Signal.base)).map (·.text)).getD ""
    let s := { s with flow := .on }
    if text.isEmpty then s else s.write 2 (text.toList ++ ['\n'])
  else s

def inputWords : Nat → Option Octets → Octets → List Octets
  | 0, _, _ => []
  | _ + 1, word, [] => word.toList.map List.reverse
  | n + 1, word, '\x27' :: cs =>
    inputWords n (some ((cs.takeWhile (· != '\x27')).reverse ++ word.getD []))
      ((cs.dropWhile (· != '\x27')).drop 1)
  | n + 1, word, '"' :: cs =>
    inputWords n (some ((cs.takeWhile (· != '"')).reverse ++ word.getD []))
      ((cs.dropWhile (· != '"')).drop 1)
  | n + 1, word, '\\' :: c :: cs => inputWords n (some (c :: word.getD [])) cs
  | n + 1, word, c :: cs =>
    if isSpaceChar c then word.toList.map List.reverse ++ inputWords n none cs
    else inputWords n (some (c :: word.getD [])) cs

def portions (size : Nat) : Nat → List Octets → List (List Octets)
  | 0, _ => []
  | _ + 1, [] => []
  | n + 1, ws => ws.take size :: portions size n (ws.drop size)

def inputCommands (os : List (Char × Octets)) (command : List Octets) (input : Octets) :
    List (List Octets) :=
  let command := if command.isEmpty then ["echo".toList] else command
  match os.lookup 'I' with
  | some mark =>
    let put := fun (line w : Octets) =>
      (String.intercalate (Octets.text line)
        ((Octets.text w).splitOn (Octets.text mark))).toList
    ((Line.ofOctets input).map fun l => l.text.dropWhile isBlankChar).filterMap fun l =>
      if l.isEmpty then none else some (command.map (put l))
  | none =>
    let ws := inputWords (input.length + 1) none input
    match (os.lookup 'n').map (Decimal.ofDigits 0) with
    | some n => (portions (max n 1) (ws.length + 1) ws).map (command ++ ·)
    | none =>
      if ws.isEmpty && os.any (·.1 == 'r') then [] else [command ++ ws]

def takeSettings (s : State) : List Octets → State × List Octets
  | [] => (s, [])
  | w :: ws =>
    if w.contains '=' then
      let name := w.takeWhile (· != '=')
      takeSettings (s.putVariable name ⟨some (w.drop (name.length + 1)), true, false⟩) ws
    else (s, w :: ws)

/-- The shell that a command on its own runs in: traps are forgotten that are not there to ignore
something. -/
def child (s : State) : State :=
  { s with traps := s.traps.filter (·.2.isEmpty), signals := [], jobs := [] }

end State

open State

mutual

def run : Nat → Command → State → State
  | 0, _, s => s.outlast
  | n + 1, c, s =>
    if !s.isOn || s.options.contains 'n' then s
    else
      let s := s.spend
      match c with
      | .nothing => s
      | .simple line as ws rs => (runSimple n as ws rs { s with line }).checked
      | .pipeline cs =>
        let start := s.machine.millis
        (runStages n s.status cs none start start s).checked
      | .background c => runBackground n c s
      | .sequence a b => run n b (run n a s)
      | .both a b =>
        let t := s.testing (run n a)
        if t.isOn && t.status == 0 then run n b t else t
      | .either a b =>
        let t := s.testing (run n a)
        if t.isOn && t.status != 0 then run n b t else t
      | .negate c =>
        let t := s.testing (run n c)
        if t.isOn then t.setStatus (if t.status == 0 then 1 else 0) else t
      | .redirected line c rs => runRedirected n c rs { s with line }
      | .subshell line c rs =>
        (subshell n (fun t => runRedirected n c rs t) { s with line }).checked
      | .branch c a b =>
        let t := s.testing (run n c)
        if !t.isOn then t
        else if t.status == 0 then runBranch n a t
        else runBranch n b t
      | .loop until_ c body =>
        let t := runLoop n until_ c body 0 { s with loops := s.loops + 1 }
        { t with loops := s.loops }
      | .each line x ws body =>
        let (values, t) := match ws with
          | none => (s.args, { s with line })
          | some ws => (expandWords (capture n) ws).run { s with line }
        if t.isOn then
          let t := runEach n x body values 0 { t with loops := s.loops + 1 }
          { t with loops := s.loops }
        else t
      | .select line w arms =>
        let (value, r) := (expandText (capture n) w).run { s with line }
        if r.isOn then runArms n value arms r else r
      | .define name body =>
        { s with functions := (name, body) :: s.functions.filter (·.1 != name) }.setStatus 0

def runBranch : Nat → Command → State → State
  | 0, _, s => s.outlast
  | n + 1, c, s =>
    match c with
    | .nothing => s.setStatus 0
    | c => run n c s

def runRedirected : Nat → Command → List Redirect → State → State
  | 0, _, _, s => s.outlast
  | n + 1, c, rs, s =>
    let (fault, t) := (openAll (capture n) rs).run s
    let t := match fault with
      | some message => (t.complain none message).setStatus 2
      | none => run n c t
    restoreStreams rs s t

/-- Runs commands each of which reads what the one before it writes. They run at the same time, and
each of them knows the status of what was run before all of them. -/
def runStages : Nat → Nat → List Command → Option Nat → Nat → Nat → State → State
  | 0, _, _, _, _, _, s => s.outlast
  | _ + 1, _, [], _, _, latest, s => s.pass (latest - s.machine.millis)
  | n + 1, before, c :: cs, input, start, latest, s =>
    let s := { s with machine := { s.machine with millis := start }, status := before }
    let (output, t) := if cs.isEmpty then (none, s) else
      let (id, machine) := s.machine.openStream (.pipe [] [])
      (some id, { s with machine })
    let t := subshell n (fun t => run n c (t.withPipes input output)) t
    if t.isOn then runStages n before cs output start (max latest t.machine.millis) t else t

/-- Runs a command that the script does not wait for, and which begins somewhat later. -/
def runBackground : Nat → Command → State → State
  | 0, _, s => s.outlast
  | n + 1, c, s =>
    let t := subshell n (fun t => run n c ({ t with tested := false }.openStream 0 .nothing))
      (s.pass startDelay)
    let isHidden := match c with
      | .simple _ _ _ rs => hides rs
      | .redirected _ _ rs => hides rs
      | .subshell _ _ rs => hides rs
      | _ => false
    let ending := t.machine.millis
    let machine := { t.machine with
      millis := s.machine.millis
      lasting := if isHidden then t.machine.lasting else max ending t.machine.lasting
      nextProcess := t.machine.nextProcess + 1 }
    { t with
      machine
      flow := if t.flow = .outlasted && t.machine.budget != 0 then .on else t.flow
      status := 0
      jobs := (t.machine.nextProcess, ending, t.status) :: s.jobs }
where
  /-- Whether nothing is left of the streams that a command had. -/
  hides (rs : List Redirect) : Bool :=
    [1, 2].all fun fd => rs.any fun
      | .file fd' _ _ => fd == fd'
      | .copy fd' _ => fd == fd'
      | .document _ _ => false

/-- Does something in a shell of its own, of which only what it wrote and its status are left. -/
def subshell : Nat → (State → State) → State → State
  | 0, _, s => s.outlast
  | n + 1, work, s => (finish n (work s.child)).leave s

def finish : Nat → State → State
  | 0, s => s.outlast
  | n + 1, s =>
    match s.flow, s.traps.lookup "EXIT".toList with
    | .killed, _ => s
    | .outlasted, _ => s
    | _, some action =>
      let t := runText n action
        { s with
          flow := .on
          tested := false
          loops := 0
          traps := s.traps.filter (·.1 != "EXIT".toList) }
      if t.flow = .on then { t with status := s.status, flow := .leaving } else t
    | _, none => { s with flow := .leaving }

/-- Runs a loop; the status is that of its last turn. -/
def runLoop : Nat → Bool → Command → Command → Nat → State → State
  | 0, _, _, _, _, s => s.outlast
  | n + 1, until_, c, body, status, s =>
    let t := s.testing (run n c)
    if !t.isOn then
      let (t, left) := t.endTurn
      if left then t.endLoop status else runLoop n until_ c body status t
    else if (t.status == 0) == until_ then t.setStatus status
    else
      let t := run n body t
      let status := t.status
      let (t, left) := t.endTurn
      if left then t.endLoop status else runLoop n until_ c body status t

def runEach : Nat → Octets → Command → List Octets → Nat → State → State
  | 0, _, _, _, _, s => s.outlast
  | _ + 1, _, _, [], status, s => s.setStatus status
  | n + 1, x, body, v :: vs, _, s =>
    let t := s.assign x v
    if !t.isOn then t
    else
      let t := run n body t
      let status := t.status
      let (t, left) := t.endTurn
      if left then t.endLoop status else runEach n x body vs status t

def runArms : Nat → Octets → List (List Word × Command) → State → State
  | 0, _, _, s => s.outlast
  | _ + 1, _, [], s => s.setStatus 0
  | n + 1, value, (patterns, body) :: arms, s =>
    let (found, t) := (anyFits n value patterns).run s
    if !t.isOn then t
    else if found then runBranch n body t
    else runArms n value arms t

/-- Whether one of some patterns fits; those behind it are not looked at. -/
def anyFits : Nat → Octets → List Word → StateM State Bool
  | 0, _, _ => return false
  | _ + 1, _, [] => return false
  | n + 1, value, w :: ws => do
    let gs ← expandPattern (capture n) w
    if !(← get).isOn then return false
    if Glob.fits gs value then return true
    anyFits n value ws

/-- Takes what a script writes, without the breaks at its end. A script without a command is not
run. -/
def capture : Nat → Command → StateM State Octets
  | 0, _ => do
    modify (·.outlast)
    return []
  | _ + 1, .nothing => return []
  | n + 1, c => fun s =>
    let (id, machine) := s.machine.openStream (.pipe [] [])
    let t := subshell n (fun t => run n c ({ t with tested := false }.setStream 1 (some id)))
      { s with machine }
    let cs := (t.machine.unread id).filter (· != '\x00')
    let streams := t.machine.streams.take id
    ((cs.reverse.dropWhile (· == '\n')).reverse,
      { t with machine := { t.machine with streams }, taken := t.status, status := s.status })

def runSimple : Nat → List (Octets × Word) → List Word → List Redirect → State → State
  | 0, _, _, _, s => s.outlast
  | n + 1, as, ws, rs, s =>
    let (words, s) := (expandCommand (capture n) ws).run { s with taken := 0 }
    if !s.isOn then s
    else
      let special := (words.head?.map isSpecial).getD false
      let (fault, t) := (openAll (capture n) rs).run s
      match fault with
      | some message =>
        let t := restoreStreams rs s ((t.complain none message).setStatus 2)
        if special then { t with flow := .leaving } else t
      | none =>
        if !t.isOn then restoreStreams rs s t
        else
          let lasts := words.isEmpty || special
          let kept := as.map fun a => (a.1, s.vars.lookup a.1)
          let (shown, t) := (assignAll (capture n) (!lasts) as).run t
          if !t.isOn then restoreStreams rs s t
          else
            let t := if s.options.contains 'x' then trace (shown ++ words) s t else t
            match words with
            | [] => restoreStreams rs s (t.setStatus t.taken)
            | name :: args =>
              let keeps := words == ["exec".toList]
              let t := dispatch n false name args t
              let t := if lasts then t else restoreVariables kept t
              if keeps then t else restoreStreams rs s t
where
  /-- Shows a command before it is run. -/
  trace (words : List Octets) (s t : State) : State :=
    let text := (t.value? "PS4".toList).getD [] ++ [' '].intercalate words ++ ['\n']
    match s.streams.lookup 2 with
    | some id => { t with machine := t.machine.write id text }
    | none => t

/-- Runs a command by its name: one of the shell, a function, or a program. Through `command`,
functions are passed over and mistakes end nothing. -/
def dispatch : Nat → Bool → Octets → List Octets → State → State
  | 0, _, _, _, s => s.outlast
  | n + 1, through, name, args, s =>
    let text := String.ofList name
    let fatal := !through
    if text = "eval" then runEval n args s
    else if text = "." then runSource n fatal args s
    else if text = "exec" then runExec n fatal args s
    else
      match Builtin.special.lookup text with
      | some f => s.runBuiltin fatal name f args
      | none =>
        match if through then none else s.functions.lookup name with
        | some body => callFunction n body args s
        | none =>
          if text = "command" then runThrough n args s
          else if text = "type" then s.describeAll true args
          else
            match Builtin.regular.lookup text with
            | some f => deliver n (s.runBuiltin false name f args)
            | none =>
              match s.findProgram name with
              | .ok _ => (runProgram n name args s).mourn
              | .error u => s.notStarted none name u

def deliver : Nat → State → State
  | 0, s => s.outlast
  | n + 1, s =>
    match s.signals with
    | [] => s
    | name :: rest =>
      let s := { s with signals := rest }
      let number := (Signal.number? name).getD 0
      let trapped := if name == "KILL".toList || name == "STOP".toList then none
        else s.traps.lookup name
      match trapped with
      | some [] => deliver n s
      | some action =>
        let t := runText n action s
        deliver n (if t.isOn then t.setStatus s.status else t)
      | none =>
        match (Signal.ofNumber? number).map Signal.reaction with
        | some Reaction.ends => { s with status := Signal.base + number, flow := .killed }
        | some Reaction.halts => s.outlast
        | _ => deliver n s

def callFunction : Nat → Command → List Octets → State → State
  | 0, _, _, s => s.outlast
  | n + 1, body, args, s =>
    let t := run n body { s with args, saved := [] :: s.saved, loops := 0, letters := 0 }
    let t := restoreVariables (t.saved.headD []) t
    { t with
      args := s.args
      saved := s.saved
      loops := s.loops
      letters := s.letters
      flow := if t.flow = .returning then .on else t.flow }

/-- Runs a text as a script. Its status is zero if there is no command in it. -/
def runText : Nat → Octets → State → State
  | 0, _, s => s.outlast
  | n + 1, cs, s => runLines n false (Source.ofOctets cs 1 s.nextDocument) s

def runLines : Nat → Bool → Source → State → State
  | 0, _, _, s => s.outlast
  | n + 1, started, source, s =>
    if !s.isOn then s
    else
      match nextLine.run source with
      | .error f =>
        { s with line := f.line }.quit none ("Syntax error: ".toList ++ f.message.toList)
      | .ok (none, _) => if started then s else s.setStatus 0
      | .ok (some c, source) =>
        let s := { s with
          documents := source.documents ++ s.documents
          nextDocument := source.nextDocument }
        let empty := match c with
          | .nothing => true
          | _ => false
        runLines n (started || !empty) { source with documents := [] } (run n c s)

def runEval : Nat → List Octets → State → State
  | 0, _, s => s.outlast
  | n + 1, args, s =>
    let t := runText n ([' '].intercalate args) { s with speaker := some "eval" }
    { t with speaker := s.speaker }

def runSource : Nat → Bool → List Octets → State → State
  | 0, _, _, s => s.outlast
  | n + 1, fatal, args, s =>
    let failed := fun (message : Octets) =>
      let s := (s.complain (some ".") message).setStatus 2
      if fatal then { s with flow := .leaving } else s
    match args with
    | [] => s.setStatus 0
    | name :: _ =>
      if !name.contains '/' then failed (name ++ ": not found".toList)
      else
        match s.openFile name with
        | .error f => failed (openFault false name f)
        | .ok cs =>
          let t := runText n cs { s with speaker := some (Octets.text name) }
          { t with
            speaker := s.speaker
            flow := if t.flow = .returning then .on else t.flow }

/-- Runs a program in place of the shell. Without one, only the streams are changed. -/
def runExec : Nat → Bool → List Octets → State → State
  | 0, _, _, s => s.outlast
  | n + 1, fatal, args, s =>
    match Builtin.leadingOf [] [] args with
    | .error message =>
      let s := (s.complain (some "exec") message).setStatus 2
      if fatal then { s with flow := .leaving } else s
    | .ok (_, []) => s.setStatus 0
    | .ok (_, name :: args) =>
      match s.findProgram name with
      | .ok _ =>
        let t := runProgram n name args s
        if t.isOn then { t with flow := .leaving, traps := [] } else t
      | .error u => { s.notStarted (some "exec") name u with flow := .leaving }

def runThrough : Nat → List Octets → State → State
  | 0, _, s => s.outlast
  | n + 1, args, s =>
    match Builtin.leadingOf ['p', 'v', 'V'] [] args with
    | .error message => (s.complain (some "command") message).setStatus 2
    | .ok (os, words) =>
      if os.any (·.1 == 'V') then s.describeAll true (words.take 1)
      else if os.any (·.1 == 'v') then s.describeAll false (words.take 1)
      else
        match words with
        | [] => s.setStatus 0
        | name :: args => dispatch n true name args s

def runProgram : Nat → Octets → List Octets → State → State
  | 0, _, _, s => s.outlast
  | n + 1, name, args, s =>
    let s := s.spend
    if !s.isOn then s
    else
      let job := s.jobOf name args
      let text := Octets.text (Filter.baseName name [])
      match filters.lookup text, Upkeep.works.lookup text with
      | some f, _ => s.apply name (f job)
      | none, some work =>
        let (e, fs) := work job s.filesHere
        (s.setFiles fs).apply name e
      | none, none =>
        match text with
        | "sh" => runShell n name args s
        | "dash" => runShell n name args s
        | "sleep" => s.sleep job
        | "printenv" => s.printenv job
        | "pwd" => s.apply name (.writes (Octets.ofString (Path.text s.here) ++ ['\n']))
        | "test" => s.judgeProgram job
        | "[" => s.judgeProgram job
        | "kill" => deliver n (s.runBuiltin false name Builtin.kill args)
        | "env" => runWithSettings n job s
        | "timeout" => runLimited n job s
        | "nohup" => runStarted n name ("failed to run command ".toList) args s
        | "nice" => runStarted n name [] args s
        | "xargs" => runWithInput n job s
        | _ => s.notStarted none name .notFound

def runStarted : Nat → Octets → Octets → List Octets → State → State
  | 0, _, _, _, s => s.outlast
  | n + 1, starter, words, args, s =>
    match args with
    | [] => s.apply starter ((s.jobOf starter args).misused "missing operand" 125)
    | name :: args =>
      match s.findProgram name with
      | .ok _ => runProgram n name args s
      | .error u => s.notStartedBy starter (words ++ '\x27' :: name ++ ['\x27']) u

def runWithSettings : Nat → Job → State → State
  | 0, _, s => s.outlast
  | n + 1, job, s =>
    match Builtin.leadingOf ['i'] ['u'] job.args with
    | .error m => s.apply job.name (job.fails m 125)
    | .ok (os, words) =>
      let t := if os.any fun o => o.1 == 'i' then
          { s with vars := s.vars.map fun (x, v) => (x, { v with exported := false }) }
        else s
      let unset := (os.filter (·.1 == 'u')).map (·.2)
      let t := { t with vars := t.vars.filter fun v => !unset.contains v.1 }
      let (t, words) := t.takeSettings words
      match words with
      | [] => (t.printenv { job with args := [] }).leave s
      | words =>
        let r := runStarted n job.name [] words t
        { r with vars := s.vars }

def runLimited : Nat → Job → State → State
  | 0, _, s => s.outlast
  | n + 1, job, s =>
    match Builtin.leadingOf [] ['s', 'k'] job.args with
    | .error m => s.apply job.name (job.fails m 125)
    | .ok (_, []) => s.apply job.name (job.misused "missing operand" 125)
    | .ok (_, duration :: words) =>
      match durationOf duration with
      | none =>
        s.apply job.name (job.misused s!"invalid time interval '{Octets.text duration}'" 125)
      | some d =>
        let ending := s.machine.millis + d
        let limit := if d = 0 then s.machine.limit else min ending s.machine.limit
        let t := runStarted n job.name "failed to run command ".toList words
          { s with machine := { s.machine with limit } }
        let stopped := t.flow = .outlasted && limit < s.machine.limit
        let machine := { t.machine with limit := s.machine.limit }
        if stopped then
          { t with
            machine := { machine with millis := ending }
            flow := .on
            status := 124 }
        else { t with machine }

def runWithInput : Nat → Job → State → State
  | 0, _, s => s.outlast
  | n + 1, job, s =>
    match Builtin.leadingOf ['r', 't', '0'] ['n', 'I'] job.args with
    | .error m => s.apply job.name (job.fails m 1)
    | .ok (os, command) =>
      runEachProgram n job.name (inputCommands os command job.input)
        ((s.takeInput.openStream 0 .nothing).setStatus 0)

def runEachProgram : Nat → Octets → List (List Octets) → State → State
  | 0, _, _, s => s.outlast
  | _ + 1, _, [], s => s
  | n + 1, starter, [] :: more, s => runEachProgram n starter more s
  | n + 1, starter, (name :: args) :: more, s =>
    match s.findProgram name with
    | .error u => s.notStartedBy starter name u
    | .ok _ =>
      let t := runProgram n name args s
      if !t.isOn then t
      else
        runEachProgram n starter more
          (t.setStatus (if t.status = 0 then s.status else 123))

def runShell : Nat → Octets → List Octets → State → State
  | 0, _, _, s => s.outlast
  | n + 1, name, args, s =>
    let process := s.machine.nextProcess
    let machine := { s.machine with nextProcess := process + 1 }
    let t := (fresh machine process name s.exported s.here s.streams s.mask).withDefaults
    let t := { t with traps := s.traps.filter (·.2.isEmpty) }
    let r := match Builtin.takeOptions ['c', 's', 'i', 'l'] (Builtin.optionFuel args) args t with
      | .error m => (t.complain none m).setStatus 2
      | .ok (t, letters, args, _) =>
        if letters.contains 'c' then
          match args with
          | [] => (t.complain none "-c requires an argument".toList).setStatus 2
          | script :: rest =>
            finish n (runText n script { t with name := rest.headD name, args := rest.drop 1 })
        else
          match args, letters.contains 's' with
          | path :: rest, false =>
            match t.openFile path with
            | .error f => (t.complain none (openFault false path f)).setStatus 2
            | .ok cs => finish n (runText n cs { t with name := path, args := rest })
          | rest, _ => finish n (runText n t.input { t.takeInput with args := rest })
    let flow := match r.flow with
      | .killed => Flow.killed
      | .outlasted => .outlasted
      | _ => .on
    { s with machine := r.machine, status := r.status % 256, flow }

end

end FleetDispatch.Shell
