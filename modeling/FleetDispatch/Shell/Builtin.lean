import FleetDispatch.Shell.Condition
import FleetDispatch.Shell.Format
import FleetDispatch.Shell.Grammar
import FleetDispatch.Shell.Signal

namespace FleetDispatch.Shell

abbrev Builtin := List Octets → State → Except Octets State

namespace Builtin

def illegalOption (c : Char) : Octets :=
  "Illegal option -".toList ++ [c]

def illegalNumber (cs : Octets) : Octets :=
  "Illegal number: ".toList ++ cs

def badName (cs : Octets) : Octets :=
  cs ++ ": bad variable name".toList

/-- Splits options off the front, each a letter that may take a value. -/
def leading (plain valued : List Char) :
    Nat → List Octets → Except Octets (List (Char × Octets) × List Octets)
  | 0, args => .ok ([], args)
  | n + 1, args =>
    match args with
    | ['-', '-'] :: rest => .ok ([], rest)
    | ('-' :: c :: cs) :: rest =>
      if valued.contains c then
        match cs, rest with
        | [], v :: rest => (leading plain valued n rest).map fun r => ((c, v) :: r.1, r.2)
        | [], [] => .error ("No arg for -".toList ++ [c] ++ " option".toList)
        | cs, rest => (leading plain valued n rest).map fun r => ((c, cs) :: r.1, r.2)
      else if plain.contains c then
        (leading plain valued n (if cs.isEmpty then rest else ('-' :: cs) :: rest)).map fun r =>
          ((c, []) :: r.1, r.2)
      else .error (illegalOption c)
    | args => .ok ([], args)

def leadingOf (plain valued : List Char) (args : List Octets) :
    Except Octets (List (Char × Octets) × List Octets) :=
  leading plain valued (args.flatMap (fun a => '-' :: a)).length.succ args

def greatestCount : Int := 2147483647

def natural (cs : Octets) : Except Octets Nat :=
  match decimal cs with
  | .ok n =>
    if 0 ≤ n && n ≤ greatestCount then .ok n.toNat else .error (illegalNumber cs)
  | .error _ => .error (illegalNumber cs)

/-- Puts a text into quotes, in which quotes stand within those of the other kind. -/
def singleQuoted (cs : Octets) : Octets :=
  let quote := '\x27'
  let pieces := cs.splitBy fun a b => (a == quote) == (b == quote)
  let start := if cs.isEmpty || cs.head? == some quote then [quote, quote] else []
  start ++ pieces.flatMap fun p =>
    if p.head? == some quote then '"' :: p ++ ['"'] else quote :: p ++ [quote]

def listed (command : Octets) (wanted : Variable → Bool) (s : State) : Octets :=
  let sorted := (s.vars.filter (wanted ·.2)).mergeSort fun a b => Octets.le a.1 b.1
  sorted.flatMap fun (x, v) =>
    command ++ x ++ ((v.value.map fun cs => '=' :: singleQuoted cs).getD []) ++ ['\n']

def binding (arg : Octets) : Octets × Option Octets :=
  let name := arg.takeWhile (· != '=')
  match arg.drop name.length with
  | _ :: value => (name, some value)
  | [] => (name, none)

def marking (command : String) (mark : Variable → Variable) (wanted : Variable → Bool) : Builtin :=
  fun args s => do
    let (os, args) ← leadingOf ['p'] [] args
    if args.isEmpty || !os.isEmpty then
      return (s.write 1 (listed (command.toList ++ [' ']) wanted s)).setStatus 0
    let s ← args.foldlM (fun (s : State) arg =>
      let (name, value) := binding arg
      if !isName name then .error (badName name)
      else
        match value with
        | some value => (s.assigned name value).map fun s =>
          s.putVariable name (mark ((s.vars.lookup name).getD ⟨none, false, false⟩))
        | none =>
          .ok (s.putVariable name (mark ((s.vars.lookup name).getD ⟨none, false, false⟩)))) s
    return s.setStatus 0

def export_ : Builtin :=
  marking "export" (fun v => { v with exported := true }) (·.exported)

def readonly : Builtin :=
  marking "readonly" (fun v => { v with readonly := true }) (·.readonly)

def local_ : Builtin := fun args s => do
  match s.saved with
  | [] => .error "not in a function".toList
  | kept :: saved =>
    let (s, kept) ← args.foldlM (fun ((s, kept) : State × List (Octets × Option Variable)) arg =>
      let (name, value) := binding arg
      if !isName name then .error (badName name)
      else
        let kept := if (kept.lookup name).isSome then kept
          else (name, s.vars.lookup name) :: kept
        match value with
        | some value => (s.assigned name value).map fun s => (s, kept)
        | none => .ok (s, kept)) (s, kept)
    return { s with saved := kept :: saved }.setStatus 0

def unset : Builtin := fun args s => do
  let (os, names) ← leadingOf ['v', 'f'] [] args
  if os.any (·.1 == 'f') then
    return { s with functions := s.functions.filter fun f => !names.contains f.1 }.setStatus 0
  let s ← names.foldlM (fun (s : State) name =>
    if !isName name then .error (badName name)
    else
      (s.change name id).map fun s =>
        { s with vars := s.vars.filter (·.1 != name) }) s
  return s.setStatus 0

def shift : Builtin := fun args s => do
  let n ← match args with
    | [] => pure 1
    | a :: _ => natural a
  if s.args.length < n then throw "can't shift that many".toList
  return { s with args := s.args.drop n, letters := 0 }.setStatus 0

def shellOptions : List (Char × String) :=
  [('e', "errexit"), ('f', "noglob"), ('I', "ignoreeof"), ('i', "interactive"), ('m', "monitor"),
    ('n', "noexec"), ('s', "stdin"), ('x', "xtrace"), ('v', "verbose"), ('V', "vi"),
    ('E', "emacs"), ('C', "noclobber"), ('a', "allexport"), ('b', "notify"), ('u', "nounset"),
    ('p', "privileged"), ('\x01', "nolog"), ('\x02', "debug")]

def setOption (on : Bool) (c : Char) (s : State) : State :=
  let others := s.options.filter (· != c)
  { s with options := if on then
      (shellOptions.map (·.1)).filter fun d => d == c || others.contains d
    else others }

def optionList (on : Bool) (s : State) : Octets :=
  let isSet := fun c => s.options.contains c
  if on then
    "Current option settings\n".toList ++ shellOptions.flatMap fun (c, name) =>
      name.toList ++ List.replicate (16 - name.length) ' ' ++
        (if isSet c then "on\n" else "off\n").toList
  else
    shellOptions.flatMap fun (c, name) =>
      (if isSet c then "set -o " else "set +o ").toList ++ name.toList ++ ['\n']

/-- Takes options off the front of the arguments of a shell, up to two signs, or to one, which stops
what is shown. What is left are the arguments that a script gets, if any are given. Letters that
start a shell in another way are given back. -/
def takeOptions (special : List Char) :
    Nat → List Octets → State → Except Octets (State × List Char × List Octets × Bool)
  | 0, args, s => .ok (s, [], args, false)
  | n + 1, args, s =>
    match args with
    | (sign :: c :: cs) :: rest =>
      if sign != '-' && sign != '+' then .ok (s, [], args, !args.isEmpty)
      else
        let on := sign == '-'
        let rest' := if cs.isEmpty then rest else (sign :: cs) :: rest
        if c = '-' && cs.isEmpty && on then .ok (s, [], rest, true)
        else if c = 'o' then
          match rest with
          | [] => do
            let s := s.write 1 (optionList on s)
            takeOptions special n (if cs.isEmpty then [] else [sign :: cs]) s
          | name :: more =>
            match shellOptions.find? (·.2.toList == name) with
            | some (d, _) =>
              takeOptions special n (if cs.isEmpty then more else (sign :: cs) :: more)
                (setOption on d s)
            | none => .error (illegalOption 'o' ++ [' '] ++ name)
        else if special.contains c then
          (takeOptions special n rest' s).map fun (s, found, args, given) =>
            (s, c :: found, args, given)
        else if (shellOptions.map (·.1)).contains c then
          takeOptions special n rest' (setOption on c s)
        else .error (illegalOption c)
    | [] => .ok (s, [], [], false)
    | ['-'] :: rest => .ok (setOption false 'x' (setOption false 'v' s), [], rest, !rest.isEmpty)
    | args => .ok (s, [], args, true)

def optionFuel (args : List Octets) : Nat :=
  (args.flatMap (fun a => '-' :: a)).length.succ

def set_ : Builtin := fun args s => do
  if args.isEmpty then
    return (s.write 1 (listed [] (fun v => v.value.isSome) s)).setStatus 0
  let (s, _, args, given) ← takeOptions [] (optionFuel args) args s
  return (if given then { s with args, letters := 0 } else s).setStatus 0

def cd : Builtin := fun args s => do
  let (_, args) ← leadingOf ['L', 'P'] [] args
  let go := fun (target shown : Octets) (tell : Bool) (s : State) =>
    let cannot : Except Octets State := .error ("can't cd to ".toList ++ shown)
    match s.look target with
    | .ok e =>
      if e.isDirectory then do
        let here := s.locate target
        let old := Octets.ofString (Path.text s.here)
        let new := Octets.ofString (Path.text here)
        let s ← s.assigned "OLDPWD".toList old
        let s ← s.assigned "PWD".toList new
        return (if tell then s.write 1 (new ++ ['\n']) else s) |> fun s =>
          { s with here }.setStatus 0
      else cannot
    | .error _ => cannot
  match args.head? with
  | none =>
    match s.value? "HOME".toList with
    | none => return s.setStatus 0
    | some home => if home.isEmpty then return s.setStatus 0 else go home home false s
  | some ['-'] =>
    match s.value? "OLDPWD".toList with
    | none => return s.setStatus 0
    | some old => go old old true s
  | some [] => return s.setStatus 0
  | some target => go target target false s

def pwd : Builtin := fun args s => do
  let _ ← leadingOf ['L', 'P'] [] args
  return (s.write 1 (Octets.ofString (Path.text s.here) ++ ['\n'])).setStatus 0

def judging : Builtin := fun args s => do
  return s.setStatus (if ← judge s args then 0 else 1)

/-- Judges a condition in brackets. Of the last argument only the first character is looked at. -/
def bracket : Builtin := fun args s =>
  if args.getLast?.bind List.head? == some ']' then judging args.dropLast s
  else .error "missing ]".toList

def canWrite (s : State) : Bool :=
  (s.streams.lookup 1).isSome

def echo : Builtin := fun args s =>
  if canWrite s then .ok ((s.write 1 (echoed args)).setStatus 0)
  else .ok ((s.complain "echo" "echo: I/O error".toList).setStatus 1)

def printf : Builtin := fun args s => do
  let (_, args) ← leadingOf [] [] args
  match args with
  | [] => throw "usage: printf format [arg ...]".toList
  | format :: args =>
    let p := printed false format args
    let s := p.complaints.foldl (fun s m => s.complain "printf" m) (s.write 1 p.output)
    return s.setStatus (if p.failed && p.stopped then 2 else if p.failed then 1 else 0)

/-- A character that was read; one behind a backslash splits nothing. -/
abbrev Taken := Char × Bool

/-- Takes a line off what can be read. Behind a backslash, a break is dropped and any other
character stands for itself. It is told how much was taken and whether the line was ended. -/
def takeLine (raw : Bool) : Octets → List Taken × Nat × Bool
  | [] => ([], 0, false)
  | ['\\'] => if raw then ([('\\', false)], 1, false) else ([], 1, false)
  | '\\' :: c :: cs =>
    if raw then
      if c = '\n' then ([('\\', false)], 2, true)
      else
        let (line, n, ended) := takeLine raw (c :: cs)
        (('\\', false) :: line, n + 1, ended)
    else
      let (line, n, ended) := takeLine raw cs
      (if c = '\n' then line else (c, true) :: line, n + 2, ended)
  | c :: cs =>
    if c = '\n' then ([], 1, true)
    else
      let (line, n, ended) := takeLine raw cs
      ((c, false) :: line, n + 1, ended)
termination_by cs => cs.length

def isSplitter (splitters : Octets) (t : Taken) : Bool :=
  !t.2 && splitters.contains t.1

def isBlankSplitter (splitters : Octets) (t : Taken) : Bool :=
  isSplitter splitters t && (t.1 == ' ' || t.1 == '\t' || t.1 == '\n')

def skipGap (splitters : Octets) (ts : List Taken) : List Taken :=
  let ts := ts.dropWhile (isBlankSplitter splitters)
  match ts with
  | t :: rest =>
    if isSplitter splitters t then rest.dropWhile (isBlankSplitter splitters) else ts
  | [] => []

def dropBlankEnd (splitters : Octets) (ts : List Taken) : List Taken :=
  (ts.reverse.dropWhile (isBlankSplitter splitters)).reverse

/-- Deals a line out to names; the last one gets all that is left. -/
def deal (splitters : Octets) : List Octets → List Taken → List (Octets × Octets)
  | [], _ => []
  | [x], ts =>
    let field := ts.takeWhile (!isSplitter splitters ·)
    let rest := dropBlankEnd splitters ts
    let single := (skipGap splitters (ts.drop field.length)).isEmpty
    [(x, (if single then field else rest).map (·.1))]
  | x :: xs, ts =>
    let field := ts.takeWhile (!isSplitter splitters ·)
    (x, field.map (·.1)) :: deal splitters xs (skipGap splitters (ts.drop field.length))

def read : Builtin := fun args s => do
  let (os, names) ← leadingOf ['r'] ['p'] args
  if names.isEmpty then throw "arg count".toList
  match names.find? (!isName ·) with
  | some x => throw (badName x)
  | none => pure ()
  let id := (s.streams.lookup 0).getD s.machine.streams.length
  let (line, n, ended) := takeLine (os.any (·.1 == 'r')) (s.machine.unread id)
  let s := { s with machine := s.machine.advance id n }
  let line := (line.filter (·.1 != '\x00')).dropWhile (isBlankSplitter s.splitters)
  let s ← (deal s.splitters names line).foldlM (fun (s : State) (x, v) => s.assigned x v) s
  return s.setStatus (if ended then 0 else 1)

/-- An option that was taken from an argument: what the name for it and that for its value are
given, the number of the next argument, how many letters of the last one were taken if there are
more, what is said, and whether there was an option at all. -/
structure OptionTaken where
  letter : Octets
  value : Option Octets
  next : Nat
  letters : Nat
  message : Octets
  found : Bool

def takeLetter (letters : Octets) (arg : Octets) (place next : Nat) (following : Option Octets) :
    OptionTaken :=
  let quiet := letters.head? == some ':'
  let c := arg.getD place ' '
  let rest := arg.drop (place + 1)
  let left := if rest.isEmpty then 0 else place + 1
  let takes := ((letters.dropWhile (· != c)).drop 1).head? == some ':'
  if c == ':' || !letters.contains c then
    if quiet then ⟨['?'], some [c], next, left, [], true⟩
    else ⟨['?'], none, next, left, illegalOption c ++ ['\n'], true⟩
  else if !takes then ⟨[c], some [], next, left, [], true⟩
  else if !rest.isEmpty then ⟨[c], some rest, next, 0, [], true⟩
  else
    match following with
    | some v => ⟨[c], some v, next + 1, 0, [], true⟩
    | none =>
      if quiet then ⟨[':'], some [c], next, 0, [], true⟩
      else ⟨['?'], none, next, 0, "No arg for -".toList ++ [c] ++ " option\n".toList, true⟩

def nextOption (letters : Octets) (args : List Octets) (next past : Nat) : OptionTaken :=
  if past = 0 then
    match args[next - 1]? with
    | some ['-', '-'] => ⟨['?'], none, next + 1, 0, [], false⟩
    | some ('-' :: c :: cs) => takeLetter letters ('-' :: c :: cs) 1 (next + 1) args[next]?
    | _ => ⟨['?'], none, next, 0, [], false⟩
  else takeLetter letters ((args[next - 2]?).getD []) past next args[next - 1]?

def getopts : Builtin := fun args s => do
  match args with
  | letters :: name :: rest =>
    let words := if rest.isEmpty then s.args else rest
    let index := max 1 ((String.ofList ((s.value? "OPTIND".toList).getD [])).toNat?.getD 1)
    let o := nextOption letters words index s.letters
    if !isName name then throw (badName name)
    let s := s.write 2 o.message
    let s ← match o.value with
      | some v => s.assigned "OPTARG".toList v
      | none => pure { s with vars := s.vars.filter (·.1 != "OPTARG".toList) }
    let s ← s.assigned "OPTIND".toList (toString o.next).toList
    let s ← s.assigned name o.letter
    return { s with letters := o.letters }.setStatus (if o.found then 0 else 1)
  | _ => throw "Usage: getopts optstring var [arg...]".toList

def exit : Builtin := fun args s => do
  let n ← match args with
    | [] => pure s.status
    | a :: _ => natural a
  return { s with status := n % 256, flow := .leaving }

def return_ : Builtin := fun args s => do
  let n ← match args with
    | [] => pure s.status
    | a :: _ => natural a
  return { s with status := n, flow := .returning }

def leaveLoops (flow : Nat → Flow) : Builtin := fun args s => do
  let n ← match args with
    | [] => pure 1
    | a :: _ =>
      let n ← natural a
      if n = 0 then throw (illegalNumber a)
      pure n
  let n := min n s.loops
  return (if n = 0 then s else { s with flow := flow n }).setStatus 0

def signalOne (signal : Nat) (target : Octets) (s : State) : Except Octets State := do
  let n ← match target with
    | '-' :: cs => natural cs
    | cs => natural cs
  if n = s.process then
    return if signal = 0 then s else { s with signals := s.signals ++ [Signal.nameOf signal] }
  match s.jobs.find? (·.1 == n) with
  | none => return (s.complain "kill" "No such process\n".toList).setStatus 1
  | some (n, ending, _) =>
    if s.machine.millis < ending && signal != 0 then
      let jobs := s.jobs.map fun j =>
        if j.1 = n then (n, s.machine.millis, Signal.base + signal) else j
      let lasting := jobs.foldl (fun t j => max t j.2.1) 0
      return { s with jobs, machine := { s.machine with lasting } }
    return s

def killUsage : Octets :=
  "Usage: kill [-s sigspec | -signum | -sigspec] [pid | job]... or\nkill -l [exitstatus]".toList

def killTargets (signal : Nat) (targets : List Octets) (s : State) : Except Octets State :=
  if targets.isEmpty then .error killUsage
  else targets.foldlM (fun s t => signalOne signal t s) (s.setStatus 0)

def kill : Builtin := fun args s => do
  match args with
  | ['-', 'l'] :: rest =>
    match rest with
    | [] =>
      let lines := ['0'] :: Signal.all.map fun x => x.name.toList
      return (s.write 1 (lines.flatMap fun l => l ++ ['\n'])).setStatus 0
    | a :: _ =>
      let n ← natural a
      let name := Signal.nameOf (if Signal.base < n then n - Signal.base else n)
      return (s.write 1 (name ++ ['\n'])).setStatus 0
  | ['-', 's'] :: name :: targets =>
    match Signal.number? name with
    | some n => killTargets n targets s
    | none => throw ("invalid signal number or name: ".toList ++ name)
  | ['-', '-'] :: targets => killTargets 15 targets s
  | ('-' :: c :: cs) :: targets =>
    match Signal.number? (c :: cs) with
    | some n => killTargets n targets s
    | none => throw (illegalOption c)
  | targets => killTargets 15 targets s

def trap : Builtin := fun args s => do
  let (_, args) ← leadingOf [] [] args
  let set := fun (action : Option Octets) (names : List Octets) (s : State) =>
    names.foldl (fun (s : State) name =>
      match Signal.number? name with
      | some n =>
        let key := Signal.nameOf n
        let others := s.traps.filter (·.1 != key)
        { s with traps := match action with
          | some a => (key, a) :: others
          | none => others }
      | none => (s.write 2 ("trap: ".toList ++ name ++ ": bad trap\n".toList)).setStatus 1)
      (s.setStatus 0)
  match args with
  | [] =>
    let numbered := s.traps.map fun t => ((Signal.number? t.1).getD 0, t)
    let sorted := numbered.mergeSort fun a b => decide (a.1 ≤ b.1)
    return (s.write 1 (sorted.flatMap fun (_, name, action) =>
      "trap -- ".toList ++ singleQuoted action ++ [' '] ++ name ++ ['\n'])).setStatus 0
  | [name] => return set none [name] s
  | first :: rest =>
    if first == ['-'] then return set none rest s
    if !first.isEmpty && first.all Char.isDigit then return set none args s
    return set (some first) rest s

def wait : Builtin := fun args s => do
  let (_, args) ← leadingOf [] [] args
  let until_ := fun (t : Nat) (s : State) =>
    { s with machine := { s.machine with millis := max t s.machine.millis } }
  match args with
  | [] => return (s.jobs.foldl (fun s j => until_ j.2.1 s) s).setStatus 0
  | args =>
    args.foldlM (fun s a => do
      let n ← natural a
      match s.jobs.find? (·.1 == n) with
      | some j => return (until_ j.2.1 s).setStatus j.2.2
      | none => return s.setStatus 127) s

def owners : List (Char × Nat) :=
  [('u', 64), ('g', 8), ('o', 1)]

def umask : Builtin := fun args s => do
  let (os, args) ← leadingOf ['S'] [] args
  match args with
  | [] =>
    let digit := fun (unit : Nat) => s.mask / unit % 8
    let text :=
      if os.isEmpty then '0' :: owners.map fun (_, unit) => Char.ofNat (48 + digit unit)
      else [','].intercalate (owners.map fun (c, unit) =>
        let allowed := [('r', 4), ('w', 2), ('x', 1)].filter fun p => digit unit / p.2 % 2 == 0
        c :: '=' :: allowed.map (·.1))
    return (s.write 1 (text ++ ['\n'])).setStatus 0
  | a :: _ =>
    if (a.head?.map Char.isDigit).getD false then
      if a.all fun c => '0' ≤ c && c ≤ '7' then
        let mask := a.foldl (fun n c => n * 8 + (c.toNat - 48)) 0
        return { s with mask := mask % 512 }.setStatus 0
      throw (illegalNumber a)
    if a.any ['=', '+', '-'].contains then return s.setStatus 0
    throw ("Illegal mode: ".toList ++ a)

/-- The time that the script has taken is not told. -/
def times : Builtin := fun _ s =>
  let line := "0m0.000000s 0m0.000000s\n".toList
  .ok ((s.write 1 (line ++ line)).setStatus 0)

def quiet (status : Nat) : Builtin := fun _ s =>
  .ok (s.setStatus status)

def noJob : Builtin := fun _ _ =>
  .error "No current job".toList

/-- The commands whose mistakes end a script, and which leave what is set for them behind. -/
def special : List (String × Builtin) :=
  [(":", quiet 0), ("break", leaveLoops .breaking), ("continue", leaveLoops .continuing),
    ("exit", exit), ("export", export_), ("local", local_), ("readonly", readonly),
    ("return", return_), ("set", set_), ("shift", shift), ("times", times), ("trap", trap),
    ("unset", unset)]

def regular : List (String × Builtin) :=
  [("[", bracket), ("alias", quiet 0), ("bg", noJob), ("cd", cd), ("chdir", cd), ("echo", echo),
    ("false", quiet 1), ("fg", noJob), ("getopts", getopts), ("hash", quiet 0), ("jobs", quiet 0),
    ("kill", kill), ("printf", printf), ("pwd", pwd), ("read", read), ("test", judging),
    ("true", quiet 0), ("ulimit", quiet 0), ("umask", umask), ("unalias", quiet 0),
    ("wait", wait)]

def carriers : List String :=
  [".", "eval", "exec"]

end Builtin

end FleetDispatch.Shell
