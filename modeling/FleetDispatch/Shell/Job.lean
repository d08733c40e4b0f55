import FleetDispatch.Shell.Pattern
import FleetDispatch.Shell.State

namespace FleetDispatch.Shell

structure Job where
  name : Octets
  args : List Octets
  input : Octets
  openFile : Octets → Except PathFault Octets

/-- What a program did: what it wrote, its status, and whether it read its input. -/
structure Effect where
  output : Octets
  errors : Octets
  status : Nat
  used : Bool

namespace Effect

def quiet (status : Nat) : Effect :=
  ⟨[], [], status, false⟩

def writes (cs : Octets) : Effect :=
  ⟨cs, [], 0, false⟩

end Effect

def faultText : PathFault → String
  | .missing => "No such file or directory"
  | .occupied => "File exists"
  | .notDirectory => "Not a directory"
  | .isDirectory => "Is a directory"
  | .tooLong => "File name too long"
  | .unnameable => "Invalid argument"
  | .notText => "Invalid argument"

/-- A line is ended by a break; the last one may have none. -/
structure Line where
  text : Octets
  ended : Bool

namespace Line

def ofOctets (cs : Octets) : List Line :=
  (cs.foldr (fun c (lines : List Line) =>
    if c = '\n' then ⟨[], true⟩ :: lines
    else match lines with
      | [] => [⟨[c], false⟩]
      | l :: ls => ⟨c :: l.text, l.ended⟩ :: ls) []).filter fun l => l.ended || !l.text.isEmpty

def octets (l : Line) : Octets :=
  if l.ended then l.text ++ ['\n'] else l.text

def join (ls : List Line) : Octets :=
  ls.flatMap octets

def complete (ls : List Line) : Octets :=
  ls.flatMap fun l => l.text ++ ['\n']

end Line

def escapeOf (c : Char) : Octets :=
  let digit := fun (unit : Nat) => Char.ofNat (48 + c.toNat / unit % 8)
  let letters := [('a', 7), ('b', 8), ('t', 9), ('n', 10), ('v', 11), ('f', 12), ('r', 13)]
  match letters.find? (·.2 == c.toNat) with
  | some (l, _) => ['\\', l]
  | none => ['\\', digit 64, digit 8, digit 1]

/-- Characters that mean something to a shell. The first group does so only at the start of a text,
and the second one only where it is all of the text. -/
def means (cs : Octets) : Bool :=
  cs.isEmpty || ['#', '~'].any (cs.head? == some ·) || cs == ['\x7b'] || cs == ['\x7d'] ||
    cs.any fun c => !isPrintable c || " !\"$&'()*;<=>?[\\^\x60|".toList.contains c

def inMarks (cs : Octets) : Octets :=
  '\x27' :: (cs.flatMap fun c =>
    if c = '\x27' || c = '\\' then ['\\', c] else if isPrintable c then [c] else escapeOf c) ++
    ['\x27']

/-- The inside of single quotes up to their end. What cannot stand there is put between quotes of
another kind, in which escapes count. -/
def quotedRest (escaping : Bool) : Octets → Octets
  | [] => ['\x27']
  | c :: cs =>
    if c = '\x27' then "'\\''".toList ++ quotedRest false cs
    else if isPrintable c then (if escaping then "''".toList else []) ++ c :: quotedRest false cs
    else (if escaping then [] else "'$'".toList) ++ escapeOf c ++ quotedRest true cs

/-- Puts a text into quotes in which a shell would read it back. Double quotes are for texts with
single ones in which nothing else means anything. -/
def inQuotes (cs : Octets) : Octets :=
  let others := cs.filter fun c => c != '\x27' && c != ' '
  if cs.contains '\x27' && (others.isEmpty || !means others) then '"' :: cs ++ ['"']
  else '\x27' :: quotedRest false cs

def shownName (cs : Octets) : Octets :=
  if means cs then inQuotes cs else cs

namespace Job

def say (j : Job) (message : Octets) : Octets :=
  j.name ++ ": ".toList ++ message ++ ['\n']

def fails (j : Job) (message : Octets) (status : Nat) : Effect :=
  ⟨[], j.say message, status, false⟩

def misused (j : Job) (message : String) (status : Nat) : Effect :=
  ⟨[], j.say message.toList ++
    "Try '".toList ++ j.name ++ " --help' for more information.\n".toList, status, false⟩

def invalidOption (j : Job) (c : Char) (status : Nat) : Effect :=
  j.misused s!"invalid option -- '{c}'" status

/-- Splits options off, each a letter with what follows it: the rest of its argument for a letter
that takes a value, or the next argument. A letter that is none is given back. -/
def options (plain valued : List Char) :
    Nat → List Octets → Except Char (List (Char × Octets) × List Octets)
  | 0, args => .ok ([], args)
  | n + 1, args =>
    match args with
    | ['-', '-'] :: rest => .ok ([], rest)
    | ('-' :: c :: cs) :: rest =>
      if valued.contains c then
        match cs, rest with
        | [], v :: rest => (options plain valued n rest).map fun r => ((c, v) :: r.1, r.2)
        | [], [] => .error c
        | cs, rest => (options plain valued n rest).map fun r => ((c, cs) :: r.1, r.2)
      else if plain.contains c then
        (options plain valued n (if cs.isEmpty then rest else ('-' :: cs) :: rest)).map fun r =>
          ((c, []) :: r.1, r.2)
      else .error c
    | w :: rest => (options plain valued n rest).map fun r => (r.1, w :: r.2)
    | [] => .ok ([], [])

def optionsOf (j : Job) (plain valued : List Char) :
    Except Char (List (Char × Octets) × List Octets) :=
  options plain valued (j.args.flatMap (fun a => '-' :: a)).length.succ j.args

def isInput (path : Octets) : Bool :=
  path == ['-']

def openPath (j : Job) (path : Octets) : Except PathFault Octets :=
  if isInput path then .ok j.input else j.openFile path

/-- Works on each of some files, or on the input if there are none. The work is given what the
files hold, and complaints are made in their words. -/
def onFiles (j : Job) (paths : List Octets) (fault : Octets → PathFault → Octets) (bad : Nat)
    (work : List (Octets × Octets) → Effect) : Effect :=
  let paths' := if paths.isEmpty then [['-']] else paths
  let opened := paths'.map fun p => (p, j.openPath p)
  let errors := opened.flatMap fun (p, r) =>
    match r with
    | .error f => j.say (fault p f)
    | .ok _ => []
  let effect := work (opened.filterMap fun (p, r) => r.toOption.map fun cs => (p, cs))
  { effect with
    errors := errors ++ effect.errors
    status := if errors.isEmpty then effect.status else bad
    used := paths'.any isInput }

def plainFault (path : Octets) (f : PathFault) : Octets :=
  path ++ ": ".toList ++ (faultText f).toList

def namedFault (path : Octets) (f : PathFault) : Octets :=
  plainFault (shownName path) f

end Job

end FleetDispatch.Shell
