import FleetDispatch.Shell.Arithmetic
import FleetDispatch.Shell.Pattern
import FleetDispatch.Shell.State

namespace FleetDispatch.Shell

/-- What a word is made into: characters, of which some are where a field can end, the edge of
something that is there though it is empty, and the end of a field. -/
inductive Part where
  | char (c : Char) (quoted split : Bool)
  | edge
  | next
  deriving DecidableEq

namespace Part

def ofText (quoted split : Bool) (cs : Octets) : List Part :=
  if cs.isEmpty && quoted then [.edge] else cs.map fun c => .char c quoted (split && !quoted)

def join (parts : List Part) : Octets :=
  parts.filterMap fun
    | .char c _ _ => some c
    | .edge => none
    | .next => some ' '

def signs (parts : List Part) : List Sign :=
  parts.filterMap fun
    | .char c q _ => some ⟨c, q⟩
    | .edge => none
    | .next => some ⟨' ', false⟩

end Part

/-- What came before in a text that is split: nothing, a field and blanks, or a sign that ends
fields. -/
inductive Gap where
  | start
  | blanks
  | sign
  deriving DecidableEq

/-- The fields so far, the last one first, and the one that is being built, turned around. -/
structure Fields where
  done : List (List Sign)
  current : Option (List Sign)
  gap : Gap

namespace Fields

def close (gap : Gap) (f : Fields) : Fields :=
  match f.current with
  | some cs => ⟨cs.reverse :: f.done, none, gap⟩
  | none => { f with gap }

def add (c : Sign) (f : Fields) : Fields :=
  { f with current := some (c :: f.current.getD []) }

def take (splitters : Octets) (f : Fields) : Part → Fields
  | .edge => { f with current := some (f.current.getD []) }
  | .next => f.close .start
  | .char c q split =>
    if split && splitters.contains c then
      if c == ' ' || c == '\t' || c == '\n' then
        if f.current.isSome then f.close .blanks else f
      else if f.current.isSome then f.close .sign
      else if f.gap = .blanks then { f with gap := .sign }
      else { f with done := [] :: f.done, gap := .sign }
    else f.add ⟨c, q⟩

def ofParts (splitters : Octets) (parts : List Part) : List (List Sign) :=
  ((parts.foldl (take splitters) ⟨[], none, .start⟩).close .start).done.reverse

end Fields

def State.quitSum (fault : SumFault) (expr : Octets) (s : State) : State :=
  match fault with
  | .form message =>
    s.quit none (s!"arithmetic expression: {message}: \"".toList ++ expr ++ ['"'])
  | .notANumber text => s.quit none ("Illegal number: ".toList ++ text)

def evalSum (expr : Octets) : StateM State Int := do
  let s ← get
  match Expr.ofOctets expr >>= Expr.eval (fun x => (s.parameter? x).getD []) [] with
  | .error fault =>
    modify (·.quitSum fault expr)
    return 0
  | .ok (n, given) =>
    for (x, v) in given.reverse do
      modify (·.assign x (toString v).toList)
    return n

abbrev Taking := Command → StateM State Octets

def apart : List (List Part) → List Part
  | [] => []
  | [p] => p
  | p :: ps => p ++ .next :: apart ps

def allArgs (quoted split : Bool) (name : Octets) (s : State) : List Part :=
  if quoted && name == ['*'] then
    let between := s.splitters.take 1
    Part.ofText true false (between.intercalate s.args)
  else apart (s.args.map (Part.ofText quoted split))

def isAllArgs (name : Octets) : Bool :=
  name == ['@'] || name == ['*']

/-- Whether a parameter has a value, which must not be empty if `orEmpty`. -/
def hasValue (orEmpty : Bool) (name : Octets) (s : State) : Bool :=
  if isAllArgs name then
    if orEmpty then s.args.any (!·.isEmpty) else !s.args.isEmpty
  else ((s.parameter? name).map fun cs => !(orEmpty && cs.isEmpty)).getD false

def noValue (name : Octets) : Octets :=
  name ++ ": parameter not set".toList

/-- The parts of a parameter. One that has no value ends the script if this is asked for. -/
def paramParts (quoted split : Bool) (name : Octets) : StateM State (List Part) := do
  let s ← get
  if isAllArgs name then return allArgs quoted split name s
  match s.parameter? name with
  | some cs => return Part.ofText quoted split cs
  | none =>
    if s.options.contains 'u' && name != ['!'] then modify (·.quit none (noValue name))
    return Part.ofText quoted split []

mutual

def Piece.parts (taking : Taking) (split : Bool) : Piece → StateM State (List Part)
  | .text q cs => return Part.ofText q split cs
  | .output q c => do return Part.ofText q true (← taking c)
  | .sum q expr => do
    let parts ← wordParts taking false expr
    unless (← get).isOn do return []
    let n ← evalSum (Part.join parts)
    return Part.ofText q true (toString n).toList
  | .param q name use => use.parts taking q name

def Use.parts (taking : Taking) (q : Bool) (name : Octets) : Use → StateM State (List Part)
  | .value => paramParts q true name
  | .length => do
    let s ← get
    let n := if isAllArgs name then ([' '].intercalate s.args).length
      else ((s.parameter? name).getD []).length
    if (s.parameter? name).isNone && !isAllArgs name && s.options.contains 'u' then
      modify (·.quit none (noValue name))
    return Part.ofText q true (toString n).toList
  | .otherwise orEmpty word => do
    if hasValue orEmpty name (← get) then paramParts q true name
    else
      let parts ← wordParts taking true word
      return if q && parts.isEmpty then [.edge] else parts
  | .instead orEmpty word => do
    if hasValue orEmpty name (← get) then
      let parts ← wordParts taking true word
      return if q && parts.isEmpty then [.edge] else parts
    else return Part.ofText q true []
  | .assign orEmpty word => do
    if hasValue orEmpty name (← get) then paramParts q true name
    else
      let value := Part.join (← wordParts taking true word)
      unless (← get).isOn do return []
      if isName name then
        modify (·.assign name value)
        return Part.ofText q true value
      modify (·.quit none (name ++ ": bad variable name".toList))
      return []
  | .demand orEmpty word => do
    if hasValue orEmpty name (← get) then paramParts q true name
    else
      let message := Part.join (← wordParts taking true word)
      unless (← get).isOn do return []
      modify (·.quit none (if word.isEmpty then
          noValue name ++ (if orEmpty then " or null".toList else [])
        else name ++ [':', ' '] ++ message))
      return []
  | .cut front longest pattern => do
    let s ← get
    if (s.parameter? name).isNone && !isAllArgs name && s.options.contains 'u' then
      modify (·.quit none (noValue name))
      return []
    let gs := Glob.ofText (Part.signs (← wordParts taking false pattern))
    let cutOne := if front then Glob.cutFront longest gs else Glob.cutBack longest gs
    if isAllArgs name then
      let args := (← get).args
      let cut := if front then (args.take 1).map cutOne ++ args.drop 1
        else args.dropLast ++ (args.drop (args.length - 1)).map cutOne
      return apart (cut.map (Part.ofText q true))
    return Part.ofText q true (cutOne ((s.parameter? name).getD []))
  | .senseless => do
    modify (·.quit none "Bad substitution".toList)
    return []

def wordParts (taking : Taking) (split : Bool) : List Piece → StateM State (List Part)
  | [] => return []
  | p :: ps => do
    let front ← p.parts taking split
    if (← get).isOn then
      let rest ← wordParts taking split ps
      return front ++ rest
    return []

end

def withHome (s : State) (w : Word) : Word :=
  match w, s.value? "HOME".toList with
  | .text false ('~' :: cs) :: rest, some home =>
    if cs.isEmpty || cs.head? == some '/' then
      .text true home :: (if cs.isEmpty then rest else .text false cs :: rest)
    else w
  | w, _ => w

def matchPaths (files : Files) : List (List Sign) → Octets → Path → List Octets
  | [], text, _ => [text]
  | step :: steps, text, dir =>
    let slash := if steps.isEmpty then [] else ['/']
    if step.isEmpty then matchPaths files steps (text ++ slash) dir
    else
      let literal := step.map (·.char)
      let gs := Glob.ofText step
      let names :=
        if isPattern step then
          (['.'] :: ['.', '.'] :: (files.names dir).map Octets.ofString).filter fun name =>
            Glob.fits gs name && (name.head? != some '.' || literal.head? == some '.')
        else [literal]
      names.flatMap fun name =>
        let p := if name == ['.'] then dir else dir ++ [Octets.text name]
        match files.find? p with
        | none => []
        | some e =>
          if steps.isEmpty || e.isDirectory then matchPaths files steps (text ++ name ++ slash) p
          else []

def splitSteps (cs : List Sign) : List (List Sign) :=
  let (first, others) := cs.foldr (fun c (step, steps) =>
    if c.char = '/' then ([], step :: steps) else (c :: step, steps)) ([], [])
  first :: others

/-- The paths that a field stands for if it is a pattern that fits some, or else its text. -/
def fieldPaths (s : State) (cs : List Sign) : List Octets :=
  let literal := cs.map (·.char)
  if isPattern cs && !s.options.contains 'f' then
    let start := if literal.head? == some '/' then [] else s.here
    match matchPaths s.machine.files (splitSteps cs) [] start with
    | [] => [literal]
    | paths => paths
  else [literal]

def expandWord (taking : Taking) (w : Word) : StateM State (List Octets) := do
  let parts ← wordParts taking false (withHome (← get) w)
  let s ← get
  return (Fields.ofParts s.splitters parts).flatMap (fieldPaths s)

def expandWords (taking : Taking) : List Word → StateM State (List Octets)
  | [] => return []
  | w :: ws => do
    let front ← expandWord taking w
    if (← get).isOn then return front ++ (← expandWords taking ws)
    return []

def expandText (taking : Taking) (w : Word) : StateM State Octets := do
  return Part.join (← wordParts taking false (withHome (← get) w))

def expandPattern (taking : Taking) (w : Word) : StateM State (List Glob) := do
  return Glob.ofText (Part.signs (← wordParts taking false (withHome (← get) w)))

end FleetDispatch.Shell
