namespace FleetDispatch.CommandLine

/-- Why words on a command line make no command, or ask for help instead. -/
inductive UsageFault where
  | helpAsked
  | versionAsked
  | nothingAsked
  | unknownCommand
  | missingCommand
  | unknownWord
  | missingWord
  | invalidValue
  | missingValue
  | needlessValue
  | repeatedOption
  deriving DecidableEq

structure OptionRule where
  key : String
  long : String
  short : Option Char
  repeatable : Bool
  required : Bool
  check : String → Option UsageFault

/-- What may stand on a command line behind the name of a command. A command with commands below
it takes one of them, and any other takes as many words as it has names for. -/
inductive CommandRule where
  | mk (name : String) (options : List OptionRule) (words : List String)
      (commands : List CommandRule)

namespace CommandRule

def name : CommandRule → String
  | mk name _ _ _ => name

def options : CommandRule → List OptionRule
  | mk _ options _ _ => options

def words : CommandRule → List String
  | mk _ _ words _ => words

def commands : CommandRule → List CommandRule
  | mk _ _ _ commands => commands

def command? (name : String) (r : CommandRule) : Option CommandRule :=
  r.commands.find? (·.name == name)

def helpWord : String := "help"

def knows (word : String) (r : CommandRule) : Bool :=
  !r.commands.isEmpty && (word == helpWord || (r.command? word).isSome)

def help : CommandRule → List String → UsageFault
  | _, [] => .helpAsked
  | r, w :: ws =>
    match r.command? w with
    | some r => help r ws
    | none => if w = helpWord && !r.commands.isEmpty && ws.isEmpty then .helpAsked
      else .unknownCommand

end CommandRule

abbrev Bindings := List (String × List String)

namespace Bindings

def add (key value : String) : Bindings → Bindings
  | [] => [(key, [value])]
  | (k, vs) :: rest => if k = key then (k, vs ++ [value]) :: rest else (k, vs) :: add key value rest

def has (key : String) (b : Bindings) : Bool :=
  b.any (·.1 == key)

def all (key : String) (b : Bindings) : List String :=
  (b.lookup key).getD []

def first? (key : String) (b : Bindings) : Option String :=
  (b.all key).head?

end Bindings

/-- The commands on the way to the one that is meant, and the values with those of inner commands
first. -/
structure Matches where
  path : List String
  values : Bindings

structure Progress where
  values : Bindings
  /-- The last option, with its value once that is known, as long as it has not been looked at. -/
  pending : Option (OptionRule × Option String)
  wordsOnly : Bool
  words : List String

namespace Progress

def start (r : CommandRule) : Progress :=
  ⟨[], none, false, r.words⟩

def wantsValue (p : Progress) : Bool :=
  match p.pending with
  | some (_, none) => true
  | _ => false

def put (o : OptionRule) (value : String) (p : Progress) : Except UsageFault Progress :=
  if p.values.has o.key && !o.repeatable then .error .repeatedOption
  else match o.check value with
    | some fault => .error fault
    | none => .ok { p with values := p.values.add o.key value }

def settle (p : Progress) : Except UsageFault Progress :=
  match p.pending with
  | none => .ok p
  | some (_, none) => .error .missingValue
  | some (o, some value) => { p with pending := none }.put o value

def option (o : OptionRule) (value : Option String) (p : Progress) :
    Except UsageFault Progress := do
  let p ← p.settle
  match value with
  | some value => p.put o value
  | none => return { p with pending := some (o, none) }

/-- Ends with a fault, unless there is one in what was read before. -/
def stop (fault : UsageFault) (p : Progress) : Except UsageFault Progress := do
  let _ ← p.settle
  throw fault

/-- Takes a word that starts with two dashes. Only the outermost command tells its version. -/
def long (outermost : Bool) (r : CommandRule) (cs : List Char) (p : Progress) :
    Except UsageFault Progress :=
  let name := String.ofList (cs.takeWhile (· != '='))
  let value := match cs.dropWhile (· != '=') with
    | [] => none
    | _ :: cs => some (String.ofList cs)
  match r.options.find? (·.long == name) with
  | some o => p.option o value
  | none =>
    if name = "help" || (outermost && name = "version") then
      if value.isSome then .error .needlessValue
      else p.stop (if name = "help" then .helpAsked else .versionAsked)
    else .error .unknownWord

def short (outermost : Bool) (r : CommandRule) (c : Char) (cs : List Char) (p : Progress) :
    Except UsageFault Progress :=
  match r.options.find? (·.short == some c) with
  | some o =>
    match cs with
    | [] => p.option o none
    | '=' :: cs => p.option o (some (String.ofList cs))
    | cs => p.option o (some (String.ofList cs))
  | none =>
    if c = 'h' then p.stop .helpAsked
    else if outermost && c = 'V' then p.stop .versionAsked
    else .error .unknownWord

def word (r : CommandRule) (w : String) (p : Progress) : Except UsageFault Progress :=
  match p.words with
  | name :: words => do
    let p ← p.settle
    return { p with words, values := p.values.add name w }
  | [] =>
    if r.commands.isEmpty || (p.wordsOnly && r.knows w) then .error .unknownWord
    else .error .unknownCommand

def take (outermost : Bool) (r : CommandRule) (w : String) (p : Progress) :
    Except UsageFault Progress :=
  if p.wordsOnly then p.word r w
  else match w.toList with
    | ['-', '-'] => .ok { p with wordsOnly := true }
    | '-' :: '-' :: cs => p.long outermost r cs
    | '-' :: c :: cs => p.short outermost r c cs
    | _ =>
      match p.pending with
      | some (o, none) => .ok { p with pending := some (o, some w) }
      | _ => p.word r w

def finish (r : CommandRule) (p : Progress) : Except UsageFault Matches := do
  let p ← p.settle
  if !r.commands.isEmpty then
    throw (if p.values.isEmpty then .nothingAsked else .missingCommand)
  else if !p.words.isEmpty || r.options.any (fun o => o.required && !p.values.has o.key) then
    throw .missingWord
  else return ⟨[], p.values⟩

end Progress

/-- Reads words by a rule. The faults behind the name of a command come before those that are left
open in front of it. -/
def CommandRule.read (outermost : Bool) (r : CommandRule) (p : Progress) :
    List String → Except UsageFault Matches
  | [] => p.finish r
  | w :: ws =>
    if !p.wordsOnly && !p.wantsValue && r.knows w then
      match r.command? w with
      | none => .error (r.help ws)
      | some inner => do
        let m ← inner.read false (.start inner) ws
        let p ← p.settle
        return ⟨inner.name :: m.path, m.values ++ p.values⟩
    else do
      let p ← p.take outermost r w
      r.read outermost p ws

def CommandRule.parse (r : CommandRule) (words : List String) : Except UsageFault Matches :=
  r.read true (.start r) words

end FleetDispatch.CommandLine
