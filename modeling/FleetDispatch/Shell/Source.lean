import FleetDispatch.Shell.Syntax

namespace FleetDispatch.Shell

/-- A document that was announced and is read at the end of the line. -/
structure PendingDocument where
  number : Nat
  delimiter : Octets
  literal : Bool
  stripTabs : Bool

/-- A script as far as it is not read yet: the rest of it and the line where that begins, a token
that was looked at, and the documents that stand in it. -/
structure Source where
  rest : Octets
  line : Nat
  ahead : Option Token
  pending : List PendingDocument
  nextDocument : Nat
  documents : List (Nat × Word)

structure SyntaxFault where
  message : String
  line : Nat
  deriving DecidableEq

abbrev Reader := StateT Source (Except SyntaxFault)

def Source.ofOctets (cs : Octets) (line nextDocument : Nat) : Source :=
  ⟨cs, line, none, [], nextDocument, []⟩

namespace Reader

def fail {α : Type} (message : String) : Reader α := fun s =>
  .error ⟨message, s.line⟩

/-- Passes over breaks that are hidden behind a backslash. -/
def unfold : Octets → Nat → Octets × Nat
  | '\\' :: '\n' :: cs, line => unfold cs (line + 1)
  | cs, line => (cs, line)

def peek : Reader (Option Char) := fun s =>
  let (rest, line) := unfold s.rest s.line
  .ok (rest.head?, { s with rest, line })

def skip : Reader Unit :=
  modify fun s =>
    match s.rest with
    | [] => s
    | c :: rest => { s with rest, line := if c = '\n' then s.line + 1 else s.line }

def takeRaw : Reader (Option Char) := do
  let c := (← get).rest.head?
  skip
  return c

def accept (c : Char) : Reader Bool := do
  if (← peek) == some c then
    skip
    return true
  return false

def takeWhile (p : Char → Bool) : Reader Octets :=
  modifyGet fun s => (s.rest.takeWhile p, { s with rest := s.rest.dropWhile p })

def takeQuoted : Reader Octets := do
  let s ← get
  let cs := s.rest.takeWhile (· != '\x27')
  match s.rest.drop cs.length with
  | [] =>
    set { s with rest := [], line := s.line + cs.count '\n' }
    fail "Unterminated quoted string"
  | _ :: rest =>
    set { s with rest, line := s.line + cs.count '\n' }
    return cs

def blanks : Octets → Nat → Octets × Nat
  | ' ' :: cs, line => blanks cs line
  | '\t' :: cs, line => blanks cs line
  | '\\' :: '\n' :: cs, line => blanks cs (line + 1)
  | cs, line => (cs, line)

def skipBlanks : Reader Unit :=
  modify fun s =>
    let (rest, line) := blanks s.rest s.line
    match rest with
    | '#' :: cs => { s with rest := cs.dropWhile (· != '\n'), line }
    | rest => { s with rest, line }

def putBack (t : Token) : Reader Unit :=
  modify fun s => { s with ahead := some t }

end Reader

def Token.keyword? : Token → Option Keyword
  | .word w => (plain? w).bind Keyword.ofOctets?
  | _ => none

def Token.describe : Token → String
  | .word w => (((plain? w).bind Keyword.ofOctets?).map Keyword.describe).getD "word"
  | .arrow .. => "redirection"
  | .mark m => m.describe

def Reader.unexpected {α : Type} (t : Token) (expected : Option String) : Reader α :=
  fail (t.describe ++ " unexpected" ++ ((expected.map fun e => " (expecting " ++ e ++ ")").getD ""))

def endsWord (c : Char) : Bool :=
  [' ', '\t', '\n', ';', '&', '|', '(', ')', '<', '>'].contains c

def isSign (c : Char) : Bool :=
  ['@', '*', '#', '?', '-', '$', '!'].contains c

def hidesBreak (cs : Octets) : Bool :=
  (cs.reverse.takeWhile (· == '\\')).length % 2 == 1

def splitDocument (d : PendingDocument) : Nat → Bool → Octets → Octets × Octets
  | 0, _, cs => ([], cs)
  | _ + 1, _, [] => ([], [])
  | n + 1, continued, cs =>
    let line := cs.takeWhile (· != '\n')
    let rest := cs.drop line.length
    let kept := if d.stripTabs then line.dropWhile (· == '\t') else line
    if !continued && kept == d.delimiter then ([], rest.drop 1)
    else
      let (body, after) := splitDocument d n (!d.literal && hidesBreak line) (rest.drop 1)
      (kept ++ rest.take 1 ++ body, after)

/-- How many lines a document and its end take up. The end counts as a line without a break, too. -/
def breaksOf (d : PendingDocument) (cs : Octets) : Nat :=
  let line := (cs.reverse.takeWhile (· != '\n')).reverse
  let kept := if d.stripTabs then line.dropWhile (· == '\t') else line
  cs.count '\n' + if !line.isEmpty && kept == d.delimiter then 1 else 0

def delimiterOf (w : Word) : Octets :=
  w.flatMap fun
    | .text _ cs => cs
    | .param _ name _ => '$' :: name
    | _ => []

def isQuoted (w : Word) : Bool :=
  w.any fun
    | .text true _ => true
    | _ => false

end FleetDispatch.Shell
