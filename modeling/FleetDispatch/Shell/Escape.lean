import FleetDispatch.Shell.Arithmetic

namespace FleetDispatch.Shell

def isOctal (c : Char) : Bool :=
  '0' ≤ c && c ≤ '7'

/-- The octet that digits in a base stand for; higher bits are lost. -/
def octetIn (base : Nat) (ds : Octets) : Char :=
  Char.ofNat (ds.foldl (fun n c => n * base + (digitIn base c).getD 0) 0 % 256)

def takeOctal (most : Nat) (cs : Octets) : Octets × Octets :=
  let ds := (cs.takeWhile isOctal).take most
  (ds, cs.drop ds.length)

def controls : List (Char × Char) :=
  [('a', '\x07'), ('b', '\x08'), ('e', '\x1b'), ('f', '\x0c'), ('n', '\n'), ('r', '\r'),
    ('t', '\t'), ('v', '\x0b'), ('\\', '\\')]

/-- Which escapes there are: those of a shell or those of a program, in a text or in a format. A
program has stricter rules for an argument of a format than for a text of its own. -/
inductive Dialect where
  | shellText
  | shellFormat
  | programText
  | programArgument
  | programFormat
  deriving DecidableEq

/-- What stands behind a backslash: an octet, the end of all output, something that lacks its
digits, or nothing special. -/
inductive Escape where
  | octet (c : Char) (rest : Octets)
  | stop
  | broken
  | nothing

def Dialect.isProgram (d : Dialect) : Bool :=
  d == programText || d == programArgument || d == programFormat

def Dialect.isText (d : Dialect) : Bool :=
  d == shellText || d == programText || d == programArgument

def Escape.ofOctets (d : Dialect) : Octets → Escape
  | [] => nothing
  | c :: cs =>
    match controls.lookup c with
    | some o => .octet o cs
    | none =>
      if c = 'c' && d != .shellFormat then stop
      else if c = '"' && d = .programFormat then .octet '"' cs
      else if c = 'x' && d.isProgram then
        let ds := (cs.takeWhile isHexDigit).take 2
        if !ds.isEmpty then .octet (octetIn 16 ds) (cs.drop ds.length)
        else if d = .programText then nothing
        else broken
      else if c = '0' && d.isText then
        let (ds, rest) := takeOctal 3 cs
        .octet (octetIn 8 ds) rest
      else if isOctal c then
        let (ds, rest) := takeOctal 3 (c :: cs)
        .octet (octetIn 8 ds) rest
      else nothing

/-- How a text with escapes ends: where it ends, or at an escape that ends all output or lacks its
digits. -/
inductive Ending where
  | reached
  | stopped
  | broken
  deriving DecidableEq

def unescape (d : Dialect) : Nat → Octets → Octets × Ending
  | 0, cs => (cs, .reached)
  | _ + 1, [] => ([], .reached)
  | n + 1, '\\' :: cs =>
    match Escape.ofOctets d cs with
    | .octet c rest =>
      let (text, ending) := unescape d n rest
      (c :: text, ending)
    | .stop => ([], .stopped)
    | .broken => ([], .broken)
    | .nothing =>
      let (text, ending) := unescape d n (cs.drop 1)
      ('\\' :: cs.take 1 ++ text, ending)
  | n + 1, c :: cs =>
    let (text, ending) := unescape d n cs
    (c :: text, ending)

def echoed (args : List Octets) : Octets :=
  let (last, args) := match args with
    | ['-', 'n'] :: args => ([], args)
    | args => (['\n'], args)
  let text := [' '].intercalate args
  let (text, ending) := unescape .shellText (text.length + 1) text
  if ending = .reached then text ++ last else text

def echoOptions? (arg : Octets) : Option Octets :=
  match arg with
  | '-' :: c :: cs => if (c :: cs).all ['n', 'e', 'E'].contains then some (c :: cs) else none
  | _ => none

/-- What the program that echoes writes: escapes count with `-e` up to a later `-E`. -/
def programEchoed (args : List Octets) : Octets :=
  let options := (args.takeWhile fun a => (echoOptions? a).isSome).flatMap (·.drop 1)
  let args := args.dropWhile fun a => (echoOptions? a).isSome
  let text := [' '].intercalate args
  let last := if options.contains 'n' then [] else ['\n']
  if (options.filter (· != 'n')).getLast? == some 'e' then
    let (text, ending) := unescape .programText (text.length + 1) text
    if ending = .reached then text ++ last else text
  else text ++ last

end FleetDispatch.Shell
