import FleetDispatch.Decimal.Places
import FleetDispatch.Decimal.Shortest
import FleetDispatch.Shell.Escape
import FleetDispatch.Shell.Job

namespace FleetDispatch.Shell

open Decimal

structure Directive where
  flags : Octets
  width : Nat
  precision : Option Nat
  letter : Char

inductive NumberFault where
  | none
  | ignored (rest : Octets)
  | nothingRead
  | partlyRead
  | outOfRange
  deriving DecidableEq

/-- The number that a character behind a quote stands for. What follows it is ignored. -/
def ofCharacter? (program : Bool) : Octets → Option (Nat × NumberFault)
  | q :: cs =>
    if q != '\x27' && q != '"' then none
    else
      match cs with
      | [c] => some (c.toNat, .none)
      | c :: rest => some (c.toNat, if program then .ignored rest else .none)
      | [] => if program then none else some (0, .none)
  | [] => none

def wholeOf (program : Bool) (cs : Octets) : Int × NumberFault :=
  match ofCharacter? program cs with
  | some (n, fault) => (n, fault)
  | none =>
    let trimmed := cs.dropWhile isSpaceChar
    let (negative, ds) := match trimmed with
      | '-' :: ds => (true, ds)
      | '+' :: ds => (false, ds)
      | ds => (false, ds)
    if cs.isEmpty then (0, .none)
    else if !((ds.head?.map Char.isDigit).getD false) then (0, .nothingRead)
    else
      let (n, rest) := unsigned ds
      let v : Int := if negative then -n else n
      let kept := max Width.least64 (min v Width.greatest64)
      (kept, if !rest.isEmpty then .partlyRead else if kept != v then .outOfRange else .none)

/-- The double that a text stands for as far as it goes, as a sign and a ratio. -/
structure Magnitude where
  negative : Bool
  num : Nat
  den : Nat

def digitsPastPoint : Octets → Octets × Octets
  | '.' :: cs => (cs.takeWhile isDigit, cs.dropWhile isDigit)
  | cs => ([], cs)

def exponentOf (cs : Octets) : Int × Octets :=
  match cs with
  | e :: rest =>
    if e == 'e' || e == 'E' then
      let (negative, ds) := match rest with
        | '-' :: ds => (true, ds)
        | '+' :: ds => (false, ds)
        | ds => (false, ds)
      match ds.takeWhile isDigit with
      | [] => (0, cs)
      | digits =>
        let n : Int := (min (ofDigits 0 digits) 400 : Nat)
        (if negative then -n else n, ds.drop digits.length)
    else (0, cs)
  | [] => (0, cs)

def magnitudeOf (program : Bool) (cs : Octets) : Magnitude × NumberFault :=
  match ofCharacter? program cs with
  | some (n, fault) => (⟨false, n, 1⟩, fault)
  | none =>
    let trimmed := cs.dropWhile isSpaceChar
    let (negative, ds) := match trimmed with
      | '-' :: ds => (true, ds)
      | '+' :: ds => (false, ds)
      | ds => (false, ds)
    let whole := ds.takeWhile isDigit
    let (fraction, rest) := digitsPastPoint (ds.drop whole.length)
    if cs.isEmpty then (⟨false, 0, 1⟩, .none)
    else if (whole ++ fraction).isEmpty then (⟨false, 0, 1⟩, .nothingRead)
    else
      let (e, rest) := exponentOf rest
      let e := e - fraction.length
      let b := Binary.ofBits (Float.ofScientific (ofDigits 0 (whole ++ fraction)) (e < 0)
        e.natAbs).toBits
      (⟨negative, b.mantissa * Nat.pow 2 b.exponent.toNat, Nat.pow 2 (-b.exponent).toNat⟩,
        if rest.isEmpty then .none else .partlyRead)

def numberInBase (base : Nat) (upper : Bool) : Nat → Nat → Octets
  | 0, _ => []
  | fuel + 1, n =>
    let d := n % base
    let c := if d < 10 then Char.ofNat (48 + d) else Char.ofNat ((if upper then 55 else 87) + d)
    (if n / base = 0 then [] else numberInBase base upper fuel (n / base)) ++ [c]

namespace Directive

def has (flag : Char) (d : Directive) : Bool :=
  d.flags.contains flag

def pad (d : Directive) (cs : Octets) : Octets :=
  let fill := List.replicate (d.width - cs.length) ' '
  if d.has '-' then cs ++ fill else fill ++ cs

/-- Fills a number up to the width, with zeros behind its sign if it is asked for. -/
def padNumber (d : Directive) (zeros : Bool) (sign digits : Octets) : Octets :=
  if zeros && d.has '0' && !d.has '-' then
    sign ++ List.replicate (d.width - sign.length - digits.length) '0' ++ digits
  else d.pad (sign ++ digits)

def signOf (d : Directive) (negative : Bool) : Octets :=
  if negative then ['-'] else if d.has '+' then ['+'] else if d.has ' ' then [' '] else []

/-- The digits of a whole number, of which the precision gives the least number. -/
def leastDigits (d : Directive) (ds : Octets) : Octets :=
  match d.precision with
  | none => ds
  | some 0 => if ds == ['0'] then [] else ds
  | some p => List.replicate (p - ds.length) '0' ++ ds

def whole (d : Directive) (n : Int) : Octets :=
  if d.letter = 'd' || d.letter = 'i' then
    d.padNumber d.precision.isNone (d.signOf (n < 0)) (d.leastDigits (digits n.natAbs))
  else
    let m := Operation.bits n
    let base := if d.letter = 'o' then 8 else if d.letter = 'u' then 10 else 16
    let ds := d.leastDigits (numberInBase base (d.letter = 'X') 64 m)
    let mark :=
      if !d.has '#' || m = 0 then []
      else if d.letter = 'x' then ['0', 'x']
      else if d.letter = 'X' then ['0', 'X']
      else if d.letter = 'o' && ds.head? != some '0' then ['0']
      else []
    d.padNumber d.precision.isNone mark ds

def scientific (places num den : Nat) (mark : Char) : Octets :=
  let (n, e) := if num = 0 then (0, 0) else scientificParts places num den
  withPoint places n ++ mark :: (if e < 0 then '-' else '+') :: padded 2 e.natAbs

def trimZeros (cs : Octets) : Octets :=
  if cs.contains '.' then
    ((cs.reverse.dropWhile (· == '0')).dropWhile (· == '.')).reverse
  else cs

/-- A number as it is shortest, with or without a power of ten. -/
def general (d : Directive) (places num den : Nat) (mark : Char) : Octets :=
  let p := max places 1
  let e := if num = 0 then 0 else (scientificParts (p - 1) num den).2
  let trim := fun cs => if d.has '#' then cs else trimZeros cs
  if -4 ≤ e && e < p then trim (fixed (p - 1 - e).toNat num den)
  else
    let cs := scientific (p - 1) num den mark
    trim (cs.takeWhile (· != mark)) ++ cs.dropWhile (· != mark)

def real (d : Directive) (m : Magnitude) : Octets :=
  let places := d.precision.getD 6
  let ds := match d.letter with
    | 'e' => scientific places m.num m.den 'e'
    | 'E' => scientific places m.num m.den 'E'
    | 'g' => d.general places m.num m.den 'e'
    | 'G' => d.general places m.num m.den 'E'
    | _ => fixed places m.num m.den
  d.padNumber true (d.signOf m.negative) ds

def text (d : Directive) (cs : Octets) : Octets :=
  d.pad ((d.precision.map cs.take).getD cs)

end Directive

/-- How a format is written out: what was written, the complaints, the arguments that are left, and
whether all ends here. -/
structure Printing where
  output : Octets
  complaints : List Octets
  args : List Octets
  failed : Bool
  stopped : Bool

namespace Printing

def put (cs : Octets) (p : Printing) : Printing :=
  { p with output := p.output ++ cs }

/-- Takes the next argument; when none is left it is empty. -/
def next (p : Printing) : Octets × Printing :=
  (p.args.headD [], { p with args := p.args.drop 1 })

def complain (message : Octets) (p : Printing) : Printing :=
  { p with complaints := p.complaints ++ [message], failed := true }

def report (program : Bool) (arg : Octets) (fault : NumberFault) (p : Printing) : Printing :=
  let named := if program then inMarks arg else arg
  match fault with
  | .none => p
  | .ignored rest =>
    { p with complaints := p.complaints ++ ["warning: ".toList ++ rest ++
      ": character(s) following character constant have been ignored".toList] }
  | .nothingRead =>
    p.complain (named ++ (if program then ": expected a numeric value"
      else ": expected numeric value").toList)
  | .partlyRead =>
    p.complain (named ++ (if program then ": value not completely converted"
      else ": not completely converted").toList)
  | .outOfRange => p.complain (named ++ ": Numerical result out of range".toList)

def invalid (program : Bool) (directive : Octets) (p : Printing) : Printing :=
  let what := if program then ": invalid conversion specification" else ": invalid directive"
  { p.complain (directive ++ what.toList) with stopped := true }

def lacksDigits (p : Printing) : Printing :=
  { p.complain "missing hexadecimal number in escape".toList with stopped := true }

/-- Takes a number that the format gives, or an argument in place of it. -/
def takeSize (program : Bool) (cs : Octets) (p : Printing) : Int × Octets × Printing :=
  match cs with
  | '*' :: cs =>
    let (arg, p) := p.next
    let (n, fault) := wholeOf program arg
    (n, cs, p.report program arg fault)
  | cs => (ofDigits 0 (cs.takeWhile isDigit), cs.dropWhile isDigit, p)

def wholeLetters : List Char := ['d', 'i', 'o', 'u', 'x', 'X']

def realLetters : List Char := ['e', 'E', 'f', 'F', 'g', 'G']

/-- The letters in front of that of a number that tell its size to a program. -/
def isSizeLetter (c : Char) : Bool :=
  ['l', 'h', 'j', 'z', 't', 'L'].contains c

def directive (program : Bool) (written : Octets) (d : Directive) (p : Printing) : Printing :=
  let (arg, q) := p.next
  if d.letter = 's' then q.put (d.text arg)
  else if d.letter = 'c' then
    q.put (d.pad (if arg.isEmpty then ['\x00'] else arg.take 1))
  else if d.letter = 'b' && (!program || written == ['%', 'b']) then
    let (text, ending) :=
      unescape (if program then .programArgument else .shellText) (arg.length + 1) arg
    let q := q.put (d.text text)
    match ending with
    | .reached => q
    | .stopped => { q with stopped := true }
    | .broken => q.lacksDigits
  else if program && written == ['%', 'q'] then
    if p.args.isEmpty then q else q.put (shownName arg)
  else if wholeLetters.contains d.letter then
    let (n, fault) := wholeOf program arg
    (q.report program arg fault).put (d.whole n)
  else if realLetters.contains d.letter then
    let (m, fault) := magnitudeOf program arg
    (q.report program arg fault).put (d.real m)
  else p.invalid program written

def percent (program : Bool) (cs : Octets) (p : Printing) : Printing × Octets :=
  let flags := cs.takeWhile ['#', '-', '+', ' ', '0'].contains
  let (width, rest, p) := p.takeSize program (cs.drop flags.length)
  let flags := if width < 0 then '-' :: flags else flags
  let (precision, rest, p) := match rest with
    | '.' :: rest =>
      let (n, rest, p) := p.takeSize program rest
      (if n < 0 then none else some n.toNat, rest, p)
    | rest => (none, rest, p)
  let rest := if program then rest.dropWhile isSizeLetter else rest
  match rest with
  | [] =>
    if program then (p.invalid program ('%' :: cs), [])
    else ({ p.complain "missing format character".toList with stopped := true }, [])
  | c :: rest =>
    let written := '%' :: cs.take (cs.length - rest.length)
    (p.directive program written ⟨flags, width.natAbs, precision, c⟩, rest)

def format (program : Bool) : Nat → Octets → Printing → Printing
  | 0, _, p => p
  | _ + 1, [], p => p
  | n + 1, '%' :: '%' :: cs, p => format program n cs (p.put ['%'])
  | n + 1, '%' :: cs, p =>
    let (p, rest) := percent program cs p
    if p.stopped then p else format program n rest p
  | n + 1, '\\' :: cs, p =>
    match Escape.ofOctets (if program then .programFormat else .shellFormat) cs with
    | .octet c rest => format program n rest (p.put [c])
    | .stop => { p with stopped := true }
    | .broken => p.lacksDigits
    | .nothing => format program n (cs.drop 1) (p.put ('\\' :: cs.take 1))
  | n + 1, c :: cs, p => format program n cs (p.put [c])

/-- Goes through a format as often as it takes to use up the arguments. -/
def formatAll (program : Bool) (cs : Octets) : Nat → Printing → Printing
  | 0, p => p
  | n + 1, p =>
    let q := format program (cs.length + 1) cs p
    if q.stopped || q.args.isEmpty || q.args.length = p.args.length then q
    else formatAll program cs n q

end Printing

def printed (program : Bool) (format : Octets) (args : List Octets) : Printing :=
  Printing.formatAll program format (args.length + 1) ⟨[], [], args, false, false⟩

end FleetDispatch.Shell
