import FleetDispatch.Decimal.Shortest
import FleetDispatch.Decimal.Width

namespace FleetDispatch

inductive Cell where
  | null
  | int (n : Int)
  | real (x : Rat)
  | text (s : String)
  deriving DecidableEq, Inhabited

namespace Cell

def kindName : Cell → String
  | null => "Null"
  | int _ => "Integer"
  | real _ => "Real"
  | text _ => "Text"

def ofOption (n : Option Int) : Cell :=
  (n.map int).getD null

def int? : Cell → Option Int
  | int n => some n
  | _ => none

def number? : Cell → Option Rat
  | int n => some (mkRat n 1)
  | real x => some x
  | _ => none

/-- An empty cell comes first, then numbers by their value, then texts. -/
def rank : Cell → Nat
  | null => 0
  | int _ => 1
  | real _ => 1
  | text _ => 2

def le : Cell → Cell → Bool
  | int m, int n => m ≤ n
  | text s, text t => s ≤ t
  | a, b =>
    match a.number?, b.number? with
    | some x, some y => !y.blt x
    | _, _ => a.rank ≤ b.rank

open Decimal

def isBlank (c : Char) : Bool :=
  c == ' ' || (9 ≤ c.toNat && c.toNat ≤ 13)

structure Numeral where
  negative : Bool
  whole : List Char
  fraction : Option (List Char)
  exponent : Option (Bool × List Char)

def signOf : List Char → Bool × List Char
  | '-' :: cs => (true, cs)
  | '+' :: cs => (false, cs)
  | cs => (false, cs)

def takeFraction : List Char → Option (List Char) × List Char
  | '.' :: cs => (some (cs.takeWhile isDigit), cs.dropWhile isDigit)
  | cs => (none, cs)

def takeExponent (cs : List Char) : Option (Option (Bool × List Char) × List Char) :=
  match cs with
  | c :: rest =>
    if c = 'e' || c = 'E' then
      let (negative, rest) := signOf rest
      match rest.takeWhile isDigit with
      | [] => none
      | ds => some (some (negative, ds), rest.dropWhile isDigit)
    else some (none, cs)
  | [] => some (none, cs)

def Numeral.ofText? (cs : List Char) : Option Numeral := do
  let (negative, cs) := signOf (cs.dropWhile isBlank)
  let whole := cs.takeWhile isDigit
  let (fraction, cs) := takeFraction (cs.dropWhile isDigit)
  guard !(whole ++ fraction.getD []).isEmpty
  let (exponent, cs) ← takeExponent cs
  guard (cs.all isBlank)
  some ⟨negative, whole, fraction, exponent⟩

def greatestExponent : Nat := 10000

def Numeral.round (n : Numeral) : Rat :=
  let fraction := n.fraction.getD []
  let given := match n.exponent with
    | none => 0
    | some (negative, ds) =>
      let e : Int := (min (ofDigits 0 ds) greatestExponent : Nat)
      if negative then -e else e
  let e : Int := given - fraction.length
  let x := Float.ofScientific (ofDigits 0 (n.whole ++ fraction)) (e < 0) e.natAbs
  let b := Binary.ofBits x.toBits
  let m : Int := b.mantissa * Nat.pow 2 b.exponent.toNat
  mkRat (if n.negative then -m else m) (Nat.pow 2 (-b.exponent).toNat)

def isInt64 (n : Int) : Bool :=
  Width.least64 ≤ n && n ≤ Width.greatest64

/-- A number that is whole is kept as one. Of the doubles this is not tried with the outermost. -/
def ofReal (x : Rat) : Cell :=
  if x.den = 1 && Width.least64 < x.num && x.num < Width.greatest64 then int x.num else real x

def ofNumeral (n : Numeral) : Cell :=
  let whole : Int := ofDigits 0 n.whole
  let whole := if n.negative then -whole else whole
  if n.fraction.isNone && n.exponent.isNone && isInt64 whole then int whole else ofReal n.round

/-- What a column for numbers holds after a value was put in: a text that reads as a number becomes
that number. -/
def numeric : Cell → Cell
  | text s => ((Numeral.ofText? s.toList).map ofNumeral).getD (text s)
  | c => c

/-- What a column for text holds after a value was put in; fractions are not put in. -/
def words? : Cell → Option String
  | text s => some s
  | int n => some (String.ofList (signed n))
  | _ => none

end Cell

end FleetDispatch
