import FleetDispatch.Decimal.Digits
import FleetDispatch.Json.Fault
import FleetDispatch.Json.Value

namespace FleetDispatch.Json

open Decimal

/-- The significand that digits add up to, and how many of them were left out because it would
have grown past 64 bits; after the first one left out all are. -/
def significand (acc : Nat) : List Char → Nat × Nat
  | [] => (acc, 0)
  | c :: cs =>
    let next := acc * 10 + digitValue c
    if next ≤ Width.most64 then significand next cs else (acc, cs.length + 1)

def greatestPower : Nat := 308

def tenTo (n : Nat) : Float :=
  Float.ofScientific 1 false n

/-- Divides by `10 ^ e` in steps that are doubles, rounding at each. -/
def divideByPower (x : Float) (e : Nat) : Nat → Float
  | 0 => x
  | fuel + 1 =>
    if e ≤ greatestPower then x / tenTo e
    else if x == 0 then x
    else divideByPower (x / tenTo greatestPower) (e - greatestPower) fuel

/-- `s * 10 ^ e`, with one rounding for the significand and one for each step of scaling; none
if it is too large. -/
def scale (s : Nat) (e : Int) : Option Float :=
  let x := (UInt64.ofNat s).toFloat
  if 0 ≤ e then
    if e.toNat ≤ greatestPower then
      let y := x * tenTo e.toNat
      if y.isInf then none else some y
    else if s = 0 then some x
    else none
  else some (divideByPower x e.natAbs (e.natAbs / greatestPower + 1))

def pastExponent (acc : Nat) : List Char → Option (List Char)
  | [] => none
  | c :: cs =>
    let next := acc * 10 + digitValue c
    if next ≤ Width.greatest32 then pastExponent next cs else some cs

/-- An exponent past 32 bits is as good as infinite. -/
def exponentOverflows (ds : List Char) : Bool :=
  (pastExponent 0 ds).isSome

def addExponent (start : Int) (negative : Bool) (ds : List Char) : Int :=
  let e : Int := ofDigits 0 ds
  if negative then max (start - e) Width.least32 else min (start + e) Width.greatest32

def negateIf (negative : Bool) (x : Float) : Float :=
  if negative then -x else x

structure Numeral where
  negative : Bool
  whole : List Char
  fraction : List Char
  exponent : Option (Bool × List Char)

def takeDigits (cs : List Char) : List Char × List Char :=
  (cs.takeWhile isDigit, cs.dropWhile isDigit)

/-- Reads the digits in front of the point: one at least, and no zero before others. -/
def wholePart (cs : List Char) : Reading (List Char × List Char) :=
  match takeDigits cs with
  | ([], _) => stuckOr .endInValue .badNumber cs
  | ('0' :: _ :: _, _) => stuck .badNumber (cs.drop 1)
  | (ds, rest) => .ok (ds, rest)

def fractionPart : List Char → Reading (List Char × List Char)
  | '.' :: cs =>
    match takeDigits cs with
    | ([], _) => stuckOr .endInValue .badNumber cs
    | (ds, rest) => .ok (ds, rest)
  | cs => .ok ([], cs)

def signedDigits (cs : List Char) : Reading ((Bool × List Char) × List Char) :=
  let (sign, cs) := match cs with
    | '-' :: cs => (true, cs)
    | '+' :: cs => (false, cs)
    | cs => (false, cs)
  match takeDigits cs with
  | ([], _) => stuckOr .endInValue .badNumber cs
  | (ds, rest) => .ok ((sign, ds), rest)

def exponentPart (cs : List Char) : Reading (Option (Bool × List Char) × List Char) :=
  match cs with
  | 'e' :: cs => (signedDigits cs).map fun r => (some r.1, r.2)
  | 'E' :: cs => (signedDigits cs).map fun r => (some r.1, r.2)
  | cs => .ok (none, cs)

def numeral (cs : List Char) : Reading (Numeral × List Char) := do
  let (negative, cs) := match cs with
    | '-' :: cs => (true, cs)
    | cs => (false, cs)
  let (whole, cs) ← wholePart cs
  let (fraction, cs) ← fractionPart cs
  let (exponent, cs) ← exponentPart cs
  return (⟨negative, whole, fraction, exponent⟩, cs)

/-- A whole number that fits 64 bits is exact; all else is a double. -/
def Numeral.value (n : Numeral) : Option Json :=
  let (s, skipped) := significand 0 n.whole
  if n.fraction.isEmpty && n.exponent.isNone then
    if skipped = 0 then
      if n.negative then
        if s = 0 || -s < Width.least64 then some (.float (-(UInt64.ofNat s).toFloat))
        else some (.int (-s))
      else some (.int s)
    else (scale s skipped).map fun x => .float (negateIf n.negative x)
  else
    let (s, left) := significand s n.fraction
    let start : Int := skipped - (n.fraction.length - left : Nat)
    match n.exponent with
    | none => (scale s start).map fun x => .float (negateIf n.negative x)
    | some (sign, ds) =>
      if exponentOverflows ds then
        if s != 0 && !sign then none else some (.float (negateIf n.negative 0))
      else (scale s (addExponent start sign ds)).map fun x => .float (negateIf n.negative x)

def number (cs : List Char) : Reading (Json × List Char) := do
  let (n, cs) ← numeral cs
  match n.value with
  | some v => return (v, cs)
  | none => throw ⟨.hugeNumber, (n.exponent.bind (pastExponent 0 ·.2)).getD [] ++ cs, 0⟩

end FleetDispatch.Json
