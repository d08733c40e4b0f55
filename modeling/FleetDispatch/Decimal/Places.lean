import FleetDispatch.Decimal.Digits

namespace FleetDispatch.Decimal

/-- The whole number next to a ratio; a tie goes to the even one. -/
def roundRatio (num den : Nat) : Nat :=
  let q := num / den
  let twice := 2 * (num % den)
  if twice < den || (twice == den && q % 2 == 0) then q else q + 1

def withPoint (places n : Nat) : List Char :=
  let ds := padded (places + 1) n
  let whole := ds.take (ds.length - places)
  if places = 0 then whole else whole ++ '.' :: ds.drop (ds.length - places)

def fixed (places num den : Nat) : List Char :=
  withPoint places (roundRatio (num * Nat.pow 10 places) den)

def leadingPower (num den : Nat) : Int :=
  if den ≤ num then ((digits (num / den)).length : Int) - 1
  else -((digits ((den - 1) / num)).length : Int)

/-- A positive ratio rounded to one digit before the point and some behind it: those digits, and
the power of ten. -/
def scientificParts (places num den : Nat) : Nat × Int :=
  let e := leadingPower num den
  let shift := (places : Int) - e
  let n := roundRatio (num * Nat.pow 10 shift.toNat) (den * Nat.pow 10 (-shift).toNat)
  if Nat.pow 10 (places + 1) ≤ n then (n / 10, e + 1) else (n, e)

end FleetDispatch.Decimal
