import FleetDispatch.Decimal.Digits

namespace FleetDispatch.Decimal

/-- A finite binary floating-point number `mantissa * 2 ^ exponent`, `narrow` when its lower
neighbour is only half as far as its upper one. -/
structure Binary where
  mantissa : Nat
  exponent : Int
  narrow : Bool

def Binary.ofBits (bits : UInt64) : Binary :=
  let fraction : Nat := bits.toNat % Nat.pow 2 52
  let biased : Nat := bits.toNat / Nat.pow 2 52 % Nat.pow 2 11
  if biased = 0 then ⟨fraction, -1074, false⟩
  else ⟨Nat.pow 2 52 + fraction, (biased : Int) - 1075, fraction == 0 && biased != 1⟩

/-- A positive number as a fraction of four times its units, with the ends of the interval of
reals that round to it. -/
structure Target where
  low : Nat
  value : Nat
  high : Nat
  unit : Nat
  closed : Bool

def Binary.target (b : Binary) : Target :=
  let scale := Nat.pow 2 b.exponent.toNat
  ⟨(4 * b.mantissa - if b.narrow then 1 else 2) * scale, 4 * b.mantissa * scale,
    (4 * b.mantissa + 2) * scale, 4 * Nat.pow 2 (-b.exponent).toNat, b.mantissa % 2 == 0⟩

/-- The `k` with `10 ^ (k - 1) ≤ value < 10 ^ k`. -/
def Target.magnitude (t : Target) : Int :=
  if t.unit ≤ t.value then (digits (t.value / t.unit)).length
  else 1 - (digits ((t.unit + t.value - 1) / t.value - 1)).length

def Target.admits (t : Target) (places : Int) (a : Nat) : Bool :=
  let x := a * Nat.pow 10 (-places).toNat * t.unit
  let p := Nat.pow 10 places.toNat
  if t.closed then t.low * p ≤ x && x ≤ t.high * p else t.low * p < x && x < t.high * p

def Target.onGrid (t : Target) (places : Int) : Option Nat :=
  let num := t.value * Nat.pow 10 places.toNat
  let den := t.unit * Nat.pow 10 (-places).toNat
  let a := num / den
  let twice := 2 * (num % den)
  let downFirst := twice < den || (twice == den && a % 2 == 0)
  let candidates := if downFirst then [a, a + 1] else [a + 1, a]
  candidates.find? (t.admits places)

/-- The fewest significant digits that read back as the number, tried from `n` digits on. -/
def Target.shortest (t : Target) (k : Int) : Nat → Nat → Nat × Int
  | 0, n => ((t.onGrid (n - k)).getD 0, k - n)
  | fuel + 1, n =>
    match t.onGrid (n - k) with
    | some a => (a, k - n)
    | none => t.shortest k fuel (n + 1)

def stripZeros (a : Nat) (e : Int) : Nat → Nat × Int
  | 0 => (a, e)
  | fuel + 1 => if a % 10 = 0 && a != 0 then stripZeros (a / 10) (e + 1) fuel else (a, e)

/-- The shortest decimal `a * 10 ^ e` that reads back as the positive double with these bits. -/
def shortest (bits : UInt64) : Nat × Int :=
  let t := (Binary.ofBits bits).target
  let (a, e) := t.shortest t.magnitude 16 1
  stripZeros a e 400

end FleetDispatch.Decimal
