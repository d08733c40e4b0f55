namespace FleetDispatch

/-- A point in time: whole seconds since 1970 and the nanoseconds into that second. A leap second
is the second before it carried on, with nanoseconds from a thousand million up. -/
structure Instant where
  seconds : Int
  nanos : Nat
  deriving DecidableEq, Inhabited, Repr

namespace Instant

protected def le (a b : Instant) : Prop :=
  a.seconds < b.seconds ∨ (a.seconds = b.seconds ∧ a.nanos ≤ b.nanos)

instance : LE Instant := ⟨Instant.le⟩

instance (a b : Instant) : Decidable (a ≤ b) :=
  inferInstanceAs (Decidable (_ ∨ _))

def toMillis (t : Instant) : Int :=
  t.seconds * 1000 + (t.nanos / 1000000 : Nat)

/-- The first millisecond of the year -262143. -/
def leastMillis : Int := -8334601228800000

/-- The last millisecond of the year 262142. -/
def greatestMillis : Int := 8210266876799999

def ofMillis? (ms : Int) : Option Instant :=
  if leastMillis ≤ ms ∧ ms ≤ greatestMillis then
    some ⟨ms / 1000, (ms % 1000).toNat * 1000000⟩
  else none

def floorMillis? (t : Instant) : Option Instant :=
  ofMillis? t.toMillis

def addSeconds (t : Instant) (n : Int) : Instant :=
  { t with seconds := t.seconds + n }

end FleetDispatch.Instant
