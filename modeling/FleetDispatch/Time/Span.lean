import FleetDispatch.Decimal.Digits

namespace FleetDispatch

open Decimal

structure Span where
  millis : Nat
  deriving DecidableEq

/-- The span in its greatest unit of seconds or milliseconds, with the fraction that remains. -/
def Span.text (d : Span) : String :=
  let seconds := d.millis / 1000
  let rest := d.millis % 1000
  if 0 < seconds then
    let fraction := ((padded 3 rest).reverse.dropWhile (· == '0')).reverse
    String.ofList (digits seconds ++ (if fraction.isEmpty then [] else '.' :: fraction)) ++ "s"
  else if 0 < rest then String.ofList (digits rest) ++ "ms"
  else "0ns"

end FleetDispatch
