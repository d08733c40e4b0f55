import FleetDispatch.Json.Printer

namespace FleetDispatch.Program

def hexOctet (n : Nat) : List Char :=
  [Json.hexDigit (n / 16), Json.hexDigit n]

def octets (count n : Nat) : List Nat :=
  (List.range count).reverse.map fun i => n / Nat.pow 256 i % 256

def grouped : List Nat → List Char → List Char
  | [], _ => []
  | [n], ds => ds.take n
  | n :: ns, ds => ds.take n ++ '-' :: grouped ns (ds.drop n)

/-- The name of a cycle: a UUID of version 7, which starts with the time in milliseconds. -/
def cycleId (millis : Nat) (random : List Nat) : String :=
  let marked := random.mapIdx fun i n =>
    if i = 0 then 0x70 + n % 16 else if i = 2 then 0x80 + n % 64 else n
  String.ofList (grouped [8, 4, 4, 4, 12] ((octets 6 millis ++ marked).flatMap hexOctet))

end FleetDispatch.Program
