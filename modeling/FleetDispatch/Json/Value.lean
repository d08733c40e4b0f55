import FleetDispatch.Decimal.Width

namespace FleetDispatch

/-- A JSON value. In a canonical one the fields of every object ascend by key. -/
inductive Json where
  | null
  | bool (b : Bool)
  | int (n : Int)
  | float (x : Float)
  | str (s : String)
  | arr (items : List Json)
  | obj (fields : List (String × Json))
  deriving Inhabited

namespace Json

abbrev Fields := List (String × Json)

/-- Puts a field at its place in an ascending list; a key that is there gets the new value. -/
def insertField (key : String) (value : Json) : Fields → Fields
  | [] => [(key, value)]
  | (k, v) :: rest =>
    if key < k then (key, value) :: (k, v) :: rest
    else if key = k then (key, value) :: rest
    else (k, v) :: insertField key value rest

/-- The ascending fields, where of a repeated key the last value counts. -/
def sortFields (fields : Fields) : Fields :=
  fields.foldl (fun acc f => insertField f.1 f.2 acc) []

mutual

def canonical : Json → Json
  | .arr items => .arr (canonicalItems items)
  | .obj fields => .obj (sortFields (canonicalFields fields))
  | v => v

def canonicalItems : List Json → List Json
  | [] => []
  | v :: vs => canonical v :: canonicalItems vs

def canonicalFields : Fields → Fields
  | [] => []
  | (k, v) :: fs => (k, canonical v) :: canonicalFields fs

end

def field? (key : String) : Json → Option Json
  | .obj fields => fields.lookup key
  | _ => none

def str? : Json → Option String
  | .str s => some s
  | _ => none

def bool? : Json → Option Bool
  | .bool b => some b
  | _ => none

def arr? : Json → Option (List Json)
  | .arr items => some items
  | _ => none

def obj? : Json → Option Fields
  | .obj fields => some fields
  | _ => none

def inRange (low high : Int) : Json → Option Int
  | .int n => if low ≤ n && n ≤ high then some n else none
  | _ => none

def int64? : Json → Option Int :=
  inRange Width.least64 Width.greatest64

def nat32? (v : Json) : Option Nat :=
  (v.inRange 0 Width.most32).map Int.toNat

def ofNat (n : Nat) : Json :=
  .int n

def ofOption (encode : α → Json) : Option α → Json
  | none => .null
  | some a => encode a

end FleetDispatch.Json
