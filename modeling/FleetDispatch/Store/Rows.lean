namespace FleetDispatch

class Row (α : Type) (κ : outParam Type) where
  key : α → κ
  before : κ → κ → Bool

namespace Rows

variable {α κ : Type} [Row α κ] [DecidableEq κ]

def find? (k : κ) (rows : List α) : Option α :=
  rows.find? fun r => Row.key r = k

/-- Puts a row at its place among ascending rows; it takes the place of one with its key. -/
def put (row : α) : List α → List α
  | [] => [row]
  | r :: rows =>
    if Row.key r = Row.key row then row :: rows
    else if Row.before α (Row.key row) (Row.key r) then row :: r :: rows
    else r :: put row rows

/-- Puts a row in unless its key is there already. -/
def ensure (row : α) (rows : List α) : List α :=
  if (find? (Row.key row) rows).isSome then rows else put row rows

def update (k : κ) (f : α → α) (rows : List α) : List α × Nat :=
  (rows.map fun r => if Row.key r = k then f r else r,
    rows.countP fun r => Row.key r = k)

def delete (k : κ) (rows : List α) : List α × Nat :=
  (rows.filter fun r => Row.key r ≠ k, rows.countP fun r => Row.key r = k)

end Rows

def insertName (s : String) : List String → List String
  | [] => [s]
  | t :: ts => if s = t then t :: ts else if s < t then s :: t :: ts else t :: insertName s ts

def sortedNames (names : List String) : List String :=
  names.foldl (fun acc s => insertName s acc) []

end FleetDispatch
