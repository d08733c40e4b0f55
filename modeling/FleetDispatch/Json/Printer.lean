import FleetDispatch.Decimal.Shortest
import FleetDispatch.Json.Value

namespace FleetDispatch.Json

open Decimal

/-- A number is written positionally while the power of ten of its first digit lies in this
range, and with an exponent outside of it. -/
structure PositionalRange where
  least : Int
  greatest : Int

def positionalRange : PositionalRange := ⟨-5, 15⟩

def zeros (n : Nat) : List Char :=
  List.replicate n '0'

def scientific (range : PositionalRange) (ds : List Char) (e : Int) : List Char :=
  let lead := ds.length + e - 1
  if range.least ≤ lead && lead ≤ range.greatest then
    if 0 ≤ e then ds ++ zeros e.toNat ++ ['.', '0']
    else if 0 ≤ lead then ds.take (lead.toNat + 1) ++ '.' :: ds.drop (lead.toNat + 1)
    else '0' :: '.' :: zeros (-lead - 1).toNat ++ ds
  else
    let fraction := match ds.drop 1 with
      | [] => []
      | rest => '.' :: rest
    ds.take 1 ++ fraction ++ 'e' :: (if lead < 0 then '-' else '+') :: digits lead.natAbs

def floatChars (x : Float) : List Char :=
  let bits := x.toBits
  let magnitude := if bits.toNat % Nat.pow 2 63 = 0 then ['0', '.', '0']
    else
      let (a, e) := shortest bits
      scientific positionalRange (digits a) e
  if bits.toNat < Nat.pow 2 63 then magnitude else '-' :: magnitude

def hexDigit (n : Nat) : Char :=
  if n % 16 < 10 then Char.ofNat (48 + n % 16) else Char.ofNat (87 + n % 16)

/-- Quotes, backslashes and the characters below the blank are escaped, nothing else is. -/
def escapeChar (c : Char) : List Char :=
  if c = '"' then ['\\', '"']
  else if c = '\\' then ['\\', '\\']
  else if 0x20 ≤ c.toNat then [c]
  else match c.toNat with
    | 8 => ['\\', 'b']
    | 9 => ['\\', 't']
    | 10 => ['\\', 'n']
    | 12 => ['\\', 'f']
    | 13 => ['\\', 'r']
    | n => ['\\', 'u', '0', '0', hexDigit (n / 16), hexDigit n]

def quoted (s : String) : List Char :=
  '"' :: s.toList.flatMap escapeChar ++ ['"']

mutual

def chars : Json → List Char
  | .null => ['n', 'u', 'l', 'l']
  | .bool true => ['t', 'r', 'u', 'e']
  | .bool false => ['f', 'a', 'l', 's', 'e']
  | .int n => signed n
  | .float x => floatChars x
  | .str s => quoted s
  | .arr [] => ['[', ']']
  | .arr (v :: vs) => '[' :: chars v ++ moreItems vs
  | .obj [] => ['\x7b', '\x7d']
  | .obj ((k, v) :: fs) => '\x7b' :: quoted k ++ ':' :: chars v ++ moreFields fs

def moreItems : List Json → List Char
  | [] => [']']
  | v :: vs => ',' :: chars v ++ moreItems vs

def moreFields : Fields → List Char
  | [] => ['\x7d']
  | (k, v) :: fs => ',' :: quoted k ++ ':' :: chars v ++ moreFields fs

end

def compact (v : Json) : String :=
  String.ofList (chars v)

/-- A string stands for itself, any other value for its compact text. -/
def render : Json → String
  | .str s => s
  | v => v.compact

def newLine (depth : Nat) : List Char :=
  '\n' :: List.replicate (2 * depth) ' '

mutual

def linesAt (depth : Nat) : Json → List Char
  | .arr [] => ['[', ']']
  | .arr (v :: vs) => '[' :: newLine (depth + 1) ++ linesAt (depth + 1) v ++ itemLines depth vs
  | .obj [] => ['\x7b', '\x7d']
  | .obj ((k, v) :: fs) =>
    '\x7b' :: newLine (depth + 1) ++ quoted k ++ ':' :: ' ' :: linesAt (depth + 1) v ++
      fieldLines depth fs
  | v => chars v

def itemLines (depth : Nat) : List Json → List Char
  | [] => newLine depth ++ [']']
  | v :: vs => ',' :: newLine (depth + 1) ++ linesAt (depth + 1) v ++ itemLines depth vs

def fieldLines (depth : Nat) : Fields → List Char
  | [] => newLine depth ++ ['\x7d']
  | (k, v) :: fs =>
    ',' :: newLine (depth + 1) ++ quoted k ++ ':' :: ' ' :: linesAt (depth + 1) v ++
      fieldLines depth fs

end

def pretty (v : Json) : String :=
  String.ofList (linesAt 0 v)

end FleetDispatch.Json
