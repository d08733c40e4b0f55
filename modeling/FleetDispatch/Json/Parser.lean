import FleetDispatch.Json.Number

namespace FleetDispatch.Json

def isSpace (c : Char) : Bool :=
  c == ' ' || c == '\n' || c == '\t' || c == '\r'

def skipSpace (cs : List Char) : List Char :=
  cs.dropWhile isSpace

def hexValue (c : Char) : Option Nat :=
  let n := c.toNat
  if 48 ≤ n && n ≤ 57 then some (n - 48)
  else if 65 ≤ n && n ≤ 70 then some (n - 55)
  else if 97 ≤ n && n ≤ 102 then some (n - 87)
  else none

def hex4 (cs : List Char) : Reading (Nat × List Char) :=
  match cs with
  | a :: b :: c :: d :: rest =>
    match hexValue a, hexValue b, hexValue c, hexValue d with
    | some a, some b, some c, some d => .ok (((a * 16 + b) * 16 + c) * 16 + d, rest)
    | _, _, _, _ => .error ⟨.badEscape, cs, 4⟩
  | _ =>
    if octetsOf cs < 4 then .error ⟨.endInString, [], 0⟩ else .error ⟨.badEscape, cs, 4⟩

def isLeading (n : Nat) : Bool :=
  0xD800 ≤ n && n < 0xDC00

def isTrailing (n : Nat) : Bool :=
  0xDC00 ≤ n && n < 0xE000

def trailingSurrogate : List Char → Reading (Nat × List Char)
  | '\\' :: 'u' :: cs => do
    let (n, cs) ← hex4 cs
    if isTrailing n then return (n, cs) else throw ⟨.loneSurrogate, cs, 0⟩
  | '\\' :: cs => stuckOr .endInString .unfinishedPair cs
  | cs => stuckOr .endInString .unfinishedPair cs

/-- A character above the basic plane is written as a pair of surrogates; a surrogate without its
partner is refused. -/
def unicodeEscape (cs : List Char) : Reading (Char × List Char) := do
  let (n, cs) ← hex4 cs
  if isTrailing n then throw ⟨.loneSurrogate, cs, 0⟩
  else if isLeading n then
    let (m, cs) ← trailingSurrogate cs
    return (Char.ofNat (0x10000 + (n - 0xD800) * 0x400 + (m - 0xDC00)), cs)
  else return (Char.ofNat n, cs)

def escape : List Char → Reading (Char × List Char)
  | '"' :: cs => .ok ('"', cs)
  | '\\' :: cs => .ok ('\\', cs)
  | '/' :: cs => .ok ('/', cs)
  | 'b' :: cs => .ok ('\x08', cs)
  | 'f' :: cs => .ok ('\x0c', cs)
  | 'n' :: cs => .ok ('\n', cs)
  | 'r' :: cs => .ok ('\r', cs)
  | 't' :: cs => .ok ('\t', cs)
  | 'u' :: cs => unicodeEscape cs
  | cs => stuckOr .endInString .badEscape cs

def stringRest : Nat → List Char → Reading (List Char × List Char)
  | 0, cs => stuck .endInString cs
  | _ + 1, [] => stuck .endInString []
  | _ + 1, '"' :: cs => .ok ([], cs)
  | fuel + 1, '\\' :: cs => do
    let (c, cs) ← escape cs
    let (s, cs) ← stringRest fuel cs
    return (c :: s, cs)
  | fuel + 1, c :: cs =>
    if c.toNat < 0x20 then stuck .controlCharacter (c :: cs)
    else do
      let (s, cs) ← stringRest fuel cs
      return (c :: s, cs)

def string (cs : List Char) : Reading (String × List Char) := do
  let (s, cs) ← stringRest (cs.length + 1) cs
  return (String.ofList s, cs)

def literal (v : Json) : List Char → List Char → Reading (Json × List Char)
  | [], cs => .ok (v, cs)
  | _ :: _, [] => stuck .endInValue []
  | l :: ls, c :: cs => if c = l then literal v ls cs else stuck .noLiteral (c :: cs)

def colon (cs : List Char) : Reading (Unit × List Char) :=
  match skipSpace cs with
  | ':' :: cs => .ok ((), cs)
  | cs => stuckOr .endInObject .noColon cs

mutual

/-- Reads one value with at most `depth` lists and objects inside one another. -/
def value (depth : Nat) : Nat → List Char → Reading (Json × List Char)
  | 0, cs => stuck .noValue cs
  | fuel + 1, cs =>
    match skipSpace cs with
    | [] => stuck .endInValue []
    | 'n' :: cs => literal .null ['u', 'l', 'l'] cs
    | 't' :: cs => literal (.bool true) ['r', 'u', 'e'] cs
    | 'f' :: cs => literal (.bool false) ['a', 'l', 's', 'e'] cs
    | '"' :: cs => do
      let (s, cs) ← string cs
      return (.str s, cs)
    | '[' :: cs =>
      if depth = 0 then stuck .tooDeep ('[' :: cs)
      else match skipSpace cs with
        | [] => stuck .endInList []
        | ']' :: cs => .ok (.arr [], cs)
        | cs => do
          let (vs, cs) ← items (depth - 1) fuel cs
          return (.arr vs, cs)
    | '\x7b' :: cs =>
      if depth = 0 then stuck .tooDeep ('\x7b' :: cs)
      else match skipSpace cs with
        | [] => stuck .endInObject []
        | '\x7d' :: cs => .ok (.obj [], cs)
        | cs => do
          let (fs, cs) ← fields (depth - 1) fuel cs
          return (.obj fs, cs)
    | c :: cs => if c = '-' || Decimal.isDigit c then number (c :: cs) else stuck .noValue (c :: cs)

def items (depth : Nat) : Nat → List Char → Reading (List Json × List Char)
  | 0, cs => stuck .noValue cs
  | fuel + 1, cs => do
    let (v, cs) ← value depth fuel cs
    match skipSpace cs with
    | ',' :: cs =>
      match skipSpace cs with
      | ']' :: cs => stuck .trailingComma (']' :: cs)
      | cs => do
        let (vs, cs) ← items depth fuel cs
        return (v :: vs, cs)
    | ']' :: cs => return ([v], cs)
    | cs => stuckOr .endInList .noListEnd cs

def fields (depth : Nat) : Nat → List Char → Reading (Fields × List Char)
  | 0, cs => stuck .noValue cs
  | fuel + 1, cs =>
    match skipSpace cs with
    | '"' :: cs => do
      let (k, cs) ← string cs
      let (_, cs) ← colon cs
      let (v, cs) ← value depth fuel cs
      match skipSpace cs with
      | ',' :: cs =>
        match skipSpace cs with
        | '\x7d' :: cs => stuck .trailingComma ('\x7d' :: cs)
        | cs => do
          let (fs, cs) ← fields depth fuel cs
          return ((k, v) :: fs, cs)
      | '\x7d' :: cs => return ([(k, v)], cs)
      | cs => stuckOr .endInObject .noObjectEnd cs
    | cs => stuckOr .endInValue .keyNotText cs

end

def depthLimit : Nat := 127

def document (cs : List Char) : Reading Json := do
  let (v, rest) ← value depthLimit (2 * cs.length + 2) cs
  match skipSpace rest with
  | [] => return v
  | rest => stuck .trailingText rest

/-- Reads a text as one value, with the fields of its objects as they are written. -/
def read (s : String) : Except Misreading Json :=
  (document s.toList).mapError (Fault.within s.toList)

def parse (s : String) : Except Misreading Json :=
  (read s).map canonical

end FleetDispatch.Json
