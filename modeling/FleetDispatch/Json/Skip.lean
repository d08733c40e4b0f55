import FleetDispatch.Json.Parser

namespace FleetDispatch.Json

/-- Passes over what is behind a backslash. The digits of an escape may stand for half a pair. -/
def skipEscape : List Char → Reading (List Char)
  | 'u' :: cs => (hex4 cs).map (·.2)
  | cs => (escape cs).map (·.2)

def skipString : Nat → List Char → Reading (List Char)
  | 0, cs => stuck .endInString cs
  | _ + 1, [] => stuck .endInString []
  | _ + 1, '"' :: cs => .ok cs
  | fuel + 1, '\\' :: cs => do
    let cs ← skipEscape cs
    skipString fuel cs
  | fuel + 1, c :: cs =>
    if c.toNat < 0x20 then stuck .controlCharacter (c :: cs) else skipString fuel cs

mutual

/-- Passes over one value, of which only the form counts: a number may be of any size, and lists
and objects may stand inside one another to any depth. -/
def skipValue : Nat → List Char → Reading (List Char)
  | 0, cs => stuck .noValue cs
  | fuel + 1, cs =>
    match skipSpace cs with
    | [] => stuck .endInValue []
    | 'n' :: cs => (literal .null ['u', 'l', 'l'] cs).map (·.2)
    | 't' :: cs => (literal (.bool true) ['r', 'u', 'e'] cs).map (·.2)
    | 'f' :: cs => (literal (.bool false) ['a', 'l', 's', 'e'] cs).map (·.2)
    | '"' :: cs => skipString (cs.length + 1) cs
    | '[' :: cs =>
      match skipSpace cs with
      | ']' :: cs => .ok cs
      | cs => skipItems fuel cs
    | '\x7b' :: cs =>
      match skipSpace cs with
      | '\x7d' :: cs => .ok cs
      | cs => skipFields fuel cs
    | c :: cs =>
      if c = '-' || Decimal.isDigit c then (numeral (c :: cs)).map (·.2)
      else stuck .noValue (c :: cs)

def skipItems : Nat → List Char → Reading (List Char)
  | 0, cs => stuck .noValue cs
  | fuel + 1, cs => do
    let cs ← skipValue fuel cs
    match skipSpace cs with
    | ',' :: cs => skipItems fuel cs
    | ']' :: cs => return cs
    | cs => stuckOr .endInList .noListEnd cs

def skipFields : Nat → List Char → Reading (List Char)
  | 0, cs => stuck .noValue cs
  | fuel + 1, cs =>
    match skipSpace cs with
    | '"' :: cs => do
      let cs ← skipString (cs.length + 1) cs
      let (_, cs) ← colon cs
      let cs ← skipValue fuel cs
      match skipSpace cs with
      | ',' :: cs => skipFields fuel cs
      | '\x7d' :: cs => return cs
      | cs => stuckOr .endInObject .noObjectEnd cs
    | cs => stuckOr .endInObject .keyNotText cs

end

/-- Reads the fields of an object that have one of the names, passes over its other fields, and
reads its end. -/
def namedFields (names : List String) : Nat → List Char → Reading (Fields × List Char)
  | 0, cs => stuck .noValue cs
  | fuel + 1, cs =>
    match skipSpace cs with
    | '"' :: cs => do
      let (k, cs) ← string cs
      let (_, cs) ← colon cs
      let (field, cs) ←
        if names.contains k then
          (value (depthLimit - 1) (2 * cs.length + 2) cs).map fun r => ([(k, r.1)], r.2)
        else (skipValue (2 * cs.length + 2) cs).map fun cs => ([], cs)
      match skipSpace cs with
      | ',' :: cs =>
        match skipSpace cs with
        | '\x7d' :: cs => stuck .trailingComma ('\x7d' :: cs)
        | cs => do
          let (fs, cs) ← namedFields names fuel cs
          return (field ++ fs, cs)
      | '\x7d' :: cs => return (field, cs)
      | cs => stuckOr .endInObject .noObjectEnd cs
    | cs => stuckOr .endInValue .keyNotText cs

def namedDocument (names : List String) (cs : List Char) : Reading Json :=
  match skipSpace cs with
  | '\x7b' :: inner => do
    let (fs, rest) ← match skipSpace inner with
      | '\x7d' :: rest => pure ([], rest)
      | inner => namedFields names (inner.length + 1) inner
    match skipSpace rest with
    | [] => return .obj fs
    | rest => stuck .trailingText rest
  | _ => document cs

def readNamed (names : List String) (s : String) : Except Misreading Json :=
  (namedDocument names s.toList).mapError (Fault.within s.toList)

end FleetDispatch.Json
