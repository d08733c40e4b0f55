import FleetDispatch.Shell.Job
import FleetDispatch.Shell.Regex

namespace FleetDispatch.Shell.Reckoning

inductive Fault where
  | noWords
  | missingBehind (word : Octets)
  | unexpected (word : Octets)
  | nothingToClose
  | closingExpected (word : Octets)
  | notWhole
  | divisionByZero

def Fault.text : Fault → Octets
  | noWords => "missing operand".toList
  | missingBehind w => "syntax error: missing argument after '".toList ++ w ++ ['\x27']
  | unexpected w => "syntax error: unexpected argument '".toList ++ w ++ ['\x27']
  | nothingToClose => "syntax error: unexpected ')'".toList
  | closingExpected w => "syntax error: expecting ')' after '".toList ++ w ++ ['\x27']
  | notWhole => "non-integer argument".toList
  | divisionByZero => "division by zero".toList

/-- A reader of words knows the one before them. -/
abbrev Reading (α : Type) := Octets → List Octets → Except Fault (α × Octets × List Octets)

def whole? (cs : Octets) : Option Int :=
  match cs with
  | '-' :: ds =>
    if ds.isEmpty || !ds.all Char.isDigit then none else some (-(Decimal.ofDigits 0 ds : Nat))
  | ds => if ds.isEmpty || !ds.all Char.isDigit then none else some (Decimal.ofDigits 0 ds : Nat)

/-- Nothing and zero count as no. -/
def isNull (cs : Octets) : Bool :=
  let ds := match cs with
    | '-' :: ds => ds
    | ds => ds
  cs.isEmpty || (!ds.isEmpty && ds.all (· == '0'))

def number (n : Int) : Octets :=
  (toString n).toList

def truth (b : Bool) : Octets :=
  if b then ['1'] else ['0']

/-- Compares as numbers if both are, and as texts otherwise. -/
def compare (sign : String) (a b : Octets) : Octets :=
  let (less, same) := match whole? a, whole? b with
    | some m, some n => (decide (m < n), m == n)
    | _, _ => (decide (a < b), a == b)
  truth (match sign with
    | "<" => less
    | "<=" => less || same
    | "=" => same
    | "==" => same
    | "!=" => !same
    | ">=" => !less
    | _ => !less && !same)

def arithmetic (sign : String) (a b : Octets) : Except Fault Octets :=
  match whole? a, whole? b with
  | some m, some n =>
    match sign with
    | "+" => .ok (number (m + n))
    | "-" => .ok (number (m - n))
    | "*" => .ok (number (m * n))
    | "/" => if n = 0 then .error .divisionByZero else .ok (number (Int.tdiv m n))
    | _ => if n = 0 then .error .divisionByZero else .ok (number (Int.tmod m n))
  | _, _ => .error .notWhole

/-- What an expression fits at the beginning of a text: its first group, or else its length. -/
def fitted (text pattern : Octets) : Octets :=
  let hasGroup := "\\(".toList.isPrefixOf pattern || (pattern.zip (pattern.drop 1)).contains
    ('\\', '(')
  match (Regex.ofOctets? false pattern).bind fun r => r.runAt false ⟨true, text, []⟩ with
  | some spot =>
    if hasGroup then (spot.groups.lookup 1).getD []
    else number (text.length - spot.rest.length : Nat)
  | none => if hasGroup then [] else ['0']

def portion (text place length : Octets) : Octets :=
  match whole? place, whole? length with
  | some p, some n => if p ≤ 0 || n ≤ 0 then [] else (text.drop (p.toNat - 1)).take n.toNat
  | _, _ => []

def placeOf (text chars : Octets) : Octets :=
  match text.findIdx? chars.contains with
  | some i => number (i + 1 : Nat)
  | none => ['0']

/-- The signs that join two values, those that bind most loosely first. -/
def ranks : List (List String) :=
  [["|"], ["&"], ["<", "<=", "=", "==", "!=", ">=", ">"], ["+", "-"], ["*", "/", "%"], [":"]]

def join (sign : String) (a b : Octets) : Except Fault Octets :=
  match sign with
  | "|" => .ok (if !isNull a then a else if !isNull b then b else ['0'])
  | "&" => .ok (if isNull a || isNull b then ['0'] else a)
  | ":" => .ok (fitted a b)
  | sign =>
    if (ranks.getD 2 []).contains sign then .ok (compare sign a b) else arithmetic sign a b

mutual

def joined : Nat → List (List String) → Reading Octets
  | 0, _, last, _ => .error (.missingBehind last)
  | n + 1, [], last, ws => single n last ws
  | n + 1, signs :: ranks, last, ws => do
    let (a, last, ws) ← joined n ranks last ws
    joinMore n signs ranks a last ws

def joinMore : Nat → List String → List (List String) → Octets → Reading Octets
  | 0, _, _, _, last, _ => .error (.missingBehind last)
  | n + 1, signs, ranks, a, last, ws =>
    match ws with
    | [] => .ok (a, last, [])
    | w :: rest =>
      let sign := String.ofList w
      if signs.contains sign then do
        let (b, last, rest) ← joined n ranks w rest
        let v ← join sign a b
        joinMore n signs ranks v last rest
      else .ok (a, last, ws)

def single : Nat → Reading Octets
  | 0, last, _ => .error (.missingBehind last)
  | n + 1, last, ws =>
    match ws with
    | [] => .error (.missingBehind last)
    | w :: rest =>
      match String.ofList w with
      | "+" =>
        match rest with
        | v :: rest => .ok (v, v, rest)
        | [] => .error (.missingBehind w)
      | "(" => do
        let (v, last, rest) ← joined n ranks w rest
        match rest with
        | [')'] :: rest => .ok (v, [')'], rest)
        | _ => .error (.closingExpected last)
      | ")" => .error .nothingToClose
      | "length" => do
        let (v, last, rest) ← single n w rest
        .ok (number (v.length : Nat), last, rest)
      | "match" => do
        let (a, last, rest) ← single n w rest
        let (b, last, rest) ← single n last rest
        .ok (fitted a b, last, rest)
      | "index" => do
        let (a, last, rest) ← single n w rest
        let (b, last, rest) ← single n last rest
        .ok (placeOf a b, last, rest)
      | "substr" => do
        let (a, last, rest) ← single n w rest
        let (b, last, rest) ← single n last rest
        let (c, last, rest) ← single n last rest
        .ok (portion a b c, last, rest)
      | _ => .ok (w, w, rest)

end

def value (ws : List Octets) : Except Fault Octets := do
  if ws.isEmpty then throw .noWords
  let (v, _, rest) ← joined (16 * ws.length + 32) ranks [] ws
  match rest with
  | [] => return v
  | w :: _ => throw (.unexpected w)

/-- Writes the value of its arguments. Its status tells whether that counts as yes. -/
def expr (j : Job) : Effect :=
  let ws := match j.args with
    | ['-', '-'] :: ws => ws
    | ws => ws
  match value ws with
  | .ok v => ⟨v ++ ['\n'], [], if isNull v then 1 else 0, false⟩
  | .error .noWords => j.misused "missing operand" 2
  | .error f => j.fails f.text 2

end FleetDispatch.Shell.Reckoning
