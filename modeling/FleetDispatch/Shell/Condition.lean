import FleetDispatch.Shell.Arithmetic
import FleetDispatch.Shell.State

namespace FleetDispatch.Shell

inductive Lexeme where
  | finish
  | operand
  | unary (sign : String)
  | binary (sign : String)
  | not
  | and
  | or
  | opening
  | closing
  deriving DecidableEq

namespace Lexeme

def unarySigns : List String :=
  ["-b", "-c", "-d", "-e", "-f", "-g", "-G", "-h", "-k", "-L", "-n", "-O", "-p", "-r", "-s", "-S",
    "-t", "-u", "-w", "-x", "-z"]

def binarySigns : List String :=
  ["=", "!=", "<", ">", "-eq", "-ne", "-gt", "-ge", "-lt", "-le", "-nt", "-ot", "-ef"]

def sign? (w : Octets) : Option Lexeme :=
  let s := String.ofList w
  if unarySigns.contains s then some (unary s)
  else if binarySigns.contains s then some (binary s)
  else match s with
    | "!" => some not
    | "-a" => some and
    | "-o" => some or
    | "(" => some opening
    | ")" => some closing
    | _ => none

def isBinary (w : Octets) : Bool :=
  match sign? w with
  | some (binary _) => true
  | _ => false

def isOperand (rest : List Octets) : Bool :=
  match rest with
  | [] => true
  | [_] => false
  | w :: _ => isBinary w

def ofWords : List Octets → Lexeme
  | [] => finish
  | w :: rest =>
    match sign? w with
    | some (unary s) => if isOperand rest then operand else unary s
    | some opening => if rest.isEmpty then operand else opening
    | some l => l
    | none => operand

end Lexeme

abbrev Judging := Except Octets

def decimal (cs : Octets) : Judging Int :=
  let trimmed := cs.dropWhile isSpaceChar
  let (negative, ds) := match trimmed with
    | '-' :: ds => (true, ds)
    | '+' :: ds => (false, ds)
    | ds => (false, ds)
  let digits := ds.takeWhile Char.isDigit
  let n : Int := Decimal.ofDigits 0 digits
  let v := if negative then -n else n
  if digits.isEmpty || !(ds.drop digits.length).all isSpaceChar || v < Width.least64 ||
      Width.greatest64 < v then
    .error ("Illegal number: ".toList ++ cs)
  else .ok v

def judgeFile (s : State) (sign : String) (path : Octets) : Bool :=
  match (s.look path).toOption with
  | none => false
  | some e =>
    match sign with
    | "-d" => e.isDirectory
    | "-f" =>
      match e with
      | .file _ => true
      | .program => true
      | .database _ => true
      | _ => false
    | "-c" =>
      match e with
      | .device => true
      | _ => false
    | "-s" =>
      match e with
      | .file cs => !cs.isEmpty
      | .device => false
      | _ => true
    | "-x" =>
      match e with
      | .program => true
      | e => e.isDirectory
    | "-e" => true
    | "-r" => true
    | "-w" => true
    | "-O" => true
    | "-G" => true
    | _ => false

def judgeUnary (s : State) (sign : String) (w : Octets) : Judging Bool :=
  match sign with
  | "-n" => .ok (!w.isEmpty)
  | "-z" => .ok w.isEmpty
  | "-t" => (decimal w).map fun _ => false
  | sign => .ok (judgeFile s sign w)

def judgeBinary (sign : String) (a b : Octets) : Judging Bool :=
  match sign with
  | "=" => .ok (a == b)
  | "!=" => .ok (a != b)
  | "<" => .ok (a < b)
  | ">" => .ok (b < a)
  | "-eq" => do return (← decimal a) == (← decimal b)
  | "-ne" => do return (← decimal a) != (← decimal b)
  | "-lt" => do return (← decimal a) < (← decimal b)
  | "-le" => do return (← decimal a) ≤ (← decimal b)
  | "-gt" => do return (← decimal b) < (← decimal a)
  | "-ge" => do return (← decimal b) ≤ (← decimal a)
  | "-ef" => .ok (a == b)
  | _ => .ok false

mutual

/-- Judges conditions of which one must hold. Each judge gives the words from the last one that it
looked at. -/
def judgeSome (s : State) : Nat → Lexeme → List Octets → Judging (Bool × List Octets)
  | 0, _, ws => .ok (false, ws)
  | n + 1, l, ws => do
    let (a, ws) ← judgeEach s n l ws
    if Lexeme.ofWords (ws.drop 1) = .or then
      let ws := ws.drop 2
      let (b, ws) ← judgeSome s n (Lexeme.ofWords ws) ws
      return (a || b, ws)
    return (a, ws)

def judgeEach (s : State) : Nat → Lexeme → List Octets → Judging (Bool × List Octets)
  | 0, _, ws => .ok (false, ws)
  | n + 1, l, ws => do
    let (a, ws) ← judgeOne s n l ws
    if Lexeme.ofWords (ws.drop 1) = .and then
      let ws := ws.drop 2
      let (b, ws) ← judgeEach s n (Lexeme.ofWords ws) ws
      return (a && b, ws)
    return (a, ws)

def judgeOne (s : State) : Nat → Lexeme → List Octets → Judging (Bool × List Octets)
  | 0, _, ws => .ok (false, ws)
  | n + 1, l, ws =>
    match l, ws with
    | .not, _ :: rest => do
      let l := Lexeme.ofWords rest
      let (a, ws) ← judgeOne s n l (if l = .finish then ws else rest)
      return (!a, ws)
    | .finish, ws => .ok (false, ws)
    | .opening, _ :: rest => do
      let l := Lexeme.ofWords rest
      if l = .closing then return (false, rest)
      let (a, ws) ← judgeSome s n l rest
      if Lexeme.ofWords (ws.drop 1) = .closing then return (a, ws.drop 1)
      throw "closing paren expected".toList
    | .unary sign, w :: rest =>
      match rest with
      | [] => .error (w ++ ": argument expected".toList)
      | v :: _ => do return (← judgeUnary s sign v, rest)
    | _, w :: rest =>
      match Lexeme.ofWords rest with
      | .binary sign =>
        match rest.drop 1 with
        | [] => .error (sign.toList ++ ": argument expected".toList)
        | v :: _ => do return (← judgeBinary sign w v, rest.drop 1)
      | _ => .ok (!w.isEmpty, ws)
    | _, [] => .ok (false, [])

end

def judgeWords (s : State) (ws : List Octets) : Judging Bool := do
  let (a, rest) ← judgeSome s (3 * ws.length + 8) (Lexeme.ofWords ws) ws
  match rest with
  | w :: _ :: _ => throw (w ++ ": unexpected operator".toList)
  | _ => return a

/-- Judges a condition. The number of its words decides first what they are. -/
def judge (s : State) : List Octets → Judging Bool
  | [] => .ok false
  | [w] => judgeWords s [w]
  | [a, b] => judgeWords s [a, b]
  | [a, b, c] =>
    if Lexeme.isBinary b then judgeWords s [a, b, c]
    else if a == ['('] && c == [')'] then judgeWords s [b]
    else if a == ['!'] then (judge s [b, c]).map not
    else judgeWords s [a, b, c]
  | [a, b, c, d] =>
    if a == ['('] && d == [')'] then judgeWords s [b, c]
    else if a == ['!'] then (judge s [b, c, d]).map not
    else judgeWords s [a, b, c, d]
  | ws => judgeWords s ws

end FleetDispatch.Shell
