import FleetDispatch.Decimal.Digits
import FleetDispatch.Decimal.Width
import FleetDispatch.Shell.Pattern
import FleetDispatch.Shell.Syntax

namespace FleetDispatch.Shell

inductive Operation where
  | mul
  | div
  | rem
  | add
  | sub
  | shiftLeft
  | shiftRight
  | less
  | atMost
  | greater
  | atLeast
  | equal
  | differs
  | bitAnd
  | bitXor
  | bitOr
  deriving DecidableEq

inductive Expr where
  | number (n : Int)
  | name (name : Octets)
  | negative (e : Expr)
  | complement (e : Expr)
  | not (e : Expr)
  | binary (op : Operation) (a b : Expr)
  | both (a b : Expr)
  | either (a b : Expr)
  | choose (condition yes no : Expr)
  | assign (name : Octets) (op : Option Operation) (e : Expr)

inductive SumFault where
  | form (message : String)
  | notANumber (text : Octets)
  deriving DecidableEq

namespace Operation

def signs : List (String × Operation) :=
  [("<<", shiftLeft), (">>", shiftRight), ("<=", atMost), (">=", atLeast), ("==", equal),
    ("!=", differs), ("*", mul), ("/", div), ("%", rem), ("+", add), ("-", sub), ("<", less),
    (">", greater), ("&", bitAnd), ("^", bitXor), ("|", bitOr)]

/-- The rank of an operation; lower ones bind more tightly. -/
def rank : Operation → Nat
  | mul => 0
  | div => 0
  | rem => 0
  | add => 1
  | sub => 1
  | shiftLeft => 2
  | shiftRight => 2
  | less => 3
  | atMost => 3
  | greater => 3
  | atLeast => 3
  | equal => 4
  | differs => 4
  | bitAnd => 5
  | bitXor => 6
  | bitOr => 7

def wrap (n : Int) : Int :=
  Int.bmod n (Width.most64 + 1)

def bits (n : Int) : Nat :=
  (n % (Width.most64 + 1)).toNat

def ofBool (b : Bool) : Int :=
  if b then 1 else 0

def apply (a b : Int) : Operation → Except SumFault Int
  | mul => .ok (wrap (a * b))
  | div => if b = 0 then .error (.form "division by zero") else .ok (wrap (Int.tdiv a b))
  | rem => if b = 0 then .error (.form "division by zero") else .ok (Int.tmod a b)
  | add => .ok (wrap (a + b))
  | sub => .ok (wrap (a - b))
  | shiftLeft => .ok (wrap (a * (Nat.pow 2 (bits b % 64) : Nat)))
  | shiftRight => .ok (Int.fdiv a (Nat.pow 2 (bits b % 64) : Nat))
  | less => .ok (ofBool (a < b))
  | atMost => .ok (ofBool (a ≤ b))
  | greater => .ok (ofBool (b < a))
  | atLeast => .ok (ofBool (b ≤ a))
  | equal => .ok (ofBool (a == b))
  | differs => .ok (ofBool (a != b))
  | bitAnd => .ok (wrap (Nat.land (bits a) (bits b) : Nat))
  | bitXor => .ok (wrap (Nat.xor (bits a) (bits b) : Nat))
  | bitOr => .ok (wrap (Nat.lor (bits a) (bits b) : Nat))

end Operation

def digitIn (base : Nat) (c : Char) : Option Nat :=
  let n := c.toNat
  let v :=
    if c.isDigit then n - 48
    else if 'a' ≤ c && c ≤ 'f' then n - 87
    else if 'A' ≤ c && c ≤ 'F' then n - 55
    else 16
  if v < base then some v else none

/-- The digits of a number without its sign, read in the base that it begins with. -/
def unsigned (cs : Octets) : Nat × Octets :=
  let (base, cs) := match cs with
    | '0' :: x :: d :: rest =>
      if (x == 'x' || x == 'X') && (digitIn 16 d).isSome then (16, d :: rest)
      else (8, '0' :: x :: d :: rest)
    | '0' :: rest => (8, '0' :: rest)
    | cs => (10, cs)
  let ds := cs.takeWhile fun c => (digitIn base c).isSome
  (ds.foldl (fun n c => n * base + (digitIn base c).getD 0) 0, cs.drop ds.length)

def numberOf (cs : Octets) : Except SumFault Int :=
  let trimmed := cs.dropWhile isSpaceChar
  let (negative, ds) := match trimmed with
    | '-' :: ds => (true, ds)
    | '+' :: ds => (false, ds)
    | ds => (false, ds)
  let (n, rest) := unsigned ds
  let value : Int := if negative then -n else n
  let hasDigits := (ds.head?.map Char.isDigit).getD false
  let rest := if hasDigits then rest else trimmed
  if rest.all isSpaceChar && Width.least64 ≤ value && value ≤ Width.greatest64 then
    .ok (if hasDigits then value else 0)
  else .error (.notANumber cs)

namespace Expr

def next (cs : Octets) : Octets :=
  cs.dropWhile isSpaceChar

def sign? (s : String) (cs : Octets) : Option Octets :=
  let cs := next cs
  if s.toList.isPrefixOf cs then some (cs.drop s.length) else none

/-- Takes the sign of an operation, which is not that of a longer one. -/
def operation? (cs : Octets) : Option (Operation × Octets) := do
  let cs := next cs
  let (s, op) ← Operation.signs.find? fun p => p.1.toList.isPrefixOf cs
  let rest := cs.drop s.length
  if op = .bitAnd && rest.head? == some '&' then none
  else if op = .bitOr && rest.head? == some '|' then none
  else if [Operation.atMost, .atLeast, .equal, .differs].contains op then some (op, rest)
  else if rest.head? == some '=' then none
  else some (op, rest)

def assignment? (cs : Octets) : Option (Option Operation × Octets) :=
  match next cs with
  | '=' :: '=' :: _ => none
  | '=' :: rest => some (none, rest)
  | cs => do
    let (s, op) ← Operation.signs.find? fun p => p.1.toList.isPrefixOf cs
    let rest := cs.drop s.length
    if [Operation.less, .atMost, .greater, .atLeast, .equal, .differs].contains op then none
    else match rest with
      | '=' :: rest => some (some op, rest)
      | _ => none

def fail {α : Type} (message : String) : Except SumFault α :=
  .error (.form message)

mutual

def primary : Nat → Octets → Except SumFault (Expr × Octets)
  | 0, _ => fail "expecting primary"
  | n + 1, cs =>
    match next cs with
    | [] => fail "expecting primary"
    | '(' :: cs => do
      let (e, cs) ← assignment n cs
      match next cs with
      | ')' :: cs => return (e, cs)
      | _ => fail "expecting ')'"
    | '+' :: cs => primary n cs
    | '-' :: cs => do
      let (e, cs) ← primary n cs
      return (.negative e, cs)
    | '!' :: cs => do
      let (e, cs) ← primary n cs
      return (.not e, cs)
    | '~' :: cs => do
      let (e, cs) ← primary n cs
      return (.complement e, cs)
    | c :: cs =>
      if c.isDigit then
        let (v, rest) := unsigned (c :: cs)
        return (.number (min v Width.greatest64), rest)
      else if isNameStart c then
        return (.name (c :: cs.takeWhile isNameChar), cs.dropWhile isNameChar)
      else fail "expecting primary"

def operations : Nat → Nat → Expr → Octets → Except SumFault (Expr × Octets)
  | 0, _, _, _ => fail "expecting primary"
  | n + 1, limit, a, cs =>
    match operation? cs with
    | none => return (a, cs)
    | some (op, rest) =>
      if limit ≤ op.rank then return (a, cs)
      else do
        let (b, cs) ← primary n rest
        let (b, cs) ← operations n op.rank b cs
        operations n limit (.binary op a b) cs

def conjunction : Nat → Octets → Except SumFault (Expr × Octets)
  | 0, _ => fail "expecting primary"
  | n + 1, cs => do
    let (a, cs) ← primary n cs
    let (a, cs) ← operations n 8 a cs
    match sign? "&&" cs with
    | none => return (a, cs)
    | some cs =>
      let (b, cs) ← conjunction n cs
      return (.both a b, cs)

def disjunction : Nat → Octets → Except SumFault (Expr × Octets)
  | 0, _ => fail "expecting primary"
  | n + 1, cs => do
    let (a, cs) ← conjunction n cs
    match sign? "||" cs with
    | none => return (a, cs)
    | some cs =>
      let (b, cs) ← disjunction n cs
      return (.either a b, cs)

def choice : Nat → Octets → Except SumFault (Expr × Octets)
  | 0, _ => fail "expecting primary"
  | n + 1, cs => do
    let (a, cs) ← disjunction n cs
    match sign? "?" cs with
    | none => return (a, cs)
    | some cs =>
      let (b, cs) ← assignment n cs
      match sign? ":" cs with
      | none => fail "expecting ':'"
      | some cs =>
        let (c, cs) ← choice n cs
        return (.choose a b c, cs)

def assignment : Nat → Octets → Except SumFault (Expr × Octets)
  | 0, _ => fail "expecting primary"
  | n + 1, cs =>
    let start := next cs
    let name := start.takeWhile isNameChar
    match if isName name then assignment? (start.drop name.length) else none with
    | some (op, rest) => do
      let (e, cs) ← assignment n rest
      return (.assign name op e, cs)
    | none => choice n start

end

def ofOctets (cs : Octets) : Except SumFault Expr := do
  let (e, rest) ← assignment (8 * cs.length + 16) cs
  if (next rest).isEmpty then return e else fail "expecting EOF"

def eval (value : Octets → Octets) (given : List (Octets × Int)) :
    Expr → Except SumFault (Int × List (Octets × Int))
  | number n => return (n, given)
  | name x =>
    match given.lookup x with
    | some n => return (n, given)
    | none => return (← numberOf (value x), given)
  | negative e => do
    let (n, given) ← eval value given e
    return (Operation.wrap (-n), given)
  | complement e => do
    let (n, given) ← eval value given e
    return (-n - 1, given)
  | not e => do
    let (n, given) ← eval value given e
    return (Operation.ofBool (n == 0), given)
  | binary op a b => do
    let (m, given) ← eval value given a
    let (n, given) ← eval value given b
    return (← op.apply m n, given)
  | both a b => do
    let (m, given) ← eval value given a
    if m == 0 then return (0, given)
    let (n, given) ← eval value given b
    return (Operation.ofBool (n != 0), given)
  | either a b => do
    let (m, given) ← eval value given a
    if m != 0 then return (1, given)
    let (n, given) ← eval value given b
    return (Operation.ofBool (n != 0), given)
  | choose c a b => do
    let (m, given) ← eval value given c
    if m != 0 then eval value given a else eval value given b
  | assign x op e => do
    let (n, given) ← eval value given e
    let n ← match op with
      | none => pure n
      | some op =>
        let m ← match given.lookup x with
          | some m => pure m
          | none => numberOf (value x)
        op.apply m n
    return (n, (x, n) :: given)

end Expr

end FleetDispatch.Shell
