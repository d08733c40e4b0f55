import FleetDispatch.Decimal.Digits
import FleetDispatch.Shell.Pattern

namespace FleetDispatch.Shell

inductive Regex where
  | nothing
  | char (c : Char)
  | any
  | set (negated : Bool) (items : List SetItem)
  | lineStart
  | lineEnd
  | group (number : Nat) (r : Regex)
  | sequence (a b : Regex)
  | either (a b : Regex)
  | repeated (r : Regex) (least : Nat) (most : Option Nat)
  | same (number : Nat)

/-- A place in a text: whether it is the first one, what follows, and what groups came to. -/
structure Spot where
  first : Bool
  rest : Octets
  groups : List (Nat × Octets)

namespace Regex

def size : Regex → Nat
  | group _ r => r.size + 1
  | sequence a b => a.size + b.size + 1
  | either a b => a.size + b.size + 1
  | repeated r least _ => r.size + least + 1
  | _ => 1

def sameChar (fold : Bool) (c d : Char) : Bool :=
  c == d || (fold && c.toLower == d.toLower)

def fitsSet (fold : Bool) (items : List SetItem) (c : Char) : Bool :=
  items.any fun i => i.fits c || (fold && (i.fits c.toLower || i.fits c.toUpper))

def step {α : Type} (p : Char → Bool) (s : Spot) (k : Spot → Option α) : Option α :=
  match s.rest with
  | c :: rest => if p c then k { s with first := false, rest } else none
  | [] => none

/-- Tries an expression at a place, and then what is to follow it. Longer repetitions are tried
before shorter ones. -/
def run {α : Type} (fold : Bool) : Nat → Regex → Spot → (Spot → Option α) → Option α
  | 0, _, _, _ => none
  | n + 1, r, s, k =>
    match r with
    | nothing => k s
    | char c => step (sameChar fold c) s k
    | any => step (fun _ => true) s k
    | set negated items => step (fun c => fitsSet fold items c != negated) s k
    | lineStart => if s.first then k s else none
    | lineEnd => if s.rest.isEmpty then k s else none
    | group g r =>
      run fold n r s fun t =>
        k { t with groups := (g, s.rest.take (s.rest.length - t.rest.length)) :: t.groups }
    | sequence a b => run fold n a s fun t => run fold n b t k
    | either a b => (run fold n a s k).orElse fun _ => run fold n b s k
    | repeated r (least + 1) most =>
      run fold n r s fun t => run fold n (repeated r least (most.map (· - 1))) t k
    | repeated r 0 most =>
      if most == some 0 then k s
      else
        (run fold n r s fun t =>
          if t.rest.length < s.rest.length then
            run fold n (repeated r 0 (most.map (· - 1))) t k
          else none).orElse fun _ => k s
    | same g =>
      let cs := (s.groups.lookup g).getD []
      if cs.isPrefixOf s.rest then
        k { s with first := s.first && cs.isEmpty, rest := s.rest.drop cs.length }
      else none

def runAt (fold : Bool) (r : Regex) (s : Spot) : Option Spot :=
  run fold (8 * (r.size + 4) * (s.rest.length + 4)) r s some

/-- The first place in a text that an expression fits: what stands before it, what it fits, what
is left, and the groups. -/
def find? (fold : Bool) (r : Regex) : Octets → Spot → Option (Octets × Octets × Spot)
  | before, ⟨first, [], groups⟩ =>
    (runAt fold r ⟨first, [], groups⟩).map fun t => (before.reverse, [], t)
  | before, ⟨first, c :: cs, groups⟩ =>
    match runAt fold r ⟨first, c :: cs, groups⟩ with
    | some t => some (before.reverse, (c :: cs).take (cs.length + 1 - t.rest.length), t)
    | none => find? fold r (c :: before) ⟨false, cs, groups⟩
termination_by _ s => s.rest.length

def search (fold : Bool) (r : Regex) (cs : Octets) : Option (Octets × Octets × Spot) :=
  find? fold r [] ⟨true, cs, []⟩

def count? (extended : Bool) (cs : Octets) : Option (Nat × Option Nat × Octets) :=
  let ds := cs.takeWhile Char.isDigit
  let rest := cs.drop ds.length
  let (most, rest) := match rest with
    | ',' :: rest =>
      let es := rest.takeWhile Char.isDigit
      (if es.isEmpty then none else some (Decimal.ofDigits 0 es), rest.drop es.length)
    | rest => (some (Decimal.ofDigits 0 ds), rest)
  match extended, rest with
  | true, '\x7d' :: rest => some (Decimal.ofDigits 0 ds, most, rest)
  | false, '\\' :: '\x7d' :: rest => some (Decimal.ofDigits 0 ds, most, rest)
  | _, _ => none

def repetitions (extended : Bool) : Nat → Regex → Octets → Regex × Octets
  | 0, r, cs => (r, cs)
  | n + 1, r, cs =>
    match extended, cs with
    | _, '*' :: cs => repetitions extended n (repeated r 0 none) cs
    | true, '+' :: cs => repetitions extended n (repeated r 1 none) cs
    | true, '?' :: cs => repetitions extended n (repeated r 0 (some 1)) cs
    | false, '\\' :: '+' :: cs => repetitions extended n (repeated r 1 none) cs
    | false, '\\' :: '?' :: cs => repetitions extended n (repeated r 0 (some 1)) cs
    | true, '\x7b' :: cs =>
      match count? true cs with
      | some (least, most, rest) => repetitions extended n (repeated r least most) rest
      | none => (r, '\x7b' :: cs)
    | false, '\\' :: '\x7b' :: cs =>
      match count? false cs with
      | some (least, most, rest) => repetitions extended n (repeated r least most) rest
      | none => (r, '\\' :: '\x7b' :: cs)
    | _, cs => (r, cs)

def mark? (extended : Bool) : Octets → Option (Char × Octets)
  | '\\' :: c :: cs =>
    if !extended && (c == '(' || c == ')' || c == '|') then some (c, cs) else none
  | c :: cs => if extended && (c == '(' || c == ')' || c == '|') then some (c, cs) else none
  | [] => none

def escaped (c : Char) : Regex :=
  let word : List SetItem := [.kind "alnum".toList, .range '_' '_']
  match c with
  | 'w' => set false word
  | 'W' => set true word
  | 's' => set false [.kind "space".toList]
  | 'S' => set true [.kind "space".toList]
  | 'n' => char '\n'
  | 't' => char '\t'
  | c => if '1' ≤ c && c ≤ '9' then same (c.toNat - 48) else char c

mutual

def alternatives (extended : Bool) : Nat → Nat → Octets → Option (Regex × Nat × Octets)
  | 0, _, _ => none
  | n + 1, groups, cs => do
    let (a, groups, cs) ← items extended n groups true cs
    match mark? extended cs with
    | some ('|', cs) =>
      let (b, groups, cs) ← alternatives extended n groups cs
      return (either a b, groups, cs)
    | _ => return (a, groups, cs)

def items (extended : Bool) : Nat → Nat → Bool → Octets → Option (Regex × Nat × Octets)
  | 0, _, _, _ => none
  | n + 1, groups, atStart, cs => do
    match mark? extended cs with
    | some ('(', rest) =>
      let (r, after, rest) ← alternatives extended n (groups + 1) rest
      match mark? extended rest with
      | some (')', rest) =>
        let (r, rest) := repetitions extended n (group (groups + 1) r) rest
        let (s, after, rest) ← items extended n after false rest
        return (sequence r s, after, rest)
      | _ => none
    | some _ => return (nothing, groups, cs)
    | none =>
      match cs with
      | [] => return (nothing, groups, [])
      | '^' :: rest =>
        if atStart || extended then
          let (s, groups, rest) ← items extended n groups true rest
          return (sequence lineStart s, groups, rest)
        follow extended n groups (char '^') rest
      | '$' :: rest =>
        if extended || rest.isEmpty || (mark? extended rest).isSome then
          let (s, groups, rest) ← items extended n groups false rest
          return (sequence lineEnd s, groups, rest)
        follow extended n groups (char '$') rest
      | '.' :: rest => follow extended n groups any rest
      | '[' :: rest =>
        let signs := rest.map fun c => (⟨c, false⟩ : Sign)
        let (negated, inner) := match signs with
          | ⟨'^', _⟩ :: inner => (true, inner)
          | inner => (false, inner)
        let (its, after) ← SetItem.ofSigns? (inner.length + 1) true inner
        follow extended n groups (set negated its) (after.map (·.char))
      | '*' :: rest =>
        if atStart then follow extended n groups (char '*') rest else none
      | '\\' :: c :: rest => follow extended n groups (escaped c) rest
      | '\\' :: [] => none
      | c :: rest => follow extended n groups (char c) rest

def follow (extended : Bool) : Nat → Nat → Regex → Octets → Option (Regex × Nat × Octets)
  | 0, _, _, _ => none
  | n + 1, groups, r, cs => do
    let (r, cs) := repetitions extended n r cs
    let (s, groups, cs) ← items extended n groups false cs
    return (sequence r s, groups, cs)

end

def ofOctets? (extended : Bool) (cs : Octets) : Option Regex := do
  let (r, _, rest) ← alternatives extended (8 * cs.length + 16) 0 cs
  if rest.isEmpty then some r else none

def ofLiteral (cs : Octets) : Regex :=
  cs.foldr (fun c r => sequence (char c) r) nothing

end Regex

end FleetDispatch.Shell
