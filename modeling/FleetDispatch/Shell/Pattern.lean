import FleetDispatch.Decimal.Digits
import FleetDispatch.Text.Octets

namespace FleetDispatch.Shell

/-- A character of a pattern. One that is quoted stands for itself. -/
structure Sign where
  char : Char
  quoted : Bool
  deriving DecidableEq

inductive SetItem where
  | range (first last : Char)
  | kind (name : Octets)
  deriving DecidableEq

/-- A part of a pattern, which fits one character, or any number of them. -/
inductive Glob where
  | char (c : Char)
  | one
  | many
  | set (negated : Bool) (items : List SetItem)
  deriving DecidableEq

def isGraphic (c : Char) : Bool :=
  0x20 < c.toNat && c.toNat < 0x7F

def isPrintable (c : Char) : Bool :=
  c == ' ' || isGraphic c

def isBlankChar (c : Char) : Bool :=
  c == ' ' || c == '\t'

def isSpaceChar (c : Char) : Bool :=
  c == ' ' || (9 ≤ c.toNat && c.toNat ≤ 13)

def isHexDigit (c : Char) : Bool :=
  c.isDigit || ('a' ≤ c && c ≤ 'f') || ('A' ≤ c && c ≤ 'F')

def charKinds : List (String × (Char → Bool)) :=
  [("alnum", Char.isAlphanum), ("alpha", Char.isAlpha), ("blank", isBlankChar),
    ("cntrl", fun c => c.toNat < 0x20 || c.toNat == 0x7F), ("digit", Char.isDigit),
    ("graph", isGraphic), ("lower", Char.isLower),
    ("print", isPrintable),
    ("punct", fun c => isGraphic c && !c.isAlphanum), ("space", isSpaceChar),
    ("upper", Char.isUpper), ("xdigit", isHexDigit)]

def isOfKind (name : Octets) (c : Char) : Bool :=
  ((charKinds.lookup (String.ofList name)).map (· c)).getD false

namespace SetItem

def fits (c : Char) : SetItem → Bool
  | range first last => first ≤ c && c ≤ last
  | kind name => isOfKind name c

def kind? (cs : List Sign) : Option (SetItem × List Sign) :=
  match cs with
  | ⟨':', false⟩ :: cs =>
    let name := (cs.takeWhile (·.char.isAlpha)).map (·.char)
    match cs.drop name.length with
    | ⟨':', _⟩ :: ⟨']', _⟩ :: rest =>
      if charKinds.any (·.1.toList == name) then some (kind name, rest) else none
    | _ => none
  | _ => none

/-- Reads the items of a set and its end; what comes first is not the end. -/
def ofSigns? : Nat → Bool → List Sign → Option (List SetItem × List Sign)
  | 0, _, _ => none
  | _ + 1, _, [] => none
  | n + 1, first, c :: cs =>
    if c == ⟨']', false⟩ && !first then some ([], cs)
    else
      match if c == ⟨'[', false⟩ then kind? cs else none with
      | some (item, rest) => (ofSigns? n false rest).map fun r => (item :: r.1, r.2)
      | none =>
        match cs with
        | ⟨'-', false⟩ :: d :: rest =>
          if d == ⟨']', false⟩ then
            (ofSigns? n false cs).map fun r => (range c.char c.char :: r.1, r.2)
          else (ofSigns? n false rest).map fun r => (range c.char d.char :: r.1, r.2)
        | cs => (ofSigns? n false cs).map fun r => (range c.char c.char :: r.1, r.2)

end SetItem

namespace Glob

def ofSigns : Nat → List Sign → List Glob
  | 0, _ => []
  | _ + 1, [] => []
  | n + 1, c :: cs =>
    if c == ⟨'*', false⟩ then many :: ofSigns n cs
    else if c == ⟨'?', false⟩ then one :: ofSigns n cs
    else if c == ⟨'[', false⟩ then
      let (negated, inner) := match cs with
        | ⟨'!', false⟩ :: inner => (true, inner)
        | ⟨'^', false⟩ :: inner => (true, inner)
        | inner => (false, inner)
      match SetItem.ofSigns? (inner.length + 1) true inner with
      | some (items, rest) => set negated items :: ofSigns n rest
      | none => char '[' :: ofSigns n cs
    else char c.char :: ofSigns n cs

def ofText (cs : List Sign) : List Glob :=
  ofSigns (cs.length + 1) cs

def fitsChar (c : Char) : Glob → Bool
  | char d => c == d
  | one => true
  | many => false
  | set negated items => items.any (·.fits c) != negated

def fits : List Glob → Octets → Bool
  | [], [] => true
  | [], _ :: _ => false
  | .many :: gs, [] => fits gs []
  | .many :: gs, c :: cs => fits gs (c :: cs) || fits (.many :: gs) cs
  | _ :: _, [] => false
  | g :: gs, c :: cs => g.fitsChar c && fits gs cs
termination_by gs cs => (gs.length, cs.length)

def cutFront (longest : Bool) (gs : List Glob) (cs : Octets) : Octets :=
  let sizes := List.range (cs.length + 1)
  match (if longest then sizes.reverse else sizes).find? fun n => fits gs (cs.take n) with
  | some n => cs.drop n
  | none => cs

def cutBack (longest : Bool) (gs : List Glob) (cs : Octets) : Octets :=
  let sizes := List.range (cs.length + 1)
  match (if longest then sizes else sizes.reverse).find? fun n => fits gs (cs.drop n) with
  | some n => cs.take n
  | none => cs

end Glob

def isPattern (cs : List Sign) : Bool :=
  cs.any fun c => !c.quoted && (c.char == '*' || c.char == '?' || c.char == '[')

end FleetDispatch.Shell
