import FleetDispatch.Json.Parser
import FleetDispatch.Yaml.Node

namespace FleetDispatch.Yaml

namespace Scalar

def nullWords : List String := ["~", "null", "Null", "NULL"]

def bool? (s : String) : Option Bool :=
  if ["true", "True", "TRUE"].contains s then some true
  else if ["false", "False", "FALSE"].contains s then some false
  else none

def digit? (base : Nat) (c : Char) : Option Nat :=
  (Json.hexValue c).bind fun d => if d < base then some d else none

def number? (base : Nat) (cs : List Char) : Option Nat :=
  if cs.isEmpty then none
  else cs.foldlM (fun acc c => (digit? base c).map (acc * base + ·)) 0

/-- A number in decimal digits has no needless zero before it. -/
def unsigned? : List Char → Option Nat
  | '0' :: 'x' :: cs => number? 16 cs
  | '0' :: 'o' :: cs => number? 8 cs
  | '0' :: 'b' :: cs => number? 2 cs
  | ['0'] => some 0
  | '0' :: _ => none
  | cs => number? 10 cs

def nat? (s : String) : Option Nat :=
  match s.toList with
  | '+' :: cs => unsigned? cs
  | cs => unsigned? cs

end Scalar

namespace Tag

def standard (kind : String) : List Char :=
  "tag:yaml.org,2002:".toList ++ kind.toList

end Tag

namespace Value

def text? (v : Value) : Option String :=
  match v.target with
  | .text _ _ s => some s
  | _ => none

/-- A text that may be missing or null. Only a plain text can be null, and if it has a tag, only
where the tag is that of null; with that tag it can be nothing else. -/
def optionalText? (v : Value) : Option (Option String) :=
  match v.target with
  | .text .plain none s =>
    some (if s.isEmpty || Scalar.nullWords.contains s then none else some s)
  | .text .plain (some tag) s =>
    if tag = Tag.standard "null" then
      if Scalar.nullWords.contains s then some none else none
    else some (some s)
  | .text _ _ s => some (some s)
  | _ => none

/-- The text of a value that has to be of a kind: a plain one, or a literal one that is tagged with
the kind. -/
def word? (kind : String) (v : Value) : Option String :=
  match v.target with
  | .text .plain _ s => some s
  | .text .literal (some tag) s => if tag = Tag.standard kind then some s else none
  | _ => none

def bool? (v : Value) : Option Bool :=
  (v.word? "bool").bind Scalar.bool?

def nat? (most : Nat) (v : Value) : Option Nat :=
  ((v.word? "int").bind Scalar.nat?).bind fun n => if n ≤ most then some n else none

/-- A list of texts, of which an empty plain text is one as well. -/
def texts? (v : Value) : Option (List String) :=
  match v.target with
  | .list items => items.mapM fun item => Value.text? { v with node := item }
  | .text .plain _ "" => some []
  | _ => none

/-- The fields of a map whose keys are texts. None of the given names may be repeated. An empty
plain text is a map without fields. -/
def members? (names : List String) (v : Value) : Option (String → Option Value) :=
  match v.target with
  | .text .plain _ "" => some fun _ => none
  | .map fields => do
    let fields ← fields.mapM fun f =>
      (Value.text? { v with node := f.1 }).map (·, { v with node := f.2 })
    if names.all fun n => (fields.filter (·.1 == n)).length ≤ 1 then
      some fun key => fields.lookup key
    else none
  | _ => none

def field {α : Type} (fallback : α) (decode : Value → Option α) : Option Value → Option α
  | none => some fallback
  | some v => decode v

end FleetDispatch.Yaml.Value
