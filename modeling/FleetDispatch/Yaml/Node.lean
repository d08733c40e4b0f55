import FleetDispatch.Yaml.Token

namespace FleetDispatch.Yaml

/-- A value of a document. An alias is kept as the number that its name had. -/
inductive Node where
  | text (style : Style) (tag : Option (List Char)) (s : String)
  | list (items : List Node)
  | map (fields : List (Node × Node))
  | alias (number : Nat)
  deriving Inhabited

namespace Node

def missing (tag : Option (List Char)) : Node :=
  .text .plain tag ""

def empty : Node :=
  missing none

/-- The tokens still to read, and what is known of names. A name gets as its number the count of the
names that were known before, also if it is given again; so two names may share a number, which
then belongs to the value that got it last. -/
structure Supply where
  tokens : List Token
  handles : List (List Char × List Char)
  names : List (List Char × Nat)
  owners : List (Nat × Nat)
  values : List (Nat × Node)

abbrev Reading := StateT Supply Option

def peek : Reading (Option Token) := fun s =>
  some (s.tokens.head?, s)

def skip : Reading Unit := fun s =>
  some ((), { s with tokens := s.tokens.drop 1 })

def expect (t : Token) : Reading Unit := do
  if (← peek) == some t then skip else failure

def isNext (ts : List Token) : Reading Bool := do
  match ← peek with
  | some t => return ts.contains t
  | none => return false

def aliasOf (name : List Char) : Reading Node := fun s =>
  (s.names.lookup name).map (.alias ·, s)

def claim (name : List Char) : Reading Nat := fun s =>
  let number := s.names.length
  let place := s.owners.length
  let others := s.names.filter (·.1 != name)
  some (place, { s with
    names := (name, number) :: others, owners := (number, place) :: s.owners })

def remember (place : Nat) (v : Node) : Reading Unit := fun s =>
  some ((), { s with values := (place, v) :: s.values })

def resolve (t : Tag) : Reading (List Char) := fun s =>
  (t.resolve? s.handles).map (·, s)

def properties : Reading (Option (List Char) × Option Tag) := do
  match ← peek with
  | some (.anchor name) =>
    skip
    match ← peek with
    | some (.tag t) =>
      skip
      return (some name, some t)
    | _ => return (some name, none)
  | some (.tag t) =>
    skip
    match ← peek with
    | some (.anchor name) =>
      skip
      return (some name, some t)
    | _ => return (none, some t)
  | _ => return (none, none)

mutual

/-- Reads a value. Only within blocks may it be a block itself, and only as a part of a map may it
be a list without an indentation of its own. -/
def value (block loose : Bool) : Nat → Reading Node
  | 0 => failure
  | n + 1 => do
    match ← peek with
    | some (.alias name) =>
      skip
      aliasOf name
    | _ =>
      let (name, tag) ← properties
      let tag ← match tag with
        | some t => some <$> resolve t
        | none => pure none
      match name with
      | some name =>
        let place ← claim name
        let v ← content block loose true tag n
        remember place v
        return v
      | none => content block loose tag.isSome tag n

def content (block loose marked : Bool) (tag : Option (List Char)) : Nat → Reading Node
  | 0 => failure
  | n + 1 => do
    match ← peek with
    | some (.text style cs) =>
      skip
      return .text style tag (String.ofList cs)
    | some .openList =>
      skip
      return .list (← flowItems true n)
    | some .openMap =>
      skip
      return .map (← flowFields true n)
    | some .item =>
      if loose then return .list (← looseItems n)
      else if marked then return missing tag
      else failure
    | some .blockList =>
      if block then
        skip
        return .list (← blockItems n)
      else if marked then return missing tag
      else failure
    | some .blockMap =>
      if block then
        skip
        return .map (← blockFields n)
      else if marked then return missing tag
      else failure
    | _ => if marked then return missing tag else failure

def valueBefore (ends : List Token) (block loose : Bool) : Nat → Reading Node
  | 0 => failure
  | n + 1 => do
    match ← peek with
    | none => failure
    | some t => if ends.contains t then return .empty else value block loose n

def blockItems : Nat → Reading (List Node)
  | 0 => failure
  | n + 1 => do
    if ← isNext [.blockEnd] then
      skip
      return []
    else
      expect .item
      let v ← valueBefore [.item, .blockEnd] true false n
      return v :: (← blockItems n)

def looseItems : Nat → Reading (List Node)
  | 0 => failure
  | n + 1 => do
    if ← isNext [.item] then
      skip
      let v ← valueBefore [.item, .key, .value, .blockEnd] true false n
      return v :: (← looseItems n)
    else return []

def blockFields : Nat → Reading (List (Node × Node))
  | 0 => failure
  | n + 1 => do
    if ← isNext [.blockEnd] then
      skip
      return []
    else
      expect .key
      let k ← valueBefore [.key, .value, .blockEnd] true true n
      let v ← fieldValue [.key, .value, .blockEnd] true n
      return (k, v) :: (← blockFields n)

def fieldValue (ends : List Token) (block : Bool) : Nat → Reading Node
  | 0 => failure
  | n + 1 => do
    if ← isNext [.value] then
      skip
      valueBefore ends block block n
    else return .empty

/-- Reads the items of a list in brackets. A key that is left out takes the mark behind it along. -/
def flowItems (first : Bool) : Nat → Reading (List Node)
  | 0 => failure
  | n + 1 => do
    if ← isNext [.closeList] then
      skip
      return []
    else
      unless first do expect .comma
      if ← isNext [.closeList] then flowItems false n
      else if ← isNext [.key] then
        skip
        let bare ← isNext [.value, .comma, .closeList]
        let k ← if bare then do
            skip
            pure empty
          else value false false n
        let v ← fieldValue [.comma, .closeList] false n
        return .map [(k, v)] :: (← flowItems false n)
      else
        let v ← value false false n
        return v :: (← flowItems false n)

def flowFields (first : Bool) : Nat → Reading (List (Node × Node))
  | 0 => failure
  | n + 1 => do
    if ← isNext [.closeMap] then
      skip
      return []
    else
      unless first do expect .comma
      if ← isNext [.closeMap] then flowFields false n
      else if ← isNext [.key] then
        skip
        let k ← valueBefore [.value, .comma, .closeMap] false false n
        let v ← fieldValue [.comma, .closeMap] false n
        return (k, v) :: (← flowFields false n)
      else
        let k ← value false false n
        return (k, .empty) :: (← flowFields false n)

end

/-- Reads the directives in front of a document, and tells whether there was any. The version may
be told once and has to be a known one, and a handle may be told once. -/
def directives (versioned : Bool) (handles : List (List Char × List Char)) :
    Nat → Reading Bool
  | 0 => failure
  | n + 1 => do
    match ← peek with
    | some (.version major minor) =>
      if versioned || major ≠ 1 || (minor ≠ 1 && minor ≠ 2) then failure
      else
        skip
        directives true handles n
    | some (.handle name stem) =>
      if (handles.lookup name).isSome then failure
      else
        skip
        directives versioned ((name, stem) :: handles) n
    | _ =>
      modify fun s => { s with handles := handles ++ Tag.standardHandles }
      return versioned || !handles.isEmpty

def document (fuel : Nat) : Reading Node := do
  let directed ← directives false [] fuel
  let marked ← isNext [.documentStart]
  if directed && !marked then failure
  if marked then skip
  let v ← match ← peek with
    | none => pure empty
    | some (.version _ _) | some (.handle _ _) | some .documentStart | some .documentEnd =>
      if marked then pure empty else value true false fuel
    | some _ => value true false fuel
  let rest ← modifyGet fun s => (s.tokens, s)
  if rest.all (· == .documentEnd) then return v else failure

end Node

structure Value where
  anchored : Nat → Option Node
  node : Node

namespace Value

def anchorsOf (s : Node.Supply) (number : Nat) : Option Node :=
  (s.owners.lookup number).bind (s.values.lookup ·)

def ofTokens? (ts : List Token) : Option Value :=
  ((Node.document (4 * ts.length + 8)).run ⟨ts, [], [], [], []⟩).map fun (v, s) =>
    ⟨anchorsOf s, v⟩

/-- Reads a text as one value; an empty one is an empty text. -/
def ofText? (s : String) : Option Value :=
  (Token.ofText? s).bind ofTokens?

/-- The value itself, or what it stands for. No alias stands for another one. -/
def target (v : Value) : Node :=
  match v.node with
  | .alias number => (v.anchored number).getD .empty
  | node => node

end FleetDispatch.Yaml.Value
