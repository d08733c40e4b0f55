import FleetDispatch.Yaml.Tag

namespace FleetDispatch.Yaml

inductive Style where
  | plain
  | quoted
  | literal
  | folded
  deriving DecidableEq

/-- The pieces of a document. Where blocks start and end is told by indentation. -/
inductive Token where
  | version (major minor : Nat)
  | handle (name stem : List Char)
  | documentStart
  | documentEnd
  | blockList
  | blockMap
  | blockEnd
  | openList
  | closeList
  | openMap
  | closeMap
  | comma
  | item
  | key
  | value
  | alias (name : List Char)
  | anchor (name : List Char)
  | tag (t : Tag)
  | text (style : Style) (chars : List Char)
  deriving DecidableEq

/-- A place where a key may turn out to have started, in front of the token with this number. One
that is required must turn out to be a key. -/
structure KeyStart where
  number : Nat
  index : Nat
  line : Nat
  column : Nat
  required : Bool

/-- How far a text has been cut into tokens. The blocks that are open are given by their columns,
and the innermost of the possible keys, one for each open bracket and one outside, comes first. -/
structure Layout where
  cursor : Cursor
  column : Int
  outer : List Int
  keyAllowed : Bool
  keys : List (Option KeyStart)
  tokens : List Token

namespace Layout

def ofChars (cs : List Char) : Layout :=
  ⟨.ofChars cs, -1, [], true, [none], []⟩

def inFlow (l : Layout) : Bool :=
  1 < l.keys.length

def push (t : Token) (l : Layout) : Layout :=
  { l with tokens := l.tokens ++ [t] }

def insertAt (n : Nat) (t : Token) (l : Layout) : Layout :=
  { l with tokens := l.tokens.take n ++ t :: l.tokens.drop n }

def skip (n : Nat) (l : Layout) : Layout :=
  { l with cursor := l.cursor.forward n }

def allow (keyAllowed : Bool) (l : Layout) : Layout :=
  { l with keyAllowed }

def indent (column : Int) (n : Nat) (start : Token) (l : Layout) : Layout :=
  if l.inFlow || column ≤ l.column then l
  else { l with column, outer := l.column :: l.outer }.insertAt n start

def dedentAll (column : Int) : List Int → Layout → Layout
  | [], l => l
  | c :: outer, l =>
    if l.column ≤ column then l
    else dedentAll column outer { l with column := c, outer, tokens := l.tokens ++ [.blockEnd] }

def dedent (column : Int) (l : Layout) : Layout :=
  if l.inFlow then l else dedentAll column l.outer l

def keyLimit : Nat := 1024

/-- Gives up a possible key that goes on for too long or over the end of its line. -/
def ageKey (cur : Cursor) (k : KeyStart) : Option (Option KeyStart) :=
  if k.line < cur.line || k.index + keyLimit < cur.index then
    if k.required then none else some none
  else some (some k)

def ageKeys (l : Layout) : Option Layout := do
  let keys ← l.keys.mapM fun
    | none => some none
    | some k => ageKey l.cursor k
  some { l with keys }

def dropKey (l : Layout) : Option Layout :=
  match l.keys with
  | some k :: keys => if k.required then none else some { l with keys := none :: keys }
  | _ => some l

def saveKey (l : Layout) : Option Layout :=
  if l.keyAllowed then do
    let l ← l.dropKey
    let required := !l.inFlow && l.column == l.cursor.column
    some { l with
      keys := some ⟨l.tokens.length, l.cursor.index, l.cursor.line, l.cursor.column, required⟩ ::
        l.keys.drop 1 }
  else some l

/-- Moves over gaps, comments and line ends. Where a key may start, a tab is no gap. A mark of the
byte order may stand at the start of a line. -/
def skipSpace : Nat → Layout → Layout
  | 0, l => l
  | n + 1, l =>
    match l.cursor.rest with
    | [] => l
    | c :: cs =>
      if c = '\uFEFF' && l.cursor.column = 0 then skipSpace n (l.skip 1)
      else if c = ' ' || (c = '\t' && (l.inFlow || !l.keyAllowed)) then skipSpace n (l.skip 1)
      else if c = '#' then
        skipSpace n { l with cursor := l.cursor.moveTo (cs.dropWhile (!isBreak ·)) }
      else if isBreak c then
        skipSpace n { l with
          cursor := l.cursor.nextLine, keyAllowed := l.keyAllowed || !l.inFlow }
      else l

def mark (t : Token) (n : Nat) (keyAllowed : Bool) (l : Layout) : Option Layout := do
  let l ← l.dropKey
  some ((l.push t).skip n |>.allow keyAllowed)

def documentMark (t : Token) (l : Layout) : Option Layout :=
  (l.dedent (-1)).mark t 3 false

def directive (l : Layout) : Option Layout := do
  let l ← (l.dedent (-1)).dropKey
  let cs := l.cursor.rest.drop 1
  let name := cs.takeWhile Tag.isWordChar
  let cs := cs.drop name.length
  if !isApart cs then none
  else
    let cs := cs.dropWhile isGap
    let (t, cs) ←
      if name = ['Y', 'A', 'M', 'L'] then do
        let (major, cs) ← Tag.versionNumber cs
        let (minor, cs) ← Tag.versionNumber (← Tag.afterDot cs)
        some (Token.version major minor, cs)
      else if name = ['T', 'A', 'G'] then do
        let (handle, stem, cs) ← Tag.declaration cs
        some (Token.handle handle stem, cs)
      else none
    let cursor ← (l.cursor.moveTo cs).endLine
    some ({ l with cursor }.push t |>.allow false)

def openFlow (t : Token) (l : Layout) : Option Layout := do
  let l ← l.saveKey
  some ({ l with keys := none :: l.keys }.push t |>.skip 1 |>.allow true)

def closeFlow (t : Token) (l : Layout) : Option Layout := do
  let l ← l.dropKey
  let keys := if l.inFlow then l.keys.drop 1 else l.keys
  some ({ l with keys }.push t |>.skip 1 |>.allow false)

def item (l : Layout) : Option Layout :=
  if l.inFlow then l.mark .item 1 true
  else if l.keyAllowed then
    (l.indent l.cursor.column l.tokens.length .blockList).mark .item 1 true
  else none

def key (l : Layout) : Option Layout :=
  if l.inFlow then l.mark .key 1 false
  else if l.keyAllowed then
    (l.indent l.cursor.column l.tokens.length .blockMap).mark .key 1 true
  else none

/-- A value makes a key of what may have been one. -/
def value (l : Layout) : Option Layout :=
  match l.keys with
  | some k :: keys =>
    let l := { l with keys := none :: keys }.insertAt k.number .key
    some ((l.indent k.column k.number .blockMap).push .value |>.skip 1 |>.allow false)
  | _ =>
    if l.inFlow then some (l.push .value |>.skip 1 |>.allow false)
    else if l.keyAllowed then
      some ((l.indent l.cursor.column l.tokens.length .blockMap).push .value |>.skip 1
        |>.allow true)
    else none

def name (token : List Char → Token) (l : Layout) : Option Layout := do
  let l ← l.saveKey
  let name := (l.cursor.rest.drop 1).takeWhile Tag.isWordChar
  let l := (l.push (token name)).skip (1 + name.length) |>.allow false
  let ends := ['?', ':', ',', ']', '\x7d', '%', '@', '\x60']
  if name.isEmpty then none
  else if isApart l.cursor.rest || (l.cursor.rest.head?.map ends.contains).getD true then some l
  else none

/-- A tag ends with a gap or its line, or within brackets with a comma. -/
def tag (l : Layout) : Option Layout := do
  let l ← l.saveKey
  let (t, cs) ← Tag.ofChars l.cursor.rest
  let l := { l with cursor := l.cursor.moveTo cs }.push (.tag t) |>.allow false
  if isApart cs || (l.inFlow && cs.head? = some ',') then some l else none

def quoted (quote : Char) (l : Layout) : Option Layout := do
  let l ← l.saveKey
  let (cs, cursor) ← quotedText quote (l.cursor.forward 1)
  some ({ l with cursor }.push (.text .quoted cs) |>.allow false)

def block (literal : Bool) (l : Layout) : Option Layout := do
  let l ← l.dropKey
  let (cs, cursor) ← blockText literal l.column (l.cursor.forward 1)
  let style := if literal then Style.literal else Style.folded
  some ({ l with cursor }.push (.text style cs) |>.allow true)

def plain (l : Layout) : Option Layout := do
  let l ← l.saveKey
  let (cs, broken, cursor) ← plainText l.inFlow (l.column + 1).toNat l.cursor
  some ({ l with cursor }.push (.text .plain cs) |>.allow broken)

def indicators : List Char :=
  ['-', '?', ':', '#', '&', '*', '!', '|', '>', '\x27', '"', '%', '@', '\x60'] ++ flowMarks

def startsPlain (flow : Bool) (c : Char) (cs : List Char) : Bool :=
  !(isApart [c] || indicators.contains c) ||
    (c == '-' && !(cs.head?.map isGap).getD false) ||
    (!flow && (c == '?' || c == ':') && !isApart cs)

def token (c : Char) (cs : List Char) (l : Layout) : Option Layout :=
  if l.cursor.column = 0 && c = '%' then l.directive
  else if l.cursor.atMark Cursor.startMark then l.documentMark .documentStart
  else if l.cursor.atMark Cursor.endMark then l.documentMark .documentEnd
  else if c = '[' then l.openFlow .openList
  else if c = '\x7b' then l.openFlow .openMap
  else if c = ']' then l.closeFlow .closeList
  else if c = '\x7d' then l.closeFlow .closeMap
  else if c = ',' then l.mark .comma 1 true
  else if c = '-' && isApart cs then l.item
  else if c = '?' && (l.inFlow || isApart cs) then l.key
  else if c = ':' && (l.inFlow || isApart cs) then l.value
  else if c = '*' then l.name .alias
  else if c = '&' then l.name .anchor
  else if c = '!' then l.tag
  else if c = '|' && !l.inFlow then l.block true
  else if c = '>' && !l.inFlow then l.block false
  else if c = '\x27' || c = '"' then l.quoted c
  else if startsPlain l.inFlow c cs then l.plain
  else none

def run : Nat → Layout → Option (List Token)
  | 0, _ => none
  | n + 1, l => do
    let l := l.skipSpace (l.cursor.rest.length + 1)
    let l ← l.ageKeys
    match l.cursor.rest with
    | [] =>
      let l ← (l.dedent (-1)).dropKey
      some l.tokens
    | c :: cs =>
      let l ← (l.dedent l.cursor.column).token c cs
      run n l

end Layout

def Token.ofText? (s : String) : Option (List Token) :=
  let cs := s.toList
  if cs.all isAllowed then (Layout.ofChars cs).run (cs.length + 1) else none

end FleetDispatch.Yaml
