namespace FleetDispatch.Yaml

def isBreak (c : Char) : Bool :=
  c == '\n' || c == '\r' || c == '\x85' || c == '\u2028' || c == '\u2029'

def isGap (c : Char) : Bool :=
  c == ' ' || c == '\t'

def isApart : List Char → Bool
  | [] => true
  | c :: _ => isGap c || isBreak c

def isAllowed (c : Char) : Bool :=
  let n := c.toNat
  n == 9 || n == 10 || n == 13 || (32 ≤ n && n ≤ 126) || n == 0x85 ||
    (0xA0 ≤ n && n ≤ 0xFFFD) || 0x10000 ≤ n

structure Cursor where
  rest : List Char
  index : Nat
  line : Nat
  column : Nat

namespace Cursor

def ofChars (cs : List Char) : Cursor :=
  ⟨cs, 0, 0, 0⟩

def moveTo (rest : List Char) (c : Cursor) : Cursor :=
  let n := c.rest.length - rest.length
  ⟨rest, c.index + n, c.line, c.column + n⟩

def forward (n : Nat) (c : Cursor) : Cursor :=
  c.moveTo (c.rest.drop n)

def afterBreak : List Char → List Char
  | '\r' :: '\n' :: cs => cs
  | cs => cs.drop 1

def nextLine (c : Cursor) : Cursor :=
  let rest := afterBreak c.rest
  ⟨rest, c.index + (c.rest.length - rest.length), c.line + 1, 0⟩

def endLine (cur : Cursor) : Option Cursor :=
  let cs := cur.rest.dropWhile isGap
  let cs := if cs.head? = some '#' then cs.dropWhile (!isBreak ·) else cs
  match cs with
  | [] => some (cur.moveTo [])
  | c :: _ => if isBreak c then some (cur.moveTo cs).nextLine else none

def breakChar (c : Char) : Char :=
  if c = '\u2028' || c = '\u2029' then c else '\n'

def atMark (c : Cursor) (mark : List Char) : Bool :=
  c.column == 0 && mark.isPrefixOf c.rest && isApart (c.rest.drop mark.length)

def startMark : List Char := ['-', '-', '-']

def endMark : List Char := ['.', '.', '.']

def atAnyMark (c : Cursor) : Bool :=
  c.atMark startMark || c.atMark endMark

end Cursor

/-- What stands between two words: gaps, and line breaks with the gaps around them left out. -/
structure Space where
  gaps : List Char
  breaks : List Char

namespace Space

def none : Space := ⟨[], []⟩

def isNone (s : Space) : Bool :=
  s.gaps.isEmpty && s.breaks.isEmpty

/-- One line break becomes a blank; of several the first one is left out. -/
def fold (s : Space) : List Char :=
  match s.breaks with
  | [] => s.gaps
  | ['\n'] => [' ']
  | '\n' :: more => more
  | breaks => breaks

/-- Reads gaps and line breaks. After a line break no tab may stand left of the column `limit`. -/
def read (limit : Nat) (broken : Bool) : Nat → Cursor → Option (Space × Cursor)
  | 0, _ => Option.none
  | n + 1, cur =>
    match cur.rest with
    | [] => some (.none, cur)
    | c :: _ =>
      if isGap c then
        if broken && cur.column < limit && c = '\t' then Option.none
        else do
          let (s, cur) ← read limit broken n (cur.forward 1)
          some (if broken then s else { s with gaps := c :: s.gaps }, cur)
      else if isBreak c then do
        let (s, cur) ← read limit true n cur.nextLine
        some ({ s with breaks := Cursor.breakChar c :: s.breaks }, cur)
      else some (.none, cur)

def readAll (limit : Nat) (broken : Bool) (cur : Cursor) : Option (Space × Cursor) :=
  read limit broken (cur.rest.length + 1) cur

end FleetDispatch.Yaml.Space
