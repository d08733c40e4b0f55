import FleetDispatch.Json.Parser
import FleetDispatch.Yaml.Cursor

namespace FleetDispatch.Yaml

def flowMarks : List Char := [',', '[', ']', '\x7b', '\x7d']

namespace Plain

def word (flow : Bool) : List Char → Option (List Char × List Char)
  | [] => some ([], [])
  | c :: cs =>
    if isApart (c :: cs) || (c == ':' && isApart cs) || (flow && flowMarks.contains c) then
      some ([], c :: cs)
    else if flow && c == ':' && (cs.head?.map ('?' :: flowMarks).contains).getD false then none
    else do
      let (w, cs) ← word flow cs
      some (c :: w, cs)

def isOver (flow : Bool) (limit : Nat) (s : Space) (cur : Cursor) : Bool :=
  cur.atAnyMark || cur.rest.head? == some '#' || (!flow && !s.isNone && cur.column < limit)

def rest (flow : Bool) (limit : Nat) : Nat → Space → Cursor → Option (List Char × Bool × Cursor)
  | 0, _, _ => none
  | n + 1, s, cur =>
    if isOver flow limit s cur then some ([], !s.breaks.isEmpty, cur)
    else do
      let (w, cs) ← word flow cur.rest
      if w.isEmpty then some ([], !s.breaks.isEmpty, cur)
      else
        let cur := cur.moveTo cs
        let (after, next) ← Space.readAll limit false cur
        if after.isNone then some (s.fold ++ w, false, cur)
        else
          let (more, broken, cur) ← rest flow limit n after next
          some (s.fold ++ w ++ more, broken, cur)

end Plain

/-- Reads a plain text, which may go on over lines that are indented up to `limit`. -/
def plainText (flow : Bool) (limit : Nat) (cur : Cursor) :
    Option (List Char × Bool × Cursor) :=
  Plain.rest flow limit (cur.rest.length + 1) .none cur

namespace Quoted

/-- Between single quotes, a quote is written twice. -/
def singleWord : List Char → Option (List Char × List Char)
  | '\x27' :: '\x27' :: cs => do
    let (w, cs) ← singleWord cs
    some ('\x27' :: w, cs)
  | [] => some ([], [])
  | c :: cs =>
    if c = '\x27' || isApart (c :: cs) then some ([], c :: cs)
    else do
      let (w, cs) ← singleWord cs
      some (c :: w, cs)

def hex (digits : Nat) (cs : List Char) : Option Nat :=
  let ds := cs.take digits
  if ds.length < digits then none
  else ds.foldlM (fun acc c => (Json.hexValue c).map (acc * 16 + ·)) 0

def hexChar (digits : Nat) (cs : List Char) : Option (Char × List Char) := do
  let n ← hex digits cs
  if n.isValidChar then some (Char.ofNat n, cs.drop digits) else none

def escape : List Char → Option (Char × List Char)
  | '0' :: cs => some ('\x00', cs)
  | 'a' :: cs => some ('\x07', cs)
  | 'b' :: cs => some ('\x08', cs)
  | 't' :: cs => some ('\t', cs)
  | '\t' :: cs => some ('\t', cs)
  | 'n' :: cs => some ('\n', cs)
  | 'v' :: cs => some ('\x0b', cs)
  | 'f' :: cs => some ('\x0c', cs)
  | 'r' :: cs => some ('\r', cs)
  | 'e' :: cs => some ('\x1b', cs)
  | ' ' :: cs => some (' ', cs)
  | '"' :: cs => some ('"', cs)
  | '/' :: cs => some ('/', cs)
  | '\\' :: cs => some ('\\', cs)
  | 'N' :: cs => some ('\x85', cs)
  | '_' :: cs => some ('\xa0', cs)
  | 'L' :: cs => some ('\u2028', cs)
  | 'P' :: cs => some ('\u2029', cs)
  | 'x' :: cs => hexChar 2 cs
  | 'u' :: cs => hexChar 4 cs
  | 'U' :: cs => hexChar 8 cs
  | _ => none

/-- Between double quotes, a backslash escapes. One before a line break joins the lines: it ends
the word, and the rest starts with it. -/
def doubleWord : Nat → List Char → Option (List Char × List Char)
  | 0, _ => none
  | _ + 1, [] => some ([], [])
  | n + 1, '\\' :: cs =>
    if (cs.head?.map isBreak).getD false then some ([], '\\' :: cs)
    else do
      let (c, cs) ← escape cs
      let (w, cs) ← doubleWord n cs
      some (c :: w, cs)
  | n + 1, c :: cs =>
    if c = '"' || isApart (c :: cs) then some ([], c :: cs)
    else do
      let (w, cs) ← doubleWord n cs
      some (c :: w, cs)

def rest (quote : Char) : Nat → Cursor → Option (List Char × Cursor)
  | 0, _ => none
  | n + 1, cur =>
    if cur.atAnyMark then none
    else do
      let (w, cs) ← if quote = '"' then doubleWord (cur.rest.length + 1) cur.rest
        else singleWord cur.rest
      let cur := cur.moveTo cs
      match cs with
      | [] => none
      | '\\' :: _ =>
        if quote = '"' then
          let (s, cur) ← Space.readAll 0 true (cur.forward 1).nextLine
          let (more, cur) ← rest quote n cur
          some (w ++ s.breaks ++ more, cur)
        else none
      | c :: _ =>
        if c = quote then some (w, cur.forward 1)
        else
          let (s, cur) ← Space.readAll 0 false cur
          let (more, cur) ← rest quote n cur
          some (w ++ s.fold ++ more, cur)

end Quoted

def quotedText (quote : Char) (cur : Cursor) : Option (List Char × Cursor) :=
  Quoted.rest quote (cur.rest.length + 1) cur

namespace Block

inductive Chomp where
  | strip
  | clip
  | keep
  deriving DecidableEq

def header (cs : List Char) : Option (Chomp × Option Nat × List Char) :=
  let chomp? (c : Char) : Option Chomp :=
    if c = '+' then some .keep else if c = '-' then some .strip else none
  let digit? (c : Char) : Option Nat :=
    if '1' ≤ c && c ≤ '9' then some (c.toNat - 48) else none
  match cs with
  | [] => some (.clip, none, [])
  | a :: cs =>
    match chomp? a, digit? a with
    | some chomp, _ =>
      match cs with
      | b :: cs' =>
        if b = '0' then none
        else match digit? b with
          | some n => some (chomp, some n, cs')
          | none => some (chomp, none, cs)
      | [] => some (chomp, none, [])
    | none, some n =>
      match cs with
      | b :: cs' =>
        match chomp? b with
        | some chomp => some (chomp, some n, cs')
        | none => some (.clip, some n, cs)
      | [] => some (.clip, some n, [])
    | none, none => if a = '0' then none else some (.clip, none, a :: cs)

/-- Reads the lines that hold nothing, and with them the greatest column that blanks reach. An
unknown indentation is not limited. -/
def emptyLines (indent : Option Nat) (most : Nat) : Nat → Cursor →
    Option (List Char × Nat × Cursor)
  | 0, _ => none
  | n + 1, cur =>
    let blanks := (cur.rest.takeWhile (· == ' ')).length
    let blanks := match indent with
      | some k => min blanks (k - cur.column)
      | none => blanks
    let cur := cur.forward blanks
    let most := max most cur.column
    let inside := match indent with
      | some k => cur.column < k
      | none => true
    match cur.rest with
    | [] => some ([], most, cur)
    | c :: _ =>
      if inside && c = '\t' then none
      else if isBreak c then do
        let (more, most, cur) ← emptyLines indent most n cur.nextLine
        some (Cursor.breakChar c :: more, most, cur)
      else some ([], most, cur)

/-- Reads the lines of a block. `lead` is the break before the next line, `empty` the breaks of the
empty lines after it, and `apart` tells that the line before started with a gap. -/
def lines (literal : Bool) (indent : Nat) : Nat → (lead empty : List Char) → (apart : Bool) →
    Cursor → Option (List Char × List Char × List Char × Cursor)
  | 0, _, _, _, _ => none
  | n + 1, lead, empty, apart, cur =>
    if cur.column ≠ indent || cur.rest.isEmpty then some ([], lead, empty, cur)
    else do
      let gap := (cur.rest.head?.map isGap).getD false
      let joint :=
        if !literal && lead == ['\n'] && !apart && !gap then
          if empty.isEmpty then [' '] else empty
        else lead ++ empty
      let text := cur.rest.takeWhile (!isBreak ·)
      let cur := cur.forward text.length
      let next := (cur.rest.take 1).map Cursor.breakChar
      let cur := if cur.rest.isEmpty then cur else cur.nextLine
      let (empty, _, cur) ← emptyLines (some indent) 0 (cur.rest.length + 1) cur
      let (more, lead, empty, cur) ← lines literal indent n next empty gap cur
      some (joint ++ text ++ more, lead, empty, cur)

end Block

open Block in
/-- Reads a block behind its bar. Its indentation is told, or that of its first line, and more than
that of its parent. -/
def blockText (literal : Bool) (parent : Int) (cur : Cursor) : Option (List Char × Cursor) := do
  let (chomp, increment, cs) ← header cur.rest
  let cur ← (cur.moveTo cs).endLine
  let told := increment.map fun n => (max parent 0).toNat + n
  let (empty, most, cur) ← emptyLines told 0 (cur.rest.length + 1) cur
  let indent := told.getD (max most (max (parent + 1) 1).toNat)
  let (text, lead, empty, cur) ← lines literal indent (cur.rest.length + 1) [] empty false cur
  let ending := match chomp with
    | .strip => []
    | .clip => lead
    | .keep => lead ++ empty
  some (text ++ ending, cur)

end FleetDispatch.Yaml
