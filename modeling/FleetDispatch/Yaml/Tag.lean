import FleetDispatch.Yaml.Scalar

namespace FleetDispatch.Yaml

/-- A tag as it is written: a handle, which stands for a text that a directive gives it, and what
follows it. A tag that is written in full has no handle. -/
structure Tag where
  handle : List Char
  suffix : List Char
  deriving DecidableEq

namespace Tag

def isWordChar (c : Char) : Bool :=
  c.isAlphanum || c == '_' || c == '-'

def marks : List Char :=
  [';', '/', '?', ':', '@', '&', '=', '+', '$', '.', '%', '!', '~', '*', '\x27', '(', ')']

/-- A handle: words between exclamation marks, of which the second may be missing. -/
def handleOf : List Char → Option (List Char × List Char)
  | '!' :: cs =>
    let word := cs.takeWhile isWordChar
    match cs.drop word.length with
    | '!' :: cs => some ('!' :: word ++ ['!'], cs)
    | cs => some ('!' :: word, cs)
  | _ => none

def octetCount (lead : Nat) : Option Nat :=
  if lead < 0x80 then some 1
  else if 0xC0 ≤ lead && lead < 0xE0 then some 2
  else if 0xE0 ≤ lead && lead < 0xF0 then some 3
  else if 0xF0 ≤ lead && lead < 0xF8 then some 4
  else none

def octet : List Char → Option (Nat × List Char)
  | '%' :: a :: b :: cs => do
    let a ← Json.hexValue a
    let b ← Json.hexValue b
    some (a * 16 + b, cs)
  | _ => none

def tailOctets : Nat → List Char → Option (List Char × List Char)
  | 0, cs => some ([], cs)
  | n + 1, cs => do
    let (o, cs) ← octet cs
    if 0x80 ≤ o && o < 0xC0 then
      let (more, cs) ← tailOctets n cs
      some (Char.ofNat o :: more, cs)
    else none

def octets (cs : List Char) : Option (List Char × List Char) := do
  let (lead, cs) ← octet cs
  let (more, cs) ← tailOctets ((← octetCount lead) - 1) cs
  some (Char.ofNat lead :: more, cs)

/-- Reads on to a character that no tag holds. Commas and square brackets stand only in tags that
are written in full and in directives. -/
def body (full : Bool) : Nat → List Char → Option (List Char × List Char)
  | 0, _ => none
  | n + 1, cs =>
    match cs with
    | [] => some ([], [])
    | '%' :: _ => do
      let (os, cs) ← octets cs
      let (more, cs) ← body full n cs
      some (os ++ more, cs)
    | c :: cs' =>
      if isWordChar c || marks.contains c || (full && [',', '[', ']'].contains c) then do
        let (more, cs) ← body full n cs'
        some (c :: more, cs)
      else some ([], cs)

def bodyOf (full : Bool) (cs : List Char) : Option (List Char × List Char) := do
  let (b, rest) ← body full (cs.length + 1) cs
  if rest.length < cs.length then some (b, rest) else none

/-- Reads a tag. A lone exclamation mark is a tag in full. -/
def ofChars : List Char → Option (Tag × List Char)
  | '!' :: '<' :: cs => do
    match ← bodyOf true cs with
    | (suffix, '>' :: cs) => some (⟨[], suffix⟩, cs)
    | _ => none
  | cs => do
    let (handle, rest) ← handleOf cs
    if 1 < handle.length && handle.getLast? = some '!' then
      let (suffix, rest) ← bodyOf false rest
      some (⟨handle, suffix⟩, rest)
    else
      let (more, rest) ← body false (rest.length + 1) rest
      let suffix := handle.drop 1 ++ more
      some (if suffix.isEmpty then ⟨[], ['!']⟩ else ⟨['!'], suffix⟩, rest)

def declaration (cs : List Char) : Option (List Char × List Char × List Char) := do
  let (handle, cs) ← handleOf cs
  if handle.getLast? ≠ some '!' then none
  else if !(cs.head?.map isGap).getD false then none
  else
    let (stem, cs) ← bodyOf true (cs.dropWhile isGap)
    if isApart cs then some (handle, stem, cs) else none

def versionNumber (cs : List Char) : Option (Nat × List Char) :=
  let digits := cs.takeWhile Char.isDigit
  if digits.isEmpty || 9 < digits.length then none
  else some (digits.foldl (fun n c => n * 10 + (c.toNat - 48)) 0, cs.drop digits.length)

def afterDot : List Char → Option (List Char)
  | '.' :: cs => some cs
  | _ => none

def standardHandles : List (List Char × List Char) :=
  [(['!'], ['!']), (['!', '!'], "tag:yaml.org,2002:".toList)]

def resolve? (handles : List (List Char × List Char)) (t : Tag) : Option (List Char) :=
  if t.handle.isEmpty then some t.suffix
  else (handles.lookup t.handle).map (· ++ t.suffix)

end FleetDispatch.Yaml.Tag
