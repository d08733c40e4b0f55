import FleetDispatch.Decimal.Digits
import FleetDispatch.Json.Value
import FleetDispatch.Text.Blank
import FleetDispatch.Time.Calendar
import FleetDispatch.Time.Instant

namespace FleetDispatch.Instant

open Decimal Time

/-- The fewest of 0, 3, 6 and 9 digits that hold the nanoseconds exactly. -/
def fractionChars (nanos : Nat) : List Char :=
  if nanos = 0 then []
  else if nanos % 1000000 = 0 then '.' :: padded 3 (nanos / 1000000)
  else if nanos % 1000 = 0 then '.' :: padded 6 (nanos / 1000)
  else '.' :: padded 9 nanos

/-- Years beyond four digits carry a sign. -/
def yearChars (year : Int) : List Char :=
  if 0 ≤ year && year ≤ 9999 then padded 4 year.toNat
  else (if year < 0 then '-' else '+') :: padded 4 year.natAbs

def stampChars (t : Instant) : List Char :=
  let days := t.seconds.fdiv 86400
  let second := (t.seconds.fmod 86400).toNat
  let date := Date.ofDays days
  let leap := 1000000000 ≤ t.nanos
  yearChars date.year ++ '-' :: padded 2 date.month ++ '-' :: padded 2 date.day ++
    'T' :: padded 2 (second / 3600) ++ ':' :: padded 2 (second / 60 % 60) ++
    ':' :: padded 2 (second % 60 + if leap then 1 else 0) ++
    fractionChars (if leap then t.nanos - 1000000000 else t.nanos)

def stamp (t : Instant) : String :=
  String.ofList (stampChars t ++ ['Z'])

def offsetStamp (t : Instant) : String :=
  String.ofList (stampChars t ++ ['+', '0', '0', ':', '0', '0'])

structure Fields where
  year : Int
  month : Nat
  day : Nat
  hour : Nat
  minute : Nat
  second : Nat
  nanos : Nat
  offset : Int

/-- The instant that valid fields stand for. A sixtieth second is a leap second. -/
def Fields.toInstant? (f : Fields) : Option Instant :=
  let date : Date := ⟨f.year, f.month, f.day⟩
  if date.valid && -262143 ≤ f.year && f.year ≤ 262142 && f.hour < 24 && f.minute < 60 &&
      f.second ≤ 60 && f.offset.natAbs < 86400 then
    let leap := f.second = 60
    let second := if leap then 59 else f.second
    let t : Instant :=
      ⟨date.toDays * 86400 + (f.hour * 3600 + f.minute * 60 + second : Nat) - f.offset,
        f.nanos + if leap then 1000000000 else 0⟩
    if leastMillis ≤ t.seconds * 1000 ∧ t.seconds * 1000 ≤ greatestMillis then some t else none
  else none

def number (least most : Nat) (cs : List Char) : Option (Nat × List Char) :=
  let ds := (cs.takeWhile isDigit).take most
  if ds.length < least then none else some (ofDigits 0 ds, cs.drop ds.length)

def mark (c : Char) : List Char → Option (List Char)
  | d :: cs => if c = d then some cs else none
  | [] => none

/-- Digits of a second beyond the ninth are dropped. -/
def fraction (cs : List Char) : Option (Nat × List Char) :=
  match cs with
  | '.' :: cs =>
    let ds := cs.takeWhile isDigit
    let kept := ds.take 9
    if ds.isEmpty then none
    else some (ofDigits 0 kept * Nat.pow 10 (9 - kept.length), cs.drop ds.length)
  | cs => some (0, cs)

def zone (colon : List Char → Option (List Char)) (cs : List Char) : Option (Int × List Char) :=
  match cs with
  | 'Z' :: cs => some (0, cs)
  | 'z' :: cs => some (0, cs)
  | c :: cs =>
    if c = '+' || c = '-' || c = '\u2212' then do
      let (hours, cs) ← number 2 2 cs
      let cs ← colon cs
      let (minutes, cs) ← number 2 2 cs
      if 60 ≤ minutes then none
      else
        let n : Int := (hours * 3600 + minutes * 60 : Nat)
        some (if c = '+' then n else -n, cs)
    else none
  | [] => none

def separator : List Char → Option (List Char)
  | 'T' :: cs => some cs
  | 't' :: cs => some cs
  | ' ' :: cs => some cs
  | _ => none

/-- Reads a timestamp with four digits for the year, two for each other part, and a zone of less
than a day. -/
def ofStamp? (s : String) : Option Instant := do
  let (year, cs) ← number 4 4 s.toList
  let cs ← mark '-' cs
  let (month, cs) ← number 2 2 cs
  let cs ← mark '-' cs
  let (day, cs) ← number 2 2 cs
  let cs ← separator cs
  let (hour, cs) ← number 2 2 cs
  let cs ← mark ':' cs
  let (minute, cs) ← number 2 2 cs
  let cs ← mark ':' cs
  let (second, cs) ← number 2 2 cs
  let (nanos, cs) ← fraction cs
  let (offset, cs) ← zone (mark ':') cs
  if cs.isEmpty then Fields.toInstant? ⟨year, month, day, hour, minute, second, nanos, offset⟩
  else none

def signedYear (cs : List Char) : Option (Int × List Char) :=
  match Text.trimLeft cs with
  | '-' :: cs => do
    let (n, cs) ← number 1 cs.length cs
    some (-n, cs)
  | '+' :: cs => do
    let (n, cs) ← number 1 cs.length cs
    some (n, cs)
  | cs => do
    let (n, cs) ← number 1 4 cs
    some (n, cs)

def looseNumber (cs : List Char) : Option (Nat × List Char) :=
  number 1 2 (Text.trimLeft cs)

def looseMark (c : Char) (cs : List Char) : Option (List Char) :=
  mark c (Text.trimLeft cs)

def looseZone (cs : List Char) : Option (Int × List Char) :=
  match cs with
  | u :: t :: c :: cs' =>
    if u.toUpper = 'U' && t.toUpper = 'T' && c.toUpper = 'C' then some (0, cs')
    else zone colons cs
  | cs => zone colons cs
where
  colons (cs : List Char) : Option (List Char) :=
    some (cs.dropWhile fun c => c == ':' || Text.isBlank c)

/-- Reads a timestamp in which blanks may stand between the parts, digits may be missing, and a
year may have a sign. -/
def ofLooseStamp? (s : String) : Option Instant := do
  let (year, cs) ← signedYear s.toList
  let cs ← looseMark '-' cs
  let (month, cs) ← looseNumber cs
  let cs ← looseMark '-' cs
  let (day, cs) ← looseNumber cs
  let cs ← separator cs
  let (hour, cs) ← looseNumber cs
  let cs ← looseMark ':' cs
  let (minute, cs) ← looseNumber cs
  let cs ← looseMark ':' cs
  let (second, cs) ← looseNumber cs
  let (nanos, cs) ← fraction cs
  let (offset, cs) ← looseZone (Text.trimLeft cs)
  if (Text.trimLeft cs).isEmpty then
    Fields.toInstant? ⟨year, month, day, hour, minute, second, nanos, offset⟩
  else none

def ofJson? (v : Json) : Option Instant :=
  v.str?.bind ofLooseStamp?

end FleetDispatch.Instant
