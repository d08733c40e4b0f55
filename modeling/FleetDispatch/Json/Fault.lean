namespace FleetDispatch.Json

inductive Reason where
  | endInValue
  | endInString
  | endInList
  | endInObject
  | noValue
  | noLiteral
  | noColon
  | noListEnd
  | noObjectEnd
  | keyNotText
  | trailingComma
  | trailingText
  | badNumber
  | hugeNumber
  | badEscape
  | loneSurrogate
  | unfinishedPair
  | controlCharacter
  | tooDeep
  deriving DecidableEq

def Reason.text : Reason → String
  | endInValue => "EOF while parsing a value"
  | endInString => "EOF while parsing a string"
  | endInList => "EOF while parsing a list"
  | endInObject => "EOF while parsing an object"
  | noValue => "expected value"
  | noLiteral => "expected ident"
  | noColon => "expected `:`"
  | noListEnd => "expected `,` or `]`"
  | noObjectEnd => "expected `,` or `\x7d`"
  | keyNotText => "key must be a string"
  | trailingComma => "trailing comma"
  | trailingText => "trailing characters"
  | badNumber => "invalid number"
  | hugeNumber => "number out of range"
  | badEscape => "invalid escape"
  | loneSurrogate => "lone leading surrogate in hex escape"
  | unfinishedPair => "unexpected end of hex escape"
  | controlCharacter => "control character (\\u0000-\\u001F) found while parsing a string"
  | tooDeep => "recursion limit exceeded"

/-- A reason, the text that is left where it shows, and how many octets of that are looked at. -/
structure Fault where
  reason : Reason
  rest : List Char
  octets : Nat
  deriving DecidableEq

/-- What reading comes to. Of a part of a text it gives the rest as well. -/
abbrev Reading := Except Fault

def octetsOf (cs : List Char) : Nat :=
  cs.foldl (fun n c => n + c.utf8Size) 0

def stuck {α : Type} (reason : Reason) (rest : List Char) : Reading α :=
  .error ⟨reason, rest, 1⟩

def stuckOr {α : Type} (atEnd reason : Reason) (rest : List Char) : Reading α :=
  stuck (if rest.isEmpty then atEnd else reason) rest

/-- A reason with the line and the column up to which a text was looked at. Columns are counted in
octets. -/
structure Misreading where
  reason : Reason
  line : Nat
  column : Nat
  deriving DecidableEq

def Misreading.text (m : Misreading) : String :=
  s!"{m.reason.text} at line {m.line} column {m.column}"

def placeAfter (line column octets : Nat) : List Char → Nat × Nat
  | [] => (line, column)
  | c :: cs =>
    if octets < c.utf8Size then (line, column + octets)
    else if c = '\n' then placeAfter (line + 1) 0 (octets - 1) cs
    else placeAfter line (column + c.utf8Size) (octets - c.utf8Size) cs

def Fault.within (whole : List Char) (f : Fault) : Misreading :=
  let left := octetsOf f.rest
  let (line, column) := placeAfter 1 0 (octetsOf whole - left + min f.octets left) whole
  ⟨f.reason, line, column⟩

end FleetDispatch.Json
