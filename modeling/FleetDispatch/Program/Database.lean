import FleetDispatch.Files.Basic
import FleetDispatch.Json.Parser

namespace FleetDispatch.Program

inductive OpenMode where
  | readOnly
  | readWrite
  | create
  | memory
  deriving DecidableEq

/-- What the name of a database stands for: one in memory, which is gone with the program, or a
file, which may be made where it is missing. Nothing is written to a sealed one. -/
inductive DatabaseName where
  | passing (isSealed : Bool)
  | file (path : String) (creates isSealed : Bool)
  deriving DecidableEq

namespace DatabaseName

/-- Reads the text up to one of some marks, with octets given in base sixteen. What follows an
octet of zero is left out. -/
def unescape (marks : List Char) : Nat → Octets → Octets × Octets
  | 0, cs => ([], cs)
  | _ + 1, [] => ([], [])
  | n + 1, c :: cs =>
    if marks.contains c then ([], c :: cs)
    else
      let escaped := match c, cs with
        | '%', a :: b :: rest =>
          match Json.hexValue a, Json.hexValue b with
          | some a, some b => some (a * 16 + b, rest)
          | _, _ => none
        | _, _ => none
      match escaped with
      | some (0, rest) => ([], rest.dropWhile fun c => !marks.contains c)
      | some (octet, rest) =>
        let (text, rest) := unescape marks n rest
        (Char.ofNat octet :: text, rest)
      | none =>
        let (text, rest) := unescape marks n cs
        (c :: text, rest)

def options : Nat → Octets → List (String × String)
  | 0, _ => []
  | _ + 1, [] => []
  | _ + 1, '#' :: _ => []
  | n + 1, _ :: cs =>
    let (key, rest) := unescape ['=', '&', '#'] (cs.length + 1) cs
    let (value, rest) := match rest with
      | '=' :: rest => unescape ['&', '#'] (rest.length + 1) rest
      | rest => ([], rest)
    (Octets.text key, Octets.text value) :: options n rest

/-- Skips an authority, of which there is only the one of this host. -/
def skipAuthority (cs : Octets) : Except BackendFailure Octets :=
  match cs with
  | '/' :: '/' :: cs =>
    let name := Octets.text (cs.takeWhile (· != '/'))
    if name.isEmpty || name == "localhost" then .ok (cs.dropWhile (· != '/'))
    else .error (.unknownAuthority name)
  | cs => .ok cs

def modes : List (String × OpenMode) :=
  [("ro", .readOnly), ("rw", .readWrite), ("rwc", .create), ("memory", .memory)]

/-- How options say that a database is opened; the last one counts. -/
def modeOf (os : List (String × String)) : Except BackendFailure OpenMode :=
  os.foldlM (fun mode (key, value) =>
    if key = "mode" then
      match modes.lookup value with
      | some mode => .ok mode
      | none => .error (.unknownOption "access mode" value)
    else if key = "cache" && value != "shared" && value != "private" then
      .error (.unknownOption "cache mode" value)
    else .ok mode) .create

def memoryLayer : String := "memdb"

def layers : List String :=
  ["unix", "unix-none", "unix-dotfile", "unix-excl", memoryLayer]

def layerOf (os : List (String × String)) : Except BackendFailure String :=
  let name := ((os.filter (·.1 == "vfs")).getLast?.map (·.2)).getD "unix"
  if layers.contains name then .ok name else .error (.unknownOption "vfs" name)

def saysYes (s : String) : Bool :=
  let digits := s.toList.takeWhile Char.isDigit
  ["on", "yes", "true"].contains s.toLower || digits.any (· != '0')

/-- Whether options say that a file never changes. The first one counts. -/
def isFixed (os : List (String × String)) : Bool :=
  ((os.lookup "immutable").map saysYes).getD false

/-- A database without a name, or with that of the memory, is a passing one. -/
def isNamed (path : String) : Bool :=
  !(path.isEmpty || path == ":memory:")

def withOptions (path : String) (os : List (String × String)) :
    Except BackendFailure DatabaseName := do
  let mode ← modeOf os
  let layer ← layerOf os
  let inMemory := mode = .memory || layer = memoryLayer
  if isNamed path && !inMemory then
    return .file path (mode = .create) (mode = .readOnly || isFixed os)
  return .passing (mode = .readOnly || (isNamed path && mode ≠ .memory && isFixed os))

/-- What a name stands for: a path, or behind `file:` a path with escapes and options. -/
def ofString (s : String) : Except BackendFailure DatabaseName :=
  match s.toList.findIdx? (· == '\x00') with
  | some i => .error (.nulInName (String.ofList (s.toList.take i)).utf8ByteSize)
  | none =>
    match s.toList with
    | 'f' :: 'i' :: 'l' :: 'e' :: ':' :: name => do
      let cs ← skipAuthority (Octets.ofString (String.ofList name))
      let (path, rest) := unescape ['?', '#'] (cs.length + 1) cs
      withOptions (Octets.text path) (options (rest.length + 1) rest)
    | _ => withOptions s []

def isMade (path : String) (creates : Bool) (fs : Files) : Bool :=
  let p := fs.locate path
  creates && fs.isOpen p && (fs.wayFault? p).isNone && (fs.find? p).isNone

/-- Opens a database file. One without content becomes an empty database, unless it is sealed; the
name is that by which it was asked for. -/
def openFile (name path : String) (creates isSealed : Bool) (fs : Files) :
    Except BackendFailure Tables :=
  let empty := if isSealed then .error .readOnly else .ok .empty
  match fs.look (fs.locate path) with
  | .ok (.database rows) => .ok rows
  | .ok (.file []) => empty
  | .ok (.file _) => .error .notADatabase
  | .ok .program => .error .notADatabase
  | .ok .device => empty
  | _ => if isMade path creates fs then empty else .error (.cannotOpen name)

end DatabaseName

end FleetDispatch.Program
