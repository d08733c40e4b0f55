import FleetDispatch.Files.Path
import FleetDispatch.Store.Archive
import FleetDispatch.Text.Octets

namespace FleetDispatch

/-- What can stand at a path. Nothing can be put into a sealed directory, and an empty device takes
all that is written to it. -/
inductive Entry where
  | directory
  | sealed
  | device
  | program
  | file (content : Octets)
  | database (rows : Tables)

namespace Entry

def ofString (s : String) : Entry :=
  .file (Octets.ofString s)

def ofOctets (cs : Octets) : Entry :=
  match (Octets.text? cs).bind Tables.ofText? with
  | some rows => .database rows
  | none => .file cs

def isDirectory : Entry → Bool
  | directory => true
  | sealed => true
  | _ => false

end Entry

inductive PathFault where
  | missing
  | occupied
  | notDirectory
  | isDirectory
  | tooLong
  | unnameable
  | notText
  deriving DecidableEq

def PathFault.text : PathFault → String
  | missing => "No such file or directory (os error 2)"
  | occupied => "File exists (os error 17)"
  | notDirectory => "Not a directory (os error 20)"
  | isDirectory => "Is a directory (os error 21)"
  | tooLong => "File name too long (os error 36)"
  | unnameable => "file name contained an unexpected NUL byte"
  | notText => "stream did not contain valid UTF-8"

/-- The files that a program sees, by paths that do not go back, and the directory that relative
paths start from. -/
structure Files where
  entries : List (Path × Entry)
  here : Path

namespace Files

def locate (s : String) (fs : Files) : Path :=
  if Path.isAbsolute s then Path.steps s else fs.here ++ Path.steps s

/-- What stands at a path. The root is always there. -/
def find? (p : Path) (fs : Files) : Option Entry :=
  let p := p.resolve
  if p.isEmpty then some .directory else fs.entries.lookup p

def put (p : Path) (e : Entry) (fs : Files) : Files :=
  let p := p.resolve
  { fs with entries := (p, e) :: fs.entries.filter (·.1 != p) }

def remove (p : Path) (fs : Files) : Files :=
  let p := p.resolve
  { fs with entries := fs.entries.filter fun e => !p.isPrefixOf e.1 }

def names (p : Path) (fs : Files) : List String :=
  let p := p.resolve
  sortedNames (fs.entries.filterMap fun e =>
    if e.1.length = p.length + 1 && p.isPrefixOf e.1 then e.1.getLast? else none)

def wayFault? (p : Path) (fs : Files) : Option PathFault :=
  ((Path.stages p.dropLast).findSome? fun q =>
    match fs.find? q with
    | none => some (if (q.getLast?.map Path.isLong).getD false then .tooLong else .missing)
    | some e => if e.isDirectory then none else some .notDirectory) <|>
  if (p.getLast?.map Path.isLong).getD false then some .tooLong else none

def isOpen (p : Path) (fs : Files) : Bool :=
  match fs.find? p.resolve.dropLast with
  | some .directory => true
  | _ => false

def look (p : Path) (fs : Files) : Except PathFault Entry :=
  match fs.wayFault? p, fs.find? p with
  | some fault, _ => .error fault
  | none, none => .error .missing
  | none, some e => .ok e

def octets (p : Path) (fs : Files) : Except PathFault Octets := do
  match ← fs.look p with
  | .file cs => return cs
  | .device => return []
  | .program => return ['\x7f', 'E', 'L', 'F', '\xff']
  | .database _ => return "SQLite format 3\x00\xff".toList
  | _ => throw .isDirectory

def read (s : String) (fs : Files) : Except PathFault String := do
  if s.toList.contains '\x00' then throw .unnameable
  let cs ← fs.octets (fs.locate s)
  match Octets.text? cs with
  | some s => return s
  | none => throw .notText

def makeStage (asked : Path) (fs : Files) (q : Path) : Except PathFault Files :=
  match fs.find? q with
  | none =>
    if (q.getLast?.map Path.isLong).getD false then .error .tooLong
    else if fs.isOpen q then .ok (fs.put q .directory)
    else .error .missing
  | some e =>
    if e.isDirectory then .ok fs
    else .error (if q = asked.resolve then .occupied else .notDirectory)

/-- Makes a directory, and those on the way to it that are missing. Only what is asked for may be
occupied; a file on the way is no directory. -/
def makeDirectory (s : String) (fs : Files) : Except PathFault Files :=
  if s.toList.contains '\x00' then .error .unnameable
  else
    let p := fs.locate s
    (Path.stages p).foldlM (makeStage p) fs

end Files

end FleetDispatch
