import FleetDispatch.Shell.Filter

namespace FleetDispatch.Shell.Upkeep

abbrev Work := Job → Files → Effect × Files

def locate (path : Octets) (fs : Files) : Path :=
  (fs.locate (Octets.text path)).resolve

/-- Does something for each path as far as it can be done, and complains of the others. -/
def forEach (j : Job) (paths : List Octets) (words : Octets → PathFault → Octets)
    (work : Octets → Files → Except PathFault Files) (fs : Files) : Effect × Files :=
  let (errors, fs) := paths.foldl (fun (errors, fs) p =>
    if p.isEmpty then (errors ++ j.say (words p .missing), fs)
    else
      match work p fs with
      | .ok fs => (errors, fs)
      | .error f => (errors ++ j.say (words p f), fs)) ([], fs)
  (⟨[], errors, if errors.isEmpty then 0 else 1, false⟩, fs)

def quoted (verb : String) (path : Octets) (f : PathFault) : Octets :=
  verb.toList ++ ' ' :: inQuotes path ++ ": ".toList ++ (faultText f).toList

def withPaths (j : Job) (letters : List Char) (operand : String) (fs : Files)
    (work : (Char → Bool) → List Octets → Effect × Files) : Effect × Files :=
  match j.optionsOf letters [] with
  | .error c => (j.invalidOption c 1, fs)
  | .ok (os, paths) =>
    if paths.isEmpty && !os.any (·.1 == 'f') then (j.misused ("missing " ++ operand) 1, fs)
    else work (fun c => os.any (·.1 == c)) paths

def makeOne (path : Octets) (fs : Files) : Except PathFault Files :=
  let p := locate path fs
  match fs.wayFault? p, fs.find? p with
  | some f, _ => .error f
  | none, some _ => .error .occupied
  | none, none => .ok (fs.put p .directory)

def notMade (path : Octets) (f : PathFault) : Octets :=
  "cannot create directory ".toList ++ inMarks path ++ ": ".toList ++ (faultText f).toList

def mkdir : Work := fun j fs =>
  withPaths j ['p', 'v'] "operand" fs fun has paths =>
    forEach j paths notMade (fun path fs =>
      if has 'p' then
        match fs.makeDirectory (Octets.text path) with
        | .error .occupied => .error .occupied
        | r => r
      else makeOne path fs) fs

def rmdir : Work := fun j fs =>
  withPaths j ['p'] "operand" fs fun _ paths =>
    let (e, after) := forEach j paths (quoted "failed to remove") (fun path fs => do
      let p := locate path fs
      let e ← fs.look p
      if !e.isDirectory then throw .notDirectory
      if !(fs.names p).isEmpty then throw .occupied
      return fs.remove p) fs
    let text := "File exists".toList
    let errors := (Line.ofOctets e.errors).map fun l =>
      if text.isSuffixOf l.text then
        { l with text := l.text.take (l.text.length - text.length) ++ "Directory not empty".toList }
      else l
    ({ e with errors := Line.join errors }, after)

def touch : Work := fun j fs =>
  withPaths j ['a', 'c', 'm'] "file operand" fs fun has paths =>
    forEach j paths (quoted "cannot touch") (fun path fs =>
      let p := locate path fs
      match fs.wayFault? p, fs.find? p with
      | some f, _ => .error f
      | none, some _ => .ok fs
      | none, none => .ok (if has 'c' then fs else fs.put p (.file []))) fs

def rm : Work := fun j fs =>
  withPaths j ['f', 'r', 'R', 'd', 'v'] "operand" fs fun has paths =>
    forEach j paths (quoted "cannot remove") (fun path fs =>
      let p := locate path fs
      match fs.look p with
      | .error f => if has 'f' then .ok fs else .error f
      | .ok e =>
        if e.isDirectory && !(has 'r' || has 'R') then .error .isDirectory
        else .ok (fs.remove p)) fs

def listed (has : Char → Bool) (p : Path) (fs : Files) : Octets :=
  let names := (fs.names p).map Octets.ofString
  let names := if has 'a' then ['.'] :: "..".toList :: names
    else if has 'A' then names else names.filter (·.head? != some '.')
  names.flatMap fun n => n ++ ['\n']

def ls : Work := fun j fs =>
  match j.optionsOf ['1', 'a', 'A', 'd', 'q', 'r', 't', 'F'] [] with
  | .error c => (j.invalidOption c 2, fs)
  | .ok (os, paths) =>
    let has := fun c => os.any (·.1 == c)
    let asked := if paths.isEmpty then [['.']] else paths
    let looked := asked.map fun path => (path, fs.look (locate path fs))
    let errors := looked.flatMap fun (path, r) =>
      match r with
      | .error f => j.say (quoted "cannot access" path f)
      | .ok _ => []
    let found := (looked.filterMap fun (path, r) => r.toOption.map fun e => (path, e)).mergeSort
      fun a b => Octets.le a.1 b.1
    let (dirs, files) := found.partition fun f => f.2.isDirectory && !has 'd'
    let plain := files.flatMap fun f => f.1 ++ ['\n']
    let shown := dirs.map fun f =>
      (if asked.length < 2 then [] else f.1 ++ [':', '\n']) ++ listed has (locate f.1 fs) fs
    let blocks := (if plain.isEmpty then [] else [plain]) ++ shown
    (⟨['\n'].intercalate blocks, errors, if errors.isEmpty then 0 else 2, false⟩, fs)

/-- Where something goes that is brought to a path: into it if it is a directory. -/
def goal (source target : Octets) (fs : Files) : Path :=
  let p := locate target fs
  match fs.find? p with
  | some e => if e.isDirectory then p ++ [Octets.text (Filter.baseName source [])] else p
  | none => p

def carried (from_ to_ : Path) (fs : Files) : List (Path × Entry) :=
  fs.entries.filterMap fun (p, e) =>
    if from_.isPrefixOf p then some (to_ ++ p.drop from_.length, e) else none

def bringOne (keeps recursive : Bool) (source target : Octets) (fs : Files) :
    Except Octets Files :=
  let from_ := locate source fs
  match fs.look from_ with
  | .error f => .error (quoted "cannot stat" source f)
  | .ok e =>
    if e.isDirectory && keeps && !recursive then
      .error ("-r not specified; omitting directory ".toList ++ inQuotes source)
    else
      let to_ := (goal source target fs).resolve
      let named := inQuotes source
      match fs.wayFault? to_ with
      | some f =>
        .error (if keeps then quoted "cannot create regular file" target f
          else "cannot move ".toList ++ named ++ " to ".toList ++ inQuotes target ++ ": ".toList ++
            (faultText f).toList)
      | none =>
        if from_ = to_ then
          .error (named ++ " and ".toList ++ inQuotes target ++ " are the same file".toList)
        else
          let moved := carried from_ to_ fs
          let fs := if keeps then fs else fs.remove from_
          .ok (moved.foldl (fun fs (p, e) => fs.put p e) (fs.remove to_))

/-- Brings paths to the last one of them, which is a directory if there are several others. -/
def bring (keeps : Bool) : Work := fun j fs =>
  match j.optionsOf ['f', 'r', 'R', 'a', 'p', 'n', 'v'] [] with
  | .error c => (j.invalidOption c 1, fs)
  | .ok (os, paths) =>
    match paths.getLast?, paths.dropLast with
    | none, _ => (j.misused "missing file operand" 1, fs)
    | some p, [] =>
      (j.misused s!"missing destination file operand after '{Octets.text p}'" 1, fs)
    | some target, sources =>
      let isDir := ((fs.find? (locate target fs)).map Entry.isDirectory).getD false
      if 2 ≤ sources.length && !isDir then
        (j.fails ("target ".toList ++ inQuotes target ++ ": ".toList ++
          (faultText (if (fs.find? (locate target fs)).isSome then .notDirectory
            else .missing)).toList) 1, fs)
      else
        let recursive := os.any fun o => ['r', 'R', 'a'].contains o.1
        let (errors, fs) := sources.foldl (fun (errors, fs) source =>
          match bringOne keeps recursive source target fs with
          | .ok fs => (errors, fs)
          | .error message => (errors ++ j.say message, fs)) ([], fs)
        (⟨[], errors, if errors.isEmpty then 0 else 1, false⟩, fs)

def mv : Work := bring false

def cp : Work := bring true

def tee : Work := fun j fs =>
  match j.optionsOf ['a', 'i'] [] with
  | .error c => (j.invalidOption c 1, fs)
  | .ok (os, paths) =>
    let appends := os.any (·.1 == 'a')
    let (e, fs) := forEach j paths Job.namedFault (fun path fs =>
      let p := locate path fs
      match fs.wayFault? p, fs.find? p with
      | some f, _ => .error f
      | none, some .device => .ok fs
      | none, some e =>
        if e.isDirectory then .error .isDirectory
        else
          let old := if appends then ((fs.octets p).toOption).getD [] else []
          .ok (fs.put p (.file (old ++ j.input)))
      | none, none => .ok (fs.put p (.file j.input))) fs
    ({ e with output := j.input, used := true }, fs)

def works : List (String × Work) :=
  [("mkdir", mkdir), ("rmdir", rmdir), ("touch", touch), ("rm", rm), ("ls", ls), ("mv", mv),
    ("cp", cp), ("tee", tee)]

end FleetDispatch.Shell.Upkeep
