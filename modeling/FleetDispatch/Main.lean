import FleetDispatch.Program.CycleId
import FleetDispatch.Program.Startup
import FleetDispatch.Shell.Start
import Std.Time.DateTime.Timestamp

namespace FleetDispatch.Main

open Program

def variableNames : List String :=
  ["HOME", "XDG_DATA_HOME", "XDG_CONFIG_HOME", "CLICOLOR_FORCE", "NO_COLOR", "CLICOLOR"]

def environment : IO (String → Option String) := do
  let pairs ← variableNames.mapM fun name => return (name, ← IO.getEnv name)
  return fun name => (pairs.lookup name).join

def now : IO Instant := do
  let t ← Std.Time.Timestamp.now
  return ⟨t.val.second.val, t.val.nano.val.toNat⟩

def probe (p : Path) : IO (Option Entry) := do
  try
    let bytes ← IO.FS.readBinFile p.text
    return some (.ofOctets (bytes.toList.map fun b => Char.ofNat b.toNat))
  catch
    | .noFileOrDirectory .. => return none
    | _ => return some .directory

def gather (files : Files) (s : String) : IO Files := do
  let mut files := files
  for p in Path.stages (files.locate s) do
    if (files.wayFault? p).isNone && (files.find? p).isNone then
      if let some e ← probe p then
        files := files.put p e
  return files

/-- Writes what a run has changed: new directories first, and then files. -/
def spread (before after : Files) : IO Unit := do
  for (p, e) in after.entries do
    if e.isDirectory && (before.find? p).isNone then
      IO.FS.createDirAll p.text
  for (p, e) in after.entries do
    match e, before.find? p with
    | .database rows, _ => IO.FS.writeFile p.text rows.toText
    | .file cs, some (.file old) =>
      if cs != old then write p cs
    | .file cs, _ => write p cs
    | _, _ => pure ()
where
  /-- Writes a file anew. -/
  write (p : Path) (cs : Octets) : IO Unit :=
    IO.FS.writeBinFile p.text (ByteArray.mk (cs.map fun c => UInt8.ofNat c.toNat).toArray)

def print (o : Output) : IO Unit := do
  IO.print o.out
  (← IO.getStdout).flush
  IO.eprint (if o.err.isEmpty || o.err.endsWith "\n" then o.err else o.err ++ "\n")

/-- Carries out a command line once; it tells after how many seconds it is to go on. -/
def once (variableOf : String → Option String) (words : List String) :
    IO (Output × Option Nat) := do
  let homes := Homes.of variableOf
  let directory ← IO.currentDir
  let mut files : Files := ⟨Shell.systemEntries, Path.steps directory.toString⟩
  files ← gather files "."
  files ← gather files (logPath homes)
  for path in settingsPaths homes words do
    files ← gather files path
  if let some (i, c) := settings? homes files words then
    if let .ok (.file path _ _) := DatabaseName.ofString (databasePath i c) then
      files ← gather files path
  let time ← now
  let random ← IO.getRandomBytes 10
  let name := cycleId time.toMillis.toNat (random.toList.map UInt8.toNat)
  let color := wantsColor variableOf (← (← IO.getStdout).isTty)
  let (o, after) := run ⟨time, name, color, Shell.start⟩ homes files words
  spread files after
  return (o, if o.status = 0 then pause? homes files words else none)

partial def keepPolling (variableOf : String → Option String) (words : List String)
    (seconds : Nat) : IO Unit := do
  IO.sleep (UInt32.ofNat (seconds * 1000))
  let _ ← once variableOf words
  keepPolling variableOf words seconds

end FleetDispatch.Main

def main (args : List String) : IO UInt32 := do
  let variableOf ← FleetDispatch.Main.environment
  let (o, pause) ← FleetDispatch.Main.once variableOf args
  FleetDispatch.Main.print o
  if let some seconds := pause then
    FleetDispatch.Main.keepPolling variableOf args seconds
  return UInt32.ofNat o.status
