import FleetDispatch.Verdict

namespace FleetDispatch

/-- Tells whether the result of a call makes the package list of an endpoint stale. -/
abbrev Classifier := Procedure → CallResult → Bool

namespace Classifier

def packageFunctions : List String :=
  ["pkg.install", "pkg.remove", "pkg.purge", "pkg.upgrade", "pkg.update", "pkg.refresh_db"]

def packageStates : List String :=
  ["pkg_|-", "pkgrepo_|-"]

def isChange : Json → Bool
  | .obj fields => !fields.isEmpty
  | .arr items => !items.isEmpty
  | .null => false
  | _ => true

def startsWith (start s : String) : Bool :=
  start.toList.isPrefixOf s.toList

def changesPackages (id : String) (state : Json) : Bool :=
  packageStates.any (startsWith · id) && ((state.field? "changes").map isChange).getD false

def statesChangePackages : Json → Bool
  | .obj states => states.any fun s => changesPackages s.1 s.2
  | _ => false

/-- Looks the function up in a table, and of applied states looks at what they changed. -/
def withFunctions (extra : List String) : Classifier := fun p r =>
  if (packageFunctions ++ extra).contains p.function then true
  else if p.isStateApply then statesChangePackages r.payload
  else false

def standard : Classifier :=
  withFunctions []

end FleetDispatch.Classifier
