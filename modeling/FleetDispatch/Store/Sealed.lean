import FleetDispatch.Store.Basic

namespace FleetDispatch

/-- Rows that can be read and not written. -/
structure Sealed (σ : Type) where
  rows : σ

namespace Sealed

variable {σ α : Type}

def look (script : Script σ α) : Script (Sealed σ) α := fun s =>
  match script s.rows with
  | .ok a _ => .ok a s
  | .error e _ => .error e s

def refuse : Script (Sealed σ) α := fun s =>
  .error (.backend .readOnly) s

variable [ActionRows σ]

/-- An action whose prerequisite is missing is refused for that first. -/
def insertAction (a : NewAction) : Script (Sealed σ) Action := fun s =>
  match a.prerequisite with
  | none => refuse s
  | some p =>
    match (ActionRows.loadAction p : Script σ Action) s.rows with
    | .error (.notFound _) _ => .error (.notFound (.prerequisite p)) s
    | _ => refuse s

instance : ActionRows (Sealed σ) where
  empty := ⟨ActionRows.empty⟩
  lastId s := ActionRows.lastId s.rows
  pending id := look (ActionRows.pending id)
  loadAction id := look (ActionRows.loadAction id)
  loadRecord id ep := look (ActionRows.loadRecord id ep)
  save _ := refuse
  loadEndpoint id := look (ActionRows.loadEndpoint id)
  saveEndpoint _ := refuse
  recordCheckin _ _ := refuse
  insertAction _ a := insertAction a
  dueEndpoints now := look (ActionRows.dueEndpoints now)
  listEndpoints := look ActionRows.listEndpoints
  listRecords ep status := look (ActionRows.listRecords ep status)

end Sealed

end FleetDispatch
