import FleetDispatch.Proofs.Store.Fault
import FleetDispatch.Proofs.Store.Legible

namespace FleetDispatch

variable {σ α : Type} [ActionRows σ] {X : EndpointId → Prop}

/-- Work that is done for some endpoints: what it writes is about these only. -/
inductive Work.Serves (X : EndpointId → Prop) : Work σ α → Prop
  | pure (a : α) : Serves X (pure a)
  | throw (err : StoreError) : Serves X (throw err)
  | pending (e : EndpointId) {f : List PendingRecord → Work σ α} (next : ∀ ps, Serves X (f ps)) :
    Serves X (attempt .pending (ActionRows.pending e) >>= f)
  | loadAction (id : ActionId) {f : Action → Work σ α} (next : ∀ a, Serves X (f a)) :
    Serves X (attempt .loadAction (ActionRows.loadAction id) >>= f)
  | loadRecord (id : ActionId) {e : EndpointId} {f : Option Record → Work σ α} (here : X e)
    (next : ∀ found : Option Record, (∀ r, found = some r → X r.endpoint) → Serves X (f found)) :
    Serves X (attempt .loadRecord (ActionRows.loadRecord id e) >>= f)
  | save {r : Record} {f : Unit → Work σ α} (here : X r.endpoint) (next : Serves X (f ())) :
    Serves X (attempt .save (ActionRows.save r) >>= f)
  | loadEndpoint {e : EndpointId} {f : Endpoint → Work σ α} (here : X e)
    (next : ∀ x : Endpoint, X x.id → Serves X (f x)) :
    Serves X (attempt .loadEndpoint (ActionRows.loadEndpoint e) >>= f)
  | saveEndpoint {x : Endpoint} {f : Unit → Work σ α} (here : X x.id) (next : Serves X (f ())) :
    Serves X (attempt .saveEndpoint (ActionRows.saveEndpoint x) >>= f)
  | recordCheckin {e : EndpointId} (time : Instant) {f : Unit → Work σ α} (here : X e)
    (next : Serves X (f ())) :
    Serves X (attempt .recordCheckin (ActionRows.recordCheckin e time) >>= f)
  | insertAction (wall : Instant) {n : NewAction} {f : Action → Work σ α}
    (here : ∀ e ∈ n.endpoints, X e) (next : ∀ a, Serves X (f a)) :
    Serves X (attempt .insertAction (ActionRows.insertAction wall n) >>= f)

theorem Work.Serves.spares {w : Work σ α} (h : Serves (fun _ => True) w) : Spares w := by
  induction h with
  | pure a => exact spares_pure a
  | throw err => exact spares_throw err
  | save here next ih | saveEndpoint here next ih | recordCheckin time here next ih =>
    exact (spares_attempt _ _).bind fun _ => ih
  | pending e next ih | loadAction id next ih | insertAction wall here next ih =>
    exact (spares_attempt _ _).bind ih
  | loadRecord id here next ih | loadEndpoint here next ih =>
    exact (spares_attempt _ _).bind fun found => ih found (by simp)

variable [Legible σ] {P : σ → Prop} {rows rows' : σ}

/-- What is so of sound rows is still so after something is written about some endpoints. -/
structure Withstands (X : EndpointId → Prop) (P : σ → Prop) : Prop where
  save {rows rows' r u} : Legible.Sound rows → P rows → X r.endpoint →
    ActionRows.save r rows = .ok u rows' → P rows'
  saveEndpoint {rows rows' x u} : Legible.Sound rows → P rows → X x.id →
    ActionRows.saveEndpoint x rows = .ok u rows' → P rows'
  recordCheckin {rows rows' e time u} : Legible.Sound rows → P rows → X e →
    ActionRows.recordCheckin e time rows = .ok u rows' → P rows'
  insertAction {rows rows' wall n a} : Legible.Sound rows → P rows → (∀ e ∈ n.endpoints, X e) →
    ActionRows.insertAction wall n rows = .ok a rows' → P rows'

theorem Work.Serves.keeps {w : Work σ α} {a : α} (h : Serves X w) (hP : Withstands X P)
    (hs : Legible.Sound rows) (hrows : P rows) (hy : w.Yields rows a rows') :
    Legible.Sound rows' ∧ P rows' := by
  induction h generalizing rows with
  | pure a =>
    obtain ⟨-, rfl⟩ := yields_pure hy
    exact ⟨hs, hrows⟩
  | throw err => exact absurd hy not_yields_throw
  | pending e next ih =>
    obtain ⟨ps, mid, hload, hnext⟩ := yields_bind hy
    obtain ⟨rfl, -⟩ := Legible.pending_ok hs (yields_attempt hload)
    exact ih ps hs hrows hnext
  | loadAction id next ih =>
    obtain ⟨a, mid, hload, hnext⟩ := yields_bind hy
    obtain ⟨rfl, -⟩ := Legible.loadAction_ok hs (yields_attempt hload)
    exact ih a hs hrows hnext
  | loadRecord id here next ih =>
    obtain ⟨found, mid, hload, hnext⟩ := yields_bind hy
    obtain ⟨rfl, hfound⟩ := Legible.loadRecord_ok hs (yields_attempt hload)
    refine ih found (fun r hr => ?_) hs hrows hnext
    rw [hr] at hfound
    exact Ledger.endpoint_of_record? hfound ▸ here
  | save here next ih =>
    obtain ⟨u, mid, hsave, hnext⟩ := yields_bind hy
    exact ih (Legible.save_ok hs (yields_attempt hsave)).1
      (hP.save hs hrows here (yields_attempt hsave)) hnext
  | loadEndpoint here next ih =>
    obtain ⟨x, mid, hload, hnext⟩ := yields_bind hy
    obtain ⟨rfl, hx⟩ := Legible.loadEndpoint_ok hs (yields_attempt hload)
    refine ih x ?_ hs hrows hnext
    rwa [← hx, Ledger.id_endpoint]
  | saveEndpoint here next ih =>
    obtain ⟨u, mid, hsave, hnext⟩ := yields_bind hy
    exact ih (Legible.saveEndpoint_ok hs (yields_attempt hsave)).1
      (hP.saveEndpoint hs hrows here (yields_attempt hsave)) hnext
  | recordCheckin time here next ih =>
    obtain ⟨u, mid, hput, hnext⟩ := yields_bind hy
    exact ih (Legible.recordCheckin_ok hs (yields_attempt hput)).1
      (hP.recordCheckin hs hrows here (yields_attempt hput)) hnext
  | insertAction wall here next ih =>
    obtain ⟨a, mid, hinsert, hnext⟩ := yields_bind hy
    exact ih a (Legible.insertAction_ok hs (yields_attempt hinsert)).1
      (hP.insertAction hs hrows here (yields_attempt hinsert)) hnext

namespace Store

variable {s : Store σ} {w : Work σ (Ending × α)}

theorem transact_keeps (hw : w.Serves X) (hP : Withstands X P) (hs : Legible.Sound s.rows)
    (hrows : P s.rows) : P (s.transact w).2.rows := by
  cases h : s.transact w with
  | mk answer s' =>
    cases answer with
    | error err => exact transact_error h ▸ hrows
    | ok a =>
      obtain ⟨ending, rows, hy, hend⟩ := transact_ok h
      simp only [hend]
      split
      · exact (hw.keeps hP hs hrows hy).2
      · exact hrows

theorem createAction_keeps {wall : Instant} {n : NewAction} (hn : ∀ e ∈ n.endpoints, X e)
    (hP : Withstands X P) (hs : Legible.Sound s.rows) (hrows : P s.rows) :
    P (s.createAction wall n).2.rows :=
  transact_keeps (.insertAction wall hn fun _ => .pure _) hP hs hrows

end Store

end FleetDispatch
