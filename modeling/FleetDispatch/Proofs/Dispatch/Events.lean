import FleetDispatch.Proofs.Dispatch.World

namespace FleetDispatch

/-- What can happen to a store: a move of its world, or that an endpoint checks in or has its flag
put up or taken down by someone else than a cycle. -/
inductive Event where
  | move (m : Move)
  | checkIn (endpoint : EndpointId) (time : Instant)
  | flag (endpoint : EndpointId) (up : Bool)

def Endpoint.flagged (up : Bool) (e : Endpoint) : Endpoint :=
  if up then e.markRefresh else e.clearRefresh

theorem Endpoint.kept_flagged (k : Keeping) (up : Bool) (e : Endpoint) :
    (e.flagged up).kept k = (e.kept k).flagged up := by
  cases up <;> rfl

namespace Store

variable {σ : Type} [ActionRows σ]

def checkIn (e : EndpointId) (time : Instant) (s : Store σ) : Except StoreError Unit × Store σ :=
  s.perform .recordCheckin (ActionRows.recordCheckin e time)

def setFlag (e : EndpointId) (up : Bool) (s : Store σ) : Except StoreError Unit × Store σ :=
  s.transact do
    let x ← Work.attempt .loadEndpoint (ActionRows.loadEndpoint e)
    Work.attempt .saveEndpoint (ActionRows.saveEndpoint (x.flagged up))
    return (.commit, ())

variable [Legible σ] {s s' : Store σ} {e : EndpointId} {time : Instant} {up : Bool} {u : Unit}

theorem checkIn_ok (hs : Legible.Sound s.rows) (h : s.checkIn e time = (.ok u, s')) :
    Legible.Sound s'.rows ∧ Legible.ledger s'.rows =
      (Legible.ledger s.rows).checkIn e ((Legible.keeping σ).time time) :=
  Legible.recordCheckin_ok hs (perform_ok h)

theorem setFlag_ok (hs : Legible.Sound s.rows) (h : s.setFlag e up = (.ok u, s')) :
    Legible.Sound s'.rows ∧ Legible.ledger s'.rows =
      (Legible.ledger s.rows).putEndpoint (((Legible.ledger s.rows).endpoint e).flagged up) := by
  obtain ⟨ending, rows, hy, hrows⟩ := transact_ok h
  obtain ⟨x, mid, hload, hr⟩ := Work.yields_bind hy
  obtain ⟨rfl, hx⟩ := Legible.loadEndpoint_ok hs (Work.yields_attempt hload)
  obtain ⟨v, rows₂, hsave, hr⟩ := Work.yields_bind hr
  obtain ⟨hs', hput⟩ := Legible.saveEndpoint_ok hs (Work.yields_attempt hsave)
  obtain ⟨he, rfl⟩ := Work.yields_pure hr
  obtain ⟨rfl, rfl⟩ := Prod.mk.inj he
  have hkept : (x.flagged up).kept (Legible.keeping σ) = x.flagged up := by
    rw [Endpoint.kept_flagged, ← hx, Cycle.kept_ledger_endpoint hs e]
  rw [hrows, if_pos rfl]
  exact ⟨hs', by rw [hput, hkept, hx]⟩

end Store

namespace World

variable {σ : Type} [ActionRows σ] [Legible σ] {w : World σ}

def meet (w : World σ) : Event → World σ
  | .move m => w.step m
  | .checkIn e time => { w with store := (w.store.checkIn e time).2 }
  | .flag e up => { w with store := (w.store.setFlag e up).2 }

def through (events : List Event) : World σ :=
  events.foldl meet initial

theorem through_moves (moves : List Move) :
    (through (moves.map .move) : World σ) = after moves :=
  List.foldl_map

theorem sound_meet (h : w.Sound) (v : Event) : (w.meet v).Sound := by
  cases v with
  | move m => exact sound_step h m
  | checkIn e time =>
    cases hran : w.store.checkIn e time with
    | mk answer s =>
      simp only [meet, hran, Sound]
      cases answer with
      | ok u => exact (Store.checkIn_ok h hran).1
      | error err => exact Store.transact_error hran ▸ h
  | flag e up =>
    cases hran : w.store.setFlag e up with
    | mk answer s =>
      simp only [meet, hran, Sound]
      cases answer with
      | ok u => exact (Store.setFlag_ok h hran).1
      | error err => exact Store.transact_error hran ▸ h

theorem foldl_meet {P : World σ → Prop} (hmeet : ∀ w v, P w → P (w.meet v)) (events : List Event)
    (h : P w) : P (events.foldl meet w) := by
  induction events generalizing w with
  | nil => exact h
  | cons v events ih => exact ih (hmeet w v h)

theorem sound_foldl_meet (h : w.Sound) (events : List Event) : (events.foldl meet w).Sound :=
  foldl_meet (P := Sound) (fun _ v h => sound_meet h v) events h

theorem sound_through (events : List Event) : (through events : World σ).Sound :=
  sound_foldl_meet sound_initial events

end World

end FleetDispatch
