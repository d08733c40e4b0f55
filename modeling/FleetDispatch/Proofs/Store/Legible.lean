import FleetDispatch.Proofs.Store.WellFormed

namespace FleetDispatch

theorem of_bind_eq_ok {α β : Type} {x : Except StoreError α} {f : α → Except StoreError β} {b : β}
    (h : x >>= f = .ok b) : ∃ a, x = .ok a ∧ f a = .ok b := by
  cases x with
  | error e => cases h
  | ok a => exact ⟨a, rfl, h⟩

theorem map_of_mapM {α β γ : Type} {f : α → Except StoreError β} {g : α → γ} {h : β → γ}
    {xs : List α} {ys : List β} (hf : ∀ x ∈ xs, ∀ y, f x = .ok y → h y = g x)
    (hm : xs.mapM f = .ok ys) : ys.map h = xs.map g := by
  induction xs generalizing ys with
  | nil =>
    obtain rfl := Except.ok.inj hm
    rfl
  | cons x xs ih =>
    rw [List.mapM_cons] at hm
    obtain ⟨y, hx, h₁⟩ := of_bind_eq_ok hm
    obtain ⟨rest, hxs, h₂⟩ := of_bind_eq_ok h₁
    obtain rfl := Except.ok.inj h₂
    rw [List.map_cons, List.map_cons, hf x List.mem_cons_self y hx,
      ih (fun x hx => hf x (List.mem_cons_of_mem _ hx)) hxs]

theorem mapM_eq_ok {α β : Type} {f : α → Except StoreError β} {g : α → β} {xs : List α}
    {ys : List β} (hf : ∀ x ∈ xs, ∀ y, f x = .ok y → y = g x) (h : xs.mapM f = .ok ys) :
    ys = xs.map g :=
  (List.map_id ys).symm.trans (map_of_mapM hf h)

theorem mem_of_mapM {α β : Type} {f : α → Except StoreError β} {xs : List α} {ys : List β}
    (h : xs.mapM f = .ok ys) :
    (∀ y ∈ ys, ∃ x ∈ xs, f x = .ok y) ∧ ∀ x ∈ xs, ∃ y ∈ ys, f x = .ok y := by
  induction xs generalizing ys with
  | nil =>
    obtain rfl := Except.ok.inj h
    simp
  | cons x xs ih =>
    rw [List.mapM_cons] at h
    obtain ⟨y, hx, h₁⟩ := of_bind_eq_ok h
    obtain ⟨rest, hxs, h₂⟩ := of_bind_eq_ok h₁
    obtain rfl := Except.ok.inj h₂
    obtain ⟨hfrom, hto⟩ := ih hxs
    constructor
    · intro z hz
      rcases List.mem_cons.mp hz with rfl | hz
      · exact ⟨x, List.mem_cons_self, hx⟩
      · obtain ⟨w, hw, hfw⟩ := hfrom z hz
        exact ⟨w, List.mem_cons_of_mem _ hw, hfw⟩
    · intro w hw
      rcases List.mem_cons.mp hw with rfl | hw
      · exact ⟨y, List.mem_cons_self, hx⟩
      · obtain ⟨z, hz, hfz⟩ := hto w hw
        exact ⟨z, List.mem_cons_of_mem _ hz, hfz⟩

/-- How a store keeps the times and procedures that it is given. -/
structure Keeping where
  time : Instant → Instant
  procedure : Procedure → Procedure

def Keeping.exact : Keeping :=
  ⟨id, id⟩

def Record.kept (k : Keeping) (r : Record) : Record :=
  { r with completedAt := r.completedAt.map k.time }

def Endpoint.kept (k : Keeping) (e : Endpoint) : Endpoint :=
  { e with lastCheckin := e.lastCheckin.map k.time }

def NewAction.kept (k : Keeping) (a : NewAction) : NewAction :=
  { a with scheduledAt := k.time a.scheduledAt, procedure := k.procedure a.procedure }

@[simp] theorem Record.kept_exact (r : Record) : r.kept .exact = r := by
  simp [Record.kept, Keeping.exact]

@[simp] theorem Endpoint.kept_exact (e : Endpoint) : e.kept .exact = e := by
  simp [Endpoint.kept, Keeping.exact]

/-- Rows that can be read as a ledger. An operation that goes through answers what stands in the
ledger, and writes into it what it was given as the store keeps it. -/
class Legible (σ : Type) [ActionRows σ] where
  keeping : Keeping
  ledger : σ → Ledger
  /-- Rows that only the operations have written to. -/
  Sound : σ → Prop
  sound_empty : Sound ActionRows.empty
  ledger_empty : ledger ActionRows.empty = .empty
  keeps_refresh : (keeping.procedure .packageRefresh).isPackageRefresh
  wellFormed {rows : σ} : Sound rows → (ledger rows).WellFormed
  kept_record {rows : σ} {id e r} :
    Sound rows → (ledger rows).record? id e = some r → r.kept keeping = r
  kept_endpoint {rows : σ} {e x} :
    Sound rows → (ledger rows).endpoint? e = some x → x.kept keeping = x
  pending_ok {rows rows' : σ} {e ps} : Sound rows → ActionRows.pending e rows = .ok ps rows' →
    rows' = rows ∧ (ledger rows).pending e = .ok ps
  loadAction_ok {rows rows' : σ} {id a} : Sound rows →
    ActionRows.loadAction id rows = .ok a rows' → rows' = rows ∧ (ledger rows).action? id = some a
  loadRecord_ok {rows rows' : σ} {id e r} : Sound rows →
    ActionRows.loadRecord id e rows = .ok r rows' → rows' = rows ∧ (ledger rows).record? id e = r
  loadEndpoint_ok {rows rows' : σ} {e x} : Sound rows →
    ActionRows.loadEndpoint e rows = .ok x rows' → rows' = rows ∧ (ledger rows).endpoint e = x
  save_ok {rows rows' : σ} {r u} : Sound rows → ActionRows.save r rows = .ok u rows' →
    Sound rows' ∧ ledger rows' = (ledger rows).putRecord (r.kept keeping)
  saveEndpoint_ok {rows rows' : σ} {x u} : Sound rows →
    ActionRows.saveEndpoint x rows = .ok u rows' →
      Sound rows' ∧ ledger rows' = (ledger rows).putEndpoint (x.kept keeping)
  recordCheckin_ok {rows rows' : σ} {e t u} : Sound rows →
    ActionRows.recordCheckin e t rows = .ok u rows' → Sound rows' ∧
      ledger rows' = (ledger rows).putEndpoint (((ledger rows).endpoint e).checkIn (keeping.time t))
  insertAction_ok {rows rows' : σ} {now n a} : Sound rows →
    ActionRows.insertAction now n rows = .ok a rows' →
      Sound rows' ∧ a.id = (ledger rows).lastId + 1 ∧
        (∀ p, n.prerequisite = some p → ((ledger rows).action? p).isSome) ∧
        ledger rows' = (ledger rows).issue
          ((ledger rows).created (keeping.time now) (n.kept keeping)) n.endpoints n.retries

namespace Ledger

variable {α : Type} {l l' : Ledger}

def quiet (l : Ledger) : Ledger :=
  { l with checkins := [] }

theorem look_ok {f : Ledger → Except StoreError α} {a : α} (h : look f l = .ok a l') :
    l' = l ∧ f l = .ok a := by
  unfold look at h
  split at h
  · next hf =>
    cases h
    exact ⟨rfl, hf⟩
  · cases h

theorem action_eq_ok {id : ActionId} {a : Action} :
    l.action id = .ok a ↔ l.action? id = some a := by
  unfold action action?
  cases Rows.find? id l.actions <;> simp

theorem save_ok {r : Record} {u : Unit} (h : save r l = .ok u l') :
    l' = l.putRecord r ∧ (l.record? r.actionId r.endpoint).isSome := by
  unfold save at h
  split at h
  · next hr =>
    cases h
    exact ⟨rfl, by simp [record?, hr]⟩
  · cases h

theorem quiet_foldl_enlist (i : ActionId) (tries : Nat) (es : List EndpointId) :
    (es.foldl (enlist i tries) l).quiet = es.foldl (enlist i tries) l.quiet := by
  induction es generalizing l with
  | nil => rfl
  | cons x es ih => exact ih

theorem WellFormed.withCheckins (h : l.WellFormed) (checkins : List EndpointId) :
    { l with checkins }.WellFormed :=
  ⟨h.actions_ascending, h.records_ascending, h.endpoints_ascending, h.lastId_nonneg, h.action_iff,
    h.prerequisite_lt, h.record_action, h.record_endpoint⟩

instance : Legible Ledger where
  keeping := .exact
  ledger := quiet
  Sound := WellFormed
  sound_empty := wellFormed_empty
  ledger_empty := rfl
  keeps_refresh := by decide +kernel
  wellFormed h := h.withCheckins []
  kept_record _ _ := Record.kept_exact _
  kept_endpoint _ _ := Endpoint.kept_exact _
  pending_ok _ h := look_ok h
  loadAction_ok _ h := ⟨(look_ok h).1, action_eq_ok.mp (look_ok h).2⟩
  loadRecord_ok _ h := ⟨(look_ok h).1, Except.ok.inj (look_ok h).2⟩
  loadEndpoint_ok _ h := ⟨(look_ok h).1, Except.ok.inj (look_ok h).2⟩
  save_ok hs h := by
    obtain ⟨rfl, hr⟩ := save_ok h
    obtain ⟨old, hold⟩ := Option.isSome_iff_exists.mp hr
    exact ⟨hs.putRecord hold, by rw [Record.kept_exact]; rfl⟩
  saveEndpoint_ok {rows rows' x u} hs h := by
    cases h
    exact ⟨hs.putEndpoint x, by rw [Endpoint.kept_exact]; rfl⟩
  recordCheckin_ok hs h := by
    cases h
    exact ⟨(hs.putEndpoint _).withCheckins _, rfl⟩
  insertAction_ok hs h := by
    obtain ⟨hp, rfl, rfl⟩ := of_insertAction_eq_ok h
    refine ⟨hs.issue rfl hp _ _, rfl, hp, ?_⟩
    exact quiet_foldl_enlist _ _ _

end FleetDispatch.Ledger
