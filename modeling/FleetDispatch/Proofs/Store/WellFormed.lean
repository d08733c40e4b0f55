import FleetDispatch.Proofs.Store.Rows

namespace FleetDispatch.Ledger

def record? (id : ActionId) (e : EndpointId) (l : Ledger) : Option Record :=
  Rows.find? (id, e) l.records

def action? (id : ActionId) (l : Ledger) : Option Action :=
  Rows.find? id l.actions

def endpoint? (e : EndpointId) (l : Ledger) : Option Endpoint :=
  Rows.find? e l.endpoints

def putRecord (r : Record) (l : Ledger) : Ledger :=
  { l with records := Rows.put r l.records }

def putEndpoint (e : Endpoint) (l : Ledger) : Ledger :=
  { l with endpoints := Rows.put e l.endpoints }

/-- Adds an action with the next id and a fresh record for each endpoint. -/
def issue (a : Action) (endpoints : List EndpointId) (tries : Nat) (l : Ledger) : Ledger :=
  endpoints.foldl (enlist a.id tries) { l with lastId := a.id, actions := Rows.put a l.actions }

def created (now : Instant) (a : NewAction) (l : Ledger) : Action :=
  ⟨l.lastId + 1, a.name, a.scheduledAt, a.prerequisite, a.procedure, now⟩

variable {l l' : Ledger} {id : ActionId} {e : EndpointId} {r : Record} {a : Action}

theorem endpoint_eq (e : EndpointId) (l : Ledger) :
    l.endpoint e = (l.endpoint? e).getD (.fresh e) := rfl

theorem actionId_of_record? (h : l.record? id e = some r) : r.actionId = id :=
  congrArg Prod.fst (Rows.key_of_find? h)

theorem endpoint_of_record? (h : l.record? id e = some r) : r.endpoint = e :=
  congrArg Prod.snd (Rows.key_of_find? h)

theorem id_of_action? (h : l.action? id = some a) : a.id = id :=
  Rows.key_of_find? h

theorem id_of_endpoint? {x : Endpoint} (h : l.endpoint? e = some x) : x.id = e :=
  Rows.key_of_find? h

theorem id_endpoint (e : EndpointId) (l : Ledger) : (l.endpoint e).id = e := by
  rw [endpoint_eq]
  cases h : l.endpoint? e with
  | none => rfl
  | some x => exact id_of_endpoint? h

@[simp] theorem record?_putRecord :
    (l.putRecord r).record? id e =
      if (r.actionId, r.endpoint) = (id, e) then some r else l.record? id e :=
  Rows.find?_put (id, e) r l.records

@[simp] theorem action?_putRecord : (l.putRecord r).action? id = l.action? id := rfl

@[simp] theorem endpoint?_putRecord : (l.putRecord r).endpoint? e = l.endpoint? e := rfl

@[simp] theorem lastId_putRecord : (l.putRecord r).lastId = l.lastId := rfl

@[simp] theorem record?_putEndpoint {x : Endpoint} :
    (l.putEndpoint x).record? id e = l.record? id e := rfl

@[simp] theorem action?_putEndpoint {x : Endpoint} :
    (l.putEndpoint x).action? id = l.action? id := rfl

@[simp] theorem endpoint?_putEndpoint {x : Endpoint} :
    (l.putEndpoint x).endpoint? e = if x.id = e then some x else l.endpoint? e :=
  Rows.find?_put e x l.endpoints

theorem endpoint_putEndpoint {x : Endpoint} (hx : x.id = e) : (l.putEndpoint x).endpoint e = x := by
  rw [endpoint_eq, endpoint?_putEndpoint, if_pos hx, Option.getD_some]

@[simp] theorem lastId_putEndpoint {x : Endpoint} : (l.putEndpoint x).lastId = l.lastId := rfl

@[simp] theorem lastId_foldl_enlist (tries : Nat) (es : List EndpointId) :
    (es.foldl (enlist id tries) l).lastId = l.lastId := by
  induction es generalizing l with
  | nil => rfl
  | cons x es ih => exact ih

@[simp] theorem actions_foldl_enlist (tries : Nat) (es : List EndpointId) :
    (es.foldl (enlist id tries) l).actions = l.actions := by
  induction es generalizing l with
  | nil => rfl
  | cons x es ih => exact ih

theorem record?_enlist (i : ActionId) (tries : Nat) (x : EndpointId) :
    (enlist i tries l x).record? id e =
      if i = id ∧ e = x then some (.fresh i e tries) else l.record? id e := by
  rw [record?, enlist, Rows.find?_put]
  by_cases hi : i = id <;> by_cases hx : e = x <;>
    simp [Row.key, Record.fresh, record?, hi, hx, Ne.symm]

theorem record?_foldl_enlist (i : ActionId) (tries : Nat) (es : List EndpointId) :
    (es.foldl (enlist i tries) l).record? id e =
      if i = id ∧ e ∈ es then some (.fresh i e tries) else l.record? id e := by
  induction es generalizing l with
  | nil => simp
  | cons x es ih =>
    rw [List.foldl_cons, ih, record?_enlist]
    by_cases hi : i = id <;> by_cases hm : e ∈ es <;> by_cases hx : e = x <;>
      simp [hi, hm, hx]

theorem endpoint?_enlist (i : ActionId) (tries : Nat) (x : EndpointId) :
    (enlist i tries l x).endpoint? e =
      (l.endpoint? e).or (if e = x then some (.fresh e) else none) := by
  rw [endpoint?, enlist, Rows.find?_ensure]
  by_cases hx : e = x <;> simp [Row.key, Endpoint.fresh, endpoint?, hx, Ne.symm]

theorem endpoint?_foldl_enlist (i : ActionId) (tries : Nat) (es : List EndpointId) :
    (es.foldl (enlist i tries) l).endpoint? e =
      (l.endpoint? e).or (if e ∈ es then some (.fresh e) else none) := by
  induction es generalizing l with
  | nil => simp
  | cons x es ih =>
    rw [List.foldl_cons, ih, endpoint?_enlist]
    by_cases hm : e ∈ es <;> by_cases hx : e = x <;> simp [hm, hx]

section issue

variable {es : List EndpointId} {tries : Nat}

@[simp] theorem lastId_issue : (l.issue a es tries).lastId = a.id :=
  lastId_foldl_enlist tries es

@[simp] theorem action?_issue :
    (l.issue a es tries).action? id = if a.id = id then some a else l.action? id := by
  rw [action?, issue, actions_foldl_enlist]
  exact Rows.find?_put id a l.actions

@[simp] theorem record?_issue :
    (l.issue a es tries).record? id e =
      if a.id = id ∧ e ∈ es then some (.fresh a.id e tries) else l.record? id e :=
  record?_foldl_enlist a.id tries es

@[simp] theorem endpoint?_issue :
    (l.issue a es tries).endpoint? e =
      (l.endpoint? e).or (if e ∈ es then some (.fresh e) else none) :=
  endpoint?_foldl_enlist a.id tries es

theorem endpoint_issue : (l.issue a es tries).endpoint e = l.endpoint e := by
  rw [endpoint_eq, endpoint_eq, endpoint?_issue]
  cases l.endpoint? e with
  | some x => rfl
  | none => by_cases h : e ∈ es <;> simp [h]

end issue

theorem insertAction_of_present {now : Instant} {n : NewAction}
    (h : ∀ p, n.prerequisite = some p → (l.action? p).isSome) :
    insertAction now n l =
      .ok (l.created now n) (l.issue (l.created now n) n.endpoints n.retries) := by
  have hf : (n.prerequisite.filter fun p => (Rows.find? p l.actions).isNone) = none := by
    cases hp : n.prerequisite with
    | none => rfl
    | some p =>
      obtain ⟨x, hx⟩ := Option.isSome_iff_exists.mp (h p hp)
      simp [Option.filter, action?] at hx ⊢
      simp [hx]
  simp only [insertAction, hf]
  rfl

theorem insertAction_of_missing {now : Instant} {n : NewAction} {p : ActionId}
    (hn : n.prerequisite = some p) (hp : l.action? p = none) :
    insertAction now n l = .error (.notFound (.prerequisite p)) l := by
  have hf : (n.prerequisite.filter fun p => (Rows.find? p l.actions).isNone) = some p := by
    rw [action?] at hp
    simp [hn, Option.filter, hp]
  simp only [insertAction, hf]

theorem of_insertAction_eq_ok {now : Instant} {n : NewAction}
    (h : insertAction now n l = .ok a l') :
    (∀ p, n.prerequisite = some p → (l.action? p).isSome) ∧
      a = l.created now n ∧ l' = l.issue (l.created now n) n.endpoints n.retries := by
  by_cases hn : ∀ p, n.prerequisite = some p → (l.action? p).isSome
  · rw [insertAction_of_present hn] at h
    cases h
    exact ⟨hn, rfl, rfl⟩
  · simp only [Classical.not_forall, Option.not_isSome_iff_eq_none] at hn
    obtain ⟨p, hn, hp⟩ := hn
    rw [insertAction_of_missing hn hp] at h
    cases h

/-- What holds of the rows of a store from its beginning on: ids are given out one after another,
an action comes after its prerequisite, and a record belongs to an action and to an endpoint. -/
structure WellFormed (l : Ledger) : Prop where
  actions_ascending : Rows.Ascending l.actions
  records_ascending : Rows.Ascending l.records
  endpoints_ascending : Rows.Ascending l.endpoints
  lastId_nonneg : 0 ≤ l.lastId
  action_iff : ∀ id, (l.action? id).isSome ↔ 1 ≤ id ∧ id ≤ l.lastId
  prerequisite_lt : ∀ {id a p}, l.action? id = some a → a.prerequisite = some p → 1 ≤ p ∧ p < id
  record_action : ∀ {id e r}, l.record? id e = some r → (l.action? id).isSome
  record_endpoint : ∀ {id e r}, l.record? id e = some r → (l.endpoint? e).isSome

theorem wellFormed_empty : WellFormed .empty where
  actions_ascending := .nil
  records_ascending := .nil
  endpoints_ascending := .nil
  lastId_nonneg := Int.le_refl 0
  action_iff id := by
    have h : (empty.action? id).isSome = false := rfl
    rw [h]
    simp only [empty, Bool.false_eq_true, false_iff]
    lia
  prerequisite_lt h := by simp [empty, action?] at h
  record_action h := by simp [empty, record?] at h
  record_endpoint h := by simp [empty, record?] at h

theorem ascending_foldl_enlist (i : ActionId) (tries : Nat) (es : List EndpointId)
    (hr : Rows.Ascending l.records) (he : Rows.Ascending l.endpoints) :
    Rows.Ascending (es.foldl (enlist i tries) l).records ∧
      Rows.Ascending (es.foldl (enlist i tries) l).endpoints := by
  induction es generalizing l with
  | nil => exact ⟨hr, he⟩
  | cons x es ih => exact ih (Rows.ascending_put _ hr) (Rows.ascending_ensure _ he)

namespace WellFormed

theorem le_lastId (h : l.WellFormed) (action : l.action? id = some a) : id ≤ l.lastId :=
  ((h.action_iff id).mp (by rw [action]; rfl)).2

theorem le_lastId_of_record (h : l.WellFormed) (found : l.record? id e = some r) :
    id ≤ l.lastId :=
  ((h.action_iff id).mp (h.record_action found)).2

theorem record?_of_mem (h : l.WellFormed) (hr : r ∈ l.records) :
    l.record? r.actionId r.endpoint = some r :=
  Rows.find?_of_mem h.records_ascending hr

theorem putRecord {old : Record} (h : l.WellFormed)
    (hold : l.record? r.actionId r.endpoint = some old) : (l.putRecord r).WellFormed where
  actions_ascending := h.actions_ascending
  records_ascending := Rows.ascending_put r h.records_ascending
  endpoints_ascending := h.endpoints_ascending
  lastId_nonneg := h.lastId_nonneg
  action_iff := h.action_iff
  prerequisite_lt := h.prerequisite_lt
  record_action {id e s} hs := by
    rw [record?_putRecord] at hs
    split at hs
    · next he =>
      obtain ⟨rfl, rfl⟩ := Prod.mk.inj he
      exact h.record_action hold
    · exact h.record_action hs
  record_endpoint {id e s} hs := by
    rw [record?_putRecord] at hs
    split at hs
    · next he =>
      obtain ⟨rfl, rfl⟩ := Prod.mk.inj he
      exact h.record_endpoint hold
    · exact h.record_endpoint hs

theorem putEndpoint (x : Endpoint) (h : l.WellFormed) : (l.putEndpoint x).WellFormed where
  actions_ascending := h.actions_ascending
  records_ascending := h.records_ascending
  endpoints_ascending := Rows.ascending_put x h.endpoints_ascending
  lastId_nonneg := h.lastId_nonneg
  action_iff := h.action_iff
  prerequisite_lt := h.prerequisite_lt
  record_action := h.record_action
  record_endpoint {id e s} hs := by
    rw [endpoint?_putEndpoint]
    split
    · rfl
    · exact h.record_endpoint hs

theorem ascending_issue (h : l.WellFormed) (es : List EndpointId) (tries : Nat) :
    Rows.Ascending (l.issue a es tries).records ∧
      Rows.Ascending (l.issue a es tries).endpoints := by
  unfold Ledger.issue
  exact ascending_foldl_enlist _ _ es h.records_ascending h.endpoints_ascending

theorem issue (h : l.WellFormed) (hid : a.id = l.lastId + 1)
    (hp : ∀ p, a.prerequisite = some p → (l.action? p).isSome) (es : List EndpointId)
    (tries : Nat) : (l.issue a es tries).WellFormed where
  actions_ascending := by
    rw [Ledger.issue, actions_foldl_enlist]
    exact Rows.ascending_put a h.actions_ascending
  records_ascending := (ascending_issue h es tries).1
  endpoints_ascending := (ascending_issue h es tries).2
  lastId_nonneg := by
    have := h.lastId_nonneg
    rw [lastId_issue]
    lia
  action_iff id := by
    have hn := h.lastId_nonneg
    rw [action?_issue, lastId_issue]
    split
    · simp only [Option.isSome_some, true_iff]
      lia
    · rw [h.action_iff]
      lia
  prerequisite_lt {id b p} hb hbp := by
    rw [action?_issue] at hb
    split at hb
    · next he =>
      obtain rfl := Option.some.inj hb
      have := (h.action_iff p).mp (hp p hbp)
      lia
    · exact h.prerequisite_lt hb hbp
  record_action {id e s} hs := by
    rw [action?_issue]
    rw [record?_issue] at hs
    split
    · rfl
    · next hne => exact h.record_action (by simpa [hne] using hs)
  record_endpoint {id e s} hs := by
    rw [endpoint?_issue]
    rw [record?_issue] at hs
    split at hs
    · next he => simp [he.2]
    · simp [h.record_endpoint hs]

theorem record?_eq_none (h : l.WellFormed) (hid : l.lastId < id) : l.record? id e = none := by
  cases hr : l.record? id e with
  | none => rfl
  | some r =>
    have := h.le_lastId_of_record hr
    lia

end WellFormed

end FleetDispatch.Ledger
