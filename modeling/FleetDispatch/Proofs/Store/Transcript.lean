import FleetDispatch.Proofs.Store.Beside

namespace FleetDispatch

variable {k : Keeping}

/-- An instant in place of another: the same one, or one that a calendar has. -/
def Instant.Restamps (t u : Instant) : Prop :=
  u = t ∨ u.IsDated

def Action.kept (k : Keeping) (a : Action) : Action :=
  { a with
    scheduledAt := k.time a.scheduledAt, procedure := k.procedure a.procedure,
    createdAt := k.time a.createdAt }

theorem Action.kept_exact (a : Action) : a.kept .exact = a := rfl

theorem Action.renders_kept : Rows.Renders (Action.kept k) :=
  ⟨fun _ => rfl, fun _ _ => rfl⟩

theorem Record.renders_kept : Rows.Renders (Record.kept k) :=
  ⟨fun _ => rfl, fun _ _ => rfl⟩

theorem Endpoint.renders_kept : Rows.Renders (Endpoint.kept k) :=
  ⟨fun _ => rfl, fun _ _ => rfl⟩

namespace Ledger

variable {l m : Ledger} {e : EndpointId}

def kept (k : Keeping) (l : Ledger) : Ledger :=
  ⟨l.lastId, l.actions.map (·.kept k), l.records.map (·.kept k), l.endpoints.map (·.kept k), []⟩

theorem action?_kept (id : ActionId) : (l.kept k).action? id = (l.action? id).map (·.kept k) :=
  Action.renders_kept.find?_map id l.actions

theorem record?_kept (id : ActionId) (e : EndpointId) :
    (l.kept k).record? id e = (l.record? id e).map (·.kept k) :=
  Record.renders_kept.find?_map (id, e) l.records

theorem endpoint?_kept (e : EndpointId) :
    (l.kept k).endpoint? e = (l.endpoint? e).map (·.kept k) :=
  Endpoint.renders_kept.find?_map e l.endpoints

theorem Beside.kept (h : m.Beside e l) : (m.kept k).Beside e (l.kept k) where
  lastId := h.lastId
  action id hid := by rw [action?_kept, action?_kept, h.action id hid]
  record id := by rw [record?_kept, record?_kept, h.record id]
  endpoint := by rw [endpoint?_kept, endpoint?_kept, h.endpoint]

theorem ascending_of_kept (h : (l.kept k).WellFormed) : Rows.Ascending l.records :=
  Record.renders_kept.ascending_map.mp h.records_ascending

end Ledger

/-- Rows that are the transcript of a ledger: what they were given stands in them one by one, and
can be read or not. -/
class Transcribed (σ : Type) [ActionRows σ] [Legible σ] where
  transcript : Ledger → σ
  readAction : Action → Except StoreError Action
  readRecord : Record → Except StoreError Record
  readEndpoint : Endpoint → Except StoreError Endpoint
  exists_transcript {rows : σ} : Legible.Sound rows → ∃ l, transcript l = rows
  ledger_transcript (l : Ledger) :
    Legible.ledger (transcript l : σ) = l.kept (Legible.keeping σ)
  time_time (t : Instant) :
    (Legible.keeping σ).time ((Legible.keeping σ).time t) = (Legible.keeping σ).time t
  dated_time {t : Instant} : t.IsDated → ((Legible.keeping σ).time t).IsDated
  readAction_eq {a x} : readAction a = .ok x → x = a.kept (Legible.keeping σ)
  readRecord_eq {r x} : readRecord r = .ok x → x = r.kept (Legible.keeping σ)
  readEndpoint_eq {y x} : readEndpoint y = .ok x → x = y.kept (Legible.keeping σ)
  readAction_again {a b x} (id : ActionId) : readAction a = .ok x →
    Action.Renumbered Instant.Restamps id a b → ∃ y, readAction b = .ok y
  readRecord_again {r s x} (id : ActionId) : readRecord r = .ok x →
    Record.Renumbered Instant.Restamps id r s → ∃ y, readRecord s = .ok y
  readEndpoint_again {y z x} : readEndpoint y = .ok x →
    Endpoint.Twin Instant.Restamps y z → ∃ w, readEndpoint z = .ok w
  loadAction_iff {l id a} {rows : σ} : ActionRows.loadAction id (transcript l) = .ok a rows ↔
    rows = transcript l ∧ ∃ x, l.action? id = some x ∧ readAction x = .ok a
  loadRecord_iff {l id e found} {rows : σ} :
    ActionRows.loadRecord id e (transcript l) = .ok found rows ↔
      rows = transcript l ∧ ((l.record? id e = none ∧ found = none) ∨
        ∃ r x, l.record? id e = some r ∧ readRecord r = .ok x ∧ found = some x)
  loadEndpoint_iff {l e x} {rows : σ} :
    ActionRows.loadEndpoint e (transcript l) = .ok x rows ↔
      rows = transcript l ∧ readEndpoint (l.endpoint e) = .ok x
  save_iff {l r u} {rows : σ} : ActionRows.save r (transcript l) = .ok u rows ↔
    (l.record? r.actionId r.endpoint).isSome ∧ rows = transcript (l.putRecord r)
  saveEndpoint_eq (l x) : ActionRows.saveEndpoint x (transcript l : σ) =
    .ok () (transcript (l.putEndpoint x))
  recordCheckin_eq {l} (e time) : Legible.Sound (transcript l : σ) →
    ActionRows.recordCheckin e time (transcript l : σ) =
      .ok () (transcript (l.recordCheckin e time))
  insertAction_ok {l wall n a} {rows : σ} :
    ActionRows.insertAction wall n (transcript l) = .ok a rows →
      rows = transcript (l.issue (l.created wall n) n.endpoints n.retries) ∧ a.id = l.lastId + 1
  insertAction_again {l m wall wall' n a e} {rows : σ} :
    ActionRows.insertAction wall n (transcript l) = .ok a rows → wall'.IsDated →
      n.prerequisite = none → n.endpoints = [e] → m.record? (m.lastId + 1) e = none →
        ∃ c, ActionRows.insertAction wall' n (transcript m : σ) =
          .ok c (transcript (m.issue (m.created wall' n) n.endpoints n.retries))
  pending_iff {l m e ps} : Legible.Sound (transcript m : σ) →
    Legible.Sound (transcript l : σ) → m.Beside e l →
      (ActionRows.pending e (transcript l : σ) = .ok ps (transcript l) ↔
        ActionRows.pending e (transcript m : σ) = .ok ps (transcript m))

theorem mapM_eq_of_mem {α β : Type} {f g : α → Except StoreError β} {xs : List α}
    (h : ∀ x ∈ xs, f x = g x) : xs.mapM f = xs.mapM g := by
  induction xs with
  | nil => rfl
  | cons x xs ih =>
    rw [List.mapM_cons, List.mapM_cons, h x List.mem_cons_self,
      ih fun y hy => h y (List.mem_cons_of_mem _ hy)]

namespace Ledger

variable {l m : Ledger} {e : EndpointId}

theorem Beside.pending_eq (h : m.Beside e l) (hm : m.WellFormed) (hl : Rows.Ascending l.records) :
    l.pending e = m.pending e := by
  have hqueued : (l.records.filter fun r => r.endpoint == e && r.status == .queued) =
      m.records.filter fun r => r.endpoint == e && r.status == .queued := by
    have hrecords := congrArg (List.filter (·.status == .queued))
      (h.records_eq hm.records_ascending hl)
    simpa only [List.filter_filter, Bool.and_comm] using hrecords
  have hpending : ∀ r ∈ m.records.filter (fun r => r.endpoint == e && r.status == .queued),
      l.pendingOf r = m.pendingOf r := by
    intro r hr
    have hfound := Rows.find?_of_mem hm.records_ascending (List.mem_filter.mp hr).1
    have hthere := hm.record_action hfound
    have haction : l.action r.actionId = m.action r.actionId := by
      have heq := h.action _ ((hm.action_iff _).mp hthere).2
      unfold Ledger.action
      rw [Ledger.action?, Ledger.action?] at heq
      rw [heq]
    unfold pendingOf
    rw [haction]
  unfold Ledger.pending
  simp only [hqueued, mapM_eq_of_mem hpending]

theorem look_iff {α : Type} {f : Ledger → Except StoreError α} {a : α} :
    look f l = .ok a m ↔ m = l ∧ f l = .ok a := by
  constructor
  · exact look_ok
  · rintro ⟨rfl, h⟩
    unfold look
    rw [h]

theorem kept_exact (l : Ledger) : l.kept .exact = l.quiet := by
  simp [kept, quiet, Action.kept_exact]

instance : Transcribed Ledger where
  transcript l := l
  readAction := .ok
  readRecord := .ok
  readEndpoint := .ok
  exists_transcript {l} _ := ⟨l, rfl⟩
  ledger_transcript l := (kept_exact l).symm
  time_time _ := rfl
  dated_time h := h
  readAction_eq h := (Except.ok.inj h).symm
  readRecord_eq h := (Except.ok.inj h).symm.trans (Record.kept_exact _).symm
  readEndpoint_eq h := (Except.ok.inj h).symm.trans (Endpoint.kept_exact _).symm
  readAction_again _ _ _ := ⟨_, rfl⟩
  readRecord_again _ _ _ := ⟨_, rfl⟩
  readEndpoint_again _ _ := ⟨_, rfl⟩
  loadAction_iff {l id a rows} := by
    refine look_iff.trans (and_congr_right fun _ => ?_)
    rw [action_eq_ok]
    exact ⟨fun h => ⟨a, h, rfl⟩, fun ⟨x, hx, hread⟩ => Except.ok.inj hread ▸ hx⟩
  loadRecord_iff {l id e found rows} := by
    refine look_iff.trans (and_congr_right fun _ => ?_)
    rw [Except.ok.injEq]
    change l.record? id e = found ↔ _
    cases l.record? id e <;> simp [eq_comm]
  loadEndpoint_iff {l e x rows} := look_iff
  save_iff {l r u rows} := by
    constructor
    · intro h
      obtain ⟨rfl, found⟩ := save_ok h
      exact ⟨found, rfl⟩
    · rintro ⟨found, rfl⟩
      obtain ⟨old, hold⟩ := Option.isSome_iff_exists.mp found
      change save r l = _
      unfold save
      rw [record?] at hold
      rw [hold]
      rfl
  saveEndpoint_eq _ _ := rfl
  recordCheckin_eq _ _ _ := rfl
  insertAction_ok h := by
    obtain ⟨-, rfl, rfl⟩ := of_insertAction_eq_ok h
    exact ⟨rfl, rfl⟩
  insertAction_again _ _ hprerequisite _ _ :=
    ⟨_, insertAction_of_present fun p hp => by rw [hprerequisite] at hp; cases hp⟩
  pending_iff {l m e ps} hm hl h := by
    refine look_iff.trans (Iff.trans ?_ look_iff.symm)
    rw [h.pending_eq hm hl.records_ascending]
    exact and_congr_left' (iff_of_true rfl rfl)

end Ledger

namespace Instant.Restamps

variable {t u v : Instant}

theorem timeOf (h : Restamps t u) (ht : timeOf t.toMillis = .ok v) :
    ∃ w, FleetDispatch.timeOf u.toMillis = .ok w := by
  rcases h with rfl | hdated
  · exact ⟨v, ht⟩
  · exact ⟨_, timeOf_toMillis (floorMillis?_eq_some.mpr ⟨hdated, rfl⟩)⟩

theorem optionalTimeOf {c d : Option Instant} {w : Option Instant} (h : Option.Rel Restamps c d)
    (hc : optionalTimeOf (c.map toMillis) = .ok w) :
    ∃ x, FleetDispatch.optionalTimeOf (d.map toMillis) = .ok x := by
  cases h with
  | none => exact ⟨_, hc⟩
  | @some t u htu =>
    cases ht : FleetDispatch.timeOf t.toMillis with
    | error err =>
      simp only [Option.map_some, FleetDispatch.optionalTimeOf, ht] at hc
      cases hc
    | ok v =>
      obtain ⟨x, hx⟩ := htu.timeOf ht
      refine ⟨some x, ?_⟩
      simp only [Option.map_some, FleetDispatch.optionalTimeOf, hx]
      rfl

end Instant.Restamps

def ActionRow.written (a : Action) : ActionRow :=
  encode a.id a.createdAt a.request

theorem ActionRow.renders_written : Rows.Renders written :=
  ⟨fun _ => rfl, fun _ _ => rfl⟩

theorem ActionRow.reading_written (a : Action) : (written a).reading = a.kept .rows := by
  simp only [written, reading_encode, Action.request, Action.kept, Keeping.rows]

theorem RecordRow.renders_encode : Rows.Renders encode :=
  ⟨fun _ => rfl, fun _ _ => rfl⟩

theorem EndpointRow.renders_encode : Rows.Renders encode :=
  ⟨fun _ => rfl, fun _ _ => rfl⟩

theorem ActionRow.decode_written (a : Action) : (written a).decode = do
    let p ← (Procedure.ofText a.procedure.toText).mapError fun m => .invalidData (.procedure m)
    let s ← timeOf a.scheduledAt.toMillis
    let c ← timeOf a.createdAt.toMillis
    return { a with procedure := p, scheduledAt := s, createdAt := c } := by
  simp only [written, decode, encode, Action.request, Column.int, Column.optionalInt_ofOption, bind,
    Except.bind]

theorem EndpointRow.decode_encode (x : Endpoint) : (encode x).decode = do
    let t ← optionalTimeOf (x.lastCheckin.map Instant.toMillis)
    return { x with lastCheckin := t } := by
  simp only [decode, encode, Column.int, Column.optionalInt_ofOption, bind, Except.bind]
  cases x.needsRefresh <;> rfl

theorem exists_map_eq {α β : Type} {f : α → β} {ys : List β} (h : ∀ y ∈ ys, ∃ x, y = f x) :
    ∃ xs : List α, xs.map f = ys := by
  induction ys with
  | nil => exact ⟨[], rfl⟩
  | cons y ys ih =>
    obtain ⟨x, hx⟩ := h y List.mem_cons_self
    obtain ⟨xs, hxs⟩ := ih fun z hz => h z (List.mem_cons_of_mem _ hz)
    exact ⟨x :: xs, by rw [List.map_cons, hxs, hx]⟩

namespace Tables

variable {t : Tables} {l m : Ledger} {id : ActionId} {e : EndpointId}

/-- The tables into which a ledger is written row by row. -/
def ofLedger (l : Ledger) : Tables :=
  ⟨l.lastId, l.actions.map .written, l.records.map .encode, l.endpoints.map .encode⟩

theorem Encoded.exists_ledger (h : t.Encoded) : ∃ l, ofLedger l = t := by
  obtain ⟨lastId, actions, records, endpoints⟩ := t
  have hactions : ∀ row ∈ actions, ∃ a, row = ActionRow.written a := by
    intro row hrow
    obtain ⟨id, now, n, rfl⟩ := h.actions row hrow
    exact ⟨⟨id, n.name, n.scheduledAt, n.prerequisite, n.procedure, now⟩, rfl⟩
  obtain ⟨as, has⟩ := exists_map_eq hactions
  obtain ⟨rs, hrs⟩ := exists_map_eq h.records
  obtain ⟨xs, hxs⟩ := exists_map_eq h.endpoints
  simp only at has hrs hxs
  exact ⟨⟨lastId, as, rs, xs, []⟩, by rw [ofLedger, has, hrs, hxs]⟩

theorem reading_ofLedger (l : Ledger) : (ofLedger l).reading = l.kept .rows := by
  have hactions : (l.actions.map ActionRow.written).map ActionRow.reading =
      l.actions.map (·.kept .rows) := by
    rw [List.map_map]
    exact List.map_congr_left fun a _ => ActionRow.reading_written a
  have hrecords : (l.records.map RecordRow.encode).map RecordRow.reading =
      l.records.map (·.kept .rows) := by
    rw [List.map_map]
    exact List.map_congr_left fun r _ => RecordRow.reading_encode r
  have hendpoints : (l.endpoints.map EndpointRow.encode).map EndpointRow.reading =
      l.endpoints.map (·.kept .rows) := by
    rw [List.map_map]
    exact List.map_congr_left fun x _ => EndpointRow.reading_encode x
  simp only [reading, ofLedger, Ledger.kept, hactions, hrecords, hendpoints]

theorem find?_actions_ofLedger :
    Rows.find? id (ofLedger l).actions = (l.action? id).map ActionRow.written :=
  ActionRow.renders_written.find?_map id l.actions

theorem find?_records_ofLedger :
    Rows.find? (id, e) (ofLedger l).records = (l.record? id e).map RecordRow.encode :=
  RecordRow.renders_encode.find?_map (id, e) l.records

theorem find?_endpoints_ofLedger :
    Rows.find? e (ofLedger l).endpoints = (l.endpoint? e).map EndpointRow.encode :=
  EndpointRow.renders_encode.find?_map e l.endpoints

theorem ofLedger_putRecord (r : Record) : ofLedger (l.putRecord r) =
    { ofLedger l with records := Rows.put (RecordRow.encode r) (ofLedger l).records } := by
  simp only [ofLedger, Ledger.putRecord, RecordRow.renders_encode.put_map]

theorem ofLedger_putEndpoint (x : Endpoint) : ofLedger (l.putEndpoint x) =
    { ofLedger l with endpoints := Rows.put (EndpointRow.encode x) (ofLedger l).endpoints } := by
  simp only [ofLedger, Ledger.putEndpoint, EndpointRow.renders_encode.put_map]

theorem ofLedger_enlist (i : ActionId) (tries : Nat) (x : EndpointId) :
    ofLedger (Ledger.enlist i tries l x) = { ofLedger l with
      endpoints := Rows.ensure (EndpointRow.fresh x) (ofLedger l).endpoints
      records := Rows.put (RecordRow.encode (.fresh i x tries)) (ofLedger l).records } := by
  have he : Rows.ensure (EndpointRow.fresh x) (l.endpoints.map .encode) =
      (Rows.ensure (.fresh x) l.endpoints).map .encode :=
    EndpointRow.renders_encode.ensure_map (Endpoint.fresh x) l.endpoints
  have hr := RecordRow.renders_encode.put_map (Record.fresh i x tries) l.records
  simp only [ofLedger, Ledger.enlist, he, hr]

theorem backlog_eq (e : EndpointId) (t : Tables) : t.backlog e =
    ((t.records.filter (·.endpoint == e)).filter (·.isQueued)).filterMap fun r =>
      (Rows.find? r.actionId t.actions).map fun a => ⟨r, a⟩ := by
  unfold backlog queuedJoined
  rw [List.filter_filterMap, List.filterMap_filter, List.filterMap_filter, List.filterMap_filter]
  refine List.filterMap_congr fun r _ => ?_
  cases hq : r.isQueued <;> cases he : r.endpoint == e <;>
    cases Rows.find? r.actionId t.actions <;> simp_all

theorem records_ofLedger_filter : (ofLedger l).records.filter (·.endpoint == e) =
    (l.records.filter (·.endpoint == e)).map RecordRow.encode := by
  rw [ofLedger, List.filter_map]
  rfl

theorem backlog_beside (hm : (ofLedger m).Sound) (hl : (ofLedger l).Sound) (h : m.Beside e l) :
    (ofLedger l).backlog e = (ofLedger m).backlog e := by
  have hmk : (m.kept .rows).WellFormed := reading_ofLedger m ▸ hm.wellFormed
  have hlk : (l.kept .rows).WellFormed := reading_ofLedger l ▸ hl.wellFormed
  have hrecords := h.records_eq (Ledger.ascending_of_kept hmk) (Ledger.ascending_of_kept hlk)
  rw [backlog_eq, backlog_eq, records_ofLedger_filter, records_ofLedger_filter, hrecords]
  refine List.filterMap_congr fun row hrow => ?_
  obtain ⟨r, hr, rfl⟩ := List.mem_map.mp (List.mem_filter.mp hrow).1
  have hfound : m.record? r.actionId r.endpoint = some r :=
    Rows.find?_of_mem (Ledger.ascending_of_kept hmk) (List.mem_filter.mp hr).1
  have hkept : (m.kept .rows).record? r.actionId r.endpoint = some (r.kept .rows) := by
    rw [Ledger.record?_kept, hfound, Option.map_some]
  have hle : r.actionId ≤ m.lastId := hmk.le_lastId_of_record hkept
  have haction : Rows.find? (RecordRow.encode r).actionId (ofLedger l).actions =
      Rows.find? (RecordRow.encode r).actionId (ofLedger m).actions := by
    rw [find?_actions_ofLedger, find?_actions_ofLedger]
    exact congrArg _ (h.action _ hle)
  rw [haction]

theorem look_iff {α : Type} {f : Tables → Except StoreError α} {a : α} {t' : Tables} :
    look f t = .ok a t' ↔ t' = t ∧ f t = .ok a := by
  constructor
  · exact look_ok
  · rintro ⟨rfl, h⟩
    unfold look
    rw [h]

theorem action_ofLedger_iff {a : Action} : (ofLedger l).action id = .ok a ↔
    ∃ x, l.action? id = some x ∧ (ActionRow.written x).decode = .ok a := by
  unfold action
  rw [find?_actions_ofLedger]
  cases l.action? id with
  | none => simp
  | some x => simp

theorem record_ofLedger_iff {found : Option Record} : (ofLedger l).record id e = .ok found ↔
    (l.record? id e = none ∧ found = none) ∨ ∃ r x, l.record? id e = some r ∧
      (RecordRow.encode r).decode = .ok x ∧ found = some x := by
  unfold record
  rw [find?_records_ofLedger]
  cases l.record? id e with
  | none => simp [eq_comm]
  | some r =>
    simp only [Option.map_some, reduceCtorEq, false_and, Option.some.injEq, false_or]
    cases hd : (RecordRow.encode r).decode with
    | error err => simp [Except.map, hd]
    | ok x => simp [Except.map, hd, eq_comm]

theorem endpoint_ofLedger :
    (ofLedger l).endpoint e = (EndpointRow.encode (l.endpoint e)).decode := by
  unfold endpoint
  rw [find?_endpoints_ofLedger, Ledger.endpoint_eq]
  cases l.endpoint? e <;> rfl

theorem ofLedger_new (l : Ledger) (wall : Instant) (n : NewAction) :
    ofLedger { l with
      lastId := l.lastId + 1
      actions := Rows.put (l.created wall n) l.actions } =
      { ofLedger l with
        lastId := l.lastId + 1
        actions := Rows.put (ActionRow.encode (l.lastId + 1) wall n) (ofLedger l).actions } := by
  have hput := ActionRow.renders_written.put_map (l.created wall n) l.actions
  simp only [ofLedger, ← hput]
  rfl

theorem enlist_ofLedger_ok {i : ActionId} {tries : Nat} {es : List EndpointId} {u : Unit}
    (h : enlist i tries es (ofLedger l) = .ok u t) :
    t = ofLedger (es.foldl (Ledger.enlist i tries) l) := by
  induction es generalizing l with
  | nil =>
    cases h
    rfl
  | cons x es ih =>
    unfold enlist at h
    simp only [ensureEndpoint] at h
    split at h
    · cases h
    · rw [← ofLedger_enlist] at h
      exact ih h

theorem enlist_ofLedger_single {i : ActionId} (tries : Nat)
    (h : Rows.find? (i, e) (ofLedger l).records = none) :
    enlist i tries [e] (ofLedger l) = .ok () (ofLedger (Ledger.enlist i tries l e)) := by
  unfold enlist
  simp only [ensureEndpoint, h, ofLedger_enlist]
  rfl

theorem insertAction_ofLedger {wall : Instant} {n : NewAction} {a : Action}
    (hprerequisite : n.prerequisite = none) (hendpoints : n.endpoints = [e])
    (hnone : l.record? (l.lastId + 1) e = none) (ha : created (l.lastId + 1) wall n = .ok a) :
    insertAction wall n (ofLedger l) =
      .ok a (ofLedger (l.issue (l.created wall n) n.endpoints n.retries)) := by
  have hfree : Rows.find? (l.lastId + 1, e) (ofLedger l).records = none := by
    rw [find?_records_ofLedger, hnone, Option.map_none]
  have henlist := enlist_ofLedger_single (l := { l with
    lastId := l.lastId + 1
    actions := Rows.put (l.created wall n) l.actions }) n.retries hfree
  have hlast : (ofLedger l).lastId = l.lastId := rfl
  unfold insertAction
  simp only [hprerequisite, hendpoints, hlast, Option.filter_none, ← ofLedger_new, henlist, look,
    ha]
  rfl

instance : Transcribed Tables where
  transcript := ofLedger
  readAction a := (ActionRow.written a).decode
  readRecord r := (RecordRow.encode r).decode
  readEndpoint x := (EndpointRow.encode x).decode
  exists_transcript hs := hs.exists_ledger
  ledger_transcript := reading_ofLedger
  time_time := Instant.cut_cut
  dated_time h := h.cut
  readAction_eq {a x} h :=
    (ActionRow.decode_encode_eq_ok h).trans (ActionRow.reading_written a)
  readRecord_eq {r x} h := (RecordRow.decode_encode_eq_ok h).trans (RecordRow.reading_encode r)
  readEndpoint_eq {y x} h :=
    (EndpointRow.decode_encode_eq_ok h).trans (EndpointRow.reading_encode y)
  readAction_again {a b x} id h hab := by
    obtain ⟨t, ht, rfl⟩ := hab
    rw [ActionRow.decode_written] at h ⊢
    obtain ⟨p, hp, h₁⟩ := of_bind_eq_ok h
    obtain ⟨s, hs, h₂⟩ := of_bind_eq_ok h₁
    obtain ⟨c, hc, -⟩ := of_bind_eq_ok h₂
    obtain ⟨c', hc'⟩ := Instant.Restamps.timeOf ht hc
    exact ⟨_, by simp only [hp, hs, hc', bind, Except.bind]; rfl⟩
  readRecord_again {r s x} id h hrs := by
    obtain ⟨t, ht, rfl⟩ := hrs
    rw [RecordRow.decode_encode] at h ⊢
    split at h
    · cases h
    · next hmost =>
      cases hc : optionalTimeOf (r.completedAt.map Instant.toMillis) with
      | error err =>
        rw [hc] at h
        cases h
      | ok c =>
        obtain ⟨c', hc'⟩ := Instant.Restamps.optionalTimeOf ht hc
        refine ⟨{ r with actionId := id, completedAt := c' }, ?_⟩
        rw [if_neg hmost]
        simp only [hc']
        rfl
  readEndpoint_again {y z x} h hyz := by
    obtain ⟨t, ht, rfl⟩ := hyz
    rw [EndpointRow.decode_encode] at h ⊢
    obtain ⟨c, hc, -⟩ := of_bind_eq_ok h
    obtain ⟨c', hc'⟩ := Instant.Restamps.optionalTimeOf ht hc
    exact ⟨_, by simp only [hc', bind, Except.bind]; rfl⟩
  loadAction_iff := look_iff.trans (and_congr_right fun _ => action_ofLedger_iff)
  loadRecord_iff := look_iff.trans (and_congr_right fun _ => record_ofLedger_iff)
  loadEndpoint_iff := look_iff.trans (and_congr_right fun _ => by rw [endpoint_ofLedger])
  save_iff {l r u rows} := by
    constructor
    · intro h
      obtain ⟨rfl, found⟩ := save_ok h
      rw [find?_records_ofLedger, Option.isSome_map] at found
      exact ⟨found, (ofLedger_putRecord r).symm⟩
    · rintro ⟨found, rfl⟩
      obtain ⟨old, hold⟩ := Option.isSome_iff_exists.mp found
      change save r (ofLedger l) = _
      unfold save
      rw [find?_records_ofLedger, hold, ofLedger_putRecord]
      rfl
  saveEndpoint_eq l x := congrArg _ (ofLedger_putEndpoint x).symm
  recordCheckin_eq {l} e time hs := by
    have hascending : Rows.Ascending (ofLedger l).endpoints :=
      EndpointRow.renders_reading.ascending_map.mp hs.wellFormed.endpoints_ascending
    have hy : (Rows.find? e (ofLedger l).endpoints).getD (.fresh e) =
        EndpointRow.encode (l.endpoint e) := by
      rw [find?_endpoints_ofLedger, Ledger.endpoint_eq]
      cases l.endpoint? e <;> rfl
    refine congrArg _ ((recordCheckin_eq_put hascending hy time).trans ?_)
    exact (ofLedger_putEndpoint _).symm
  insertAction_ok {l wall n a rows} h := by
    obtain ⟨-, hcreated, henlist⟩ := of_insertAction_eq_ok h
    obtain ⟨s, hs, h₁⟩ := of_bind_eq_ok hcreated
    obtain ⟨c, hc, h₂⟩ := of_bind_eq_ok h₁
    refine ⟨?_, (congrArg Action.id (Except.ok.inj h₂)).symm⟩
    exact enlist_ofLedger_ok ((ofLedger_new l wall n).symm ▸ henlist)
  insertAction_again {l m wall wall' n a e rows} h hwall hprerequisite hendpoints hnone := by
    obtain ⟨-, hcreated, -⟩ := of_insertAction_eq_ok h
    obtain ⟨s, hs, -⟩ := of_bind_eq_ok hcreated
    have hc := Instant.timeOf_toMillis (Instant.floorMillis?_eq_some.mpr ⟨hwall, rfl⟩)
    have hcreated' : ∃ c, created (m.lastId + 1) wall' n = .ok c := by
      unfold created
      exact ⟨_, by simp only [hs, hc, bind, Except.bind]; rfl⟩
    obtain ⟨c, hcreated'⟩ := hcreated'
    exact ⟨c, insertAction_ofLedger hprerequisite hendpoints hnone hcreated'⟩
  pending_iff {l m e ps} hm hl h := by
    refine look_iff.trans (Iff.trans ?_ look_iff.symm)
    have hbacklog := backlog_beside hm hl h
    unfold backlog at hbacklog
    unfold pending
    rw [hbacklog]
    exact and_congr_left' (iff_of_true rfl rfl)

end Tables

end FleetDispatch
