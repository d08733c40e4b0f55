import FleetDispatch.Proofs.Store.Parallel
import FleetDispatch.Proofs.Store.Twin

namespace FleetDispatch

open List (Forall₂)

/-- Records that differ at most in when they ended, with as many tries left as a row can hold. -/
def Record.Kept (L : Instant → Instant → Prop) (r s : Record) : Prop :=
  Record.Twin L r s ∧ r.remainingTries ≤ Width.most32

/-- A request whose action and records read back from their rows: its time is a whole millisecond,
its procedure can be stored, it names each endpoint once, and its retries are of 32 bits. -/
structure NewAction.Fits (a : NewAction) : Prop where
  whole : a.scheduledAt.IsWhole
  storable : a.procedure.isStorable = true
  distinct : a.endpoints.Nodup
  retries : a.retries ≤ Width.most32

namespace Tables

/-- Tables that hold what a ledger does, but for some of the instants. -/
structure Holds (L : Instant → Instant → Prop) (l : Ledger) (t : Tables) : Prop where
  lastId : t.lastId = l.lastId
  actions : Forall₂ (ActionRow.Holds L) l.actions t.actions
  records : Forall₂ (RecordRow.Holds L) l.records t.records
  endpoints : Forall₂ (EndpointRow.Holds L) l.endpoints t.endpoints

structure Mirrors (L : Instant → Instant → Prop) (l : Ledger) (t : Tables) : Prop
    extends Holds L l t where
  wellFormed : l.WellFormed

variable {L : Instant → Instant → Prop} {l : Ledger} {t : Tables} {id : ActionId} {e : EndpointId}

theorem mirrors_empty : Mirrors L .empty .empty :=
  ⟨⟨rfl, .nil, .nil, .nil⟩, Ledger.wellFormed_empty⟩

theorem parallel_look {α β : Type} {R : α → β → Prop} {f : Ledger → Except StoreError α}
    {g : Tables → Except StoreError β} (h : ∀ l t, Mirrors L l t → Agree R (f l) (g t)) :
    Parallel (Mirrors L) R (Ledger.look f) (Tables.look g) := by
  intro l t hm
  have hfg := h l t hm
  unfold Ledger.look Tables.look
  generalize f l = x at hfg
  generalize g t = y at hfg
  cases hfg with
  | ok hab => exact .ok hab hm
  | error e => exact .error e hm

theorem Holds.action (hL : Lasting L) (h : Holds L l t) (id : ActionId) :
    Agree (Action.Twin L) (l.action id) (t.action id) := by
  have hfind := ActionRow.pairs_holds.find? id h.actions
  unfold Ledger.action Tables.action
  generalize Rows.find? id l.actions = x at hfind
  generalize Rows.find? id t.actions = y at hfind
  cases hfind with
  | none => exact .error _
  | some hrow =>
    obtain ⟨b, hb, htwin⟩ := hrow.decode hL
    simp only [hb]
    exact .ok htwin

theorem Holds.record (hL : Lasting L) (h : Holds L l t) (id : ActionId) (e : EndpointId) :
    Agree (Option.Rel (Record.Kept L)) (.ok (Rows.find? (id, e) l.records)) (t.record id e) := by
  have hfind := RecordRow.pairs_holds.find? (id, e) h.records
  unfold Tables.record
  generalize Rows.find? (id, e) l.records = x at hfind
  generalize Rows.find? (id, e) t.records = y at hfind
  cases hfind with
  | none => exact .ok .none
  | some hrow =>
    obtain ⟨s, hs, htwin⟩ := hrow.decode hL
    obtain ⟨-, -, htries, -⟩ := hrow
    simp only [hs]
    exact .ok (.some ⟨htwin, htries⟩)

theorem Holds.endpointRow (h : Holds L l t) (e : EndpointId) :
    EndpointRow.Holds L (l.endpoint e) ((Rows.find? e t.endpoints).getD (.fresh e)) := by
  have hfind := EndpointRow.pairs_holds.find? e h.endpoints
  unfold Ledger.endpoint
  generalize Rows.find? e l.endpoints = x at hfind
  generalize Rows.find? e t.endpoints = y at hfind
  cases hfind with
  | none => exact ⟨.fresh e, ⟨none, .none, rfl⟩, rfl⟩
  | some hrow => exact hrow

theorem Holds.endpoint (hL : Lasting L) (h : Holds L l t) (e : EndpointId) :
    Agree (Endpoint.Twin L) (.ok (l.endpoint e)) (t.endpoint e) := by
  obtain ⟨f, hf, htwin⟩ := (h.endpointRow e).decode hL
  unfold Tables.endpoint
  cases hfind : Rows.find? e t.endpoints with
  | none =>
    rw [hfind] at hf
    cases hf
    exact .ok htwin
  | some row =>
    rw [hfind] at hf
    change row.decode = .ok f at hf
    simp only [hf]
    exact .ok htwin

theorem Holds.listEndpoints (hL : Lasting L) (h : Holds L l t) :
    Agree (Forall₂ (Endpoint.Twin L)) (.ok l.endpoints) (t.endpoints.mapM EndpointRow.decode) := by
  obtain ⟨fs, hfs, htwins⟩ := mapM_forall₂ (fun _ _ hrow => hrow.decode hL) h.endpoints
  rw [hfs]
  exact .ok htwins

theorem Holds.listRecords (hL : Lasting L) (h : Holds L l t) (e : Option EndpointId)
    (status : Option Status) :
    Agree (Forall₂ (Record.Twin L)) (.ok (l.listRecords e status)) (t.listRecords e status) := by
  have hchosen : ∀ r row, RecordRow.Holds L r row →
      (e.all (· == row.endpoint) && status.all (·.name == row.status)) =
        (e.all (· == r.endpoint) && status.all (· == r.status)) := by
    rintro r - ⟨-, ⟨u, -, rfl⟩, -, rfl⟩
    cases status with
    | none => rfl
    | some s =>
      change (_ && s.name == r.status.name) = _
      rw [Status.name_beq]
      rfl
  obtain ⟨rs, hrs, htwins⟩ :=
    mapM_forall₂ (fun _ _ hrow => hrow.decode hL) (forall₂_filter hchosen h.records)
  unfold Tables.listRecords
  rw [hrs]
  exact .ok htwins

def Shows (L : Instant → Instant → Prop) (l : Ledger) (r : Record) (j : Joined) : Prop :=
  ∃ a, l.action? r.actionId = some a ∧ Joined.Holds L ⟨r, a.name, a.scheduledAt⟩ j

theorem Holds.joined {rs : List Record} {rows : List RecordRow} (h : Holds L l t)
    (hactions : ∀ r ∈ rs, (l.action? r.actionId).isSome)
    (hrows : Forall₂ (RecordRow.Holds L) rs rows) :
    Forall₂ (Shows L l) rs (rows.filterMap fun r =>
      (Rows.find? r.actionId t.actions).map fun a => ⟨r, a⟩) := by
  induction hrows with
  | nil => exact .nil
  | @cons r row rs rows hrow _ ih =>
    obtain ⟨a, ha⟩ := Option.isSome_iff_exists.mp (hactions r List.mem_cons_self)
    have hfind := ActionRow.pairs_holds.find? r.actionId h.actions
    have hid : row.actionId = r.actionId := congrArg Prod.fst (RecordRow.pairs_holds.key hrow)
    change Rows.find? r.actionId l.actions = some a at ha
    rw [ha] at hfind
    rw [List.filterMap_cons, hid]
    generalize Rows.find? r.actionId t.actions = y at hfind
    cases hfind with
    | some haction =>
      exact .cons ⟨a, ha, hrow, a, haction, Rows.key_of_find? ha, rfl, rfl⟩
        (ih fun r hr => hactions r (List.mem_cons_of_mem _ hr))

theorem Mirrors.queuedJoined (h : Mirrors L l t) :
    Forall₂ (Shows L l) (l.records.filter (·.status == .queued)) t.queuedJoined := by
  have hqueued : ∀ r row, RecordRow.Holds L r row → row.isQueued = (r.status == .queued) := by
    rintro r - ⟨-, ⟨u, -, rfl⟩, -, rfl⟩
    exact RecordRow.isQueued_encode _
  refine h.joined (fun r hr => ?_) (forall₂_filter hqueued h.records)
  exact h.wellFormed.record_action
    (Rows.find?_of_mem h.wellFormed.records_ascending (List.mem_filter.mp hr).1)

theorem Mirrors.pending (hL : Lasting L) (h : Mirrors L l t) (e : EndpointId) :
    Agree (Forall₂ (PendingRecord.Twin L)) (l.pending e) (t.pending e) := by
  have hendpoint : ∀ r j, Shows L l r j → (j.record.endpoint == e) = (r.endpoint == e) := by
    rintro r j ⟨a, -, hrow, -⟩
    rw [show j.record.endpoint = r.endpoint from
      congrArg Prod.snd (RecordRow.pairs_holds.key hrow)]
  have hshown := forall₂_filter hendpoint h.queuedJoined
  have hpending : ∀ j r, flip (Shows L l) j r →
      ∃ p, l.pendingOf r = .ok p ∧ flip (Joined.Holds L) j p := by
    rintro j r ⟨a, ha, hj⟩
    refine ⟨⟨r, a.name, a.scheduledAt⟩, ?_, hj⟩
    unfold Ledger.pendingOf
    rw [Ledger.action_eq_ok.mpr ha]
    rfl
  obtain ⟨ps, hps, hheld⟩ := mapM_forall₂ hpending hshown.flip
  -- one side sorts before it decodes and the other after: the relation keeps the order, so both
  -- sort alike
  have hsorted := mergeSort_forall₂ (R := Joined.Holds L)
    (fun _ _ _ _ hj hk => hj.before hk) hheld.flip
  obtain ⟨qs, hqs, htwins⟩ := mapM_forall₂ (fun _ _ hj => Joined.Holds.decode hL hj) hsorted
  rw [List.filter_filter] at hps
  unfold Ledger.pending Tables.pending
  rw [hqs]
  change Agree _ (List.mapM l.pendingOf _ >>= _ : Except StoreError (List PendingRecord)) _
  rw [hps]
  exact .ok htwins

theorem Mirrors.dueEndpoints {now : Instant} (hnow : now.IsWhole) (h : Mirrors L l t) :
    t.dueEndpoints now = l.dueEndpoints now := by
  have hdue : ∀ r j, Shows L l r j → j.action.scheduledAtMs.le (.int now.toMillis) =
      ((Rows.find? r.actionId l.actions).map (·.isDue now)).getD false := by
    rintro r j ⟨a, ha, -, b, ⟨u, -, hwhole, -, hrow⟩, -, -, hat⟩
    change Rows.find? r.actionId l.actions = some a at ha
    change b.scheduledAt = a.scheduledAt at hat
    rw [ha, hrow, Option.map_some, Option.getD_some, Action.isDue, ← hat]
    exact decide_eq_decide.mpr (hwhole.toMillis_le hnow)
  have hrecords := map_eq_of_forall₂ (f := (·.endpoint)) (g := (·.record.endpoint))
    (fun r j ⟨_, _, hrow, _⟩ => congrArg Prod.snd (RecordRow.pairs_holds.key hrow))
    (forall₂_filter hdue h.queuedJoined)
  have hflagged : ∀ x row, EndpointRow.Holds L x row → row.isFlagged = x.needsRefresh := by
    rintro x - ⟨-, ⟨u, -, rfl⟩, rfl⟩
    unfold EndpointRow.isFlagged EndpointRow.encode
    cases x.needsRefresh <;> rfl
  have hendpoints := map_eq_of_forall₂ (f := Endpoint.id) (g := EndpointRow.id)
    (fun _ _ hrow => EndpointRow.pairs_holds.key hrow) (forall₂_filter hflagged h.endpoints)
  unfold Tables.dueEndpoints Ledger.dueEndpoints Ledger.isDue
  rw [hrecords, hendpoints, List.filter_filter]
  simp only [Bool.and_comm]

theorem parallel_save {r s : Record} (h : Record.Kept L r s) :
    Parallel (Mirrors L) Eq (Ledger.save r) (Tables.save s) := by
  intro l t hm
  have hrow : RecordRow.Holds L r (RecordRow.encode s) := ⟨s, h.1, h.2, rfl⟩
  have hkey : (s.actionId, s.endpoint) = (r.actionId, r.endpoint) := by
    obtain ⟨⟨u, -, rfl⟩, -⟩ := h
    rfl
  have hfind := RecordRow.pairs_holds.find? (r.actionId, r.endpoint) hm.records
  unfold Ledger.save Tables.save
  rw [show s.actionId = r.actionId from congrArg Prod.fst hkey,
    show s.endpoint = r.endpoint from congrArg Prod.snd hkey]
  cases hl : Rows.find? (r.actionId, r.endpoint) l.records with
  | none =>
    rw [hl] at hfind
    generalize Rows.find? (r.actionId, r.endpoint) t.records = y at hfind
    cases hfind
    exact .error _ hm
  | some old =>
    rw [hl] at hfind
    generalize Rows.find? (r.actionId, r.endpoint) t.records = y at hfind
    cases hfind
    exact .ok rfl ⟨⟨hm.lastId, hm.actions, RecordRow.pairs_holds.put hrow hm.records,
      hm.endpoints⟩, hm.wellFormed.putRecord hl⟩

theorem Mirrors.putEndpoint {x y : Endpoint} (h : Mirrors L l t) (hxy : Endpoint.Twin L x y) :
    Mirrors L (l.putEndpoint x)
      { t with endpoints := Rows.put (EndpointRow.encode y) t.endpoints } :=
  ⟨⟨h.lastId, h.actions, h.records, EndpointRow.pairs_holds.put ⟨y, hxy, rfl⟩ h.endpoints⟩,
    h.wellFormed.putEndpoint x⟩

theorem parallel_saveEndpoint {x y : Endpoint} (hxy : Endpoint.Twin L x y) :
    Parallel (Mirrors L) Eq (ActionRows.saveEndpoint x : Script Ledger Unit)
      (ActionRows.saveEndpoint y) :=
  fun _ _ hm => .ok rfl (hm.putEndpoint hxy)

theorem parallel_recordCheckin {time time' : Instant} (e : EndpointId) (htime : L time time') :
    Parallel (Mirrors L) Eq (ActionRows.recordCheckin e time : Script Ledger Unit)
      (ActionRows.recordCheckin e time') := by
  intro l t hm
  obtain ⟨y, ⟨u, hu, rfl⟩, hrow⟩ := hm.endpointRow e
  have hascending :=
    EndpointRow.pairs_holds.ascending hm.endpoints hm.wellFormed.endpoints_ascending
  have hput := hm.putEndpoint (x := (l.endpoint e).checkIn time)
    (y := (l.endpoint e).checkIn time') ⟨some time', .some htime, rfl⟩
  refine .ok rfl ?_
  rw [recordCheckin_eq_put hascending hrow time']
  exact ⟨⟨hput.lastId, hput.actions, hput.records, hput.endpoints⟩,
    hput.wellFormed.withCheckins _⟩

theorem Holds.enlist {tries : Nat} {es : List EndpointId} (htries : tries ≤ Width.most32)
    (hnodup : es.Nodup) (h : Holds L l t)
    (hfresh : ∀ x ∈ es, Rows.find? (id, x) t.records = none) :
    ∃ t', Tables.enlist id tries es t = .ok () t' ∧
      Holds L (es.foldl (Ledger.enlist id tries) l) t' := by
  induction es generalizing l t with
  | nil => exact ⟨t, rfl, h⟩
  | cons x es ih =>
    obtain ⟨hx, hnodup⟩ := List.nodup_cons.mp hnodup
    have hrow : RecordRow.Holds L (.fresh id x tries) (RecordRow.encode (.fresh id x tries)) :=
      ⟨_, ⟨none, .none, rfl⟩, htries, rfl⟩
    have hendpoint : EndpointRow.Holds L (.fresh x) (EndpointRow.fresh x) :=
      ⟨.fresh x, ⟨none, .none, rfl⟩, rfl⟩
    have hnext : Holds L (Ledger.enlist id tries l x) { t with
        endpoints := Rows.ensure (EndpointRow.fresh x) t.endpoints
        records := Rows.put (RecordRow.encode (.fresh id x tries)) t.records } :=
      ⟨h.lastId, h.actions, RecordRow.pairs_holds.put hrow h.records,
        EndpointRow.pairs_holds.ensure hendpoint h.endpoints⟩
    -- the endpoints are distinct, so the row just put is none of those still to come
    obtain ⟨t', ht', hheld⟩ := ih hnodup hnext fun y hy => by
      have hne : x ≠ y := fun hxy => hx (hxy ▸ hy)
      rw [Rows.find?_put, hfresh y (List.mem_cons_of_mem _ hy)]
      simp [Row.key, RecordRow.encode, Record.fresh, hne]
    refine ⟨t', ?_, hheld⟩
    unfold Tables.enlist
    simp only [ensureEndpoint, hfresh x List.mem_cons_self]
    exact ht'

theorem Holds.issueAction {a : Action} {row : ActionRow} (hid : row.id = a.id)
    (hrow : ActionRow.Holds L a row) (h : Holds L l t) :
    Holds L { l with lastId := a.id, actions := Rows.put a l.actions }
      { t with lastId := row.id, actions := Rows.put row t.actions } :=
  ⟨hid, ActionRow.pairs_holds.put hrow h.actions, h.records, h.endpoints⟩

theorem Mirrors.find?_eq_none (h : Mirrors L l t) (hid : l.lastId < id) :
    Rows.find? (id, e) t.records = none := by
  have hfind := RecordRow.pairs_holds.find? (id, e) h.records
  have hnone : Rows.find? (id, e) l.records = none := h.wellFormed.record?_eq_none hid
  rw [hnone] at hfind
  generalize Rows.find? (id, e) t.records = y at hfind ⊢
  cases hfind
  rfl

theorem created_ok {now now' : Instant} {n : NewAction} (hL : Lasting L) (hnow : L now now')
    (hwhole : n.scheduledAt.IsWhole) :
    ∃ b, created (l.lastId + 1) now' n = .ok b ∧ Action.Twin L (l.created now n) b := by
  obtain ⟨u, hu, hlast⟩ := hL.kept hnow
  refine ⟨{ l.created now n with createdAt := u }, ?_, u, hlast, rfl⟩
  unfold created
  rw [Instant.timeOf_toMillis hwhole.floorMillis?, Instant.timeOf_toMillis hu]
  rfl

theorem parallel_insertAction {now now' : Instant} {n : NewAction} (hL : Lasting L)
    (hnow : L now now') (hn : n.Fits) :
    Parallel (Mirrors L) (Action.Twin L) (Ledger.insertAction now n)
      (Tables.insertAction now' n) := by
  intro l t hm
  have hmissing : (fun p => (Rows.find? p t.actions).isNone) =
      fun p => (Rows.find? p l.actions).isNone := by
    funext p
    rw [← Option.not_isSome, ← Option.not_isSome,
      isSome_of_rel (ActionRow.pairs_holds.find? p hm.actions)]
  unfold Tables.insertAction
  rw [hmissing]
  cases hp : n.prerequisite.filter fun p => (Rows.find? p l.actions).isNone with
  | some p =>
    unfold Ledger.insertAction
    simp only [hp]
    exact .error _ hm
  | none =>
    have hinsert : Ledger.insertAction now n l =
        .ok (l.created now n) (l.issue (l.created now n) n.endpoints n.retries) := by
      unfold Ledger.insertAction
      simp only [hp]
      rfl
    have hrow : ActionRow.Holds L (l.created now n) (ActionRow.encode (l.lastId + 1) now' n) :=
      ⟨now', hnow, hn.whole, hn.storable, rfl⟩
    obtain ⟨t', ht', hheld⟩ := (hm.issueAction rfl hrow).enlist hn.retries hn.distinct
      fun x _ => hm.find?_eq_none (Int.lt_succ l.lastId)
    obtain ⟨b, hcreated, htwin⟩ := created_ok (l := l) hL hnow hn.whole
    have hprerequisite := (Ledger.of_insertAction_eq_ok hinsert).1
    have henlist : Tables.enlist (l.lastId + 1) n.retries n.endpoints { t with
        lastId := l.lastId + 1
        actions := Rows.put (ActionRow.encode (l.lastId + 1) now' n) t.actions } = .ok () t' := ht'
    rw [hinsert, hm.lastId]
    simp only [henlist, Tables.look, hcreated]
    refine .ok htwin ⟨hheld, ?_⟩
    exact hm.wellFormed.issue rfl hprerequisite n.endpoints n.retries

section operations

variable (hL : Lasting L)

include hL

theorem parallel_pending (e : EndpointId) :
    Parallel (Mirrors L) (Forall₂ (PendingRecord.Twin L)) (ActionRows.pending e : Script Ledger _)
      (ActionRows.pending e) :=
  parallel_look fun _ _ hm => hm.pending hL e

theorem parallel_loadAction (id : ActionId) :
    Parallel (Mirrors L) (Action.Twin L) (ActionRows.loadAction id : Script Ledger _)
      (ActionRows.loadAction id) :=
  parallel_look fun _ _ hm => hm.action hL id

theorem parallel_loadRecord (id : ActionId) (e : EndpointId) :
    Parallel (Mirrors L) (Option.Rel (Record.Kept L))
      (ActionRows.loadRecord id e : Script Ledger _) (ActionRows.loadRecord id e) :=
  parallel_look fun _ _ hm => hm.record hL id e

theorem parallel_loadEndpoint (e : EndpointId) :
    Parallel (Mirrors L) (Endpoint.Twin L) (ActionRows.loadEndpoint e : Script Ledger _)
      (ActionRows.loadEndpoint e) :=
  parallel_look fun _ _ hm => hm.endpoint hL e

theorem parallel_listEndpoints :
    Parallel (Mirrors L) (Forall₂ (Endpoint.Twin L)) (ActionRows.listEndpoints : Script Ledger _)
      ActionRows.listEndpoints :=
  parallel_look fun _ _ hm => hm.listEndpoints hL

theorem parallel_listRecords (e : Option EndpointId) (status : Option Status) :
    Parallel (Mirrors L) (Forall₂ (Record.Twin L))
      (ActionRows.listRecords e status : Script Ledger _) (ActionRows.listRecords e status) :=
  parallel_look fun _ _ hm => hm.listRecords hL e status

omit hL in
theorem parallel_dueEndpoints {now : Instant} (hnow : now.IsWhole) :
    Parallel (Mirrors L) Eq (ActionRows.dueEndpoints now : Script Ledger _)
      (ActionRows.dueEndpoints now) :=
  parallel_look fun _ _ hm => .ok (hm.dueEndpoints hnow).symm

end operations

end Tables

end FleetDispatch
