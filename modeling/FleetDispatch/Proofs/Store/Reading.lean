import FleetDispatch.Proofs.Store.Codec

namespace FleetDispatch

namespace Tables

def reading (t : Tables) : Ledger :=
  ⟨t.lastId, t.actions.map ActionRow.reading, t.records.map RecordRow.reading,
    t.endpoints.map EndpointRow.reading, []⟩

/-- Tables with rows that were encoded from what they are to hold. -/
structure Encoded (t : Tables) : Prop where
  actions : ∀ row ∈ t.actions, ∃ id now n, row = ActionRow.encode id now n
  records : ∀ row ∈ t.records, ∃ r, row = RecordRow.encode r
  endpoints : ∀ row ∈ t.endpoints, ∃ e, row = EndpointRow.encode e

structure Sound (t : Tables) : Prop extends Encoded t where
  wellFormed : t.reading.WellFormed

variable {t t' : Tables} {id : ActionId} {e : EndpointId}

theorem record?_reading :
    t.reading.record? id e = (Rows.find? (id, e) t.records).map RecordRow.reading :=
  RecordRow.renders_reading.find?_map (id, e) t.records

theorem action?_reading :
    t.reading.action? id = (Rows.find? id t.actions).map ActionRow.reading :=
  ActionRow.renders_reading.find?_map id t.actions

theorem endpoint?_reading :
    t.reading.endpoint? e = (Rows.find? e t.endpoints).map EndpointRow.reading :=
  EndpointRow.renders_reading.find?_map e t.endpoints

theorem reading_putRecord (r : Record) :
    ({ t with records := Rows.put (RecordRow.encode r) t.records } : Tables).reading =
      t.reading.putRecord (r.kept .rows) := by
  simp only [reading, Ledger.putRecord, ← RecordRow.reading_encode,
    RecordRow.renders_reading.put_map]

theorem reading_putEndpoint (x : Endpoint) :
    ({ t with endpoints := Rows.put (EndpointRow.encode x) t.endpoints } : Tables).reading =
      t.reading.putEndpoint (x.kept .rows) := by
  simp only [reading, Ledger.putEndpoint, ← EndpointRow.reading_encode,
    EndpointRow.renders_reading.put_map]

theorem reading_enlist (i : ActionId) (tries : Nat) (x : EndpointId) :
    ({ t with
      endpoints := Rows.ensure (EndpointRow.fresh x) t.endpoints
      records := Rows.put (RecordRow.encode (.fresh i x tries)) t.records } : Tables).reading =
      Ledger.enlist i tries t.reading x := by
  have he := EndpointRow.renders_reading.ensure_map (EndpointRow.fresh x) t.endpoints
  have hr := RecordRow.renders_reading.put_map (RecordRow.encode (.fresh i x tries)) t.records
  rw [RecordRow.reading_encode] at hr
  simp only [reading, ← he, ← hr]
  rfl

theorem look_ok {α : Type} {f : Tables → Except StoreError α} {a : α}
    (h : look f t = .ok a t') : t' = t ∧ f t = .ok a := by
  unfold look at h
  split at h
  · next hf =>
    cases h
    exact ⟨rfl, hf⟩
  · cases h

theorem sound_empty : Sound empty :=
  ⟨⟨by simp [empty], by simp [empty], by simp [empty]⟩, Ledger.wellFormed_empty⟩

theorem action_ok {a : Action} (hs : t.Sound) (h : t.action id = .ok a) :
    t.reading.action? id = some a := by
  unfold action at h
  rw [action?_reading]
  cases hf : Rows.find? id t.actions with
  | none => simp [hf] at h
  | some row =>
    obtain ⟨i, now, n, rfl⟩ := hs.actions row (Rows.mem_of_find? hf)
    simp only [hf] at h
    rw [Option.map_some, ActionRow.decode_encode_eq_ok h]

theorem record_ok {r : Option Record} (hs : t.Sound) (h : t.record id e = .ok r) :
    t.reading.record? id e = r := by
  unfold record at h
  rw [record?_reading]
  cases hf : Rows.find? (id, e) t.records with
  | none =>
    simp only [hf] at h
    exact Except.ok.inj h
  | some row =>
    obtain ⟨x, rfl⟩ := hs.records row (Rows.mem_of_find? hf)
    simp only [hf] at h
    cases hd : (RecordRow.encode x).decode with
    | error e =>
      rw [hd] at h
      cases h
    | ok y =>
      rw [hd] at h
      rw [Option.map_some, ← RecordRow.decode_encode_eq_ok hd]
      exact Except.ok.inj h

theorem endpoint_ok {x : Endpoint} (hs : t.Sound) (h : t.endpoint e = .ok x) :
    t.reading.endpoint e = x := by
  unfold endpoint at h
  rw [Ledger.endpoint_eq, endpoint?_reading]
  cases hf : Rows.find? e t.endpoints with
  | none =>
    simp only [hf] at h
    exact Except.ok.inj h
  | some row =>
    obtain ⟨y, rfl⟩ := hs.endpoints row (Rows.mem_of_find? hf)
    simp only [hf] at h
    rw [Option.map_some, ← EndpointRow.decode_encode_eq_ok h, Option.getD_some]

def Joined.reading (j : Joined) : PendingRecord :=
  ⟨j.record.reading, j.action.name, .atMillis (j.action.scheduledAtMs.int?.getD 0)⟩

structure Joined.Sound (j : Joined) : Prop where
  record : ∃ r, j.record = RecordRow.encode r
  action : ∃ id now n, j.action = ActionRow.encode id now n
  same : j.record.actionId = j.action.id

theorem Joined.decode_eq_ok {j : Joined} {p : PendingRecord} (hj : j.Sound)
    (h : j.decode = .ok p) : p = j.reading := by
  obtain ⟨record, action⟩ := j
  obtain ⟨⟨r, rfl⟩, ⟨id, now, n, rfl⟩, -⟩ := hj
  obtain ⟨numbers, hnumbers, h₁⟩ := of_bind_eq_ok h
  obtain ⟨s, hs, h₂⟩ := of_bind_eq_ok h₁
  obtain ⟨x, hx, h₃⟩ := of_bind_eq_ok h₂
  obtain ⟨scheduledAt, hscheduledAt, h₄⟩ := of_bind_eq_ok h₃
  have hdecode : (RecordRow.encode r).decode = .ok x := by
    unfold RecordRow.decode
    rw [hnumbers]
    exact hx
  obtain rfl := Except.ok.inj hs
  rw [timeOf_eq_ok hscheduledAt, RecordRow.decode_encode_eq_ok hdecode] at h₄
  exact (Except.ok.inj h₄).symm

theorem Joined.before_reading {a b : Joined} (ha : a.Sound) (hb : b.Sound) :
    Joined.before a b = PendingRecord.before a.reading b.reading := by
  obtain ⟨id, now, n, hn⟩ := ha.action
  obtain ⟨id', now', n', hn'⟩ := hb.action
  have hid : a.reading.actionId = a.action.id := ha.same
  have hid' : b.reading.actionId = b.action.id := hb.same
  have hms : a.action.scheduledAtMs = .int n.scheduledAt.toMillis := by rw [hn]; rfl
  have hms' : b.action.scheduledAtMs = .int n'.scheduledAt.toMillis := by rw [hn']; rfl
  have hat : a.reading.scheduledAt = .atMillis n.scheduledAt.toMillis := by
    rw [Joined.reading, hms]
    rfl
  have hat' : b.reading.scheduledAt = .atMillis n'.scheduledAt.toMillis := by
    rw [Joined.reading, hms']
    rfl
  simp only [before, PendingRecord.before, hid, hid', hms, hms', hat, hat', Cell.int.injEq,
    Instant.atMillis_inj, Instant.atMillis_le, Cell.le]

def backlog (e : EndpointId) (t : Tables) : List Joined :=
  t.queuedJoined.filter (·.record.endpoint == e)

theorem sound_of_mem_backlog {j : Joined} (hs : t.Sound) (hj : j ∈ t.backlog e) : j.Sound := by
  obtain ⟨hj, -⟩ := List.mem_filter.mp hj
  obtain ⟨r, hr, hj⟩ := List.mem_filterMap.mp hj
  obtain ⟨a, ha, rfl⟩ := Option.map_eq_some_iff.mp hj
  exact ⟨hs.records r (List.mem_filter.mp hr).1, hs.actions a (Rows.mem_of_find? ha),
    (Rows.key_of_find? ha).symm⟩

/-- The queued records of an endpoint, each with its action, are what stands in the joined rows. -/
theorem mapM_pendingOf (hs : t.Sound) (rows : List RecordRow) (hrows : ∀ r ∈ rows, r ∈ t.records) :
    ((rows.map RecordRow.reading).filter fun r =>
        r.endpoint == e && r.status == .queued).mapM t.reading.pendingOf =
      .ok ((((rows.filter (·.isQueued)).filterMap fun r =>
        (Rows.find? r.actionId t.actions).map fun a => Joined.mk r a).filter
          (·.record.endpoint == e)).map Joined.reading) := by
  induction rows with
  | nil => rfl
  | cons row rows ih =>
    have hi := ih fun r hr => hrows r (List.mem_cons_of_mem _ hr)
    have hrow := hrows row List.mem_cons_self
    obtain ⟨x, hx⟩ := hs.records row hrow
    have hqueued : (row.reading.status == .queued) = row.isQueued := by
      rw [hx, RecordRow.isQueued_encode, RecordRow.reading_encode]
      rfl
    have hendpoint : row.reading.endpoint = row.endpoint := rfl
    have hfound := hs.wellFormed.record_action
      (Rows.find?_of_mem hs.wellFormed.records_ascending (List.mem_map_of_mem hrow))
    rw [action?_reading, Option.isSome_map] at hfound
    obtain ⟨a, ha⟩ := Option.isSome_iff_exists.mp hfound
    have haction : Rows.find? row.actionId t.actions = some a := ha
    have hpending : t.reading.pendingOf row.reading = .ok (Joined.reading ⟨row, a⟩) := by
      have hl : t.reading.action row.reading.actionId = .ok a.reading :=
        Ledger.action_eq_ok.mpr (by rw [action?_reading]; exact congrArg _ ha)
      unfold Ledger.pendingOf
      rw [hl]
      rfl
    simp only [List.map_cons, List.filter_cons, hqueued, hendpoint]
    cases hq : row.isQueued with
    | false => simpa [hq] using hi
    | true =>
      cases he : row.endpoint == e with
      | false => simpa [hq, he, haction] using hi
      | true =>
        simp only [Bool.and_self, ↓reduceIte, List.mapM_cons, hpending, List.filterMap_cons,
          haction, Option.map_some, List.filter_cons, he, List.map_cons]
        rw [hi]
        rfl

theorem pending_ok {ps : List PendingRecord} (hs : t.Sound) (h : t.pending e = .ok ps) :
    t.reading.pending e = .ok ps := by
  have hsorted : ∀ j ∈ (t.backlog e).mergeSort Joined.before, j.Sound :=
    fun j hj => sound_of_mem_backlog hs (List.mem_mergeSort.mp hj)
  have hps := mapM_eq_ok (fun j hj p hp => Joined.decode_eq_ok (hsorted j hj) hp) h
  have hmap : ((t.backlog e).mergeSort Joined.before).map Joined.reading =
      ((t.backlog e).map Joined.reading).mergeSort PendingRecord.before :=
    List.map_mergeSort fun a ha b hb =>
      Joined.before_reading (sound_of_mem_backlog hs ha) (sound_of_mem_backlog hs hb)
  rw [hps, hmap]
  have hqueued := mapM_pendingOf (e := e) hs t.records fun _ hr => hr
  unfold Ledger.pending
  simp only [reading] at hqueued ⊢
  rw [hqueued]
  rfl

theorem sound_putRecord {r : Record} (hs : t.Sound)
    (found : (Rows.find? (r.actionId, r.endpoint) t.records).isSome) :
    Sound { t with records := Rows.put (RecordRow.encode r) t.records } where
  actions := hs.actions
  records row hrow := by
    rcases Rows.mem_put hrow with rfl | hrow
    · exact ⟨r, rfl⟩
    · exact hs.records row hrow
  endpoints := hs.endpoints
  wellFormed := by
    obtain ⟨row, hrow⟩ := Option.isSome_iff_exists.mp found
    have hold : t.reading.record? r.actionId r.endpoint = some row.reading := by
      rw [record?_reading, hrow, Option.map_some]
    rw [reading_putRecord]
    exact hs.wellFormed.putRecord (r := r.kept .rows) hold

theorem sound_putEndpoint (x : Endpoint) (hs : t.Sound) :
    Sound { t with endpoints := Rows.put (EndpointRow.encode x) t.endpoints } where
  actions := hs.actions
  records := hs.records
  endpoints row hrow := by
    rcases Rows.mem_put hrow with rfl | hrow
    · exact ⟨x, rfl⟩
    · exact hs.endpoints row hrow
  wellFormed := by
    rw [reading_putEndpoint]
    exact hs.wellFormed.putEndpoint _

theorem recordCheckin_eq_put {y : Endpoint} (hascending : Rows.Ascending t.endpoints)
    (hy : (Rows.find? e t.endpoints).getD (.fresh e) = EndpointRow.encode y) (time : Instant) :
    t.recordCheckin e time =
      { t with endpoints := Rows.put (EndpointRow.encode (y.checkIn time)) t.endpoints } := by
  have hkey : y.id = e := by
    have hid := congrArg EndpointRow.id hy
    cases hf : Rows.find? e t.endpoints with
    | none =>
      rw [hf] at hid
      exact hid.symm
    | some row =>
      rw [hf] at hid
      exact hid.symm.trans (Rows.key_of_find? hf)
  have hfind : Rows.find? e (Rows.ensure (EndpointRow.fresh e) t.endpoints) =
      some (EndpointRow.encode y) := by
    rw [Rows.find?_ensure, ← hy]
    cases Rows.find? e t.endpoints <;> simp [Row.key, EndpointRow.fresh]
  unfold recordCheckin ensureEndpoint
  have hupdate := Rows.update_eq_put
    (f := fun row => { row with lastCheckinMs := .int time.toMillis })
    (Rows.ascending_ensure (EndpointRow.fresh e) hascending) hfind hkey
  have hput : Rows.put (EndpointRow.encode (y.checkIn time))
      (Rows.ensure (EndpointRow.fresh e) t.endpoints) =
      Rows.put (EndpointRow.encode (y.checkIn time)) t.endpoints := Rows.put_ensure _ hkey
  simp only [hupdate]
  rw [← hput]
  rfl

theorem recordCheckin_eq (hs : t.Sound) (time : Instant) :
    ∃ y : Endpoint, y.kept .rows = t.reading.endpoint e ∧ t.recordCheckin e time =
      { t with endpoints := Rows.put (EndpointRow.encode (y.checkIn time)) t.endpoints } := by
  have hascending : Rows.Ascending t.endpoints :=
    EndpointRow.renders_reading.ascending_map.mp hs.wellFormed.endpoints_ascending
  obtain ⟨y, hy⟩ : ∃ y, (Rows.find? e t.endpoints).getD (.fresh e) = EndpointRow.encode y := by
    cases hf : Rows.find? e t.endpoints with
    | none => exact ⟨.fresh e, rfl⟩
    | some row => exact hs.endpoints row (Rows.mem_of_find? hf)
  refine ⟨y, ?_, recordCheckin_eq_put hascending hy time⟩
  rw [← EndpointRow.reading_encode, ← hy, Ledger.endpoint_eq, endpoint?_reading]
  cases Rows.find? e t.endpoints <;> rfl

theorem encoded_enlist {i : ActionId} {tries : Nat} {x : EndpointId} (he : t.Encoded) :
    Encoded { t with
      endpoints := Rows.ensure (EndpointRow.fresh x) t.endpoints
      records := Rows.put (RecordRow.encode (.fresh i x tries)) t.records } where
  actions := he.actions
  records row hrow := by
    rcases Rows.mem_put hrow with rfl | hrow
    · exact ⟨_, rfl⟩
    · exact he.records row hrow
  endpoints row hrow := by
    unfold Rows.ensure at hrow
    split at hrow
    · exact he.endpoints row hrow
    · rcases Rows.mem_put hrow with rfl | hrow
      · exact ⟨.fresh x, rfl⟩
      · exact he.endpoints row hrow

theorem enlist_ok {i : ActionId} {tries : Nat} {es : List EndpointId} {u : Unit} (he : t.Encoded)
    (h : enlist i tries es t = .ok u t') :
    t'.Encoded ∧ t'.reading = es.foldl (Ledger.enlist i tries) t.reading := by
  induction es generalizing t with
  | nil =>
    cases h
    exact ⟨he, rfl⟩
  | cons x es ih =>
    unfold enlist at h
    simp only [ensureEndpoint] at h
    split at h
    · cases h
    · obtain ⟨hencoded, hread⟩ := ih (encoded_enlist he) h
      rw [hread, reading_enlist]
      exact ⟨hencoded, rfl⟩

theorem of_insertAction_eq_ok {now : Instant} {n : NewAction} {a : Action}
    (h : insertAction now n t = .ok a t') :
    (∀ p, n.prerequisite = some p → (Rows.find? p t.actions).isSome) ∧
      created (t.lastId + 1) now n = .ok a ∧
      enlist (t.lastId + 1) n.retries n.endpoints { t with
        lastId := t.lastId + 1
        actions := Rows.put (ActionRow.encode (t.lastId + 1) now n) t.actions } = .ok () t' := by
  unfold insertAction at h
  split at h
  · cases h
  · next hfilter =>
    simp only at h
    split at h
    · cases h
    · next henlist =>
      obtain ⟨rfl, hcreated⟩ := look_ok h
      refine ⟨fun p hp => ?_, hcreated, henlist⟩
      rw [Option.isSome_iff_ne_none]
      simpa [hp, Option.filter] using hfilter

theorem insertAction_ok {now : Instant} {n : NewAction} {a : Action} (hs : t.Sound)
    (h : insertAction now n t = .ok a t') :
    t'.Sound ∧ a.id = t.reading.lastId + 1 ∧
      (∀ p, n.prerequisite = some p → (t.reading.action? p).isSome) ∧
      t'.reading =
        t.reading.issue (t.reading.created now.cut (n.kept .rows)) n.endpoints n.retries := by
  obtain ⟨present, hcreated, henlist⟩ := of_insertAction_eq_ok h
  have hp : ∀ p, n.prerequisite = some p → (t.reading.action? p).isSome := by
    intro p hp
    rw [action?_reading, Option.isSome_map]
    exact present p hp
  obtain ⟨s, hs₁, h₁⟩ := of_bind_eq_ok hcreated
  obtain ⟨c, hc, h₂⟩ := of_bind_eq_ok h₁
  have hencoded : Encoded { t with
      lastId := t.lastId + 1
      actions := Rows.put (ActionRow.encode (t.lastId + 1) now n) t.actions } := by
    refine ⟨fun row hrow => ?_, hs.records, hs.endpoints⟩
    rcases Rows.mem_put hrow with rfl | hrow
    · exact ⟨_, now, n, rfl⟩
    · exact hs.actions row hrow
  obtain ⟨hencoded', hread⟩ := enlist_ok hencoded henlist
  have hissue : t'.reading =
      t.reading.issue (t.reading.created now.cut (n.kept .rows)) n.endpoints n.retries := by
    rw [hread]
    simp only [reading, ← ActionRow.renders_reading.put_map, ActionRow.reading_encode,
      Ledger.issue, Ledger.created, NewAction.kept, Keeping.rows]
  refine ⟨⟨hencoded', ?_⟩, ?_, hp, hissue⟩
  · rw [hissue]
    exact hs.wellFormed.issue rfl hp n.endpoints n.retries
  · rw [← Except.ok.inj h₂]
    rfl

theorem kept_reading_record {r : Record} (hs : t.Sound) (h : t.reading.record? id e = some r) :
    r.kept .rows = r := by
  rw [record?_reading] at h
  obtain ⟨row, hrow, rfl⟩ := Option.map_eq_some_iff.mp h
  obtain ⟨x, rfl⟩ := hs.records row (Rows.mem_of_find? hrow)
  rw [RecordRow.reading_encode]
  cases hx : x.completedAt <;> simp [Record.kept, Keeping.rows, hx]

theorem kept_reading_endpoint {x : Endpoint} (hs : t.Sound)
    (h : t.reading.endpoint? e = some x) : x.kept .rows = x := by
  rw [endpoint?_reading] at h
  obtain ⟨row, hrow, rfl⟩ := Option.map_eq_some_iff.mp h
  obtain ⟨y, rfl⟩ := hs.endpoints row (Rows.mem_of_find? hrow)
  rw [EndpointRow.reading_encode]
  cases hy : y.lastCheckin <;> simp [Endpoint.kept, Keeping.rows, hy]

theorem save_ok {r : Record} {u : Unit} (h : save r t = .ok u t') :
    t' = { t with records := Rows.put (RecordRow.encode r) t.records } ∧
      (Rows.find? (r.actionId, r.endpoint) t.records).isSome := by
  unfold save at h
  split at h
  · next hf =>
    cases h
    exact ⟨rfl, by rw [hf]; rfl⟩
  · cases h

instance : Legible Tables where
  keeping := .rows
  ledger := reading
  Sound := Sound
  sound_empty := sound_empty
  ledger_empty := rfl
  keeps_refresh := by decide +kernel
  wellFormed hs := hs.wellFormed
  kept_record := kept_reading_record
  kept_endpoint := kept_reading_endpoint
  pending_ok hs h := ⟨(look_ok h).1, pending_ok hs (look_ok h).2⟩
  loadAction_ok hs h := ⟨(look_ok h).1, action_ok hs (look_ok h).2⟩
  loadRecord_ok hs h := ⟨(look_ok h).1, record_ok hs (look_ok h).2⟩
  loadEndpoint_ok hs h := ⟨(look_ok h).1, endpoint_ok hs (look_ok h).2⟩
  save_ok hs h := by
    obtain ⟨rfl, found⟩ := save_ok h
    exact ⟨sound_putRecord hs found, reading_putRecord _⟩
  saveEndpoint_ok hs h := by
    cases h
    exact ⟨sound_putEndpoint _ hs, reading_putEndpoint _⟩
  recordCheckin_ok {rows rows' e t u} hs h := by
    cases h
    obtain ⟨y, hy, heq⟩ := recordCheckin_eq (e := e) hs t
    rw [heq]
    refine ⟨sound_putEndpoint _ hs, ?_⟩
    rw [reading_putEndpoint, ← hy]
    rfl
  insertAction_ok := insertAction_ok

end Tables

end FleetDispatch
