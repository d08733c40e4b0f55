import FleetDispatch.Proofs.Store.Intact
import FleetDispatch.Proofs.Store.Transaction

namespace FleetDispatch

namespace Instant

variable {s t u : Instant}

/-- An instant that a calendar has and that is not in a leap second. -/
structure IsOrdinary (t : Instant) : Prop where
  notLeap : t.nanos < 1000000000
  dated : t.IsDated

/-- The greatest whole millisecond that is not after an instant. -/
structure IsFloor (t u : Instant) : Prop where
  whole : u.IsWhole
  le : u ≤ t
  greatest : ∀ v : Instant, v.IsWhole → v ≤ t → v ≤ u

theorem toMillis_le_of_le (hs : s.nanos < 1000000000) (h : s ≤ t) : s.toMillis ≤ t.toMillis := by
  unfold toMillis
  rcases h with hlt | ⟨heq, hle⟩
  · omega
  · omega

theorem cut_le_iff (ht : t.nanos < 1000000000) : s.cut ≤ t ↔ s.toMillis ≤ t.toMillis := by
  unfold cut
  constructor
  · intro h
    have hnanos : (atMillis s.toMillis).nanos < 1000000000 := by
      simp only [atMillis]
      omega
    have hle := toMillis_le_of_le hnanos h
    rwa [toMillis_atMillis] at hle
  · intro h
    change _ < _ ∨ _ = _ ∧ _ ≤ _
    rw [show t.toMillis = t.seconds * 1000 + (t.nanos / 1000000 : Nat) from rfl] at h
    simp only [atMillis]
    omega

theorem IsDated.isWhole_cut (h : t.IsDated) : t.cut.IsWhole where
  whole := Nat.mul_mod_left _ _
  notLeap := by
    simp only [Instant.cut, atMillis]
    omega
  dated := h.cut

theorem IsOrdinary.isFloor_cut (h : t.IsOrdinary) : IsFloor t t.cut where
  whole := h.dated.isWhole_cut
  le := (cut_le_iff h.notLeap).mpr (Int.le_refl _)
  greatest v hv hle := by
    rw [hv.eq_cut]
    exact atMillis_le.mpr (toMillis_le_of_le hv.notLeap hle)

theorem IsDated.timeOf (h : t.IsDated) : timeOf t.toMillis = .ok t.cut :=
  timeOf_toMillis (floorMillis?_eq_some.mpr ⟨h, rfl⟩)

theorem optionalTimeOf_of_dated {c : Option Instant} (h : ∀ t ∈ c, t.IsDated) :
    optionalTimeOf (c.map toMillis) = .ok (c.map cut) := by
  cases c with
  | none => rfl
  | some t =>
    rw [Option.map_some, optionalTimeOf, (h t rfl).timeOf]
    rfl

theorem rel_isFloor {c : Option Instant} (h : ∀ t ∈ c, t.IsOrdinary) :
    Option.Rel IsFloor c (c.map cut) := by
  cases c with
  | none => exact .none
  | some t => exact .some (h t rfl).isFloor_cut

theorem map_toMillis_cut (c : Option Instant) : (c.map cut).map toMillis = c.map toMillis := by
  cases c with
  | none => rfl
  | some t => exact congrArg some (toMillis_atMillis _)

end Instant

open Instant (IsFloor)

theorem Record.twin_kept {r : Record} (h : ∀ t ∈ r.completedAt, t.IsOrdinary) :
    Record.Twin IsFloor r (r.kept .rows) :=
  ⟨_, Instant.rel_isFloor h, rfl⟩

theorem Endpoint.twin_kept {x : Endpoint} (h : ∀ t ∈ x.lastCheckin, t.IsOrdinary) :
    Endpoint.Twin IsFloor x (x.kept .rows) :=
  ⟨_, Instant.rel_isFloor h, rfl⟩

theorem RecordRow.encode_kept (r : Record) : encode (r.kept .rows) = encode r := by
  have htime := Instant.map_toMillis_cut r.completedAt
  simp only [encode, Record.kept, Keeping.rows, htime]

theorem EndpointRow.encode_kept (x : Endpoint) : encode (x.kept .rows) = encode x := by
  have htime := Instant.map_toMillis_cut x.lastCheckin
  exact congrArg (fun c => EndpointRow.mk x.id _ (.ofOption c)) htime

theorem RecordRow.decode_of_inRange {r : Record} (h : r.InRange) :
    (encode r).decode = .ok (encode r).reading := by
  rw [decode_encode, if_neg (Nat.not_lt.mpr h.tries), Instant.optionalTimeOf_of_dated h.dated,
    reading_encode]
  rfl

theorem EndpointRow.decode_of_inRange {x : Endpoint} (h : x.InRange) :
    (encode x).decode = .ok (encode x).reading := by
  rw [decode_encode, Instant.optionalTimeOf_of_dated h, reading_encode]
  rfl

theorem mapM_of_ok {α β : Type} {f : α → Except StoreError β} {g : α → β} {xs : List α}
    (h : ∀ x ∈ xs, f x = .ok (g x)) : xs.mapM f = .ok (xs.map g) :=
  (mapM_eq_of_mem h).trans List.mapM_pure

namespace Tables

variable {t : Tables} {id : ActionId} {e : EndpointId}

/-- Tables in which whatever is asked for of records and endpoints can be read. -/
structure ReadsAll (t : Tables) : Prop where
  record (id : ActionId) (e : EndpointId) : ∃ found, ActionRows.loadRecord id e t = .ok found t
  records (e : Option EndpointId) (status : Option Status) :
    ∃ rs, ActionRows.listRecords e status t = .ok rs t
  pending (e : EndpointId) : ∃ ps, ActionRows.pending e t = .ok ps t
  endpoint (e : EndpointId) : ∃ x, ActionRows.loadEndpoint e t = .ok x t
  endpoints : ∃ xs, ActionRows.listEndpoints t = .ok xs t

/-- Tables in which a record is what is read by its name, listed wherever it fits and pending if
it is queued. Saving it is of no effect. -/
structure ReadsRecord (t : Tables) (x : Record) : Prop where
  loaded : ActionRows.loadRecord x.actionId x.endpoint t = .ok (some x) t
  listed (e : Option EndpointId) (status : Option Status) :
    ∃ rs, ActionRows.listRecords e status t = .ok rs t ∧
      ∀ y : Record, y.actionId = x.actionId → y.endpoint = x.endpoint →
        (y ∈ rs ↔ y = x ∧ (∀ i ∈ e, i = x.endpoint) ∧ ∀ s ∈ status, s = x.status)
  pending : ∃ ps, ActionRows.pending x.endpoint t = .ok ps t ∧
    ∀ y : Record, y.actionId = x.actionId → y.endpoint = x.endpoint →
      (y ∈ ps.map (·.record) ↔ y = x ∧ x.status = .queued)
  kept : ActionRows.save x t = .ok () t

structure ReadsEndpoint (t : Tables) (x : Endpoint) : Prop where
  loaded : ActionRows.loadEndpoint x.id t = .ok x t
  listed : ∃ xs, ActionRows.listEndpoints t = .ok xs t ∧
    ∀ y : Endpoint, y.id = x.id → (y ∈ xs ↔ y = x)
  kept : ActionRows.saveEndpoint x t = .ok () t

namespace Intact

theorem decode_record (h : t.Intact) {row : RecordRow} (hrow : row ∈ t.records) :
    row.decode = .ok row.reading := by
  obtain ⟨r, hr, rfl⟩ := h.record row hrow
  exact RecordRow.decode_of_inRange hr

theorem decode_endpoint (h : t.Intact) {row : EndpointRow} (hrow : row ∈ t.endpoints) :
    row.decode = .ok row.reading := by
  obtain ⟨x, hx, rfl⟩ := h.endpoint row hrow
  exact EndpointRow.decode_of_inRange hx

theorem loadRecord (h : t.Intact) (id : ActionId) (e : EndpointId) :
    ActionRows.loadRecord id e t =
      .ok ((Rows.find? (id, e) t.records).map RecordRow.reading) t := by
  refine look_iff.mpr ⟨rfl, ?_⟩
  unfold Tables.record
  cases hrow : Rows.find? (id, e) t.records with
  | none => rfl
  | some row =>
    simp only [h.decode_record (Rows.mem_of_find? hrow)]
    rfl

theorem listRecords (h : t.Intact) (e : Option EndpointId) (status : Option Status) :
    ActionRows.listRecords e status t = .ok ((t.records.filter fun r =>
      e.all (· == r.endpoint) && status.all (·.name == r.status)).map RecordRow.reading) t :=
  look_iff.mpr ⟨rfl, mapM_of_ok fun _ hrow => h.decode_record (List.mem_filter.mp hrow).1⟩

theorem loadEndpoint (h : t.Intact) (e : EndpointId) : ActionRows.loadEndpoint e t =
    .ok (((Rows.find? e t.endpoints).map EndpointRow.reading).getD (.fresh e)) t := by
  refine look_iff.mpr ⟨rfl, ?_⟩
  unfold Tables.endpoint
  cases hrow : Rows.find? e t.endpoints with
  | none => rfl
  | some row => exact h.decode_endpoint (Rows.mem_of_find? hrow)

theorem listEndpoints (h : t.Intact) :
    ActionRows.listEndpoints t = .ok (t.endpoints.map EndpointRow.reading) t :=
  look_iff.mpr ⟨rfl, mapM_of_ok fun _ => h.decode_endpoint⟩

theorem decode_joined (h : t.Intact) {j : Joined} (hj : j ∈ t.queuedJoined) :
    j.decode = .ok j.reading := by
  obtain ⟨row, hrow, hj⟩ := List.mem_filterMap.mp hj
  obtain ⟨a, ha, rfl⟩ := Option.map_eq_some_iff.mp hj
  obtain ⟨id, now, n, hn, rfl⟩ := h.action a (Rows.mem_of_find? ha)
  have hdecode := h.decode_record (List.mem_filter.mp hrow).1
  obtain ⟨numbers, hnumbers, hwith⟩ := of_bind_eq_ok hdecode
  simp only [Joined.decode, Joined.reading, hnumbers, hwith, ActionRow.encode, Column.int,
    hn.timeOf, bind, Except.bind]
  rfl

theorem pending (h : t.Intact) (e : EndpointId) : ActionRows.pending e t =
    .ok (((t.backlog e).mergeSort Joined.before).map Joined.reading) t := by
  refine look_iff.mpr ⟨rfl, mapM_of_ok fun j hj => h.decode_joined ?_⟩
  exact (List.mem_filter.mp (List.mem_mergeSort.mp hj)).1

theorem readsAll (h : t.Intact) : t.ReadsAll where
  record id e := ⟨_, h.loadRecord id e⟩
  records e status := ⟨_, h.listRecords e status⟩
  pending e := ⟨_, h.pending e⟩
  endpoint e := ⟨_, h.loadEndpoint e⟩
  endpoints := ⟨_, h.listEndpoints⟩

theorem mem_map_reading (h : t.Intact) {r y : Record} {rows : List RecordRow}
    (hr : Rows.find? (r.actionId, r.endpoint) t.records = some (.encode r))
    (hrows : ∀ row ∈ rows, row ∈ t.records) (hid : y.actionId = r.actionId)
    (hendpoint : y.endpoint = r.endpoint) :
    y ∈ rows.map RecordRow.reading ↔ y = r.kept .rows ∧ RecordRow.encode r ∈ rows := by
  rw [List.mem_map]
  constructor
  · rintro ⟨row, hrow, rfl⟩
    have hkey : Row.key row = (r.actionId, r.endpoint) := Prod.ext hid hendpoint
    have hfind := Rows.find?_of_mem h.records_ascending (hrows row hrow)
    rw [hkey, hr] at hfind
    obtain rfl := Option.some.inj hfind
    exact ⟨RecordRow.reading_encode r, hrow⟩
  · rintro ⟨rfl, hrow⟩
    exact ⟨_, hrow, RecordRow.reading_encode r⟩

def pendingRows (e : EndpointId) (t : Tables) : List RecordRow :=
  ((t.backlog e).mergeSort Joined.before).map (·.record)

theorem mem_pendingRows (h : t.Intact) {row : RecordRow} :
    row ∈ pendingRows e t ↔ row ∈ t.records ∧ row.isQueued = true ∧ row.endpoint = e := by
  simp only [pendingRows, List.mem_map, List.mem_mergeSort, backlog, queuedJoined, List.mem_filter,
    List.mem_filterMap, Option.map_eq_some_iff, beq_iff_eq]
  constructor
  · rintro ⟨j, ⟨⟨row', hrow, a, -, rfl⟩, he⟩, rfl⟩
    exact ⟨hrow.1, hrow.2, he⟩
  · rintro ⟨hrow, hqueued, he⟩
    obtain ⟨a, ha⟩ := Option.isSome_iff_exists.mp (h.record_action row hrow)
    exact ⟨⟨row, a⟩, ⟨⟨row, ⟨hrow, hqueued⟩, a, ha, rfl⟩, he⟩, rfl⟩

theorem readsRecord (h : t.Intact) {r : Record}
    (hr : Rows.find? (r.actionId, r.endpoint) t.records = some (.encode r)) :
    t.ReadsRecord (r.kept .rows) where
  loaded := by
    rw [h.loadRecord]
    change EStateM.Result.ok ((Rows.find? (r.actionId, r.endpoint) t.records).map _) t = _
    rw [hr, Option.map_some, RecordRow.reading_encode]
  listed e status := by
    refine ⟨_, h.listRecords e status, fun y hid hendpoint => ?_⟩
    rw [h.mem_map_reading hr (fun row hrow => (List.mem_filter.mp hrow).1) hid hendpoint,
      List.mem_filter, and_iff_right (Rows.mem_of_find? hr), Bool.and_eq_true,
      Option.all_eq_true, Option.all_eq_true]
    simp only [beq_iff_eq, RecordRow.encode, Status.name_beq, Record.kept, Option.mem_def]
  pending := by
    refine ⟨_, h.pending r.endpoint, fun y hid hendpoint => ?_⟩
    have hrows : (((t.backlog r.endpoint).mergeSort Joined.before).map Joined.reading).map
        (·.record) = (pendingRows r.endpoint t).map RecordRow.reading := by
      rw [pendingRows, List.map_map, List.map_map]
      rfl
    rw [hrows, h.mem_map_reading hr (fun row hrow => (h.mem_pendingRows.mp hrow).1) hid hendpoint,
      h.mem_pendingRows, RecordRow.isQueued_encode, beq_iff_eq]
    exact and_congr_right fun _ => ⟨fun h => h.2.1, fun h => ⟨Rows.mem_of_find? hr, h, rfl⟩⟩
  kept := by
    have hput : Rows.put (.encode r) t.records = t.records := Rows.put_self h.records_ascending hr
    have hfind : Rows.find? ((r.kept .rows).actionId, (r.kept .rows).endpoint) t.records =
        some (.encode r) := hr
    change Tables.save (r.kept .rows) t = _
    unfold Tables.save
    simp only [hfind, RecordRow.encode_kept, hput]

theorem readsEndpoint (h : t.Intact) {x : Endpoint}
    (hx : Rows.find? x.id t.endpoints = some (.encode x)) :
    t.ReadsEndpoint (x.kept .rows) where
  loaded := by
    rw [h.loadEndpoint]
    change EStateM.Result.ok (((Rows.find? x.id t.endpoints).map _).getD _) t = _
    rw [hx, Option.map_some, EndpointRow.reading_encode, Option.getD_some]
  listed := by
    refine ⟨_, h.listEndpoints, fun y hid => ?_⟩
    rw [List.mem_map]
    constructor
    · rintro ⟨row, hrow, rfl⟩
      have hfind := Rows.find?_of_mem h.endpoints_ascending hrow
      have hkey : Row.key row = x.id := hid
      rw [hkey, hx] at hfind
      obtain rfl := Option.some.inj hfind
      exact EndpointRow.reading_encode x
    · rintro rfl
      exact ⟨_, Rows.mem_of_find? hx, EndpointRow.reading_encode x⟩
  kept := by
    have hput : Rows.put (.encode x) t.endpoints = t.endpoints :=
      Rows.put_self h.endpoints_ascending hx
    change EStateM.Result.ok () { t with endpoints := Rows.put _ t.endpoints } = _
    rw [EndpointRow.encode_kept, hput]

end Intact

end Tables

namespace Operation

variable {clock : Nat → Instant} {ops later : List Operation} {d : Draft Tables}
  {P : Tables → Prop}

theorem rows_workAll_cons {op : Operation} : (workAll clock (op :: ops) d).2 =
    (workAll (fun i => clock (i + 1)) ops (Script.left (op.work (clock 0)) d)).2 := by
  unfold Script.left
  rw [workAll]
  cases op.work (clock 0) d <;> rfl

theorem workAll_keeps (hstep : ∀ op ∈ ops, ∀ t t', P t → t.Writes op t' → P t')
    (h : P d.rows) : P (workAll clock ops d).2.rows := by
  induction ops generalizing clock d with
  | nil => exact h
  | cons op ops ih =>
    rw [rows_workAll_cons]
    refine ih (fun op hop => hstep op (List.mem_cons_of_mem _ hop)) ?_
    exact hstep op List.mem_cons_self _ _ h (Tables.writes_work (clock 0) op d)

/-- An operation that went through among others did so on the rows that those before it left, and
those after it went on from there. -/
theorem workAll_middle {before : List Operation} {op : Operation} {found : Found}
    (h : (workAll clock (before ++ op :: later) d).1[before.length]? = some (.ok found)) :
    ∃ wall clock' d', op.work wall (workAll clock before d).2 = .ok found d' ∧
      (workAll clock (before ++ op :: later) d).2 = (workAll clock' later d').2 := by
  -- what comes before may fail: an operation leaves its `left`, done or not
  induction before generalizing clock d with
  | nil =>
    refine ⟨clock 0, fun i => clock (i + 1), ?_⟩
    rw [List.nil_append, workAll] at h ⊢
    cases hw : op.work (clock 0) d with
    | ok a d' =>
      simp only [hw, List.length_nil, List.getElem?_cons_zero, Option.some.injEq,
        Except.ok.injEq] at h ⊢
      exact ⟨d', by rw [← h]; exact hw, rfl⟩
    | error e d' => simp [hw] at h
  | cons b before ih =>
    have hrest : (workAll (fun i => clock (i + 1)) (before ++ op :: later)
        (Script.left (b.work (clock 0)) d)).1[before.length]? = some (.ok found) := by
      unfold Script.left
      rw [List.cons_append, workAll] at h
      cases hw : b.work (clock 0) d with
      | ok a d' => simpa [hw] using h
      | error e d' => simpa [hw] using h
    rw [List.cons_append, rows_workAll_cons, rows_workAll_cons]
    exact ih hrest

end Operation

namespace Store

variable {σ : Type} [ActionRows σ] {P : σ → Prop}

def carryAll : (Nat → Nat → Instant) → List (List Operation × Ending) → Store σ → Store σ
  | _, [], s => s
  | clock, (ops, ending) :: rest, s =>
    carryAll (fun i => clock (i + 1)) rest (s.carryOut (clock 0) ops ending).2

omit [ActionRows σ] in
theorem rows_endDraft (ending : Ending) (d : Draft σ) (s : Store σ) :
    (s.endDraft ending d).2.rows = s.rows ∨ (s.endDraft ending d).2.rows = d.rows := by
  unfold endDraft
  cases ending with
  | drop => exact .inl rfl
  | rollback =>
    left
    simp only
    split <;> rfl
  | commit =>
    simp only
    split
    · exact .inl rfl
    · exact .inr rfl

theorem carryOut_keeps {s : Store σ} {clock : Nat → Instant} {ops : List Operation}
    (hops : ∀ d : Draft σ, P d.rows → P (Operation.workAll clock ops d).2.rows)
    (h : P s.rows) (ending : Ending) : P (s.carryOut clock ops ending).2.rows := by
  unfold carryOut
  cases hbegin : s.beginDraft with
  | mk begun s' =>
    have hrows := rows_beginDraft s
    rw [hbegin] at hrows
    cases begun with
    | error e =>
      change P s'.rows
      rwa [hrows]
    | ok d =>
      obtain ⟨hd, -⟩ := beginDraft_ok hbegin
      rcases rows_endDraft ending (Operation.workAll clock ops d).2 s' with hend | hend
      · simp only [hend]
        rwa [hrows]
      · simp only [hend]
        exact hops d (hd ▸ h)

theorem carryAll_keeps {s : Store σ} (clock : Nat → Nat → Instant)
    {history : List (List Operation × Ending)}
    (hops : ∀ done ∈ history, ∀ clock (d : Draft σ), P d.rows →
      P (Operation.workAll clock done.1 d).2.rows)
    (h : P s.rows) : P (carryAll clock history s).rows := by
  induction history generalizing clock s with
  | nil => exact h
  | cons done history ih =>
    refine ih _ (fun x hx => hops x (List.mem_cons_of_mem _ hx)) ?_
    exact carryOut_keeps (hops done List.mem_cons_self (clock 0)) h done.2

end Store

namespace Tables

variable {clock : Nat → Instant} {ops : List Operation} {d : Draft Tables}

theorem intact_workAll (h : d.rows.Intact) (inRange : ∀ op ∈ ops, op.InRange) :
    (Operation.workAll clock ops d).2.rows.Intact :=
  Operation.workAll_keeps (fun op hop _ _ h hw => h.writes (inRange op hop) hw) h

theorem intact_carryAll {s : Store Tables} (clock : Nat → Nat → Instant)
    {history : List (List Operation × Ending)} (h : s.rows.Intact)
    (past : ∀ done ∈ history, ∀ op ∈ done.1, op.InRange) :
    (Store.carryAll clock history s).rows.Intact :=
  Store.carryAll_keeps clock (fun done hdone _ _ hd => intact_workAll hd (past done hdone)) h

theorem find?_of_save {wall : Instant} {r : Record} {found : Found} {d d' : Draft Tables}
    (h : (Operation.save r).work wall d = .ok found d') :
    Rows.find? (r.actionId, r.endpoint) d'.rows.records = some (.encode r) := by
  obtain ⟨u, mid, hsave, hdone⟩ := Work.yields_bind ⟨d.plan, d'.plan, h⟩
  obtain ⟨-, hmid⟩ := Work.yields_pure hdone
  obtain ⟨hrows, -⟩ := save_ok (Work.yields_attempt hsave)
  rw [hmid, hrows]
  exact Rows.find?_put_self (RecordRow.encode r) d.rows.records

theorem find?_of_saveEndpoint {wall : Instant} {x : Endpoint} {found : Found}
    {d d' : Draft Tables} (h : (Operation.saveEndpoint x).work wall d = .ok found d') :
    Rows.find? x.id d'.rows.endpoints = some (.encode x) := by
  obtain ⟨u, mid, hsave, hdone⟩ := Work.yields_bind ⟨d.plan, d'.plan, h⟩
  obtain ⟨-, hmid⟩ := Work.yields_pure hdone
  have hrows := Work.yields_attempt hsave
  cases hrows
  rw [hmid]
  exact Rows.find?_put_self (EndpointRow.encode x) d.rows.endpoints

/-- A check-in is a put of an endpoint only among rows in order, so both are kept together. -/
theorem find?_endpoints_workAll {x : Endpoint} (h : d.rows.Intact)
    (hx : Rows.find? x.id d.rows.endpoints = some (.encode x))
    (inRange : ∀ op ∈ ops, op.InRange) (alone : ∀ op ∈ ops, ¬op.WritesEndpoint x.id) :
    (Operation.workAll clock ops d).2.rows.Intact ∧
      Rows.find? x.id (Operation.workAll clock ops d).2.rows.endpoints = some (.encode x) :=
  Operation.workAll_keeps
    (P := fun t => t.Intact ∧ Rows.find? x.id t.endpoints = some (.encode x))
    (fun op hop _ _ ⟨h, hx⟩ hw =>
      ⟨h.writes (inRange op hop) hw, hw.find?_endpoints h hx (alone op hop)⟩) ⟨h, hx⟩

theorem find?_records_workAll {r : Record}
    (hr : Rows.find? (r.actionId, r.endpoint) d.rows.records = some (.encode r))
    (alone : ∀ op ∈ ops, ¬op.WritesRecord r.actionId r.endpoint) :
    Rows.find? (r.actionId, r.endpoint) (Operation.workAll clock ops d).2.rows.records =
      some (.encode r) :=
  Operation.workAll_keeps
    (P := fun t => Rows.find? (r.actionId, r.endpoint) t.records = some (.encode r))
    (fun op hop _ _ hr hw => hw.find?_records hr (alone op hop)) hr

section saving

variable {before later : List Operation}

theorem find?_records_of_saved {r : Record}
    (saved : (Operation.workAll clock (before ++ .save r :: later) d).1[before.length]? =
      some (.ok .done))
    (alone : ∀ op ∈ later, ¬op.WritesRecord r.actionId r.endpoint) :
    Rows.find? (r.actionId, r.endpoint)
      (Operation.workAll clock (before ++ .save r :: later) d).2.rows.records =
        some (.encode r) := by
  obtain ⟨wall, clock', d', hsave, hlater⟩ := Operation.workAll_middle saved
  rw [hlater]
  exact find?_records_workAll (find?_of_save hsave) alone

theorem find?_endpoints_of_saved (h : d.rows.Intact) {x : Endpoint}
    (inRange : ∀ op ∈ before ++ .saveEndpoint x :: later, op.InRange)
    (saved : (Operation.workAll clock (before ++ .saveEndpoint x :: later) d).1[before.length]? =
      some (.ok .done))
    (alone : ∀ op ∈ later, ¬op.WritesEndpoint x.id) :
    Rows.find? x.id
      (Operation.workAll clock (before ++ .saveEndpoint x :: later) d).2.rows.endpoints =
        some (.encode x) := by
  obtain ⟨wall, clock', d', hsave, hlater⟩ := Operation.workAll_middle saved
  have hbefore : (Operation.workAll clock before d).2.rows.Intact :=
    intact_workAll h fun op hop => inRange op (List.mem_append_left _ hop)
  have hmiddle : d'.rows.Intact := by
    have hwrites := writes_work wall (.saveEndpoint x) (Operation.workAll clock before d).2
    unfold Script.left at hwrites
    rw [hsave] at hwrites
    exact hbefore.writes (inRange (.saveEndpoint x) (by simp)) hwrites
  have hops (op : Operation) (hop : op ∈ later) : op.InRange :=
    inRange op (List.mem_append_right _ (List.mem_cons_of_mem _ hop))
  rw [hlater]
  exact (find?_endpoints_workAll hmiddle (find?_of_saveEndpoint hsave) hops alone).2

end saving

/-- In a transaction, whatever came before it, a record or an endpoint that was saved is what is
read from then on until it is written again, with each of its times cut down to the millisecond,
and all that is asked for of records and endpoints can be read. Times are in one order before and
after they are stored. -/
theorem saved_read_back {clocks : Nat → Nat → Instant} {plan : FaultPlan}
    {history : List (List Operation × Ending)} {s : Store Tables}
    (past : ∀ done ∈ history, ∀ op ∈ done.1, op.InRange)
    (begun : (Store.carryAll clocks history { Store.empty with plan }).beginDraft = (.ok d, s))
    (clock : Nat → Instant) (inRange : ∀ op ∈ ops, op.InRange) :
    let run := Operation.workAll clock ops d
    run.2.rows.ReadsAll ∧
      (∀ before r later, ops = before ++ .save r :: later →
        run.1[before.length]? = some (.ok .done) → (∀ t ∈ r.completedAt, t.IsOrdinary) →
        (∀ op ∈ later, ¬op.WritesRecord r.actionId r.endpoint) →
        ∃ x, Record.Twin IsFloor r x ∧ run.2.rows.ReadsRecord x) ∧
      (∀ before x later, ops = before ++ .saveEndpoint x :: later →
        run.1[before.length]? = some (.ok .done) → (∀ t ∈ x.lastCheckin, t.IsOrdinary) →
        (∀ op ∈ later, ¬op.WritesEndpoint x.id) →
        ∃ y, Endpoint.Twin IsFloor x y ∧ run.2.rows.ReadsEndpoint y) ∧
      ∀ s t : Instant, s.IsOrdinary → t.IsOrdinary →
        (s ≤ t → s.toMillis ≤ t.toMillis) ∧ ∃ u, timeOf s.toMillis = .ok u ∧ IsFloor s u ∧
          (s.toMillis ≤ t.toMillis ↔ u ≤ t) := by
  intro run
  have hd : d.rows.Intact := by
    rw [(Store.beginDraft_ok begun).1]
    exact intact_carryAll clocks intact_empty past
  refine ⟨(intact_workAll hd inRange).readsAll, ?_, ?_, fun s t hs ht => ?_⟩
  · rintro before r later rfl saved ordinary alone
    exact ⟨_, Record.twin_kept ordinary,
      (intact_workAll hd inRange).readsRecord (find?_records_of_saved saved alone)⟩
  · rintro before x later rfl saved ordinary alone
    exact ⟨_, Endpoint.twin_kept ordinary,
      (intact_workAll hd inRange).readsEndpoint (find?_endpoints_of_saved hd inRange saved alone)⟩
  · exact ⟨Instant.toMillis_le_of_le hs.notLeap, _, hs.dated.timeOf, hs.isFloor_cut,
      (Instant.cut_le_iff ht.notLeap).symm⟩

def lastMoment : Record :=
  ⟨1, "web-1", .failed, Width.most32, some (-1), some "naïve", some ⟨-1, 999999999⟩⟩

def lastGuest : Endpoint :=
  ⟨"web-2", true, some ⟨8210266876799, 999999999⟩⟩

/-- Two transactions: an action that is repeated for an endpoint, which fails on its way, and a
save that is rolled back. -/
def bygones : List (List Operation × Ending) :=
  [([.insert ⟨"a", ⟨-8334601228800, 0⟩, none, ⟨"test.ping", [], []⟩, ["web-1", "web-1"], 3⟩],
      .commit), ([.saveEndpoint lastGuest], .rollback)]

def farTimes : List Operation :=
  [.save lastMoment, .saveEndpoint lastGuest, .checkIn "web-1" ⟨0, 0⟩]

theorem saved_farTimes :
    let s : Store Tables :=
      Store.carryAll (fun _ _ => ⟨0, 0⟩) bygones { Store.empty with plan := [] }
    let t := (Operation.workAll (fun _ => ⟨0, 0⟩) farTimes ⟨s.rows, []⟩).2.rows
    t.ReadsAll ∧ (∃ x, Record.Twin IsFloor lastMoment x ∧ t.ReadsRecord x) ∧
      ∃ y, Endpoint.Twin IsFloor lastGuest y ∧ t.ReadsEndpoint y := by
  intro s t
  have hguest : lastGuest.InRange := fun t ht => Option.some.inj ht ▸ by decide
  have past : ∀ done ∈ bygones, ∀ op ∈ done.1, op.InRange := by
    simp only [bygones, List.forall_mem_cons, List.not_mem_nil, false_imp_iff, implies_true,
      and_true]
    exact ⟨⟨by decide, by decide⟩, hguest⟩
  have inRange : ∀ op ∈ farTimes, op.InRange := by
    simp only [farTimes, List.forall_mem_cons, List.not_mem_nil, false_imp_iff, implies_true,
      and_true]
    exact ⟨⟨by decide, fun t ht => Option.some.inj ht ▸ by decide⟩, hguest,
      (by decide : Instant.IsDated ⟨0, 0⟩)⟩
  have begun : s.beginDraft = (.ok ⟨s.rows, []⟩, s) := rfl
  obtain ⟨hall, hrecord, hendpoint, -⟩ :=
    saved_read_back past begun (fun _ => ⟨0, 0⟩) inRange
  refine ⟨hall, hrecord [] lastMoment _ rfl rfl ?_ ?_, hendpoint [_] lastGuest _ rfl rfl ?_ ?_⟩
  · exact fun t ht => Option.some.inj ht ▸ ⟨by decide, by decide⟩
  · simp [Operation.WritesRecord]
  · exact fun t ht => Option.some.inj ht ▸ ⟨by decide, by decide⟩
  · simp [Operation.WritesEndpoint, lastGuest]

/-- What a committed transaction saved is what a later one reads, after any others that wrote
neither, whether these were committed or not. -/
theorem saved_stays {clocks clocks' : Nat → Nat → Instant} {plan : FaultPlan}
    {history future : List (List Operation × Ending)} {s s' s'' : Store Tables}
    {d' : Draft Tables} (past : ∀ done ∈ history, ∀ op ∈ done.1, op.InRange)
    (begun : (Store.carryAll clocks history { Store.empty with plan }).beginDraft = (.ok d, s))
    (inRange : ∀ op ∈ ops, op.InRange)
    (committed : s.endDraft .commit (Operation.workAll clock ops d).2 = (.ok (), s'))
    (coming : ∀ done ∈ future, ∀ op ∈ done.1, op.InRange)
    (begun' : (Store.carryAll clocks' future s').beginDraft = (.ok d', s'')) :
    d'.rows.ReadsAll ∧
      (∀ before r later, ops = before ++ .save r :: later →
        (Operation.workAll clock ops d).1[before.length]? = some (.ok .done) →
        (∀ t ∈ r.completedAt, t.IsOrdinary) →
        (∀ op ∈ later ++ future.flatMap Prod.fst, ¬op.WritesRecord r.actionId r.endpoint) →
        ∃ x, Record.Twin IsFloor r x ∧ d'.rows.ReadsRecord x) ∧
      ∀ before x later, ops = before ++ .saveEndpoint x :: later →
        (Operation.workAll clock ops d).1[before.length]? = some (.ok .done) →
        (∀ t ∈ x.lastCheckin, t.IsOrdinary) →
        (∀ op ∈ later ++ future.flatMap Prod.fst, ¬op.WritesEndpoint x.id) →
        ∃ y, Endpoint.Twin IsFloor x y ∧ d'.rows.ReadsEndpoint y := by
  have hd : d.rows.Intact := by
    rw [(Store.beginDraft_ok begun).1]
    exact intact_carryAll clocks intact_empty past
  have hleft : s'.rows = (Operation.workAll clock ops d).2.rows := Store.rows_endDraft_ok committed
  have hintact : s'.rows.Intact := hleft ▸ intact_workAll hd inRange
  have hseen : d'.rows = (Store.carryAll clocks' future s').rows := (Store.beginDraft_ok begun').1
  have hd' : d'.rows.Intact := hseen ▸ intact_carryAll clocks' hintact coming
  have apart {W : Operation → Prop} {later : List Operation}
      (alone : ∀ op ∈ later ++ future.flatMap Prod.fst, ¬W op) :
      (∀ op ∈ later, ¬W op) ∧ ∀ done ∈ future, ∀ op ∈ done.1, ¬W op :=
    ⟨fun op hop => alone op (List.mem_append_left _ hop), fun done hdone op hop =>
      alone op (List.mem_append_right _ (List.mem_flatMap.mpr ⟨done, hdone, hop⟩))⟩
  refine ⟨hd'.readsAll, ?_, ?_⟩
  · rintro before r later rfl saved ordinary alone
    obtain ⟨here, after⟩ := apart alone
    refine ⟨_, Record.twin_kept ordinary, hd'.readsRecord ?_⟩
    rw [hseen]
    refine Store.carryAll_keeps
      (P := fun t : Tables => Rows.find? (r.actionId, r.endpoint) t.records = some (.encode r))
      clocks' (fun done hdone _ _ hr => find?_records_workAll hr (after done hdone)) ?_
    rw [hleft]
    exact find?_records_of_saved saved here
  · rintro before x later rfl saved ordinary alone
    obtain ⟨here, after⟩ := apart alone
    refine ⟨_, Endpoint.twin_kept ordinary, hd'.readsEndpoint ?_⟩
    rw [hseen]
    refine (Store.carryAll_keeps
      (P := fun t : Tables => t.Intact ∧ Rows.find? x.id t.endpoints = some (.encode x)) clocks'
      (fun done hdone _ _ ⟨h, hx⟩ =>
        find?_endpoints_workAll h hx (coming done hdone) (after done hdone)) ⟨hintact, ?_⟩).2
    rw [hleft]
    exact find?_endpoints_of_saved hd inRange saved here

end Tables

end FleetDispatch
