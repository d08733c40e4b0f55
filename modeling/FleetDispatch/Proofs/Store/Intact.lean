import FleetDispatch.Proofs.Dispatch.History
import FleetDispatch.Proofs.Store.Transcript

namespace FleetDispatch

structure Record.InRange (r : Record) : Prop where
  tries : r.remainingTries ≤ Width.most32
  dated : ∀ t ∈ r.completedAt, t.IsDated

def Endpoint.InRange (x : Endpoint) : Prop :=
  ∀ t ∈ x.lastCheckin, t.IsDated

structure NewAction.InRange (n : NewAction) : Prop where
  retries : n.retries ≤ Width.most32
  dated : n.scheduledAt.IsDated

def Operation.InRange : Operation → Prop
  | save r => r.InRange
  | saveEndpoint x => x.InRange
  | checkIn _ time => time.IsDated
  | insert n => n.InRange
  | _ => True

/-- Whether an operation writes the record of an action on an endpoint that there is already. -/
def Operation.WritesRecord (id : ActionId) (e : EndpointId) : Operation → Prop
  | save r => r.actionId = id ∧ r.endpoint = e
  | _ => False

def Operation.WritesEndpoint (e : EndpointId) : Operation → Prop
  | saveEndpoint x => x.id = e
  | checkIn e' _ => e' = e
  | _ => False

theorem Record.inRange_fresh {id : ActionId} {e : EndpointId} {tries : Nat}
    (h : tries ≤ Width.most32) : (fresh id e tries).InRange :=
  ⟨h, fun _ ht => nomatch ht⟩

theorem Endpoint.inRange_fresh (e : EndpointId) : (fresh e).InRange :=
  fun _ ht => nomatch ht

theorem Endpoint.inRange_checkIn {x : Endpoint} {time : Instant} (h : time.IsDated) :
    (x.checkIn time).InRange := by
  intro t ht
  obtain rfl := Option.some.inj ht
  exact h

def Script.left {σ α : Type} (script : Script σ α) (rows : σ) : σ :=
  match script rows with
  | .ok _ rows => rows
  | .error _ rows => rows

namespace Rows

variable {α κ : Type} [Row α κ] [DecidableEq κ]

theorem find?_put_self (row : α) (rows : List α) :
    find? (Row.key row) (put row rows) = some row := by
  rw [find?_put, if_pos rfl]

theorem put_self [OrderedRow α κ] {row : α} {rows : List α} (h : Ascending rows)
    (hrow : find? (Row.key row) rows = some row) : put row rows = rows := by
  induction rows with
  | nil => cases hrow
  | cons r rows ih =>
    rw [find?_cons] at hrow
    split at hrow
    · next hkey => rw [put, if_pos hkey, Option.some.inj hrow]
    · next hkey =>
      have hrows := (List.pairwise_cons.mp h).2
      rw [put, if_neg hkey, if_neg (not_before_of_find? h hrow), ih hrows hrow]

end Rows

namespace Tables

variable {t t' : Tables} {id : ActionId} {e : EndpointId} {op : Operation}

/-- Tables whose rows can all be read back, with an action for each record. -/
structure Intact (t : Tables) : Prop where
  records_ascending : Rows.Ascending t.records
  endpoints_ascending : Rows.Ascending t.endpoints
  record : ∀ row ∈ t.records, ∃ r : Record, r.InRange ∧ row = .encode r
  endpoint : ∀ row ∈ t.endpoints, ∃ x : Endpoint, x.InRange ∧ row = .encode x
  action : ∀ row ∈ t.actions, ∃ id now n, n.scheduledAt.IsDated ∧ row = ActionRow.encode id now n
  record_action : ∀ row ∈ t.records, (Rows.find? row.actionId t.actions).isSome

def withAction (wall : Instant) (n : NewAction) (t : Tables) : Tables :=
  { t with
    lastId := t.lastId + 1
    actions := Rows.put (ActionRow.encode (t.lastId + 1) wall n) t.actions }

/-- What an operation can make of tables. One that fails leaves them as they are, or with some of
the records that it was to insert. -/
inductive Writes (t : Tables) : Operation → Tables → Prop
  | nothing {op : Operation} : Writes t op t
  | save {r : Record} (found : (Rows.find? (r.actionId, r.endpoint) t.records).isSome) :
    Writes t (.save r) { t with records := Rows.put (.encode r) t.records }
  | saveEndpoint {x : Endpoint} :
    Writes t (.saveEndpoint x) { t with endpoints := Rows.put (.encode x) t.endpoints }
  | checkIn {e : EndpointId} {time : Instant} : Writes t (.checkIn e time) (t.recordCheckin e time)
  | insert {n : NewAction} (wall : Instant) : Writes t (.insert n)
    ((enlist (t.lastId + 1) n.retries n.endpoints).left (t.withAction wall n))

theorem left_look {α : Type} (f : Tables → Except StoreError α) (t : Tables) :
    (look f).left t = t := by
  unfold Script.left look
  cases f t <;> rfl

theorem left_insertAction (wall : Instant) (n : NewAction) (t : Tables) :
    (insertAction wall n).left t = t ∨ (insertAction wall n).left t =
      (enlist (t.lastId + 1) n.retries n.endpoints).left (t.withAction wall n) := by
  unfold Script.left insertAction
  cases n.prerequisite.filter fun p => (Rows.find? p t.actions).isNone with
  | some p => exact .inl rfl
  | none =>
    right
    simp only [withAction]
    cases enlist (t.lastId + 1) n.retries n.endpoints _ with
    | error err t' => rfl
    | ok u t' =>
      simp only [look]
      cases created (t.lastId + 1) wall n <;> rfl

theorem rows_left_attempt {α : Type} (kind : StoreOperation) (script : Script Tables α)
    (f : α → Found) (d : Draft Tables) :
    let work : Work Tables Found := do return f (← Work.attempt kind script)
    (Script.left work d).rows = d.rows ∨ (Script.left work d).rows = script.left d.rows := by
  change (Script.left (EStateM.bind _ _) d).rows = _ ∨ (Script.left (EStateM.bind _ _) d).rows = _
  unfold Script.left EStateM.bind Work.attempt
  cases d.plan.count kind with
  | mk strikes plan =>
    cases strikes with
    | true => exact .inl rfl
    | false =>
      right
      simp only
      cases script d.rows <;> rfl

theorem left_save (r : Record) (t : Tables) : (save r).left t = t ∨
    (Rows.find? (r.actionId, r.endpoint) t.records).isSome ∧
      (save r).left t = { t with records := Rows.put (.encode r) t.records } := by
  unfold Script.left save
  cases Rows.find? (r.actionId, r.endpoint) t.records with
  | none => exact .inl rfl
  | some row => exact .inr ⟨rfl, rfl⟩

theorem Writes.of_eq {t₁ : Tables} (h : Writes t op t₁) (heq : t' = t₁) : Writes t op t' :=
  heq ▸ h

theorem writes_work (wall : Instant) (op : Operation) (d : Draft Tables) :
    Writes d.rows op (Script.left (op.work wall) d).rows := by
  have hread {α : Type} (kind : StoreOperation) (read : Tables → Except StoreError α)
      (f : α → Found) (op : Operation) :
      let work : Work Tables Found := do return f (← Work.attempt kind (look read))
      Writes d.rows op (Script.left work d).rows := by
    rcases rows_left_attempt kind (look read) f d with h | h
    · exact Writes.nothing.of_eq h
    · exact Writes.nothing.of_eq (h.trans (left_look read d.rows))
  -- the reads are one case; `insert` may stop halfway, and the rows put in by then stay
  cases op with
  | save r =>
    rcases rows_left_attempt .save (save r) (fun _ => .done) d with h | h
    · exact Writes.nothing.of_eq h
    · rcases left_save r d.rows with hleft | ⟨found, hleft⟩
      · exact Writes.nothing.of_eq (h.trans hleft)
      · exact (Writes.save found).of_eq (h.trans hleft)
  | saveEndpoint x =>
    rcases rows_left_attempt .saveEndpoint (ActionRows.saveEndpoint x) (fun _ => .done) d with h | h
    · exact Writes.nothing.of_eq h
    · exact Writes.saveEndpoint.of_eq h
  | checkIn e time =>
    rcases rows_left_attempt .recordCheckin (ActionRows.recordCheckin e time) (fun _ => .done) d
      with h | h
    · exact Writes.nothing.of_eq h
    · exact Writes.checkIn.of_eq h
  | insert n =>
    rcases rows_left_attempt .insertAction (insertAction wall n) .action d with h | h
    · exact Writes.nothing.of_eq h
    · rcases left_insertAction wall n d.rows with hleft | hleft
      · exact Writes.nothing.of_eq (h.trans hleft)
      · exact (Writes.insert wall).of_eq (h.trans hleft)
  | pending e => exact hread .pending (pending e) .pending _
  | action id => exact hread .loadAction (action id) .action _
  | record id e => exact hread .loadRecord (record id e) .record _
  | endpoint e => exact hread .loadEndpoint (endpoint e) .endpoint _
  | due now => exact hread .dueEndpoints (fun t => .ok (t.dueEndpoints now)) .due _
  | endpoints => exact hread .listEndpoints (fun t => t.endpoints.mapM _) .endpoints _
  | records e status => exact hread .listRecords (listRecords e status) .records _

/-- What holds when an endpoint is put in, and when a record is put in that was not there, holds
of what is left when records are inserted, all of them or those up to the first that was there. -/
theorem left_enlist {P : Tables → Prop} {i : ActionId} {tries : Nat}
    (hensure : ∀ t e, P t → P (t.ensureEndpoint e))
    (hput : ∀ t e, P t → Rows.find? (i, e) t.records = none →
      P { t with records := Rows.put (.encode (.fresh i e tries)) t.records })
    (es : List EndpointId) (h : P t) : P ((enlist i tries es).left t) := by
  induction es generalizing t with
  | nil => exact h
  | cons e es ih =>
    have hendpoint := hensure t e h
    unfold Script.left enlist
    simp only
    cases hfind : Rows.find? (i, e) (t.ensureEndpoint e).records with
    | some row => exact hendpoint
    | none => exact ih (hput _ e hendpoint hfind)

theorem intact_empty : Intact empty :=
  ⟨.nil, .nil, by simp [empty], by simp [empty], by simp [empty], by simp [empty]⟩

namespace Intact

theorem putRecord (h : t.Intact) {r : Record} (hr : r.InRange)
    (there : (Rows.find? r.actionId t.actions).isSome) :
    Intact { t with records := Rows.put (.encode r) t.records } where
  records_ascending := Rows.ascending_put _ h.records_ascending
  endpoints_ascending := h.endpoints_ascending
  record row hrow := by
    rcases Rows.mem_put hrow with rfl | hrow
    · exact ⟨r, hr, rfl⟩
    · exact h.record row hrow
  endpoint := h.endpoint
  action := h.action
  record_action row hrow := by
    rcases Rows.mem_put hrow with rfl | hrow
    · exact there
    · exact h.record_action row hrow

theorem putEndpoint (h : t.Intact) {x : Endpoint} (hx : x.InRange) :
    Intact { t with endpoints := Rows.put (.encode x) t.endpoints } where
  records_ascending := h.records_ascending
  endpoints_ascending := Rows.ascending_put _ h.endpoints_ascending
  record := h.record
  endpoint row hrow := by
    rcases Rows.mem_put hrow with rfl | hrow
    · exact ⟨x, hx, rfl⟩
    · exact h.endpoint row hrow
  action := h.action
  record_action := h.record_action

theorem ensureEndpoint (h : t.Intact) (e : EndpointId) : (t.ensureEndpoint e).Intact := by
  unfold Tables.ensureEndpoint Rows.ensure
  split
  · exact h
  · exact h.putEndpoint (Endpoint.inRange_fresh e)

theorem withAction (h : t.Intact) (wall : Instant) {n : NewAction} (hn : n.InRange) :
    (t.withAction wall n).Intact where
  records_ascending := h.records_ascending
  endpoints_ascending := h.endpoints_ascending
  record := h.record
  endpoint := h.endpoint
  action row hrow := by
    rcases Rows.mem_put hrow with rfl | hrow
    · exact ⟨_, wall, n, hn.dated, rfl⟩
    · exact h.action row hrow
  record_action row hrow := by
    have hthere := h.record_action row hrow
    unfold Tables.withAction
    rw [Rows.find?_put]
    split
    · rfl
    · exact hthere

theorem left_enlist (h : t.Intact) {i : ActionId} {tries : Nat} (htries : tries ≤ Width.most32)
    (there : (Rows.find? i t.actions).isSome) (es : List EndpointId) :
    ((enlist i tries es).left t).Intact := by
  refine (Tables.left_enlist (P := fun t => t.Intact ∧ (Rows.find? i t.actions).isSome)
    ?_ ?_ es ⟨h, there⟩).1
  · exact fun t e ⟨h, there⟩ => ⟨h.ensureEndpoint e, there⟩
  · exact fun t e ⟨h, there⟩ _ => ⟨h.putRecord (Record.inRange_fresh htries) there, there⟩

theorem recordCheckin_eq (h : t.Intact) (e : EndpointId) (time : Instant) :
    ∃ x : Endpoint, x.id = e ∧ t.recordCheckin e time =
      { t with endpoints := Rows.put (.encode (x.checkIn time)) t.endpoints } := by
  obtain ⟨x, hid, hx⟩ : ∃ x : Endpoint, x.id = e ∧
      (Rows.find? e t.endpoints).getD (.fresh e) = .encode x := by
    cases hfind : Rows.find? e t.endpoints with
    | none => exact ⟨.fresh e, rfl, rfl⟩
    | some row =>
      obtain ⟨x, -, rfl⟩ := h.endpoint row (Rows.mem_of_find? hfind)
      exact ⟨x, Rows.key_of_find? hfind, rfl⟩
  exact ⟨x, hid, recordCheckin_eq_put h.endpoints_ascending hx time⟩

theorem writes (h : t.Intact) (hop : op.InRange) (hw : t.Writes op t') : t'.Intact := by
  cases hw with
  | nothing => exact h
  | @save r found =>
    obtain ⟨row, hrow⟩ := Option.isSome_iff_exists.mp found
    have hthere := h.record_action row (Rows.mem_of_find? hrow)
    have hid : row.actionId = r.actionId := congrArg Prod.fst (Rows.key_of_find? hrow)
    exact h.putRecord hop (hid ▸ hthere)
  | saveEndpoint => exact h.putEndpoint hop
  | @checkIn e time =>
    obtain ⟨x, -, hput⟩ := h.recordCheckin_eq e time
    rw [hput]
    exact h.putEndpoint (Endpoint.inRange_checkIn hop)
  | @insert n wall =>
    refine (h.withAction wall hop).left_enlist hop.retries ?_ n.endpoints
    have hnew := Rows.find?_put_self (ActionRow.encode (t.lastId + 1) wall n) t.actions
    exact Option.isSome_iff_exists.mpr ⟨_, hnew⟩

end Intact

theorem Writes.find?_records {row : RecordRow} (hw : t.Writes op t')
    (hrow : Rows.find? (id, e) t.records = some row) (hop : ¬op.WritesRecord id e) :
    Rows.find? (id, e) t'.records = some row := by
  cases hw with
  | nothing | saveEndpoint | checkIn => exact hrow
  | @save r found =>
    have hne : Row.key (RecordRow.encode r) ≠ (id, e) := fun hkey =>
      hop ⟨congrArg Prod.fst hkey, congrArg Prod.snd hkey⟩
    rw [Rows.find?_put, if_neg hne, hrow]
  | insert wall =>
    refine left_enlist (P := fun t => Rows.find? (id, e) t.records = some row) ?_ ?_ _ hrow
    · exact fun t _ h => h
    · intro t x h hnone
      -- a record is put in only where there is none, so it is another one than that of the row
      rw [Rows.find?_put]
      split
      · next hkey =>
        rw [← hkey] at h
        cases hnone.symm.trans h
      · exact h

theorem Writes.find?_endpoints {row : EndpointRow} (h : t.Intact) (hw : t.Writes op t')
    (hrow : Rows.find? e t.endpoints = some row) (hop : ¬op.WritesEndpoint e) :
    Rows.find? e t'.endpoints = some row := by
  have hensure (t : Tables) (x : EndpointId) (h : Rows.find? e t.endpoints = some row) :
      Rows.find? e (t.ensureEndpoint x).endpoints = some row := by
    unfold ensureEndpoint
    rw [Rows.find?_ensure, h]
    rfl
  cases hw with
  | nothing | save => exact hrow
  | @saveEndpoint x =>
    have hne : Row.key (EndpointRow.encode x) ≠ e := hop
    rw [Rows.find?_put, if_neg hne, hrow]
  | @checkIn x time =>
    obtain ⟨y, hy, hput⟩ := h.recordCheckin_eq x time
    have hne : Row.key (EndpointRow.encode (y.checkIn time)) ≠ e := fun hkey => hop (hy ▸ hkey)
    rw [hput, Rows.find?_put, if_neg hne, hrow]
  | insert wall =>
    refine left_enlist (P := fun t => Rows.find? e t.endpoints = some row) hensure ?_ _ hrow
    exact fun t _ h _ => h

end Tables

end FleetDispatch
