import FleetDispatch.Proofs.Dispatch.Lockstep

namespace FleetDispatch

open List (Forall₂)

inductive Operation where
  | pending (endpoint : EndpointId)
  | action (id : ActionId)
  | record (id : ActionId) (endpoint : EndpointId)
  | save (record : Record)
  | endpoint (id : EndpointId)
  | saveEndpoint (endpoint : Endpoint)
  | checkIn (endpoint : EndpointId) (time : Instant)
  | insert (action : NewAction)
  | due (now : Instant)
  | endpoints
  | records (endpoint : Option EndpointId) (status : Option Status)

inductive Found where
  | done
  | pending (ps : List PendingRecord)
  | action (a : Action)
  | record (r : Option Record)
  | endpoint (e : Endpoint)
  | due (names : List EndpointId)
  | endpoints (es : List Endpoint)
  | records (rs : List Record)

inductive Request where
  | transaction (ops : List Operation) (ending : Ending)
  | create (action : NewAction)
  | due (now : Instant)
  | endpoints
  | records (endpoint : Option EndpointId) (status : Option Status)
  | cycle (endpoint : EndpointId) (now : Instant)

/-- What a request comes to. Of a transaction it is told what each operation gave, and how it
ended. -/
inductive Reply where
  | transaction
    (begun : Except StoreError (List (Except StoreError Found) × Except StoreError Unit))
  | created (action : Except StoreError Action)
  | due (names : Except StoreError (List EndpointId))
  | endpoints (es : Except StoreError (List Endpoint))
  | records (rs : Except StoreError (List Record))
  | cycle (report : Except StoreError Report)

section running

variable {σ χ : Type} [ActionRows σ]

def Operation.work (wall : Instant) : Operation → Work σ Found
  | pending e => return .pending (← Work.attempt .pending (ActionRows.pending e))
  | action id => return .action (← Work.attempt .loadAction (ActionRows.loadAction id))
  | record id e => return .record (← Work.attempt .loadRecord (ActionRows.loadRecord id e))
  | save r => do
    Work.attempt .save (ActionRows.save r)
    return .done
  | endpoint e => return .endpoint (← Work.attempt .loadEndpoint (ActionRows.loadEndpoint e))
  | saveEndpoint e => do
    Work.attempt .saveEndpoint (ActionRows.saveEndpoint e)
    return .done
  | checkIn e time => do
    Work.attempt .recordCheckin (ActionRows.recordCheckin e time)
    return .done
  | insert a => return .action (← Work.attempt .insertAction (ActionRows.insertAction wall a))
  | due now => return .due (← Work.attempt .dueEndpoints (ActionRows.dueEndpoints now))
  | endpoints => return .endpoints (← Work.attempt .listEndpoints ActionRows.listEndpoints)
  | records e status =>
    return .records (← Work.attempt .listRecords (ActionRows.listRecords e status))

/-- Makes operations one after another, also after one that fails. -/
def Operation.workAll : (Nat → Instant) → List Operation → Draft σ →
    List (Except StoreError Found) × Draft σ
  | _, [], d => ([], d)
  | clock, op :: ops, d =>
    let (found, d) := match op.work (clock 0) d with
      | .ok a d => (.ok a, d)
      | .error e d => (.error e, d)
    let (rest, d) := workAll (fun i => clock (i + 1)) ops d
    (found :: rest, d)

def Store.carryOut (clock : Nat → Instant) (ops : List Operation) (ending : Ending) (s : Store σ) :
    Except StoreError (List (Except StoreError Found) × Except StoreError Unit) × Store σ :=
  match s.beginDraft with
  | (.error e, s) => (.error e, s)
  | (.ok d, s) =>
    let (found, d) := Operation.workAll clock ops d
    let (ended, s) := s.endDraft ending d
    (.ok (found, ended), s)

structure Site (σ χ : Type) where
  store : Store σ
  memory : χ

def Site.opened (plan : FaultPlan) (memory : χ) : Site σ χ :=
  ⟨{ Store.empty with plan }, memory⟩

variable (policy : Policy) (channel : Cycle.Channel χ)

def Site.meet (clock : Nat → Instant) (s : Site σ χ) : Request → Reply × Site σ χ
  | .transaction ops ending =>
    let (begun, store) := s.store.carryOut clock ops ending
    (.transaction begun, { s with store })
  | .create a =>
    let (action, store) := s.store.createAction (clock 0) a
    (.created action, { s with store })
  | .due now =>
    let (names, store) := s.store.dueEndpoints now
    (.due names, { s with store })
  | .endpoints =>
    let (es, store) := s.store.endpoints
    (.endpoints es, { s with store })
  | .records e status =>
    let (rs, store) := s.store.records e status
    (.records rs, { s with store })
  | .cycle e now =>
    let (report, store, memory) := Cycle.runAt policy channel clock e now s.store s.memory
    (.cycle report, ⟨store, memory⟩)

/-- Meets requests in turn. The clock shows other readings during each. -/
def Site.meetAll : (Nat → Nat → Instant) → Site σ χ → List Request → List Reply × Site σ χ
  | _, s, [] => ([], s)
  | clock, s, request :: requests =>
    let (reply, s) := s.meet policy channel (clock 0) request
    let (replies, s) := meetAll (fun i => clock (i + 1)) s requests
    (reply :: replies, s)

end running

section twins

variable (L : Instant → Instant → Prop)

/-- Findings that differ at most in some instants. -/
inductive Found.Twin : Found → Found → Prop where
  | done : Twin .done .done
  | pending {ps qs} (h : Forall₂ (PendingRecord.Twin L) ps qs) : Twin (.pending ps) (.pending qs)
  | action {a b} (h : Action.Twin L a b) : Twin (.action a) (.action b)
  | record {r s} (h : Option.Rel (Record.Twin L) r s) : Twin (.record r) (.record s)
  | endpoint {e f} (h : Endpoint.Twin L e f) : Twin (.endpoint e) (.endpoint f)
  | due (names) : Twin (.due names) (.due names)
  | endpoints {es fs} (h : Forall₂ (Endpoint.Twin L) es fs) : Twin (.endpoints es) (.endpoints fs)
  | records {rs ss} (h : Forall₂ (Record.Twin L) rs ss) : Twin (.records rs) (.records ss)

def Found.TwinAll (x y : List (Except StoreError Found) × Except StoreError Unit) : Prop :=
  Forall₂ (Agree (Found.Twin L)) x.1 y.1 ∧ y.2 = x.2

inductive Reply.Twin : Reply → Reply → Prop where
  | transaction {x y} (h : Agree (Found.TwinAll L) x y) : Twin (.transaction x) (.transaction y)
  | created {x y} (h : Agree (Action.Twin L) x y) : Twin (.created x) (.created y)
  | due {x y} (h : y = x) : Twin (.due x) (.due y)
  | endpoints {x y} (h : Agree (Forall₂ (Endpoint.Twin L)) x y) : Twin (.endpoints x) (.endpoints y)
  | records {x y} (h : Agree (Forall₂ (Record.Twin L)) x y) : Twin (.records x) (.records y)
  | cycle {x y} (h : y = x) : Twin (.cycle x) (.cycle y)

end twins

/-- An operation whose instants are whole milliseconds, and with which only such actions are
inserted as read back from their rows. -/
def Operation.Fits : Operation → Prop
  | save r => r.remainingTries ≤ Width.most32 ∧ ∀ t ∈ r.completedAt, t.IsWhole
  | saveEndpoint e => ∀ t ∈ e.lastCheckin, t.IsWhole
  | checkIn _ time => time.IsWhole
  | insert a => a.Fits
  | due now => now.IsWhole
  | _ => True

def Request.Fits : Request → Prop
  | transaction ops _ => ∀ op ∈ ops, op.Fits
  | create a => a.Fits
  | due now => now.IsWhole
  | cycle _ now => now.IsWhole
  | _ => True

variable {L : Instant → Instant → Prop}

theorem rel_given {t : Option Instant} (hgiven : ∀ t : Instant, t.IsWhole → L t t)
    (h : ∀ u ∈ t, u.IsWhole) : Option.Rel L t t := by
  cases t with
  | none => exact .none
  | some u => exact .some (hgiven u (h u rfl))

open Tables (Mirrors)

theorem Operation.parallel_work (hL : Lasting L) (hgiven : ∀ t : Instant, t.IsWhole → L t t)
    {wall wall' : Instant} (hwall : L wall wall') {op : Operation} (hop : op.Fits) :
    Parallel (Draft.Related (Mirrors L)) (Found.Twin L) (op.work wall) (op.work wall') := by
  cases op with
  | pending e =>
    exact .bind (.attempt _ (Tables.parallel_pending hL e)) fun _ _ h => .pure (.pending h)
  | action id =>
    exact .bind (.attempt _ (Tables.parallel_loadAction hL id)) fun _ _ h => .pure (.action h)
  | record id e =>
    refine .bind (.attempt _ (Tables.parallel_loadRecord hL id e)) fun x y h => .pure (.record ?_)
    cases h with
    | none => exact .none
    | some h => exact .some h.1
  | save r =>
    have hkept : Record.Kept L r r := ⟨⟨r.completedAt, rel_given hgiven hop.2, rfl⟩, hop.1⟩
    exact .bind (.attempt _ (Tables.parallel_save hkept)) fun _ _ _ => .pure .done
  | endpoint e =>
    exact .bind (.attempt _ (Tables.parallel_loadEndpoint hL e)) fun _ _ h => .pure (.endpoint h)
  | saveEndpoint e =>
    have htwin : Endpoint.Twin L e e := ⟨e.lastCheckin, rel_given hgiven hop, rfl⟩
    exact .bind (.attempt _ (Tables.parallel_saveEndpoint htwin)) fun _ _ _ => .pure .done
  | checkIn e time =>
    exact .bind (.attempt _ (Tables.parallel_recordCheckin e (hgiven time hop)))
      fun _ _ _ => .pure .done
  | insert a =>
    exact .bind (.attempt _ (Tables.parallel_insertAction hL hwall hop))
      fun _ _ h => .pure (.action h)
  | due now =>
    refine .bind (.attempt _ (Tables.parallel_dueEndpoints hop)) fun x y h => ?_
    rw [h]
    exact .pure (.due y)
  | endpoints =>
    exact .bind (.attempt _ (Tables.parallel_listEndpoints hL)) fun _ _ h => .pure (.endpoints h)
  | records e status =>
    exact .bind (.attempt _ (Tables.parallel_listRecords hL e status))
      fun _ _ h => .pure (.records h)

theorem Operation.twin_workAll (hL : Lasting L) (hgiven : ∀ t : Instant, t.IsWhole → L t t)
    {clock clock' : Nat → Instant} (hclock : ∀ i, L (clock i) (clock' i)) {ops : List Operation}
    (hops : ∀ op ∈ ops, op.Fits) {d : Draft Ledger} {e : Draft Tables}
    (h : Draft.Related (Mirrors L) d e) :
    Forall₂ (Agree (Found.Twin L)) (workAll clock ops d).1 (workAll clock' ops e).1 ∧
      Draft.Related (Mirrors L) (workAll clock ops d).2 (workAll clock' ops e).2 := by
  -- on the operations: one that fails leaves related drafts too, and the rest goes on from these
  induction ops generalizing clock clock' d e with
  | nil => exact ⟨.nil, h⟩
  | cons op ops ih =>
    have hwork := op.parallel_work hL hgiven (hclock 0) (hops op List.mem_cons_self) d e h
    have hrest : ∀ op ∈ ops, op.Fits := fun op hop => hops op (List.mem_cons_of_mem _ hop)
    unfold workAll
    generalize op.work (clock 0) d = x at hwork
    generalize op.work (clock' 0) e = y at hwork
    cases hwork with
    | ok hab hm =>
      obtain ⟨hfound, hdraft⟩ := ih (fun i => hclock (i + 1)) hrest hm
      exact ⟨.cons (.ok hab) hfound, hdraft⟩
    | error e hm =>
      obtain ⟨hfound, hdraft⟩ := ih (fun i => hclock (i + 1)) hrest hm
      exact ⟨.cons (.error e) hfound, hdraft⟩

theorem Store.Related.carryOut (hL : Lasting L) (hgiven : ∀ t : Instant, t.IsWhole → L t t)
    {clock clock' : Nat → Instant} (hclock : ∀ i, L (clock i) (clock' i)) {ops : List Operation}
    (hops : ∀ op ∈ ops, op.Fits) (ending : Ending) {s : Store Ledger} {t : Store Tables}
    (h : Related (Mirrors L) s t) :
    Agree (Found.TwinAll L) (s.carryOut clock ops ending).1 (t.carryOut clock' ops ending).1 ∧
      Related (Mirrors L) (s.carryOut clock ops ending).2 (t.carryOut clock' ops ending).2 := by
  have hbegin := h.beginDraft
  unfold Store.carryOut
  generalize s.beginDraft = x at hbegin
  generalize t.beginDraft = y at hbegin
  obtain ⟨d, s⟩ := x
  obtain ⟨e, t⟩ := y
  obtain ⟨hde, hst⟩ := hbegin
  cases hde with
  | error e => exact ⟨.error e, hst⟩
  | ok hde =>
    obtain ⟨hfound, hdraft⟩ := Operation.twin_workAll hL hgiven hclock hops hde
    obtain ⟨hended, hstore⟩ := Related.endDraft ending hst hdraft
    exact ⟨.ok ⟨hfound, hended⟩, hstore⟩

variable {χ : Type}

structure Site.Twin (L : Instant → Instant → Prop) (s : Site Ledger χ) (t : Site Tables χ) :
    Prop where
  store : Store.Related (Mirrors L) s.store t.store
  memory : t.memory = s.memory

namespace Site

variable {policy : Policy} (channel : Cycle.Channel χ) {s : Site Ledger χ} {t : Site Tables χ}

theorem twin_meet (hL : Lasting L) (hgiven : ∀ t : Instant, t.IsWhole → L t t)
    {clock clock' : Nat → Instant} (hclock : ∀ i, L (clock i) (clock' i))
    (hretries : policy.checkpointRetries ≤ Width.most32) {request : Request}
    (hrequest : request.Fits) (h : Twin L s t) :
    Reply.Twin L (s.meet policy channel clock request).1 (t.meet policy channel clock' request).1 ∧
      Twin L (s.meet policy channel clock request).2 (t.meet policy channel clock' request).2 := by
  cases request with
  | transaction ops ending =>
    obtain ⟨hbegun, hstore⟩ := h.store.carryOut hL hgiven hclock hrequest ending
    exact ⟨.transaction hbegun, hstore, h.memory⟩
  | create a =>
    obtain ⟨haction, hstore⟩ :=
      h.store.perform .insertAction (Tables.parallel_insertAction hL (hclock 0) hrequest)
    exact ⟨.created haction, hstore, h.memory⟩
  | due now =>
    obtain ⟨hnames, hstore⟩ := h.store.perform .dueEndpoints (Tables.parallel_dueEndpoints hrequest)
    exact ⟨.due (eq_of_agree hnames), hstore, h.memory⟩
  | endpoints =>
    obtain ⟨hes, hstore⟩ := h.store.perform .listEndpoints (Tables.parallel_listEndpoints hL)
    exact ⟨.endpoints hes, hstore, h.memory⟩
  | records e status =>
    obtain ⟨hrs, hstore⟩ := h.store.perform .listRecords (Tables.parallel_listRecords hL e status)
    exact ⟨.records hrs, hstore, h.memory⟩
  | cycle e now =>
    obtain ⟨hreport, hstore, hmemory⟩ := Cycle.runAt_agrees channel hL hclock hretries hrequest e
      s.memory h.store
    unfold meet
    rw [h.memory]
    exact ⟨.cycle hreport, hstore, hmemory⟩

theorem twin_meetAll (hL : Lasting L) (hgiven : ∀ t : Instant, t.IsWhole → L t t)
    {clock clock' : Nat → Nat → Instant} (hclock : ∀ i j, L (clock i j) (clock' i j))
    (hretries : policy.checkpointRetries ≤ Width.most32) {requests : List Request}
    (hrequests : ∀ r ∈ requests, r.Fits) (h : Twin L s t) :
    Forall₂ (Reply.Twin L) (s.meetAll policy channel clock requests).1
        (t.meetAll policy channel clock' requests).1 ∧
      Twin L (s.meetAll policy channel clock requests).2
        (t.meetAll policy channel clock' requests).2 := by
  -- on the requests: twin sites reply as twins and are twins afterwards
  induction requests generalizing clock clock' s t with
  | nil => exact ⟨.nil, h⟩
  | cons r rs ih =>
    obtain ⟨hreply, hmet⟩ :=
      twin_meet channel hL hgiven (hclock 0) hretries (hrequests r List.mem_cons_self) h
    obtain ⟨hreplies, hend⟩ := ih (fun i => hclock (i + 1))
      (fun r hr => hrequests r (List.mem_cons_of_mem _ hr)) hmet
    exact ⟨.cons hreply hreplies, hend⟩

end Site

/-- Instants that two stores may have in one place: one that both were given, or what their clocks
showed at one moment. What the second clock showed may have been cut down to its millisecond. -/
inductive Instant.Alike (clock clock' : Nat → Nat → Instant) : Instant → Instant → Prop where
  | given {t : Instant} (h : t.IsWhole) : Alike clock clock' t t
  | shown (i j : Nat) : Alike clock clock' (clock i j) (clock' i j)
  | kept (i j : Nat) : Alike clock clock' (clock i j) (clock' i j).cut

theorem Instant.lasting_alike {clock clock' : Nat → Nat → Instant}
    (hclock : ∀ i j, (clock' i j).IsDated) : Lasting (Alike clock clock') where
  kept {t u} h := by
    cases h with
    | given hwhole => exact ⟨t, hwhole.floorMillis?, .given hwhole⟩
    | shown i j => exact ⟨_, floorMillis?_eq_some.mpr ⟨hclock i j, rfl⟩, .kept i j⟩
    | kept i j =>
      exact ⟨_, floorMillis?_eq_some.mpr ⟨(hclock i j).cut, (cut_cut _).symm⟩, .kept i j⟩

/-- Tables whose rows read as what stands in a ledger, but for some of the instants. -/
structure Tables.ReadsAs (L : Instant → Instant → Prop) (l : Ledger) (t : Tables) : Prop where
  lastId : t.lastId = l.lastId
  actions : ∃ as, t.actions.mapM ActionRow.decode = .ok as ∧ Forall₂ (Action.Twin L) l.actions as
  records : ∃ rs, t.records.mapM RecordRow.decode = .ok rs ∧ Forall₂ (Record.Twin L) l.records rs
  endpoints : ∃ es, t.endpoints.mapM EndpointRow.decode = .ok es ∧
    Forall₂ (Endpoint.Twin L) l.endpoints es

theorem Tables.Holds.readsAs {l : Ledger} {t : Tables} (hL : Lasting L) (h : Holds L l t) :
    ReadsAs L l t :=
  ⟨h.lastId, mapM_forall₂ (fun _ _ hrow => hrow.decode hL) h.actions,
    mapM_forall₂ (fun _ _ hrow => hrow.decode hL) h.records,
    mapM_forall₂ (fun _ _ hrow => hrow.decode hL) h.endpoints⟩

/-- A ledger and tables that both start empty reply alike to all requests with whole milliseconds
and procedures that can be stored, up to what their clocks show, and hold the same at the end. -/
theorem Site.stores_agree (policy : Policy) (channel : Cycle.Channel χ) (memory : χ)
    (plan : FaultPlan) (clock clock' : Nat → Nat → Instant) (requests : List Request)
    (hclock : ∀ i j, (clock' i j).IsDated) (hretries : policy.checkpointRetries ≤ Width.most32)
    (hrequests : ∀ r ∈ requests, r.Fits) :
    let l := (opened plan memory : Site Ledger χ).meetAll policy channel clock requests
    let t := (opened plan memory : Site Tables χ).meetAll policy channel clock' requests
    Forall₂ (Reply.Twin (Instant.Alike clock clock')) l.1 t.1 ∧ t.2.memory = l.2.memory ∧
      Tables.ReadsAs (Instant.Alike clock clock') l.2.store.rows t.2.store.rows := by
  have hL : Lasting (Instant.Alike clock clock') := Instant.lasting_alike hclock
  have hopened : Twin (Instant.Alike clock clock') (opened plan memory : Site Ledger χ)
      (opened plan memory) := ⟨⟨Tables.mirrors_empty, rfl, rfl⟩, rfl⟩
  obtain ⟨hreplies, hend⟩ := twin_meetAll channel hL (fun _ ht => .given ht)
    (fun i j => .shown i j) hretries hrequests hopened
  exact ⟨hreplies, hend.memory, hend.store.rows.readsAs hL⟩

def oneVisit : List Request :=
  [.create ⟨"ping", ⟨0, 0⟩, none, ⟨"test.ping", [.int 1], []⟩, ["m1"], 1⟩, .cycle "m1" ⟨1, 0⟩,
    .transaction [.record 1 "m1", .action 2, .checkIn "m1" ⟨2, 0⟩] .commit, .records none none]

def willing : Cycle.Channel Unit :=
  ⟨fun _ _ => pure (.ok (some (.succeeded .null))), fun _ => pure (.ok (some true))⟩

theorem Site.stores_agree_oneVisit :
    let clock : Nat → Nat → Instant := fun _ _ => ⟨5, 123⟩
    let clock' : Nat → Nat → Instant := fun _ _ => ⟨7, 123456789⟩
    let l := (opened [] () : Site Ledger Unit).meetAll ⟨.standard, 0⟩ willing clock oneVisit
    let t := (opened [] () : Site Tables Unit).meetAll ⟨.standard, 0⟩ willing clock' oneVisit
    Forall₂ (Reply.Twin (Instant.Alike clock clock')) l.1 t.1 ∧ t.2.memory = l.2.memory ∧
      Tables.ReadsAs (Instant.Alike clock clock') l.2.store.rows t.2.store.rows := by
  have hfits : ∀ r ∈ oneVisit, r.Fits := by
    intro r hr
    simp only [oneVisit, List.mem_cons, List.not_mem_nil, or_false] at hr
    rcases hr with rfl | rfl | rfl | rfl
    · exact ⟨by decide, by decide +kernel, by decide, by decide⟩
    · exact (by decide : Instant.IsWhole ⟨1, 0⟩)
    · intro op hop
      simp only [List.mem_cons, List.not_mem_nil, or_false] at hop
      rcases hop with rfl | rfl | rfl
      · exact trivial
      · exact trivial
      · exact (by decide : Instant.IsWhole ⟨2, 0⟩)
    · exact trivial
  exact stores_agree ⟨.standard, 0⟩ willing () [] (fun _ _ => ⟨5, 123⟩)
    (fun _ _ => ⟨7, 123456789⟩) oneVisit (fun _ _ => by decide) (by decide) hfits

end FleetDispatch
