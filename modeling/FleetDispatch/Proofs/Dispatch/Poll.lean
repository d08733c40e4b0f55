import FleetDispatch.Proofs.Dispatch.Account
import FleetDispatch.Proofs.Dispatch.Failure
import FleetDispatch.Proofs.Store.Reading

namespace FleetDispatch

namespace Instant

def IsCommon (t : Instant) : Prop :=
  t.nanos < 1000000000

instance (t : Instant) : Decidable t.IsCommon :=
  inferInstanceAs (Decidable (_ < _))

theorem atMillis_le_iff {ms : Int} {t : Instant} (ht : t.IsCommon) :
    atMillis ms ≤ t ↔ ms ≤ t.toMillis := by
  unfold IsCommon at ht
  rw [le_iff]
  simp only [atMillis, toMillis]
  omega

end Instant

namespace Ledger

variable {l : Ledger} {e : EndpointId} {now : Instant}

theorem isDue_iff {r : Record} : l.isDue now r ↔
    r.status = .queued ∧ ∃ a, l.action? r.actionId = some a ∧ a.scheduledAt ≤ now := by
  unfold isDue action?
  cases Rows.find? r.actionId l.actions <;> simp [Action.isDue]

theorem exists_flagged (h : l.WellFormed) :
    (∃ x ∈ l.endpoints, x.needsRefresh = true ∧ x.id = e) ↔
      l.flagged e = true := by
  rw [flagged, endpoint_eq]
  constructor
  · rintro ⟨x, hx, hflag, rfl⟩
    rw [show l.endpoint? x.id = some x from Rows.find?_of_mem h.endpoints_ascending hx]
    exact hflag
  · intro hflag
    cases hx : l.endpoint? e with
    | none => simp [hx, Endpoint.fresh] at hflag
    | some x =>
      rw [hx] at hflag
      exact ⟨x, Rows.mem_of_find? hx, hflag, id_of_endpoint? hx⟩

theorem mem_dueEndpoints (h : l.WellFormed) : e ∈ l.dueEndpoints now ↔
    (∃ id t, l.Awaits id e t ∧ t ≤ now) ∨ l.flagged e = true := by
  have hdue : (∃ r ∈ l.records, l.isDue now r = true ∧ r.endpoint = e) ↔
      ∃ id t, l.Awaits id e t ∧ t ≤ now := by
    constructor
    · rintro ⟨r, hr, hdue, rfl⟩
      obtain ⟨queued, a, action, hle⟩ := isDue_iff.mp hdue
      have found : l.record? r.actionId r.endpoint = some r :=
        Rows.find?_of_mem h.records_ascending hr
      exact ⟨r.actionId, a.scheduledAt, ⟨r, a, found, queued, action, rfl⟩, hle⟩
    · rintro ⟨id, t, ⟨r, a, found, queued, action, rfl⟩, hle⟩
      obtain rfl := actionId_of_record? found
      exact ⟨r, Rows.mem_of_find? found, isDue_iff.mpr ⟨queued, a, action, hle⟩,
        endpoint_of_record? found⟩
  rw [dueEndpoints, mem_sortedNames, List.mem_append, ← exists_flagged h, ← hdue]
  simp [and_assoc]

theorem checkinCount_recordCheckin {x : EndpointId} {time : Instant} :
    (l.recordCheckin x time).checkinCount e = l.checkinCount e + if x = e then 1 else 0 := by
  simp [recordCheckin, checkinCount, List.count_cons]

end Ledger

namespace Tables

variable {t : Tables} {now : Instant}

theorem isFlagged_encode (x : Endpoint) :
    (EndpointRow.encode x).isFlagged = (EndpointRow.encode x).reading.needsRefresh := by
  obtain ⟨id, flag, time⟩ := x
  cases flag <;> rfl

theorem isDue_reading (hs : t.Encoded) (hnow : now.IsCommon) {row : RecordRow}
    (hrow : row ∈ t.records) : t.reading.isDue now row.reading =
      (row.isQueued && (Rows.find? row.actionId t.actions).any fun a =>
        a.scheduledAtMs.le (.int now.toMillis)) := by
  obtain ⟨x, rfl⟩ := hs.records row hrow
  have haction : t.reading.action? (RecordRow.encode x).actionId =
      (Rows.find? (RecordRow.encode x).actionId t.actions).map ActionRow.reading := action?_reading
  rw [RecordRow.isQueued_encode, RecordRow.reading_encode]
  unfold Ledger.isDue
  change (_ && (((t.reading.action? _).map _).getD false)) = _
  rw [show (x.kept .rows).actionId = (RecordRow.encode x).actionId from rfl, haction]
  cases hfind : Rows.find? (RecordRow.encode x).actionId t.actions with
  | none => rfl
  | some a =>
    obtain ⟨id, created, n, rfl⟩ := hs.actions a (Rows.mem_of_find? hfind)
    congr 1
    exact decide_eq_decide.mpr (Instant.atMillis_le_iff hnow)

/-- A query by milliseconds finds what is due by whole instants, unless in a leap second. -/
theorem dueEndpoints_reading (hs : t.Encoded) (hnow : now.IsCommon) :
    t.dueEndpoints now = t.reading.dueEndpoints now := by
  have hrecords : (t.queuedJoined.filter fun j =>
      j.action.scheduledAtMs.le (.int now.toMillis)).map (·.record.endpoint) =
      (t.reading.records.filter (t.reading.isDue now)).map (·.endpoint) := by
    have hrows (rows : List RecordRow) (hmem : ∀ row ∈ rows, row ∈ t.records) :
        (((rows.filter (·.isQueued)).filterMap fun r =>
          (Rows.find? r.actionId t.actions).map fun a => Joined.mk r a).filter fun j =>
            j.action.scheduledAtMs.le (.int now.toMillis)).map (·.record.endpoint) =
          ((rows.map RecordRow.reading).filter (t.reading.isDue now)).map (·.endpoint) := by
      -- on the rows: one counts on both sides if it is queued, has its action and is due
      induction rows with
      | nil => rfl
      | cons row rows ih =>
        have hdue := isDue_reading hs hnow (hmem row List.mem_cons_self)
        have hrest := ih fun r hr => hmem r (List.mem_cons_of_mem _ hr)
        rw [List.map_cons, List.filter_cons, List.filter_cons, hdue]
        cases row.isQueued with
        | false => simpa using hrest
        | true =>
          cases hfind : Rows.find? row.actionId t.actions with
          | none => simpa [hfind] using hrest
          | some a =>
            cases hle : a.scheduledAtMs.le (.int now.toMillis) with
            | false => simpa [hfind, hle] using hrest
            | true => simpa [hfind, hle] using ⟨rfl, hrest⟩
    exact hrows t.records fun _ h => h
  have hendpoints : (t.endpoints.filter (·.isFlagged)).map (·.id) =
      (t.reading.endpoints.filter (·.needsRefresh)).map (·.id) := by
    simp only [reading, List.filter_map, List.map_map]
    congr 1
    refine List.filter_congr fun row hrow => ?_
    obtain ⟨x, rfl⟩ := hs.endpoints row hrow
    exact isFlagged_encode x
  unfold dueEndpoints Ledger.dueEndpoints
  rw [hrecords, hendpoints]

end Tables

/-- Rows of which the query for due endpoints goes by the ledger that is read in them. -/
class Polled (σ : Type) [ActionRows σ] [Legible σ] : Prop where
  dueEndpoints_eq {rows : σ} {now : Instant} : Legible.Sound rows → now.IsCommon →
    ActionRows.dueEndpoints now rows = .ok ((Legible.ledger rows).dueEndpoints now) rows

instance : Polled Ledger :=
  ⟨fun _ _ => rfl⟩

instance : Polled Tables :=
  ⟨fun {rows} {_} hs hnow =>
    congrArg (EStateM.Result.ok · rows) (Tables.dueEndpoints_reading hs.toEncoded hnow)⟩

namespace Store

variable {σ : Type} [ActionRows σ] [Legible σ] [Polled σ] {s s' : Store σ} {now : Instant}
  {names : List EndpointId}

theorem dueEndpoints_ok (hs : Legible.Sound s.rows) (hnow : now.IsCommon)
    (h : s.dueEndpoints now = (.ok names, s')) :
    names = (Legible.ledger s.rows).dueEndpoints now := by
  have heq := (perform_ok h).symm.trans (Polled.dueEndpoints_eq hs hnow)
  exact (EStateM.Result.ok.inj heq).1

theorem dueEndpoints_eq (hs : Legible.Sound s.rows) (hnow : now.IsCommon) (plan : s.plan = [])
    (unpoisoned : s.poisoned = false) :
    s.dueEndpoints now = (.ok ((Legible.ledger s.rows).dueEndpoints now), s) := by
  obtain ⟨rows, plan', poisoned⟩ := s
  obtain rfl : plan' = [] := plan
  obtain rfl : poisoned = false := unpoisoned
  have hquery := Polled.dueEndpoints_eq (σ := σ) hs hnow
  simp [dueEndpoints, perform, transact, beginDraft, FaultPlan.count, bind, EStateM.bind,
    Work.attempt, hquery, pure, EStateM.pure, endDraft]

end Store

namespace Cycle

section pace

variable {k : Keeping} {policy : Policy} {wall : Instant} {c c' : Cycle} {l l' : Ledger}

/-- A cycle that has no checkpoint yet, on an endpoint with the flag up, is not past looking at
the flag. -/
structure Awake (c : Cycle) (l : Ledger) : Prop where
  loaded : c.stage ≠ .loading
  open_ : c.report.checkpoint = none →
    l.flagged c.endpoint = true ∧ (c.stage = .refreshing ∨ c.stage.current ≠ none)

theorem advance_walks (h : c.report.checkpoint = none) :
    c.advance.stage = .refreshing ∨ c.advance.stage.current ≠ none := by
  unfold advance
  rw [h, if_neg (by simp)]
  split
  · exact .inr (Option.some_ne_none _)
  · exact .inl rfl

theorem awake_loaded {e : EndpointId} {now : Instant} {pending : List PendingRecord}
    (flag : l.flagged e = true) :
    Awake { start e now with backlog := .ofPending pending }.advance l :=
  ⟨advance_stage_ne, fun _ => ⟨by rwa [endpoint_advance], advance_walks rfl⟩⟩

theorem Awake.next (awake : c.Awake l) (pace : Pace k policy wall c l c' l') : c'.Awake l' := by
  refine ⟨(pace.togo_lt awake.loaded).2, fun hopen => ?_⟩
  obtain ⟨hnone, hflag⟩ := pace.flag_kept hopen
  obtain ⟨flag, walks⟩ := awake.open_ hnone
  refine ⟨pace.unmoved.1 ▸ hflag flag, ?_⟩
  cases pace.visit with
  | loaded stage => exact absurd stage awake.loaded
  | spent | replied | checkpointed => exact .inr (Option.some_ne_none _)
  | @settled o => exact advance_walks (c := { c with report := c.report.add o }) hnone
  | rested rests =>
    have stage : c.stage = .refreshing := walks.resolve_right fun h => h rests.before
    cases pace with
    | answered hstage | pinged hstage | rested hstage => cases stage.symm.trans hstage
    | turned turn =>
      cases turn with
      | unflagged hstage clear => exact absurd flag (Bool.eq_false_iff.mp clear)
      | checkpointed => cases hopen
      | loaded hstage | skipped hstage | barred hstage | held hstage | exhausted hstage
      | spent hstage | refused hstage | recorded hstage | checkedIn hstage =>
        cases stage.symm.trans hstage

theorem Awake.closed (awake : c.Awake l) (closed : c.stage = .closed) :
    c.report.checkpoint ≠ none := by
  intro hopen
  rcases (awake.open_ hopen).2 with h | h <;> rw [closed] at h
  · cases h
  · exact h rfl

end pace

section run

variable {σ χ : Type} [ActionRows σ] [Legible σ] {policy : Policy} {wall : Instant}
  {channel : Channel χ} {clock : Nat → Instant} {e : EndpointId} {now : Instant} {s s' : Store σ}
  {memory memory' : χ} {report : Report}

theorem runAt_flagged (hs : Legible.Sound s.rows)
    (flag : (Legible.ledger s.rows).flagged e = true)
    (h : runAt policy channel clock e now s memory = (.ok report, s', memory')) :
    report.checkpoint ≠ none := by
  obtain ⟨-, c, awake, closed, rfl⟩ :=
    runAt_keeps (fun _ => awake_loaded flag) (fun _ _ awake pace => awake.next pace) hs h
  exact awake.closed closed

/-- How a cycle goes that finds nothing to do, after its first step: it asks for a sign of life, and
all that it may write is that it got one. -/
inductive Idle (channel : Channel χ) (e : EndpointId) (rows : σ) (memory : χ)
    (r : Run σ (χ × List (EndpointId × Call))) : Prop
  | looking (stage : r.cycle.stage = .refreshing) (same : r.store.rows = rows)
    (silent : r.channel = (memory, []))
  | pinging (stage : r.cycle.stage = .pinging) (same : r.store.rows = rows)
    (silent : r.channel = (memory, []))
  | checkingIn (stage : r.cycle.stage = .checkingIn) (same : r.store.rows = rows)
    (alive : (channel.ping e memory).1 = .ok (some true))
    (pinged : r.channel = ((channel.ping e memory).2, [(e, .ping)]))
  | absent (stage : r.cycle.stage = .closed) (same : r.store.rows = rows)
    (silent : (channel.ping e memory).1 ≠ .ok (some true))
    (pinged : r.channel = ((channel.ping e memory).2, [(e, .ping)]))
  | present (stage : r.cycle.stage = .closed) {time : Instant}
    (checkin : ActionRows.recordCheckin e time rows = .ok () r.store.rows)
    (alive : (channel.ping e memory).1 = .ok (some true))
    (pinged : r.channel = ((channel.ping e memory).2, [(e, .ping)]))

omit [Legible σ] in
theorem transact_of_step {r r' : Run σ χ} {work : Work σ (Ending × Cycle)}
    (hw : r.cycle.work? policy wall = some work) (h : step policy wall channel r = (.ok (), r')) :
    r.store.transact work = (.ok r'.cycle, r'.store) ∧ r'.channel = r.channel := by
  unfold step at h
  simp only [hw] at h
  split at h
  · cases h
  · next ht =>
    cases h
    exact ⟨ht, rfl⟩

omit [Legible σ] in
theorem step_closed {r : Run σ χ} (closed : r.cycle.stage = .closed) :
    step policy wall channel r = (.ok (), r) := by
  have hw : r.cycle.work? (σ := σ) policy wall = none := by rw [work?, closed]
  have hcall : r.cycle.pendingCall = none := by rw [pendingCall, closed]
  simp only [step, hw, hcall]

theorem Idle.next {rows : σ} {r r' : Run σ (χ × List (EndpointId × Call))}
    (hs : Legible.Sound rows) (down : (Legible.ledger rows).flagged e = false)
    (here : r.cycle.endpoint = e) (unvisited : r.cycle.report.outcomes = [])
    (idle : Idle channel e rows memory r)
    (h : step policy wall channel.noting r = (.ok (), r')) :
    r'.cycle.endpoint = e ∧ r'.cycle.report.outcomes = [] ∧ Idle channel e rows memory r' := by
  cases idle with
  | looking stage same silent =>
    have hw : r.cycle.work? (σ := σ) policy wall = some (r.cycle.refresh policy wall) := by
      rw [work?, stage]
    obtain ⟨ht, hchannel⟩ := transact_of_step hw h
    obtain ⟨ending, rows', hy, hrows⟩ := Store.transact_ok ht
    rw [same] at hy hrows
    obtain ⟨x, mid, hload, hr⟩ := Work.yields_bind hy
    obtain ⟨rfl, hx⟩ := Legible.loadEndpoint_ok hs (Work.yields_attempt hload)
    rw [Ledger.flagged, ← here, hx] at down
    rw [if_neg (by simp [down])] at hr
    obtain ⟨he, -⟩ := Work.yields_pure hr
    obtain ⟨rfl, hcycle⟩ := Prod.mk.inj he
    rw [hcycle]
    refine ⟨here, unvisited, .pinging ?_ ?_ (hchannel.trans silent)⟩
    · rw [hcycle, conclude]
      simp [Report.visitedAny, unvisited]
    · simpa using hrows
  | pinging stage same silent =>
    have hw : r.cycle.work? (σ := σ) policy wall = none := by rw [work?, stage]
    have hcall : r.cycle.pendingCall = some .ping := by rw [pendingCall, stage]
    unfold step at h
    simp only [hw, hcall, silent, here] at h
    cases h
    have hunvisited : (r.cycle.pinged (channel.ping e memory).1).report.outcomes = [] := by
      unfold pinged
      split <;> exact unvisited
    refine ⟨pinged_unmoved.1.trans here, hunvisited, ?_⟩
    -- only a ping that was answered leads on to a check-in
    by_cases alive : (channel.ping e memory).1 = .ok (some true)
    · refine .checkingIn ?_ same alive rfl
      change (r.cycle.pinged (channel.ping e memory).1).stage = _
      rw [alive]
      rfl
    · refine .absent ?_ same alive rfl
      change (r.cycle.pinged (channel.ping e memory).1).stage = _
      unfold pinged
      split
      · next hreply => exact absurd hreply alive
      · rfl
      · rfl
  | checkingIn stage same alive pinged =>
    have hw : r.cycle.work? (σ := σ) policy wall = some (r.cycle.checkIn wall) := by
      rw [work?, stage]
    obtain ⟨ht, hchannel⟩ := transact_of_step hw h
    obtain ⟨ending, rows', hy, hrows⟩ := Store.transact_ok ht
    rw [same] at hy
    obtain ⟨u, mid, hput, hr⟩ := Work.yields_bind hy
    rw [here] at hput
    obtain ⟨he, rfl⟩ := Work.yields_pure hr
    obtain ⟨rfl, hcycle⟩ := Prod.mk.inj he
    rw [if_pos rfl] at hrows
    rw [hcycle]
    refine ⟨here, unvisited, .present ?_ (hrows ▸ Work.yields_attempt hput) alive
      (hchannel.trans pinged)⟩
    rw [hcycle]
  | absent stage same silent pinged =>
    rw [step_closed stage] at h
    cases h
    exact ⟨here, unvisited, .absent stage same silent pinged⟩
  | present stage checkin alive pinged =>
    rw [step_closed stage] at h
    cases h
    exact ⟨here, unvisited, .present stage checkin alive pinged⟩

theorem idle_loaded {r : Run σ (χ × List (EndpointId × Call))} (hs : Legible.Sound s.rows)
    (undue : ∀ id t, (Legible.ledger s.rows).Awaits id e t → ¬ t ≤ now)
    (h : step policy wall channel.noting ⟨start e now, s, memory, []⟩ = (.ok (), r)) :
    r.cycle.endpoint = e ∧ r.cycle.report.outcomes = [] ∧ Idle channel e s.rows memory r := by
  have hw : (start e now).work? (σ := σ) policy wall = some (start e now).load := rfl
  obtain ⟨ht, hchannel⟩ := transact_of_step hw h
  obtain ⟨ending, rows', hy, hrows⟩ := Store.transact_ok ht
  obtain ⟨pending, mid, hload, hr⟩ := Work.yields_bind hy
  obtain ⟨rfl, found⟩ := Legible.pending_ok hs (Work.yields_attempt hload)
  obtain ⟨he, rfl⟩ := Work.yields_pure hr
  obtain ⟨rfl, hcycle⟩ := Prod.mk.inj he
  have hadvance :
      ({ start e now with backlog := .ofPending pending } : Cycle).advance.report.outcomes = [] ∧
        ({ start e now with backlog := .ofPending pending } : Cycle).advance.stage =
          .refreshing := by
    unfold advance
    rw [if_neg (by simp [start, Report.opened])]
    split
    · next p backlog hnext =>
      obtain ⟨hitems, hdue, -⟩ := Backlog.nextDue_some hnext
      have hmem : p ∈ (Backlog.ofPending pending).items := by
        rw [hitems]
        exact List.mem_cons_self
      exact absurd hdue (undue _ _ (Ledger.awaits_of_mem (Legible.wellFormed hs) found hmem))
    · exact ⟨rfl, rfl⟩
  refine ⟨?_, ?_, .looking ?_ ?_ hchannel⟩
  · rw [hcycle, endpoint_advance]
    rfl
  · rw [hcycle]
    exact hadvance.1
  · rw [hcycle]
    exact hadvance.2
  · simpa using hrows

theorem runAt_idle (hs : Legible.Sound s.rows)
    (undue : ∀ id t, (Legible.ledger s.rows).Awaits id e t → ¬ t ≤ now)
    (down : (Legible.ledger s.rows).flagged e = false)
    (h : runAt policy channel clock e now s memory = (.ok report, s', memory')) :
    runAt policy channel.noting clock e now s (memory, []) =
      (.ok report, s', memory', [(e, .ping)]) ∧ report.outcomes = [] ∧
      ((channel.ping e memory).1 ≠ .ok (some true) → s'.rows = s.rows) ∧
      ((channel.ping e memory).1 = .ok (some true) →
        ∃ time, ActionRows.recordCheckin e time s.rows = .ok () s'.rows) := by
  obtain ⟨calls, hran⟩ := runAt_noted h
  obtain ⟨r, ⟨-, unvisited, idle⟩, -, closed, rfl, rfl, hchannel⟩ :=
    runAt_ok (P := fun r => r.cycle.endpoint = e ∧ r.cycle.report.outcomes = [] ∧
      Idle channel e s.rows memory r) (idle_loaded hs undue)
      (fun _ ⟨here, unvisited, idle⟩ hstep => idle.next hs down here unvisited hstep) hs hran
  have hcalls : calls = [(e, .ping)] := by
    cases idle with
    | looking stage | pinging stage | checkingIn stage => cases stage.symm.trans closed
    | absent stage same silent pinged | present stage checkin alive pinged =>
      rw [hchannel] at pinged
      exact congrArg Prod.snd pinged
  refine ⟨hcalls ▸ hran, unvisited, fun hsilent => ?_, fun halive => ?_⟩
  · cases idle with
    | looking stage | pinging stage | checkingIn stage => cases stage.symm.trans closed
    | absent stage same => exact same
    | present stage checkin alive => exact absurd alive hsilent
  · cases idle with
    | looking stage | pinging stage | checkingIn stage => cases stage.symm.trans closed
    | absent stage same silent => exact absurd halive silent
    | present stage checkin => exact ⟨_, checkin⟩

end run

end Cycle

namespace World

variable {σ χ : Type} [ActionRows σ] [Legible σ] [Polled σ]

/-- The query for due endpoints and the cycles agree on what is due. From any state on, and at any
time that is not in a leap second, the query names an endpoint if and only if a cycle on it at that
time comes to an outcome. A cycle on an endpoint that is not named only asks for a sign of life,
once, and if it gets one it writes that the endpoint checked in; it writes nothing else. The query
fails on a store only that is made to fail. -/
theorem poll_agrees_with_cycle (events : List Event) (policy : Policy) (channel : Cycle.Channel χ)
    (clock : Nat → Instant) (e : EndpointId) {now : Instant} (hnow : now.IsCommon)
    {memory memory' : χ} {report : Report} {s' : Store σ}
    (ran : Cycle.runAt policy channel clock e now (through events : World σ).store memory =
      (.ok report, s', memory')) :
    let s := (through events : World σ).store
    ∃ names,
      (∀ found after, s.dueEndpoints now = (.ok found, after) → found = names) ∧
      (s.plan = [] → s.poisoned = false → s.dueEndpoints now = (.ok names, s)) ∧
      (e ∈ names ↔ report.outcomes ≠ []) ∧
      (e ∉ names →
        Cycle.runAt policy channel.noting clock e now s (memory, []) =
          (.ok report, s', memory', [(e, .ping)]) ∧
        ((channel.ping e memory).1 ≠ .ok (some true) → s'.rows = s.rows) ∧
        ((channel.ping e memory).1 = .ok (some true) →
          ∃ time, ActionRows.recordCheckin e time s.rows = .ok () s'.rows ∧
            Legible.ledger s'.rows =
              (Legible.ledger s.rows).checkIn e ((Legible.keeping σ).time time))) := by
  intro s
  have hs : Legible.Sound s.rows := sound_through events
  have hl := Legible.wellFormed hs
  have hmem : e ∈ (Legible.ledger s.rows).dueEndpoints now ↔
      (∃ id t, (Legible.ledger s.rows).Awaits id e t ∧ t ≤ now) ∨
        (Legible.ledger s.rows).flagged e = true := Ledger.mem_dueEndpoints hl
  obtain ⟨c, pending, calls, found, -, closed, hreport, -, hat, -, round, -⟩ :=
    Cycle.runAt_closed hs ran
  obtain ⟨due, later, agenda, hids, -⟩ := round.closed closed hat hl found
  rw [hreport] at hids
  have idle (hnone : e ∉ (Legible.ledger s.rows).dueEndpoints now) :=
    Cycle.runAt_idle hs (fun id t awaited hle => hnone (hmem.mpr (.inl ⟨id, t, awaited, hle⟩)))
      (Bool.eq_false_iff.mpr fun flag => hnone (hmem.mpr (.inr flag))) ran
  refine ⟨(Legible.ledger s.rows).dueEndpoints now, fun _ _ => Store.dueEndpoints_ok hs hnow,
    Store.dueEndpoints_eq hs hnow, ⟨fun hdue => ?_, fun hvisited => ?_⟩, fun hnone => ?_⟩
  · intro hnone
    have hempty : due ++ report.checkpoint.toList = [] := by
      rw [← hids, Report.ids, hnone, List.map_nil]
    obtain ⟨hdueNone, htaken⟩ := List.append_eq_nil_iff.mp hempty
    rcases hmem.mp hdue with ⟨id, t, awaited, hle⟩ | flag
    · have hid := (agenda.mem_due id).mpr ⟨t, awaited, hle⟩
      rw [hdueNone] at hid
      cases hid
    · exact Cycle.runAt_flagged hs flag ran (by simpa using htaken)
  -- an idle cycle comes to no outcome, so an outcome shows that the endpoint is named
  · by_contra hnone
    exact hvisited (idle hnone).2.1
  · obtain ⟨noted, -, absent, present⟩ := idle hnone
    refine ⟨noted, absent, fun alive => ?_⟩
    obtain ⟨time, checkin⟩ := present alive
    exact ⟨time, checkin, (Legible.recordCheckin_ok hs checkin).2⟩

def oneTomorrow : List Event :=
  [.move (.create ⟨0, 0⟩ ⟨"upgrade", ⟨86400, 0⟩, none, ⟨"pkg.upgrade", [], []⟩, ["m1"], 2⟩)]

theorem oneTomorrow_polled : (⟨3, 0⟩ : Instant).IsCommon ∧
    ∃ (report : Report) (s' : Store Ledger) (time : Instant),
      Cycle.runAt ⟨.standard, 5⟩ mute.noting (fun _ => ⟨3, 0⟩) "m1" ⟨3, 0⟩
        (through oneTomorrow : World Ledger).store ((), []) =
          (.ok report, s', (), [("m1", .ping)]) ∧
      (through oneTomorrow : World Ledger).store.dueEndpoints ⟨3, 0⟩ =
        (.ok [], (through oneTomorrow : World Ledger).store) ∧
      s'.rows = (through oneTomorrow : World Ledger).store.rows.recordCheckin "m1" time ∧
      s'.rows.checkinCount "m1" = 1 := by
  have common : (⟨3, 0⟩ : Instant).IsCommon := by decide
  have ok : (Cycle.runAt ⟨.standard, 5⟩ mute (fun _ => ⟨3, 0⟩) "m1" ⟨3, 0⟩
      (through oneTomorrow : World Ledger).store ()).1.isOk := by decide +kernel
  have fresh : (through oneTomorrow : World Ledger).store.rows.checkinCount "m1" = 0 := by
    decide +kernel
  have undue : ((through oneTomorrow : World Ledger).store.dueEndpoints ⟨3, 0⟩).1.toOption =
      some [] := by decide +kernel
  cases ran : Cycle.runAt ⟨.standard, 5⟩ mute (fun _ => ⟨3, 0⟩) "m1" ⟨3, 0⟩
      (through oneTomorrow : World Ledger).store () with
  | mk answer rest =>
    rw [ran] at ok
    cases answer with
    | error err => cases ok
    | ok report =>
      obtain ⟨names, -, polled, -, idle⟩ := poll_agrees_with_cycle oneTomorrow ⟨.standard, 5⟩ mute
        (fun _ => ⟨3, 0⟩) "m1" common ran
      have hpolled := polled rfl rfl
      rw [hpolled] at undue
      obtain rfl : names = [] := Option.some.inj undue
      obtain ⟨noted, -, present⟩ := idle List.not_mem_nil
      obtain ⟨time, checkin, -⟩ := present rfl
      have hrows := (EStateM.Result.ok.inj checkin).2.symm
      refine ⟨common, report, rest.1, time, noted, hpolled, hrows, ?_⟩
      rw [hrows, Ledger.checkinCount_recordCheckin, fresh, if_pos rfl]

end World

end FleetDispatch
