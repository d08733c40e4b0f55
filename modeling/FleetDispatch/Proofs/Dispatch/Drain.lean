import FleetDispatch.Proofs.Dispatch.Calls
import FleetDispatch.Proofs.Dispatch.Debt

namespace FleetDispatch

namespace Ledger

variable {l : Ledger} {e : EndpointId}

/-- Of the queued records of an endpoint the one with the least id is free: its prerequisite has a
smaller id yet. -/
theorem exists_free (h : l.WellFormed) (hq : l.queued e ≠ []) :
    ∃ r ∈ l.queued e, l.Free r.actionId e := by
  obtain ⟨r, rest, hrest⟩ := List.exists_cons_of_ne_nil hq
  have hr : r ∈ l.queued e := hrest ▸ List.mem_cons_self
  obtain ⟨found, queued⟩ := (mem_queued h).mp hr
  refine ⟨r, hr, r, found, queued, fun {a p q} action prerequisite first waiting => ?_⟩
  have hlt := (h.prerequisite_lt action prerequisite).2
  have hid := actionId_of_record? first
  have hmem : q ∈ l.queued e := (mem_queued h).mpr ⟨hid ▸ first, waiting⟩
  have hpairwise : Rows.Ascending (l.queued e) :=
    List.Pairwise.filter _ h.records_ascending
  rw [hrest] at hmem hpairwise
  rcases List.mem_cons.mp hmem with rfl | hmem
  · lia
  · have hbefore := before_record.mp ((List.pairwise_cons.mp hpairwise).1 q hmem)
    simp only [Row.key] at hbefore
    lia

theorem pendingOf_ok {r : Record} {p : PendingRecord} (h : l.pendingOf r = .ok p) :
    ∃ a, l.action? r.actionId = some a ∧ p = ⟨r, a.name, a.scheduledAt⟩ := by
  obtain ⟨a, ha, h₁⟩ := of_bind_eq_ok h
  exact ⟨a, action_eq_ok.mp ha, (Except.ok.inj h₁).symm⟩

theorem pending_ok {ps : List PendingRecord} (h : l.pending e = .ok ps) :
    (∀ p ∈ ps, p.record ∈ l.queued e ∧
      ∃ a, l.action? p.actionId = some a ∧ p.scheduledAt = a.scheduledAt) ∧
    ∀ r ∈ l.queued e, ∃ p ∈ ps, p.record = r := by
  obtain ⟨found, hm, h₁⟩ := of_bind_eq_ok h
  obtain rfl := Except.ok.inj h₁
  obtain ⟨hfrom, hto⟩ := mem_of_mapM hm
  constructor
  · intro p hp
    obtain ⟨r, hr, hpending⟩ := hfrom p (List.mem_mergeSort.mp hp)
    obtain ⟨a, ha, rfl⟩ := pendingOf_ok hpending
    exact ⟨hr, a, ha, rfl⟩
  · intro r hr
    obtain ⟨p, hp, hpending⟩ := hto r hr
    obtain ⟨a, ha, rfl⟩ := pendingOf_ok hpending
    exact ⟨_, List.mem_mergeSort.mpr hp, rfl⟩

theorem debt_of_drained {d : Nat}
    (h : ¬ (l.queued e ≠ [] ∨ (l.endpoint e).needsRefresh = true)) : l.debt d e = 0 := by
  obtain ⟨hq, hf⟩ := not_or.mp h
  rw [Bool.not_eq_true] at hf
  simp [debt, Decidable.not_not.mp hq, hf]

def Timely (e : EndpointId) (now : Instant) (l : Ledger) : Prop :=
  ∀ r ∈ l.queued e, (l.action? r.actionId).all (·.isDue now)

instance (e : EndpointId) (now : Instant) (l : Ledger) : Decidable (l.Timely e now) :=
  inferInstanceAs (Decidable (∀ r ∈ l.queued e, _))

theorem Timely.le {now : Instant} {r : Record} {a : Action} (timely : l.Timely e now)
    (hr : r ∈ l.queued e) (action : l.action? r.actionId = some a) : a.scheduledAt ≤ now := by
  have h := timely r hr
  rw [action] at h
  exact of_decide_eq_true h

end Ledger

namespace Cycle

variable {k : Keeping} {policy : Policy} {wall : Instant} {c c' : Cycle} {l l' : Ledger} {d : Nat}

/-- A cycle that comes to a record that is free, or will still come to one, or is about to turn a
flag into one. -/
inductive Pressing (c : Cycle) (l : Ledger) : Prop
  | ready {id} (stage : c.stage = .preparing id) (free : l.Free id c.endpoint)
  | behind {id} (stage : c.stage = .preparing id) (open_ : c.report.checkpoint = none)
    (awake : c.backlog.halted = false) (due : ∀ p ∈ c.backlog.items, p.scheduledAt ≤ c.now)
    (free : ∃ p ∈ c.backlog.items, l.Free p.actionId c.endpoint)
  | flagged (stage : c.stage = .refreshing) (flag : (l.endpoint c.endpoint).needsRefresh = true)

theorem pressing_advance (open_ : c.report.checkpoint = none) (awake : c.backlog.halted = false)
    (due : ∀ p ∈ c.backlog.items, p.scheduledAt ≤ c.now)
    (free : ∃ p ∈ c.backlog.items, l.Free p.actionId c.endpoint) : c.advance.Pressing l := by
  obtain ⟨p, hp, hfree⟩ := free
  cases items : c.backlog.items with
  | nil => simp [items] at hp
  | cons head rest =>
    have hnext : c.backlog.nextDue c.now = (some head, { c.backlog with items := rest }) := by
      simp [Backlog.nextDue, awake, items, due head (by simp [items])]
    have hadvance : c.advance = { c with
        backlog := { c.backlog with items := rest }, stage := .preparing head.actionId } := by
      simp [advance, open_, hnext]
    rw [hadvance]
    rw [items] at hp
    rcases List.mem_cons.mp hp with rfl | hp
    · exact .ready rfl hfree
    · refine .behind rfl open_ awake (fun q hq => due q ?_) ⟨p, hp, hfree⟩
      rw [items]
      exact List.mem_cons_of_mem _ hq

/-- A cycle that is pressing lowers the debt or stays so. -/
theorem Pace.pressing (pace : Pace k policy wall c l c' l') (hl : l.WellFormed)
    (pressing : c.Pressing l) : l'.debt d c.endpoint < l.debt d c.endpoint ∨ c'.Pressing l' := by
  cases pressing with
  | ready stage free =>
    cases pace with
    | turned turn =>
      rcases turn.prepared hl stage with ⟨o, -, -, hfree⟩ | hlt
      · exact absurd free hfree
      · exact .inl hlt
    | answered hstage | pinged hstage | rested hstage => cases stage.symm.trans hstage
  -- the record ahead is not free, so the cycle goes by it and still has the free one behind it
  | behind stage open_ awake due free =>
    cases pace with
    | turned turn =>
      rcases turn.prepared hl stage with ⟨o, rfl, rfl, -⟩ | hlt
      · exact .inr
          (pressing_advance (c := { c with report := c.report.add o }) open_ awake due free)
      · exact .inl hlt
    | answered hstage | pinged hstage | rested hstage => cases stage.symm.trans hstage
  | flagged stage flag =>
    cases pace with
    | turned turn =>
      cases turn with
      | unflagged hstage clear => simp [flag] at clear
      | @checkpointed a hstage hflag action =>
        subst action
        refine .inr (.ready rfl
          ⟨.fresh (l.lastId + 1) c.endpoint policy.checkpointRetries, ?_, rfl, ?_⟩)
        · simp [Ledger.checkpoint, Ledger.created]
        · intro b p q action prerequisite
          simp only [Ledger.action?_putEndpoint, Ledger.action?_issue, ↓reduceIte] at action
          obtain rfl := Option.some.inj action
          cases prerequisite
      | loaded hstage | skipped hstage | barred hstage | held hstage | exhausted hstage
      | spent hstage | refused hstage | recorded hstage | checkedIn hstage =>
        cases stage.symm.trans hstage
    | answered hstage | pinged hstage | rested hstage => cases stage.symm.trans hstage

theorem Pace.debt_le (pace : Pace k policy wall c l c' l')
    (hk : (k.procedure .packageRefresh).isPackageRefresh) (hl : l.WellFormed)
    (task : ∀ {a}, c.task? = some a → l.action? a.id = some a) :
    l'.debt policy.checkpointRetries c.endpoint ≤ l.debt policy.checkpointRetries c.endpoint := by
  cases pace with
  | turned turn => exact turn.debt_le hk hl task
  | answered | pinged | rested => exact Nat.le_refl _

theorem pressing_loaded {e : EndpointId} {now : Instant} {pending : List PendingRecord}
    (hl : l.WellFormed) (timely : l.Timely e now)
    (owed : l.queued e ≠ [] ∨ (l.endpoint e).needsRefresh = true)
    (found : l.pending e = .ok pending) :
    Cycle.Pressing { start e now with backlog := .ofPending pending }.advance l := by
  obtain ⟨hfrom, hto⟩ := Ledger.pending_ok found
  by_cases hq : l.queued e = []
  · have hnil : pending = [] := by
      refine List.eq_nil_iff_forall_not_mem.mpr fun p hp => ?_
      have hmem := (hfrom p hp).1
      rw [hq] at hmem
      cases hmem
    subst hnil
    refine .flagged ?_ ?_
    · simp [advance, start, Report.opened, Backlog.ofPending, Backlog.nextDue]
    · rw [endpoint_advance]
      exact owed.resolve_left fun h => h hq
  · obtain ⟨r, hr, hfree⟩ := Ledger.exists_free hl hq
    obtain ⟨p, hp, rfl⟩ := hto r hr
    refine pressing_advance rfl rfl (fun q hmem => ?_) ⟨p, List.mem_mergeSort.mpr hp, hfree⟩
    obtain ⟨hqueued, a, action, hat⟩ := hfrom q (List.mem_mergeSort.mp hmem)
    rw [hat]
    exact timely.le hqueued action

theorem Turn.action_cases {id : ActionId} {a : Action} (turn : Turn k policy wall c l c' l')
    (action : l'.action? id = some a) :
    l.action? id = some a ∨ a.scheduledAt = k.time c.now := by
  cases turn with
  | checkpointed stage flagged haction =>
    subst haction
    rw [Ledger.action?_putEndpoint, Ledger.action?_issue] at action
    split at action
    · obtain rfl := Option.some.inj action
      exact .inr rfl
    · exact .inl action
  | recorded =>
    rw [action?_withResult] at action
    exact .inl action
  | _ => exact .inl action

theorem Pace.timely {later : Instant} (pace : Pace k policy wall c l c' l') (hl : l.WellFormed)
    (hl' : l'.WellFormed) (hkeep : k.time c.now ≤ later) (timely : l.Timely c.endpoint later) :
    l'.Timely c.endpoint later := by
  cases pace with
  | answered | pinged | rested => exact timely
  | turned turn =>
    intro r' hr'
    obtain ⟨found', queued'⟩ := (Ledger.mem_queued hl').mp hr'
    obtain ⟨a, action'⟩ := Option.isSome_iff_exists.mp (hl'.record_action found')
    rw [action', Option.all_some]
    rcases turn.action_cases action' with action | hat
    · have hid := hl.le_lastId action
      have stride := turn.stride (s := ⟨l, [c]⟩) (List.mem_singleton_self c) r'.actionId c.endpoint
      obtain ⟨r, found, queued⟩ := stride.was_queued found' queued' (by simp only; lia)
      have hr : r ∈ l.queued c.endpoint :=
        (Ledger.mem_queued hl).mpr ⟨Ledger.actionId_of_record? found ▸ found, queued⟩
      exact decide_eq_true (timely.le hr (Ledger.actionId_of_record? found ▸ action))
    · exact decide_eq_true (hat ▸ hkeep)

/-- A cycle on an endpoint that has kept the debt within a bound. -/
structure Bounded (d : Nat) (e : EndpointId) (bound : Nat) (c : Cycle) (l : Ledger) : Prop where
  here : c.endpoint = e
  task : ∀ {a}, c.task? = some a → l.action? a.id = some a
  within : l.debt d e ≤ bound

theorem Pace.bounded {e : EndpointId} {bound : Nat} (pace : Pace k policy wall c l c' l')
    (hk : (k.procedure .packageRefresh).isPackageRefresh) (hl : l.WellFormed)
    (h : c.Bounded policy.checkpointRetries e bound l) :
    c'.Bounded policy.checkpointRetries e bound l' := by
  obtain ⟨rfl, task, within⟩ := h
  exact ⟨pace.unmoved.1, pace.task hl task, Nat.le_trans (pace.debt_le hk hl task) within⟩

def Lowering (d : Nat) (e : EndpointId) (bound : Nat) (c : Cycle) (l : Ledger) : Prop :=
  c.Bounded d e bound l ∧ (l.debt d e < bound ∨ c.Pressing l)

theorem Pace.lowering {e : EndpointId} {bound : Nat} (pace : Pace k policy wall c l c' l')
    (hk : (k.procedure .packageRefresh).isPackageRefresh) (hl : l.WellFormed)
    (h : c.Lowering policy.checkpointRetries e bound l) :
    c'.Lowering policy.checkpointRetries e bound l' := by
  obtain ⟨bounded, hlower⟩ := h
  refine ⟨pace.bounded hk hl bounded, ?_⟩
  obtain ⟨rfl, task, within⟩ := bounded
  rcases hlower with hlt | pressing
  · exact .inl (Nat.lt_of_le_of_lt (pace.debt_le hk hl task) hlt)
  · exact (pace.pressing hl pressing).imp_left fun hlt => Nat.lt_of_lt_of_le hlt within

theorem not_pressing_of_closed (closed : c.stage = .closed) : ¬ c.Pressing l := by
  rintro (⟨stage⟩ | ⟨stage⟩ | ⟨stage⟩) <;> cases stage.symm.trans closed

section series

variable {σ χ : Type} [ActionRows σ] [Legible σ] {channel : Channel χ} {clock : Nat → Instant}
  {e : EndpointId} {now : Instant} {s s' : Store σ} {memory memory' : χ} {report : Report}

theorem runAt_debt_le (hs : Legible.Sound s.rows)
    (h : runAt policy channel clock e now s memory = (.ok report, s', memory')) :
    (Legible.ledger s'.rows).debt policy.checkpointRetries e ≤
      (Legible.ledger s.rows).debt policy.checkpointRetries e := by
  obtain ⟨-, c, bounded, -⟩ := runAt_keeps
    (P := Bounded policy.checkpointRetries e
      ((Legible.ledger s.rows).debt policy.checkpointRetries e))
    (fun _ => ⟨endpoint_advance, by simp, Nat.le_refl _⟩)
    (fun hl _ hP pace => pace.bounded Legible.keeps_refresh hl hP) hs h
  exact bounded.within

theorem runAt_debt_lt (hs : Legible.Sound s.rows) (timely : (Legible.ledger s.rows).Timely e now)
    (owed : (Legible.ledger s.rows).queued e ≠ [] ∨
      ((Legible.ledger s.rows).endpoint e).needsRefresh = true)
    (h : runAt policy channel clock e now s memory = (.ok report, s', memory')) :
    (Legible.ledger s'.rows).debt policy.checkpointRetries e <
      (Legible.ledger s.rows).debt policy.checkpointRetries e := by
  obtain ⟨-, c, ⟨-, hlower⟩, closed, -⟩ := runAt_keeps
    (P := Lowering policy.checkpointRetries e
      ((Legible.ledger s.rows).debt policy.checkpointRetries e))
    (fun found => ⟨⟨endpoint_advance, by simp, Nat.le_refl _⟩,
      .inr (pressing_loaded (Legible.wellFormed hs) timely owed found)⟩)
    (fun hl _ hP pace => pace.lowering Legible.keeps_refresh hl hP) hs h
  exact hlower.resolve_right (not_pressing_of_closed closed)

theorem sound_runAt (hs : Legible.Sound s.rows)
    (h : runAt policy channel clock e now s memory = (.ok report, s', memory')) :
    Legible.Sound s'.rows :=
  (runAt_keeps (P := fun _ _ => True) (fun _ => trivial) (fun _ _ _ _ => trivial) hs h).1

theorem runAt_timely {later : Instant} (hs : Legible.Sound s.rows)
    (hkeep : (Legible.keeping σ).time now ≤ later)
    (timely : (Legible.ledger s.rows).Timely e later)
    (h : runAt policy channel clock e now s memory = (.ok report, s', memory')) :
    (Legible.ledger s'.rows).Timely e later := by
  obtain ⟨-, c, ⟨-, -, htimely⟩, -⟩ := runAt_keeps
    (P := fun c l => c.endpoint = e ∧ (Legible.keeping σ).time c.now ≤ later ∧ l.Timely e later)
    (fun _ => ⟨endpoint_advance, by rwa [now_advance], timely⟩)
    (fun hl hl' ⟨here, hnow, hP⟩ pace => ⟨pace.unmoved.1.trans here, pace.unmoved.2 ▸ hnow,
      here ▸ pace.timely hl hl' hnow (here ▸ hP)⟩) hs h
  exact htimely

/-- A number of cycles on an endpoint, one after another and with no one else between them, each
at a time at which all is due and by a clock of its own. -/
inductive Served (policy : Policy) (channel : Channel χ) (e : EndpointId) :
    Nat → Store σ → χ → Store σ → χ → Prop
  | none (s : Store σ) (memory : χ) : Served policy channel e 0 s memory s memory
  | next {n : Nat} {s₀ s₁ s₂ : Store σ} {memory₀ memory₁ memory₂ : χ}
    {clock : Nat → Instant} {now : Instant} {report : Report}
    (timely : (Legible.ledger s₀.rows).Timely e now)
    (ran : runAt policy channel clock e now s₀ memory₀ = (.ok report, s₁, memory₁))
    (rest : Served policy channel e n s₁ memory₁ s₂ memory₂) :
    Served policy channel e (n + 1) s₀ memory₀ s₂ memory₂

theorem Served.of_isOk {n : Nat} {s₂ : Store σ} {memory₂ : χ} (clock : Nat → Instant)
    (now : Instant) (timely : (Legible.ledger s.rows).Timely e now)
    (ok : (runAt policy channel clock e now s memory).1.isOk)
    (rest : Served policy channel e n (runAt policy channel clock e now s memory).2.1
      (runAt policy channel clock e now s memory).2.2 s₂ memory₂) :
    Served policy channel e (n + 1) s memory s₂ memory₂ := by
  cases h : runAt policy channel clock e now s memory with
  | mk answer after =>
    rw [h] at ok rest
    cases answer with
    | error err => cases ok
    | ok report => exact .next timely h rest

theorem Served.debt {n : Nat} (served : Served policy channel e n s memory s' memory')
    (hs : Legible.Sound s.rows) : Legible.Sound s'.rows ∧
      ((Legible.ledger s'.rows).debt policy.checkpointRetries e = 0 ∨
        (Legible.ledger s'.rows).debt policy.checkpointRetries e + n ≤
          (Legible.ledger s.rows).debt policy.checkpointRetries e) := by
  -- on the series: a cycle that does not lower the debt has found none, and then none comes up
  induction served with
  | none => exact ⟨hs, .inr (Nat.le_refl _)⟩
  | @next n s₀ s₁ s₂ memory₀ memory₁ memory₂ clock now report timely ran rest ih =>
    obtain ⟨hs₂, hdebt⟩ := ih (sound_runAt hs ran)
    refine ⟨hs₂, ?_⟩
    have hle := runAt_debt_le hs ran
    by_cases owed : (Legible.ledger s₀.rows).queued e ≠ [] ∨
        ((Legible.ledger s₀.rows).endpoint e).needsRefresh = true
    · have hlt := runAt_debt_lt hs timely owed ran
      omega
    · have hzero := Ledger.debt_of_drained (d := policy.checkpointRetries) owed
      omega

end series

end Cycle

namespace World

variable {σ χ : Type} [ActionRows σ] [Legible σ]

/-- The backlog of an endpoint drains. From any state on, cycles that find all due take something
off the debt as long as there is a queued record or the flag is up, whatever the endpoint answers;
so both are gone after as many cycles as the debt comes to. What is due stays so for cycles at later
times. -/
theorem backlog_drains (moves : List Move) (policy : Policy) (channel : Cycle.Channel χ)
    (e : EndpointId) {n : Nat} {s : Store σ} {memory memory' : χ}
    (served : Cycle.Served policy channel e n (after moves : World σ).store memory s memory') :
    (∀ clock now report s' memory'',
      Cycle.runAt policy channel clock e now s memory' = (.ok report, s', memory'') →
        ((Legible.ledger s.rows).Timely e now →
          ((Legible.ledger s.rows).queued e ≠ [] ∨
            ((Legible.ledger s.rows).endpoint e).needsRefresh = true) →
          (Legible.ledger s'.rows).debt policy.checkpointRetries e <
            (Legible.ledger s.rows).debt policy.checkpointRetries e) ∧
        ∀ later, (Legible.keeping σ).time now ≤ later →
          (Legible.ledger s.rows).Timely e later → (Legible.ledger s'.rows).Timely e later) ∧
      ((after moves : World σ).ledger.debt policy.checkpointRetries e ≤ n →
        (Legible.ledger s.rows).queued e = [] ∧
          ((Legible.ledger s.rows).endpoint e).needsRefresh = false) := by
  obtain ⟨hs, hdebt⟩ := served.debt (sound_after moves)
  refine ⟨fun clock now report s' memory'' ran =>
    ⟨fun timely owed => ?_, fun later hkeep timely => ?_⟩, fun hn => ?_⟩
  · exact Cycle.runAt_debt_lt hs timely owed ran
  · exact Cycle.runAt_timely hs hkeep timely ran
  · rw [ledger] at hn
    exact Ledger.debt_eq_zero (d := policy.checkpointRetries) (by omega)

def oneAction : List Move :=
  [.create ⟨0, 0⟩ ⟨"ping", ⟨0, 0⟩, none, ⟨"test.ping", [], []⟩, ["m1"], 1⟩]

def mute : Cycle.Channel Unit :=
  ⟨fun _ _ => pure (.ok none), fun _ => pure (.ok (some true))⟩

def ticking (second : Int) (i : Nat) : Instant :=
  ⟨second, 1000000 * i⟩

theorem oneAction_drains : ∃ (s s' : Store Ledger) (report : Report) (memory : Unit),
    (Legible.ledger s.rows).queued "m1" = [] ∧
      Cycle.runAt ⟨.standard, 0⟩ mute (ticking 1) "m1" ⟨1, 0⟩ (after oneAction).store () =
        (.ok report, s', memory) ∧
      (Legible.ledger s'.rows).debt 0 "m1" < 3 ∧ (Legible.ledger s'.rows).Timely "m1" ⟨2, 0⟩ := by
  have debt : (after oneAction : World Ledger).ledger.debt 0 "m1" = 3 := by decide +kernel
  have due : (Legible.ledger (after oneAction : World Ledger).store.rows).Timely "m1" ⟨1, 0⟩ := by
    decide +kernel
  have later : (Legible.ledger (after oneAction : World Ledger).store.rows).Timely "m1" ⟨2, 0⟩ := by
    decide +kernel
  have owed : (Legible.ledger (after oneAction : World Ledger).store.rows).queued "m1" ≠ [] := by
    decide +kernel
  have served : Cycle.Served ⟨.standard, 0⟩ mute "m1" 3 (after oneAction : World Ledger).store ()
      _ _ :=
    .of_isOk (ticking 1) ⟨1, 0⟩ due (by decide +kernel) <|
      .of_isOk (ticking 2) ⟨2, 0⟩ (by decide +kernel) (by decide +kernel) <|
      .of_isOk (ticking 3) ⟨3, 0⟩ (by decide +kernel) (by decide +kernel) <| .none _ _
  have drained := (backlog_drains oneAction ⟨.standard, 0⟩ mute "m1" served).2 (Nat.le_of_eq debt)
  have ok : (Cycle.runAt ⟨.standard, 0⟩ mute (ticking 1) "m1" ⟨1, 0⟩
      (after oneAction : World Ledger).store ()).1.isOk := by
    decide +kernel
  cases ran : Cycle.runAt ⟨.standard, 0⟩ mute (ticking 1) "m1" ⟨1, 0⟩
      (after oneAction : World Ledger).store () with
  | mk answer rest =>
    rw [ran] at ok
    cases answer with
    | error err => cases ok
    | ok report =>
      obtain ⟨lowers, keeps⟩ := (backlog_drains oneAction ⟨.standard, 0⟩ mute "m1"
        (.none _ _)).1 (ticking 1) ⟨1, 0⟩ report rest.1 rest.2 ran
      exact ⟨_, rest.1, report, rest.2, drained.1, rfl, debt ▸ lowers due (.inl owed),
        keeps ⟨2, 0⟩ (by decide +kernel) later⟩

end World

end FleetDispatch
