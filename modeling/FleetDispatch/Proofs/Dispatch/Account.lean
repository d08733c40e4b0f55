import FleetDispatch.Proofs.Dispatch.Agenda
import FleetDispatch.Proofs.Dispatch.Calls
import FleetDispatch.Proofs.Dispatch.Events

namespace FleetDispatch

def Outcome.isCalled : Outcome → Bool
  | completed .. | failed .. | noResult .. | error .. => true
  | skipped .. | held .. | prerequisiteFailed .. | retriesExhausted .. => false

def Ledger.Invokes (e : EndpointId) (l : Ledger) (id : ActionId) (call : EndpointId × Call) :
    Prop :=
  ∃ a, l.action? id = some a ∧ call = (e, .invoke a.procedure)

namespace Cycle

variable {k : Keeping} {policy : Policy} {wall : Instant} {c c' : Cycle} {l l' : Ledger}
  {o : Outcome} {calls : List (EndpointId × Call)}

/-- The action that an endpoint was called for without its record being settled yet. -/
def answered? (c : Cycle) : Option ActionId :=
  match c.stage with
  | .recording a _ _ => some a.id
  | _ => none

def called (c : Cycle) : List ActionId :=
  (c.report.outcomes.filter Outcome.isCalled).map Outcome.actionId ++ c.answered?.toList

def probes (c : Cycle) : List (EndpointId × Call) :=
  match c.stage with
  | .checkingIn | .closed => if c.report.outcomes = [] then [(c.endpoint, .ping)] else []
  | _ => []

/-- The calls for actions that a cycle has counted and not made yet. -/
def uncalled (c : Cycle) : Nat :=
  match c.stage with
  | .calling _ _ => 1
  | _ => 0

/-- What a cycle tells of its records goes with the calls that it has made. -/
structure Accounted (c : Cycle) (l : Ledger) (calls : List (EndpointId × Call)) : Prop where
  task : ∀ {a}, c.task? = some a → l.action? a.id = some a
  unskipped : ∀ id status, .skipped id status ∉ c.report.outcomes
  silent : c.stage = .pinging ∨ c.stage = .checkingIn → c.report.outcomes = []
  made : ∃ invoked, List.Forall₂ (l.Invokes c.endpoint) c.called invoked ∧
    calls = invoked ++ c.probes
  counted : c.report.remoteCalls = c.called.length + c.uncalled

theorem outcomes_advance : c.advance.report.outcomes = c.report.outcomes ∧
    c.advance.report.remoteCalls = c.report.remoteCalls := by
  unfold advance
  split
  · exact ⟨rfl, rfl⟩
  · split <;> exact ⟨rfl, rfl⟩

theorem outcomes_settle (o : Outcome) (c : Cycle) :
    (c.settle o).report.outcomes = c.report.outcomes ++ [o] :=
  (outcomes_advance (c := { c with report := c.report.add o })).1

theorem isCalled_outcomeOf (v : Verdict) (id : ActionId) (left : Nat) :
    (outcomeOf v id left).isCalled = true := by
  unfold outcomeOf
  split <;> rfl

theorem outcomeOf_ne_skipped (v : Verdict) (id i : ActionId) (left : Nat) (status : Status) :
    outcomeOf v id left ≠ .skipped i status := by
  unfold outcomeOf
  split <;> exact Outcome.noConfusion

theorem invoked_isCalled {a : Action} {left : Nat} (stage : c.stage = .calling a left)
    (reply : InvokeReply) :
    (∃ o, o.actionId = a.id ∧ o.isCalled = true ∧ c.invoked reply = c.settle o) ∨
      ∃ result, c.invoked reply = { c with stage := .recording a left result } := by
  unfold invoked
  simp only [stage]
  split
  · exact .inl ⟨_, rfl, rfl, rfl⟩
  · exact .inl ⟨_, rfl, rfl, rfl⟩
  · next result => exact .inr ⟨result, rfl⟩

theorem stage_settle (o : Outcome) (c : Cycle) :
    (∃ id, (c.settle o).stage = .preparing id) ∨ (c.settle o).stage = .refreshing ∨
      (c.settle o).stage = .closed := by
  unfold settle advance
  split
  · exact .inr (.inr (by simp [conclude, Report.visitedAny, Report.add]))
  · split
    · exact .inl ⟨_, rfl⟩
    · exact .inr (.inl rfl)

theorem accounted_settle (unskipped : ∀ id status, .skipped id status ∉ c.report.outcomes)
    (here : ∀ id status, o ≠ .skipped id status)
    (made : List.Forall₂ (l.Invokes c.endpoint)
      (((c.report.outcomes ++ [o]).filter Outcome.isCalled).map Outcome.actionId) calls)
    (counted : c.report.remoteCalls = ((c.report.outcomes ++ [o]).filter Outcome.isCalled).length) :
    (c.settle o).Accounted l calls := by
  have houtcomes := outcomes_settle o c
  have hcalls : (c.settle o).report.remoteCalls = c.report.remoteCalls :=
    (outcomes_advance (c := { c with report := c.report.add o })).2
  have hempty : (c.settle o).answered? = none ∧ (c.settle o).probes = [] ∧
      (c.settle o).uncalled = 0 ∧ ¬ ((c.settle o).stage = .pinging ∨
        (c.settle o).stage = .checkingIn) := by
    rcases stage_settle o c with ⟨id, h⟩ | h | h <;>
      simp [answered?, probes, uncalled, houtcomes, h]
  obtain ⟨hanswered, hprobes, huncalled, hsilent⟩ := hempty
  have hcalled : (c.settle o).called =
      ((c.report.outcomes ++ [o]).filter Outcome.isCalled).map Outcome.actionId := by
    rw [called, hanswered, houtcomes, Option.toList_none, List.append_nil]
  refine ⟨fun h => by simp at h, fun id status hmem => ?_, fun h => absurd h hsilent,
    ⟨calls, ?_, ?_⟩, ?_⟩
  · rw [houtcomes, List.mem_append, List.mem_singleton] at hmem
    exact hmem.elim (unskipped id status) fun h => here id status h.symm
  · rwa [hcalled, endpoint_settle]
  · rw [hprobes, List.append_nil]
  · rw [hcalls, hcalled, huncalled, List.length_map]
    exact counted

theorem Accounted.passed {id : ActionId} (accounted : c.Accounted l calls)
    (stage : c.stage = .preparing id) (uncalled : o.isCalled = false)
    (here : ∀ id status, o ≠ .skipped id status)
    (kept : ∀ {id a}, l.action? id = some a → l'.action? id = some a) :
    (c.settle o).Accounted l' calls := by
  obtain ⟨-, unskipped, -, ⟨invoked, hmade, rfl⟩, counted⟩ := accounted
  have hfilter : (c.report.outcomes ++ [o]).filter Outcome.isCalled =
      c.report.outcomes.filter Outcome.isCalled := by simp [uncalled]
  simp only [called, answered?, Cycle.uncalled, probes, stage, Option.toList_none,
    List.append_nil, List.length_map] at hmade counted ⊢
  refine accounted_settle unskipped here ?_ ?_
  · rw [hfilter]
    exact hmade.imp fun id call ⟨a, action, hcall⟩ => ⟨a, kept action, hcall⟩
  · rw [hfilter]
    exact counted

theorem Accounted.answered {a : Action} {left : Nat} {result : CallResult}
    (accounted : c.Accounted l calls) (stage : c.stage = .recording a left result)
    (hid : o.actionId = a.id) (called : o.isCalled = true)
    (here : ∀ id status, o ≠ .skipped id status)
    (kept : ∀ {id a}, l.action? id = some a → l'.action? id = some a) :
    (c.settle o).Accounted l' calls := by
  obtain ⟨-, unskipped, -, ⟨invoked, hmade, rfl⟩, counted⟩ := accounted
  simp only [Cycle.called, answered?, uncalled, probes, stage, Option.toList_some,
    List.append_nil, List.length_append, List.length_map, List.length_singleton,
    Nat.add_zero] at hmade counted ⊢
  refine accounted_settle unskipped here ?_ ?_
  · simp only [List.filter_append, List.map_append, List.filter_cons_of_pos called, List.filter_nil,
      List.map_cons, List.map_nil, hid]
    exact hmade.imp fun id call ⟨a, action, hcall⟩ => ⟨a, kept action, hcall⟩
  · simpa [called] using counted

theorem Accounted.replied {a : Action} {left : Nat} (accounted : c.Accounted l calls)
    (stage : c.stage = .calling a left) (result : CallResult) :
    { c with stage := .recording a left result }.Accounted l
      (calls ++ [(c.endpoint, Call.invoke a.procedure)]) := by
  obtain ⟨task, unskipped, -, ⟨invoked, hmade, rfl⟩, counted⟩ := accounted
  have action : l.action? a.id = some a := task (by rw [task?, stage])
  simp only [called, answered?, uncalled, stage, Option.toList_none, List.append_nil,
    List.length_map] at hmade counted
  refine ⟨fun {b} hb => task (by simpa [task?, stage] using hb), unskipped, fun h => ?_,
    ⟨invoked ++ [(c.endpoint, Call.invoke a.procedure)], ?_, ?_⟩, ?_⟩
  · rcases h with h | h <;> cases h
  · exact List.rel_append hmade (.cons ⟨a, action, rfl⟩ .nil)
  · rw [probes, stage, probes, List.append_nil, List.append_nil]
  · simpa [called, answered?, uncalled] using counted

theorem Accounted.still {later : List (EndpointId × Call)} (accounted : c.Accounted l calls)
    (outcomes : c'.report.outcomes = c.report.outcomes) (endpoint : c'.endpoint = c.endpoint)
    (answered : c'.answered? = c.answered?)
    (counted : c'.report.remoteCalls + c.uncalled = c.report.remoteCalls + c'.uncalled)
    (probes : c'.probes = c.probes ++ later)
    (silent : c'.stage = .pinging ∨ c'.stage = .checkingIn → c.report.outcomes = [])
    (task : ∀ {a}, c'.task? = some a → l'.action? a.id = some a)
    (kept : ∀ {id a}, l.action? id = some a → l'.action? id = some a) :
    c'.Accounted l' (calls ++ later) := by
  obtain ⟨-, unskipped, -, ⟨invoked, hmade, rfl⟩, hcounted⟩ := accounted
  have hcalled : c'.called = c.called := by rw [called, called, outcomes, answered]
  refine ⟨task, by rwa [outcomes], by rwa [outcomes], ⟨invoked, ?_, ?_⟩, ?_⟩
  · rw [hcalled, endpoint]
    exact hmade.imp fun id call ⟨a, action, hcall⟩ => ⟨a, kept action, hcall⟩
  · rw [probes, List.append_assoc]
  · rw [hcalled]
    omega

theorem settle_withStage (stage : Stage) (o : Outcome) :
    ({ c with stage } : Cycle).settle o = c.settle o := by
  unfold settle advance
  split <;> rfl

/-- Every step of a cycle is accounted for, if it comes to queued records only. -/
theorem Accounted.next (accounted : c.Accounted l calls) (hl : l.WellFormed)
    (hc : c.stage ≠ .loading)
    (queued : ∀ {id r}, c.stage = .preparing id → l.record? id c.endpoint = some r →
      r.status = .queued)
    (pace : Pace k policy wall c l c' l') :
    c'.Accounted l' (calls ++ c.pendingCall.toList.map fun call => (c.endpoint, call)) := by
  have htask {a : Action} (ha : c'.task? = some a) : l'.action? a.id = some a :=
    pace.task hl accounted.task ha
  have kept {id : ActionId} {a : Action} (action : l.action? id = some a) :
      l'.action? id = some a := pace.action_kept hl action
  cases pace with
  | turned turn =>
    have hidle : c.pendingCall = none := by
      cases turn <;> simp [pendingCall, *]
    rw [hidle, Option.toList_none, List.map_nil]
    cases turn with
    | loaded stage => exact absurd stage hc
    | skipped stage found terminal => exact absurd (queued stage found) terminal
    | barred stage | held stage | exhausted stage =>
      rw [List.append_nil]
      exact accounted.passed stage rfl (fun _ _ => Outcome.noConfusion) kept
    | refused stage =>
      rw [List.append_nil]
      exact accounted.answered stage rfl rfl (fun _ _ => Outcome.noConfusion) kept
    | @recorded a left result r verdict stage found hqueued meaning =>
      rw [List.append_nil]
      exact accounted.answered stage (actionId_outcomeOf verdict a.id left)
        (isCalled_outcomeOf verdict a.id left) (outcomeOf_ne_skipped verdict a.id · left) kept
    -- the call is counted here and made in the step after it, so the two sides meet in `uncalled`
    | spent stage =>
      refine accounted.still rfl rfl ?_ ?_ ?_ ?_ htask kept
      · simp [answered?, stage, call]
      · simp [uncalled, stage, call]
      · simp [probes, stage, call]
      · exact fun h => h.elim Stage.noConfusion Stage.noConfusion
    | unflagged stage =>
      by_cases hvisited : c.report.outcomes = []
      · refine accounted.still rfl rfl ?_ ?_ ?_ (fun _ => hvisited) htask kept <;>
          simp [answered?, uncalled, probes, stage, conclude, Report.visitedAny, hvisited]
      · refine accounted.still rfl rfl ?_ ?_ ?_ ?_ htask kept <;>
          simp [answered?, uncalled, probes, stage, conclude, Report.visitedAny, hvisited]
    | checkpointed stage =>
      refine accounted.still rfl rfl ?_ ?_ ?_ ?_ htask kept
      · simp [answered?, stage]
      · simp [uncalled, stage]
      · simp [probes, stage]
      · exact fun h => h.elim Stage.noConfusion Stage.noConfusion
    | checkedIn stage =>
      refine accounted.still rfl rfl ?_ ?_ ?_ ?_ htask kept
      · simp [answered?, stage]
      · simp [uncalled, stage]
      · simp [probes, stage]
      · exact fun h => h.elim Stage.noConfusion Stage.noConfusion
  -- a reply without a result settles the record in the same step in which the call is made
  | @answered a left stage reply =>
    have hcall : c.pendingCall = some (.invoke a.procedure) := by rw [pendingCall, stage]
    rw [hcall, Option.toList_some, List.map_singleton]
    unfold Cycle.invoked
    simp only [stage]
    split
    · next err =>
      rw [← settle_withStage (.recording a left default)]
      exact (accounted.replied stage default).answered (o := .error a.id _) rfl rfl rfl
        (fun _ _ => Outcome.noConfusion) id
    · rw [← settle_withStage (.recording a left default)]
      exact (accounted.replied stage default).answered (o := .noResult a.id left) rfl rfl rfl
        (fun _ _ => Outcome.noConfusion) id
    · next result => exact accounted.replied stage result
  | pinged stage reply =>
    have hsilent := accounted.silent (.inl stage)
    have hcall : c.pendingCall = some .ping := by rw [pendingCall, stage]
    rw [hcall, Option.toList_some, List.map_singleton]
    have hpinged : (c.pinged reply).report.outcomes = c.report.outcomes ∧
        (c.pinged reply).answered? = none ∧
        (c.pinged reply).report.remoteCalls = c.report.remoteCalls ∧
        (c.pinged reply).uncalled = 0 ∧ (c.pinged reply).probes = [(c.endpoint, .ping)] := by
      unfold Cycle.pinged
      split <;> simp [answered?, uncalled, probes, hsilent]
    obtain ⟨houtcomes, hanswered, hcounted, huncalled, hprobes⟩ := hpinged
    refine accounted.still houtcomes pinged_unmoved.1 ?_ ?_ ?_ (fun _ => hsilent) htask kept
    · rw [hanswered, answered?, stage]
    · rw [hcounted, huncalled, uncalled, stage]
    · rw [hprobes, probes, stage, List.nil_append]
  | rested stage =>
    have hidle : c.pendingCall = none := by rw [pendingCall, stage]
    rw [hidle, Option.toList_none, List.map_nil, List.append_nil]
    exact accounted

theorem accounted_loaded {e : EndpointId} {now : Instant} {pending : List PendingRecord} :
    { start e now with backlog := .ofPending pending }.advance.Accounted l [] := by
  have hopen : (start e now).report.checkpoint.isSome = false := rfl
  unfold advance
  simp only [hopen, Bool.false_eq_true, ↓reduceIte]
  split <;>
      exact ⟨fun h => (by cases h), fun _ _ => List.not_mem_nil, fun _ => rfl, ⟨[], .nil, rfl⟩, rfl⟩

theorem Accounted.closed (accounted : c.Accounted l calls) (closed : c.stage = .closed) :
    ∃ invoked, List.Forall₂ (l.Invokes c.endpoint)
        ((c.report.outcomes.filter Outcome.isCalled).map Outcome.actionId) invoked ∧
      calls = invoked ++ (if c.report.outcomes = [] then [(c.endpoint, .ping)] else []) := by
  obtain ⟨invoked, made, hcalls⟩ := accounted.made
  simp only [called, answered?, probes, closed, Option.toList_none, List.append_nil] at made hcalls
  exact ⟨invoked, made, hcalls⟩

theorem Trail.queued {ids : List ActionId} {l₀ : Ledger} {id : ActionId} {r : Record}
    (trail : Trail policy ids l₀ c l) (distinct : ids.Nodup) (old : ∀ id ∈ ids, id ≤ l₀.lastId)
    (queued : ∀ id ∈ ids, ∀ r, l₀.record? id c.endpoint = some r → r.status = .queued)
    (stage : c.stage = .preparing id) (found : l.record? id c.endpoint = some r) :
    r.status = .queued := by
  rw [trail.at_preparing distinct old stage, origin] at found
  split at found
  · obtain rfl := Option.some.inj found
    rfl
  · next hother =>
    obtain ⟨walked, hvisited, rfl⟩ := trail.route
    have hmem : id ∈ walked ++ c.report.checkpoint.toList := by
      rw [← hvisited, visited, stage]
      exact List.mem_append_right _ (List.mem_singleton_self id)
    rcases List.mem_append.mp hmem with hwalked | htaken
    · exact queued id (List.mem_append_left _ hwalked) r found
    · exact absurd (by simpa using htaken) hother

section run

variable {σ χ : Type} [ActionRows σ] [Legible σ] {channel : Channel χ} {clock : Nat → Instant}
  {e : EndpointId} {now : Instant} {s s' : Store σ} {memory memory' : χ} {report : Report}

/-- What a cycle that goes through to its report keeps on its way, from the loading of the backlog
on, is so when it is closed. -/
theorem runAt_along {Q : Run σ χ → Prop} (hs : Legible.Sound s.rows)
    (first : ∀ {wall r pending}, (Legible.ledger s.rows).pending e = .ok pending →
      step policy wall channel ⟨start e now, s, memory⟩ = (.ok (), r) →
      r.cycle = { start e now with backlog := .ofPending pending }.advance →
      Legible.ledger r.store.rows = Legible.ledger s.rows → Q r)
    (keep : ∀ {wall r r' pending}, (Legible.ledger s.rows).pending e = .ok pending →
      (Legible.ledger r.store.rows).WellFormed → r.cycle.endpoint = e →
      Trail policy (Backlog.ofPending pending).ids (Legible.ledger s.rows) r.cycle
        (Legible.ledger r.store.rows) →
      Round (Backlog.ofPending pending).items r.cycle → Q r →
      step policy wall channel r = (.ok (), r') →
      Pace (Legible.keeping σ) policy wall r.cycle (Legible.ledger r.store.rows) r'.cycle
        (Legible.ledger r'.store.rows) → Q r')
    (h : runAt policy channel clock e now s memory = (.ok report, s', memory')) :
    ∃ r pending, (Legible.ledger s.rows).pending e = .ok pending ∧
      r.cycle.stage = .closed ∧ r.cycle.report = report ∧ r.cycle.endpoint = e ∧
      r.cycle.now = now ∧ r.store = s' ∧ r.channel = memory' ∧
      Trail policy (Backlog.ofPending pending).ids (Legible.ledger s.rows) r.cycle
        (Legible.ledger s'.rows) ∧
      Round (Backlog.ofPending pending).items r.cycle ∧ Q r := by
  have hl := Legible.wellFormed hs
  -- `Q` goes along with the trail and the round, which say what its steps may rely on
  obtain ⟨r, ⟨pending, found, here, hnow, trail, round, hq⟩, -, closed, hreport, rfl, hchannel⟩ :=
    runAt_ok
    (P := fun r => ∃ pending, (Legible.ledger s.rows).pending e = .ok pending ∧
      r.cycle.endpoint = e ∧ r.cycle.now = now ∧
      Trail policy (Backlog.ofPending pending).ids (Legible.ledger s.rows) r.cycle
        (Legible.ledger r.store.rows) ∧
      Round (Backlog.ofPending pending).items r.cycle ∧ Q r)
    (fun {wall r} hstep => by
      obtain ⟨-, pace⟩ := pace_of_step hs hstep
      obtain ⟨pending, found, hc, hlast⟩ := pace.first
      refine ⟨pending, found, ?_⟩
      have hq := first found hstep hc hlast
      rw [hc, hlast]
      exact ⟨endpoint_advance, now_advance, trail_loaded, round_loaded pending, hq⟩)
    (fun {wall r r'} hsr hP hstep => by
      obtain ⟨pending, found, here, hnow, trail, round, hq⟩ := hP
      obtain ⟨-, pace⟩ := pace_of_step hsr hstep
      have distinct := Ledger.nodup_pending hl found
      have old := Ledger.le_lastId_pending hl found
      exact ⟨pending, found, pace.unmoved.1.trans here, pace.unmoved.2.trans hnow,
        trail.next distinct old pace, round.next trail.loaded trail.open_ pace,
        keep found (Legible.wellFormed hsr) here trail round hq hstep pace⟩)
    hs h
  exact ⟨r, pending, found, closed, hreport, here, hnow, rfl, hchannel, trail, round, hq⟩

theorem runAt_closed (hs : Legible.Sound s.rows)
    (h : runAt policy channel clock e now s memory = (.ok report, s', memory')) :
    ∃ c pending calls, (Legible.ledger s.rows).pending e = .ok pending ∧
      runAt policy channel.noting clock e now s (memory, []) = (.ok report, s', memory', calls) ∧
      c.stage = .closed ∧ c.report = report ∧ c.endpoint = e ∧ c.now = now ∧
      Trail policy (Backlog.ofPending pending).ids (Legible.ledger s.rows) c
        (Legible.ledger s'.rows) ∧
      Round (Backlog.ofPending pending).items c ∧ c.Accounted (Legible.ledger s'.rows) calls := by
  obtain ⟨calls, hran⟩ := runAt_noted h
  have hl := Legible.wellFormed hs
  obtain ⟨r, pending, found, closed, hreport, here, hnow, rfl, hchannel, trail, round,
      accounted⟩ := runAt_along
    (Q := fun r => r.cycle.Accounted (Legible.ledger r.store.rows) r.channel.2) hs
    (fun {wall r pending} _ hstep hc _ => by
      rw [hc, calls_of_step hstep]
      exact accounted_loaded)
    (fun {wall r r' pending} found hlr here trail _ accounted hstep pace => by
      have distinct := Ledger.nodup_pending hl found
      have old := Ledger.le_lastId_pending hl found
      rw [calls_of_step hstep]
      refine accounted.next hlr trail.loaded (fun stage found' => ?_) pace
      refine trail.queued distinct old (fun id hid r hr => ?_) stage found'
      exact Ledger.queued_pending hl found hid (here ▸ hr))
    hran
  exact ⟨r.cycle, pending, calls, found, hran, closed, hreport, here, hnow, trail, round,
    by rw [hchannel] at accounted; exact accounted⟩

end run

end Cycle

namespace World

variable {σ χ : Type} [ActionRows σ] [Legible σ]

/-- A cycle visits exactly what is due, in order. From any state on, and whatever the endpoint
answers, the outcomes of a cycle that goes through are those of the due records that were queued
when it began, by their times and then by their ids, and after them the one of the checkpoint if it
took one; none was skipped. The later records are counted, and stay as they were. An endpoint is
called once, in this order, for each outcome that tells of a call, and for a sign of life only if
there is no outcome. -/
theorem due_backlog_visited (events : List Event) (policy : Policy) (channel : Cycle.Channel χ)
    (clock : Nat → Instant) (e : EndpointId) (now : Instant) {memory memory' : χ}
    {report : Report} {s' : Store σ}
    (ran : Cycle.runAt policy channel clock e now (through events : World σ).store memory =
      (.ok report, s', memory')) :
    ∃ due later calls invoked,
      (through events : World σ).ledger.Agenda e now due later ∧
      report.ids = due ++ report.checkpoint.toList ∧
      (∀ id status, .skipped id status ∉ report.outcomes) ∧
      report.deferred = later.length ∧
      (∀ id ∈ later, (Legible.ledger s'.rows).record? id e =
        (through events : World σ).ledger.record? id e) ∧
      Cycle.runAt policy channel.noting clock e now (through events : World σ).store (memory, []) =
        (.ok report, s', memory', calls) ∧
      calls = invoked ++ (if report.outcomes = [] then [(e, .ping)] else []) ∧
      List.Forall₂ ((Legible.ledger s'.rows).Invokes e)
        ((report.outcomes.filter Outcome.isCalled).map Outcome.actionId) invoked ∧
      report.remoteCalls = invoked.length := by
  have hs : Legible.Sound (through events : World σ).store.rows := sound_through events
  have hl := Legible.wellFormed hs
  obtain ⟨c, pending, calls, found, noted, closed, rfl, rfl, rfl, trail, round, accounted⟩ :=
    Cycle.runAt_closed hs ran
  obtain ⟨due, later, agenda, hids, hdeferred⟩ := round.closed closed rfl hl found
  obtain ⟨-, unskipped, -, ⟨invoked, hmade, hcalls⟩, counted⟩ := accounted
  have hcurrent : c.stage.current = none := by rw [closed]; rfl
  have hcalled : c.called =
      (c.report.outcomes.filter Outcome.isCalled).map Outcome.actionId := by
    rw [Cycle.called, Cycle.answered?, closed, Option.toList_none, List.append_nil]
  have huncalled : c.uncalled = 0 := by rw [Cycle.uncalled, closed]
  have hprobes : c.probes = if c.report.outcomes = [] then [(c.endpoint, .ping)] else [] := by
    rw [Cycle.probes, closed]
  refine ⟨due, later, calls, invoked, agenda, hids, unskipped, hdeferred, fun id hid => ?_, noted,
    hprobes ▸ hcalls, hcalled ▸ hmade, ?_⟩
  -- a later record is visited neither as a due one nor as the checkpoint, whose id is new
  · obtain ⟨t, awaited, hlate⟩ := (agenda.mem_later id).mp hid
    refine trail.unvisited fun hvisited => ?_
    rw [Cycle.visited, hcurrent, Option.toList_none, List.append_nil, hids] at hvisited
    rcases List.mem_append.mp hvisited with hdue | htaken
    · obtain ⟨t', awaited', hle⟩ := (agenda.mem_due id).mp hdue
      exact hlate (awaited.time_eq awaited' ▸ hle)
    · obtain ⟨r, a, -, -, action, -⟩ := awaited
      have hold := ((hl.action_iff id).mp (by rw [action]; rfl)).2
      have hnew := trail.taken (by simpa using htaken)
      lia
  · rw [counted, huncalled, hmade.length_eq, Nat.add_zero]

def oneFlagged : List Event :=
  [.move (.create ⟨0, 0⟩ ⟨"install", ⟨2, 0⟩, none, ⟨"pkg.install", [.str "vim"], []⟩, ["m2", "m1"],
      2⟩),
    .flag "m1" true, .checkIn "m1" ⟨1, 0⟩]

def unreachable : Cycle.Channel Unit :=
  ⟨fun _ _ => pure (.error (.unreachable "no route")),
    fun _ => pure (.error (.unreachable "no route"))⟩

theorem oneFlagged_visited : ∃ (report : Report) (s' : Store Ledger) (due later : List ActionId)
    (calls : List (EndpointId × Call)),
    Cycle.runAt ⟨.standard, 5⟩ unreachable.noting (fun _ => ⟨3, 0⟩) "m1" ⟨3, 0⟩
      (through oneFlagged : World Ledger).store ((), []) = (.ok report, s', (), calls) ∧
    report.checkpoint = some 2 ∧ report.remoteCalls = 2 ∧ report.ids = due ++ [2] ∧
    (through oneFlagged : World Ledger).ledger.Agenda "m1" ⟨3, 0⟩ due later := by
  have shown : (match (Cycle.runAt ⟨.standard, 5⟩ unreachable (fun _ => ⟨3, 0⟩) "m1" ⟨3, 0⟩
      (through oneFlagged : World Ledger).store ()).1 with
      | .ok report => report.checkpoint == some 2 && report.remoteCalls == 2
      | .error _ => false) = true := by decide +kernel
  cases ran : Cycle.runAt ⟨.standard, 5⟩ unreachable (fun _ => ⟨3, 0⟩) "m1" ⟨3, 0⟩
      (through oneFlagged : World Ledger).store () with
  | mk answer rest =>
    rw [ran] at shown
    cases answer with
    | error err => cases shown
    | ok report =>
      obtain ⟨due, later, calls, invoked, agenda, hids, -, -, -, noted, -⟩ :=
        due_backlog_visited oneFlagged ⟨.standard, 5⟩ unreachable (fun _ => ⟨3, 0⟩) "m1" ⟨3, 0⟩ ran
      simp only [Bool.and_eq_true, beq_iff_eq] at shown
      obtain ⟨hcheckpoint, hcalls⟩ := shown
      rw [hcheckpoint] at hids
      exact ⟨report, rest.1, due, later, calls, noted, hcheckpoint, hcalls, hids, agenda⟩

end World

end FleetDispatch
