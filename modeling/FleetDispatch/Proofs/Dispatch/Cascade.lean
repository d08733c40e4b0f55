import FleetDispatch.Proofs.Dispatch.Account
import FleetDispatch.Proofs.Dispatch.Budget
import Mathlib.Data.List.Nodup

namespace FleetDispatch

namespace Ledger

variable {e : EndpointId} {l : Ledger}

/-- On an endpoint no action that is still to be done is scheduled before its prerequisite. -/
def Ordered (e : EndpointId) (l : Ledger) : Prop :=
  ∀ r ∈ l.records, r.endpoint = e → r.status = .queued → ∀ a ∈ l.action? r.actionId,
    ∀ p ∈ a.prerequisite, (l.record? p e).isSome → ∀ b ∈ l.action? p,
      b.scheduledAt ≤ a.scheduledAt

instance : Decidable (l.Ordered e) :=
  inferInstanceAs (Decidable (∀ r ∈ l.records, r.endpoint = e → r.status = .queued →
    ∀ a ∈ l.action? r.actionId, ∀ p ∈ a.prerequisite, (l.record? p e).isSome →
      ∀ b ∈ l.action? p, b.scheduledAt ≤ a.scheduledAt))

theorem Ordered.le {id p : ActionId} {r : Record} {a b : Action} (ordered : l.Ordered e)
    (own : l.record? id e = some r) (queued : r.status = .queued) (action : l.action? id = some a)
    (prerequisite : a.prerequisite = some p) (first : (l.record? p e).isSome)
    (prior : l.action? p = some b) : b.scheduledAt ≤ a.scheduledAt := by
  obtain rfl := actionId_of_record? own
  exact ordered r (Rows.mem_of_find? own) (endpoint_of_record? own) queued a action p prerequisite
    first b prior

/-- An action that comes after another one by prerequisites, each of which has a queued record on
an endpoint up to that other one. -/
inductive Descends (e : EndpointId) (l : Ledger) (p : ActionId) : ActionId → Prop
  | direct {id r a} (own : l.record? id e = some r) (queued : r.status = .queued)
    (action : l.action? id = some a) (prerequisite : a.prerequisite = some p) : Descends e l p id
  | further {q id r a} (via : Descends e l p q) (own : l.record? id e = some r)
    (queued : r.status = .queued) (action : l.action? id = some a)
    (prerequisite : a.prerequisite = some q) : Descends e l p id

theorem Descends.own {p id : ActionId} (h : l.Descends e p id) :
    ∃ r, l.record? id e = some r ∧ r.status = .queued := by
  cases h with
  | direct own queued => exact ⟨_, own, queued⟩
  | further via own queued => exact ⟨_, own, queued⟩

end Ledger

/-- What becomes of a record in a cycle, by how the record of its prerequisite stands: it is held
while that one is queued, fails with it, and is done if that one is completed. -/
inductive Record.Sequel (p : ActionId) (before prior after : Record) : Outcome → Prop
  | held (id : ActionId) (waiting : prior.status = .queued) :
    Sequel p before prior after (.held id p)
  | barred (id : ActionId) (failed : prior.status = .failed) (fails : after.status = .failed)
    (code : after.resultCode = some ResultCode.prerequisiteFailed)
    (tries : after.remainingTries = before.remainingTries) :
    Sequel p before prior after (.prerequisiteFailed id)
  | exhausted (id : ActionId) (completed : prior.status = .completed)
    (tries : before.remainingTries = 0) : Sequel p before prior after (.retriesExhausted id)
  | called {o : Outcome} (completed : prior.status = .completed)
    (tries : 0 < before.remainingTries) (called : o.isCalled) : Sequel p before prior after o

/-- An outcome is the sequel to how the prerequisite stands. That one stays as it is: it is no
longer queued, or the cycle has gone by it. -/
def Outcome.Settles (l₀ : Ledger) (e : EndpointId) (ids : List ActionId) (l : Ledger)
    (o : Outcome) : Prop :=
  ∀ {a p before}, l₀.action? o.actionId = some a → a.prerequisite = some p →
    l₀.record? o.actionId e = some before → (l₀.record? p e).isSome →
    ∃ prior after, l.record? p e = some prior ∧ (prior.status = .queued → p ∈ ids) ∧
      l.record? o.actionId e = some after ∧ before.Sequel p prior after o

namespace Cycle

variable {k : Keeping} {policy : Policy} {wall : Instant} {c c' : Cycle} {l l' l₀ : Ledger}
  {o : Outcome} {id p : ActionId} {e : EndpointId} {ids : List ActionId} {r : Record}
  {a : Action} {pending : List PendingRecord}

theorem Pace.frame (pace : Pace k policy wall c l c' l') (hl : l.WellFormed)
    (found : l.record? id c.endpoint = some r)
    (apart : r.status ≠ .queued ∨ c.stage.current ≠ some id) :
    l'.record? id c.endpoint = some r := by
  rcases apart with terminal | apart
  · obtain ⟨called, happens⟩ := pace.happens
    obtain ⟨next, stride, -⟩ := happens.stride id c.endpoint
    exact (stride.of_terminal hl found terminal).1
  · exact (pace.visit.others (hl.le_lastId_of_record found) (.inl apart)).trans found

theorem Trail.open_of_old (trail : Trail policy ids l₀ c l) (current : c.stage.current = some id)
    (old : id ≤ l₀.lastId) : c.report.checkpoint = none := by
  obtain ⟨walked, hvisited, -⟩ := trail.route
  cases hcheckpoint : c.report.checkpoint with
  | none => rfl
  | some i =>
    rw [visited, current, hcheckpoint] at hvisited
    have last := congrArg List.getLast? hvisited
    simp only [Option.toList_some, List.getLast?_append, List.getLast?_singleton, Option.some_or,
      Option.some.injEq] at last
    have taken := trail.taken hcheckpoint
    lia

theorem Trail.unsettled (trail : Trail policy (Backlog.ofPending pending).ids l₀ c l)
    (hl₀ : l₀.WellFormed) (found : l₀.pending c.endpoint = .ok pending)
    (current : c.stage.current = some id) : id ∉ c.report.ids :=
  trail.current_fresh (Ledger.nodup_pending hl₀ found) (Ledger.le_lastId_pending hl₀ found) current

/-- When a cycle is at an action that is not scheduled before its prerequisite, and both were
queued at first, then it has gone by the prerequisite. -/
theorem Round.prerequisite_before {b : Action} {q : Record}
    (round : Round (Backlog.ofPending pending).items c) (hl : l₀.WellFormed)
    (found : l₀.pending c.endpoint = .ok pending) (current : c.stage.current = some id)
    (open_ : c.report.checkpoint = none) (action : l₀.action? id = some a)
    (prerequisite : a.prerequisite = some p) (first : l₀.record? p c.endpoint = some q)
    (queued : q.status = .queued) (prior : l₀.action? p = some b)
    (order : b.scheduledAt ≤ a.scheduledAt) : p ∈ c.report.ids := by
  obtain ⟨walked, hitems, -, hvisited⟩ := round.route
  rw [visited, current, open_, Option.toList_some, Option.toList_none, List.append_nil] at hvisited
  -- the cycle is at the last record that it has gone by
  obtain ⟨gone, last, rfl, hgone, hlast⟩ := List.map_eq_append_iff.mp hvisited.symm
  obtain ⟨x, rest, rfl, rfl, hrest⟩ := List.map_eq_cons_iff.mp hlast
  obtain rfl := List.map_eq_nil_iff.mp hrest
  have at_time : x.scheduledAt = a.scheduledAt := by
    obtain ⟨-, a', -, -, action', time⟩ :=
      Ledger.awaits_of_mem hl found (p := x) (by simp [← hitems])
    rw [← time, Option.some.inj (action'.symm.trans action)]
  obtain ⟨y, hy, rfl, before_time⟩ :=
    Ledger.mem_of_awaits hl found ⟨q, b, first, queued, prior, rfl⟩
  have lt := (hl.prerequisite_lt action prerequisite).2
  have sorted := Backlog.sorted_ofPending pending
  rw [← hitems] at hy sorted
  rcases List.mem_append.mp hy with hy | hy
  · rcases List.mem_append.mp hy with hy | hy
    · exact hgone ▸ List.mem_map_of_mem hy
    · obtain rfl := List.mem_singleton.mp hy
      exact absurd lt (Int.lt_irrefl _)
  · have hbefore := (List.pairwise_append.mp sorted).2.2 x (by simp) y hy
    obtain ⟨hle, hids⟩ := PendingRecord.before_iff.mp hbefore
    rw [at_time, before_time] at hle hids
    exact absurd (hids (Instant.le_antisymm hle order)) (Int.not_le.mpr lt)

/-- How far a cycle has come in settling records after their prerequisites. -/
structure Cascade (l₀ : Ledger) (c : Cycle) (l : Ledger) : Prop where
  grown : ∀ {id r₀}, l₀.record? id c.endpoint = some r₀ →
    ∃ r, l.record? id c.endpoint = some r ∧ (r.status = .queued → r₀.status = .queued)
  begun : ∀ {t a p}, c.task? = some t → l₀.action? t.id = some a → a.prerequisite = some p →
    (l₀.record? p c.endpoint).isSome →
    ∃ prior, l.record? p c.endpoint = some prior ∧ prior.status = .completed
  settled : ∀ o ∈ c.report.outcomes, o.Settles l₀ c.endpoint c.report.ids l

namespace Cascade

theorem grow (cascade : Cascade l₀ c l) (hl : l.WellFormed) (pace : Pace k policy wall c l c' l')
    {r₀ : Record} (found : l₀.record? id c.endpoint = some r₀) :
    ∃ r, l'.record? id c.endpoint = some r ∧ (r.status = .queued → r₀.status = .queued) := by
  obtain ⟨r, hr, hqueued⟩ := cascade.grown found
  obtain ⟨called, happens⟩ := pace.happens
  obtain ⟨next, stride, -⟩ := happens.stride id c.endpoint
  obtain ⟨r', hr', -⟩ := stride.tries_le hl hr
  refine ⟨r', hr', fun queued => ?_⟩
  have old : id ≠ l.lastId + 1 := by
    have := hl.le_lastId_of_record hr
    lia
  obtain ⟨q, hq, was⟩ := stride.was_queued hr' queued old
  exact hqueued (Option.some.inj (hr.symm.trans hq) ▸ was)

theorem keep (cascade : Cascade l₀ c l) (hl : l.WellFormed)
    (fresh : ∀ i, c.stage.current = some i → i ∉ c.report.ids)
    (pace : Pace k policy wall c l c' l') (more : ∀ i ∈ c.report.ids, i ∈ c'.report.ids) :
    ∀ o ∈ c.report.outcomes, o.Settles l₀ c'.endpoint c'.report.ids l' := by
  intro o ho a p before action prerequisite own first
  rw [pace.unmoved.1] at own first ⊢
  have mem : o.actionId ∈ c.report.ids := List.mem_map_of_mem ho
  obtain ⟨prior, after, hprior, hgone, hafter, sequel⟩ :=
    cascade.settled o ho action prerequisite own first
  refine ⟨prior, after, pace.frame hl hprior ?_, fun waiting => more p (hgone waiting),
    pace.frame hl hafter (.inr fun h => fresh _ h mem), sequel⟩
  by_cases waiting : prior.status = .queued
  · exact .inr fun h => fresh p h (hgone waiting)
  · exact .inl waiting

theorem still (cascade : Cascade l₀ c l) (hl : l.WellFormed)
    (fresh : ∀ i, c.stage.current = some i → i ∉ c.report.ids)
    (pace : Pace k policy wall c l c' l') (outcomes : c'.report.outcomes = c.report.outcomes)
    (begun : ∀ {t a p}, c'.task? = some t → l₀.action? t.id = some a → a.prerequisite = some p →
      (l₀.record? p c.endpoint).isSome →
      ∃ prior, l'.record? p c.endpoint = some prior ∧ prior.status = .completed) :
    Cascade l₀ c' l' := by
  have here := pace.unmoved.1
  have same : c'.report.ids = c.report.ids := congrArg (List.map Outcome.actionId) outcomes
  refine ⟨fun found => ?_, fun task action prerequisite first => ?_, fun o ho => ?_⟩
  · rw [here] at found ⊢
    exact cascade.grow hl pace found
  · rw [here] at first ⊢
    exact begun task action prerequisite first
  · exact cascade.keep hl fresh pace (fun i hi => same ▸ hi) o (outcomes ▸ ho)

theorem settle (cascade : Cascade l₀ c l) (hl : l.WellFormed)
    (fresh : ∀ i, c.stage.current = some i → i ∉ c.report.ids)
    (pace : Pace k policy wall c l (c.settle o) l')
    (new : ∀ {a p before}, l₀.action? o.actionId = some a → a.prerequisite = some p →
      l₀.record? o.actionId c.endpoint = some before → (l₀.record? p c.endpoint).isSome →
      ∃ prior after, l.record? p c.endpoint = some prior ∧
        (prior.status = .queued → p ∈ c.report.ids) ∧ c.stage.current ≠ some p ∧
        l'.record? o.actionId c.endpoint = some after ∧ before.Sequel p prior after o) :
    Cascade l₀ (c.settle o) l' := by
  refine ⟨fun found => ?_, fun task => ?_, fun x hx => ?_⟩
  · rw [endpoint_settle] at found ⊢
    exact cascade.grow hl pace found
  · rw [task?_settle] at task
    cases task
  · rw [outcomes_settle, List.mem_append, List.mem_singleton] at hx
    rcases hx with hx | rfl
    · exact cascade.keep hl fresh pace (fun i hi => by simp [hi]) x hx
    · intro a p before action prerequisite own first
      rw [endpoint_settle] at own first ⊢
      obtain ⟨prior, after, hprior, hgone, apart, hafter, sequel⟩ :=
        new action prerequisite own first
      exact ⟨prior, after, pace.frame hl hprior (.inr apart),
        fun waiting => by simp [hgone waiting], hafter, sequel⟩

end Cascade

theorem prior_of_task {t : Action} {before : Record} {left : Nat} (hl₀ : l₀.WellFormed)
    (trail : Trail policy ids l₀ c l) (cascade : Cascade l₀ c l)
    (stage : c.stage = .calling t left ∨ ∃ result, c.stage = .recording t left result)
    (action₀ : l₀.action? t.id = some a) (prerequisite : a.prerequisite = some p)
    (own₀ : l₀.record? t.id c.endpoint = some before) (first : (l₀.record? p c.endpoint).isSome) :
    0 < before.remainingTries ∧ ∃ prior, l.record? p c.endpoint = some prior ∧
      prior.status = .completed ∧ c.stage.current ≠ some p := by
  have current : c.stage.current = some t.id := by
    rcases stage with stage | ⟨result, stage⟩ <;> rw [stage] <;> rfl
  have task : c.task? = some t := by
    rcases stage with stage | ⟨result, stage⟩ <;> rw [task?, stage]
  obtain ⟨r, as_was, -, tries, -⟩ := trail.spent stage
  rw [origin, trail.open_of_old current (hl₀.le_lastId action₀),
    if_neg (Option.some_ne_none t.id).symm] at as_was
  obtain rfl := Option.some.inj (own₀.symm.trans as_was)
  obtain ⟨prior, hprior, completed⟩ := cascade.begun task action₀ prerequisite first
  have lt := (hl₀.prerequisite_lt action₀ prerequisite).2
  refine ⟨by omega, prior, hprior, completed, fun h => ?_⟩
  have := Option.some.inj (current.symm.trans h)
  lia

theorem prior_of_preparing {a₀ : Action} (hl₀ : l₀.WellFormed)
    (found : l₀.pending c.endpoint = .ok pending) (ordered : l₀.Ordered c.endpoint)
    (trail : Trail policy (Backlog.ofPending pending).ids l₀ c l)
    (round : Round (Backlog.ofPending pending).items c) (cascade : Cascade l₀ c l)
    (stage : c.stage = .preparing id) (own : l.record? id c.endpoint = some r)
    (queued : r.status = .queued) (action : l.action? id = some a)
    (action₀ : l₀.action? id = some a₀) (prerequisite : a₀.prerequisite = some p)
    (first : (l₀.record? p c.endpoint).isSome) :
    a₀ = a ∧ l₀.record? id c.endpoint = some r ∧ ∃ prior, l.record? p c.endpoint = some prior ∧
      (prior.status = .queued → p ∈ c.report.ids) ∧ c.stage.current ≠ some p := by
  have current : c.stage.current = some id := by rw [stage]; rfl
  have open_ := trail.open_of_old current (hl₀.le_lastId action₀)
  have same : a₀ = a := by
    rw [Ledger.action?, (trail.untaken open_).1] at action
    exact Option.some.inj (action₀.symm.trans action)
  rw [trail.at_preparing (Ledger.nodup_pending hl₀ found) (Ledger.le_lastId_pending hl₀ found)
    stage, origin, open_, if_neg (Option.some_ne_none id).symm] at own
  obtain ⟨q, hq⟩ := Option.isSome_iff_exists.mp first
  obtain ⟨prior, hprior, was⟩ := cascade.grown hq
  have lt := (hl₀.prerequisite_lt action₀ prerequisite).2
  refine ⟨same, own, prior, hprior, fun waiting => ?_, fun h => ?_⟩
  · obtain ⟨b, hb⟩ := Option.isSome_iff_exists.mp (hl₀.record_action hq)
    exact round.prerequisite_before hl₀ found current open_ action₀ prerequisite hq (was waiting) hb
      (ordered.le own queued action₀ prerequisite first hb)
  · have := Option.some.inj (current.symm.trans h)
    lia

theorem Cascade.passed {after : Record} (cascade : Cascade l₀ c l) (hl₀ : l₀.WellFormed)
    (found : l₀.pending c.endpoint = .ok pending) (ordered : l₀.Ordered c.endpoint)
    (trail : Trail policy (Backlog.ofPending pending).ids l₀ c l)
    (round : Round (Backlog.ofPending pending).items c) (hl : l.WellFormed)
    (pace : Pace k policy wall c l (c.settle o) l') (stage : c.stage = .preparing id)
    (own : l.record? id c.endpoint = some r) (queued : r.status = .queued)
    (action : l.action? id = some a) (hid : o.actionId = id)
    (hafter : l'.record? id c.endpoint = some after)
    (sequel : ∀ {p prior}, a.prerequisite = some p → l.record? p c.endpoint = some prior →
      r.Sequel p prior after o) : Cascade l₀ (c.settle o) l' := by
  subst hid
  refine cascade.settle hl (fun _ => trail.unsettled hl₀ found) pace ?_
  intro a₀ p before action₀ prerequisite own₀ first
  obtain ⟨rfl, as_was, prior, hprior, gone, apart⟩ := prior_of_preparing hl₀ found ordered trail
    round cascade stage own queued action action₀ prerequisite first
  obtain rfl := Option.some.inj (own₀.symm.trans as_was)
  exact ⟨prior, after, hprior, gone, apart, hafter, sequel prerequisite hprior⟩

theorem Cascade.answered {t : Action} {left : Nat} (cascade : Cascade l₀ c l) (hl₀ : l₀.WellFormed)
    (found : l₀.pending c.endpoint = .ok pending)
    (trail : Trail policy (Backlog.ofPending pending).ids l₀ c l) (hl : l.WellFormed)
    (pace : Pace k policy wall c l (c.settle o) l')
    (stage : c.stage = .calling t left ∨ ∃ result, c.stage = .recording t left result)
    (hid : o.actionId = t.id) (called : o.isCalled = true) : Cascade l₀ (c.settle o) l' := by
  refine cascade.settle hl (fun _ => trail.unsettled hl₀ found) pace ?_
  intro a p before action prerequisite own first
  rw [hid] at action own ⊢
  obtain ⟨tries, prior, hprior, completed, apart⟩ :=
    prior_of_task hl₀ trail cascade stage action prerequisite own first
  obtain ⟨after, hafter, -⟩ := cascade.grow hl pace own
  exact ⟨prior, after, hprior, fun waiting => by simp [completed] at waiting, apart, hafter,
    .called completed tries called⟩

theorem Cascade.next (cascade : Cascade l₀ c l) (hl₀ : l₀.WellFormed)
    (found : l₀.pending c.endpoint = .ok pending) (ordered : l₀.Ordered c.endpoint)
    (trail : Trail policy (Backlog.ofPending pending).ids l₀ c l)
    (round : Round (Backlog.ofPending pending).items c) (hl : l.WellFormed)
    (pace : Pace k policy wall c l c' l') : Cascade l₀ c' l' := by
  have fresh (i : ActionId) (current : c.stage.current = some i) : i ∉ c.report.ids :=
    trail.unsettled hl₀ found current
  have idle {c' : Cycle} {l' : Ledger} (pace : Pace k policy wall c l c' l')
      (outcomes : c'.report.outcomes = c.report.outcomes) (task : c'.task? = none) :
      Cascade l₀ c' l' :=
    cascade.still hl fresh pace outcomes fun h => by simp [task] at h
  have step := pace
  cases pace with
  | turned turn =>
    cases turn with
    | loaded stage => exact absurd stage trail.loaded
    | skipped stage own terminal =>
      refine absurd ?_ terminal
      exact trail.queued (Ledger.nodup_pending hl₀ found) (Ledger.le_lastId_pending hl₀ found)
        (fun id hid r hr => Ledger.queued_pending hl₀ found hid hr) stage own
    | @barred i q x p prior stage own queued action prerequisite first failed =>
      refine cascade.passed hl₀ found ordered trail round hl step stage own queued action rfl
        (own_putRecord own rfl rfl) ?_
      intro p' prior' prerequisite' first'
      obtain rfl := Option.some.inj (prerequisite.symm.trans prerequisite')
      obtain rfl := Option.some.inj (first.symm.trans first')
      exact .barred i failed rfl rfl rfl
    | @held i q x p prior stage own queued action prerequisite first waiting =>
      refine cascade.passed hl₀ found ordered trail round hl step stage own queued action rfl own ?_
      intro p' prior' prerequisite' first'
      obtain rfl := Option.some.inj (prerequisite.symm.trans prerequisite')
      obtain rfl := Option.some.inj (first.symm.trans first')
      exact .held i waiting
    | @exhausted i q x stage own queued action unblocked tries =>
      exact cascade.passed hl₀ found ordered trail round hl step stage own queued action rfl
        (own_putRecord own rfl rfl) fun prerequisite first =>
          .exhausted i (unblocked _ _ prerequisite first) tries
    | @spent i q x n stage own queued action unblocked tries =>
      -- no outcome yet, but from here on the prerequisite is known to be completed
      refine cascade.still hl fresh step rfl fun task action₀ prerequisite first => ?_
      obtain rfl := Option.some.inj task
      obtain rfl := Ledger.id_of_action? action
      obtain ⟨rfl, -, prior, hprior, -, apart⟩ := prior_of_preparing hl₀ found ordered trail
        round cascade stage own queued action action₀ prerequisite first
      exact ⟨prior, step.frame hl hprior (.inr apart), unblocked _ _ prerequisite hprior⟩
    | refused stage own terminal =>
      exact cascade.answered hl₀ found trail hl step (.inr ⟨_, stage⟩) rfl rfl
    | recorded stage own queued meaning =>
      exact cascade.answered hl₀ found trail hl step (.inr ⟨_, stage⟩) (actionId_outcomeOf _ _ _)
        (isCalled_outcomeOf _ _ _)
    | unflagged stage clear =>
      exact idle step (by unfold conclude; split <;> rfl) task?_conclude
    | checkpointed stage flagged action => exact idle step rfl rfl
    | checkedIn stage => exact idle step rfl rfl
  | @answered t left stage reply =>
    rcases invoked_isCalled stage reply with ⟨o, hid, called, hnext⟩ | ⟨result, hnext⟩
    · rw [hnext] at step ⊢
      exact cascade.answered hl₀ found trail hl step (.inl stage) hid called
    · rw [hnext] at step ⊢
      refine cascade.still hl fresh step rfl fun task => cascade.begun ?_
      simpa [task?, stage] using task
  | pinged stage reply =>
    exact idle step (by unfold Cycle.pinged; split <;> rfl) task?_pinged
  | rested stage => exact cascade

theorem cascade_loaded {e : EndpointId} {now : Instant} :
    Cascade l { start e now with backlog := .ofPending pending }.advance l where
  grown found := ⟨_, found, id⟩
  begun task := by
    rw [task?_advance] at task
    cases task
  settled o ho := by
    rw [outcomes_advance.1] at ho
    cases ho

end Cycle

namespace Record.Sequel

variable {p : ActionId} {before prior after : Record} {o : Outcome}

theorem held_iff (h : before.Sequel p prior after o) :
    o = .held o.actionId p ↔ prior.status = .queued := by
  cases h with
  | held id waiting => simp [Outcome.actionId, waiting]
  | barred id failed => simp [failed]
  | exhausted id completed => simp [completed]
  | called completed tries called =>
    simp only [completed, reduceCtorEq, iff_false]
    intro h
    rw [h] at called
    cases called

theorem barred_iff (h : before.Sequel p prior after o) :
    o = .prerequisiteFailed o.actionId ↔ prior.status = .failed := by
  cases h with
  | held id waiting => simp [waiting]
  | barred id failed => simp [Outcome.actionId, failed]
  | exhausted id completed => simp [completed]
  | called completed tries called =>
    simp only [completed, reduceCtorEq, iff_false]
    intro h
    rw [h] at called
    cases called

theorem of_failed (h : before.Sequel p prior after o) (failed : prior.status = .failed) :
    o.isCalled = false ∧ after.status = .failed ∧
      after.resultCode = some ResultCode.prerequisiteFailed := by
  cases h with
  | barred id _ fails code => exact ⟨rfl, fails, code⟩
  | held id waiting => simp [waiting] at failed
  | exhausted id completed => simp [completed] at failed
  | called completed => simp [completed] at failed

theorem of_completed (h : before.Sequel p prior after o) (completed : prior.status = .completed) :
    if before.remainingTries = 0 then o = .retriesExhausted o.actionId else o.isCalled = true := by
  cases h with
  | held id waiting => simp [waiting] at completed
  | barred id failed => simp [failed] at completed
  | exhausted id _ tries => rw [if_pos tries]; rfl
  | called _ tries called => rw [if_neg (by omega)]; exact called

end Record.Sequel

/-- What a cycle has made of a record when it ends, by how it leaves the one of the prerequisite. -/
structure Report.Resolves (report : Report) (e : EndpointId) (l : Ledger) (id p : ActionId)
    (tries : Nat) (o : Outcome) (prior after : Record) : Prop where
  only : ∀ x, x ∈ report.outcomes ∧ x.actionId = id ↔ x = o
  first : l.record? p e = some prior
  own : l.record? id e = some after
  held : o = .held id p ↔ prior.status = .queued
  barred : o = .prerequisiteFailed id ↔ prior.status = .failed
  failed : prior.status = .failed → o.isCalled = false ∧ after.status = .failed ∧
    after.resultCode = some ResultCode.prerequisiteFailed
  completed : prior.status = .completed →
    if tries = 0 then o = .retriesExhausted id else o.isCalled = true

namespace Cycle

section run

variable {σ χ : Type} [ActionRows σ] [Legible σ] {policy : Policy} {channel : Channel χ}
  {clock : Nat → Instant} {e : EndpointId} {now : Instant} {s s' : Store σ} {memory memory' : χ}
  {report : Report} {id p : ActionId} {a : Action} {before : Record}

theorem runAt_resolves (hs : Legible.Sound s.rows) (ordered : (Legible.ledger s.rows).Ordered e)
    (ran : runAt policy channel clock e now s memory = (.ok report, s', memory'))
    (own : (Legible.ledger s.rows).record? id e = some before) (queued : before.status = .queued)
    (action : (Legible.ledger s.rows).action? id = some a) (due : a.scheduledAt ≤ now)
    (prerequisite : a.prerequisite = some p)
    (first : ((Legible.ledger s.rows).record? p e).isSome) :
    ∃ o prior after, report.Resolves e (Legible.ledger s'.rows) id p before.remainingTries o prior
      after := by
  have hl := Legible.wellFormed hs
  obtain ⟨r, pending, found, closed, rfl, rfl, rfl, rfl, -, trail, round, cascade⟩ := runAt_along
    (Q := fun r => Cascade (Legible.ledger s.rows) r.cycle (Legible.ledger r.store.rows)) hs
    (fun {wall r pending} _ _ hc hlast => by
      rw [hc, hlast]
      exact cascade_loaded)
    (fun {wall r r' pending} found hlr here trail round cascade _ pace => by
      subst here
      exact cascade.next hl found ordered trail round hlr pace)
    ran
  obtain ⟨items, later, agenda, ids, -⟩ := round.closed closed rfl hl found
  have distinct : r.cycle.report.ids.Nodup := by
    have h := trail.nodup_visited (Ledger.nodup_pending hl found)
      (Ledger.le_lastId_pending hl found)
    have current : r.cycle.stage.current = none := by rw [closed]; rfl
    rwa [visited, current, Option.toList_none, List.append_nil] at h
  have gone : id ∈ r.cycle.report.ids := by
    rw [ids]
    exact List.mem_append_left _
      ((agenda.mem_due id).mpr ⟨_, ⟨_, a, own, queued, action, rfl⟩, due⟩)
  obtain ⟨o, ho, rfl⟩ := List.mem_map.mp gone
  obtain ⟨prior, after, hprior, -, hafter, sequel⟩ :=
    cascade.settled o ho action prerequisite own first
  refine ⟨o, prior, after, ?_, hprior, hafter, sequel.held_iff, sequel.barred_iff,
    sequel.of_failed, sequel.of_completed⟩
  intro x
  constructor
  · rintro ⟨hx, same⟩
    exact List.inj_on_of_nodup_map distinct hx ho same
  · rintro rfl
    exact ⟨ho, rfl⟩

theorem runAt_descends (hs : Legible.Sound s.rows) (ordered : (Legible.ledger s.rows).Ordered e)
    (ran : runAt policy channel clock e now s memory = (.ok report, s', memory'))
    (descends : (Legible.ledger s.rows).Descends e p id)
    (first : ((Legible.ledger s.rows).record? p e).isSome)
    (failed : ((Legible.ledger s'.rows).record? p e).map Record.status = some .failed)
    (action : (Legible.ledger s.rows).action? id = some a) (due : a.scheduledAt ≤ now) :
    .prerequisiteFailed id ∈ report.outcomes ∧
      ((Legible.ledger s'.rows).record? id e).map Record.status = some .failed := by
  have hl := Legible.wellFormed hs
  have step {q i : ActionId} {r : Record} {x : Action}
      (own : (Legible.ledger s.rows).record? i e = some r) (queued : r.status = .queued)
      (action : (Legible.ledger s.rows).action? i = some x) (due : x.scheduledAt ≤ now)
      (prerequisite : x.prerequisite = some q)
      (first : ((Legible.ledger s.rows).record? q e).isSome)
      (failed : ((Legible.ledger s'.rows).record? q e).map Record.status = some .failed) :
      .prerequisiteFailed i ∈ report.outcomes ∧
        ((Legible.ledger s'.rows).record? i e).map Record.status = some .failed := by
    obtain ⟨o, prior, after, resolves⟩ :=
      runAt_resolves hs ordered ran own queued action due prerequisite first
    rw [resolves.first, Option.map_some, Option.some.injEq] at failed
    obtain rfl := resolves.barred.mpr failed
    refine ⟨((resolves.only _).mpr rfl).1, ?_⟩
    rw [resolves.own, Option.map_some, (resolves.failed failed).2.1]
  -- from the failed action down, the cycle has failed one after the other
  induction descends generalizing a with
  | direct own queued hx prerequisite =>
    obtain rfl := Option.some.inj (action.symm.trans hx)
    exact step own queued action due prerequisite first failed
  | @further q i r x via own queued hx prerequisite ih =>
    obtain rfl := Option.some.inj (action.symm.trans hx)
    -- what comes before a due action is due as well
    obtain ⟨between, hbetween, -⟩ := via.own
    obtain ⟨y, hy⟩ := Option.isSome_iff_exists.mp (hl.record_action hbetween)
    have present : ((Legible.ledger s.rows).record? q e).isSome := by rw [hbetween]; rfl
    have earlier := ordered.le own queued action prerequisite present hy
    exact step own queued action due prerequisite present (ih hy (Instant.le_trans earlier due)).2

end run

end Cycle

namespace World

variable {σ χ : Type} [ActionRows σ] [Legible σ]

/-- Prerequisites cascade within a cycle. Take a state in which no action that an endpoint is still
to do is scheduled before its prerequisite, and a cycle on that endpoint that goes through. Then
each due record has one outcome, and this follows the prerequisite as it stands at the end: the
record is held if that one is still queued, fails without a call if it failed, and is dispatched if
it is completed, or given up if no try was left. So all that is due fails with a failed action that
it comes after. -/
theorem prerequisites_cascade (events : List Event) (policy : Policy) (channel : Cycle.Channel χ)
    (clock : Nat → Instant) (e : EndpointId) (now : Instant) {memory memory' : χ}
    {report : Report} {s' : Store σ}
    (ordered : (through events : World σ).ledger.Ordered e)
    (ran : Cycle.runAt policy channel clock e now (through events : World σ).store memory =
      (.ok report, s', memory')) :
    (∀ {id a p before}, (through events : World σ).ledger.record? id e = some before →
      before.status = .queued → (through events : World σ).ledger.action? id = some a →
      a.scheduledAt ≤ now → a.prerequisite = some p →
      ((through events : World σ).ledger.record? p e).isSome →
      ∃ o prior after, report.Resolves e (Legible.ledger s'.rows) id p before.remainingTries o prior
        after) ∧
    (∀ {id a p}, (through events : World σ).ledger.Descends e p id →
      ((through events : World σ).ledger.record? p e).isSome →
      ((Legible.ledger s'.rows).record? p e).map Record.status = some .failed →
      (through events : World σ).ledger.action? id = some a → a.scheduledAt ≤ now →
      .prerequisiteFailed id ∈ report.outcomes ∧
        ((Legible.ledger s'.rows).record? id e).map Record.status = some .failed) ∧
    ∃ calls invoked,
      Cycle.runAt policy channel.noting clock e now (through events : World σ).store (memory, []) =
        (.ok report, s', memory', calls) ∧
      calls = invoked ++ (if report.outcomes = [] then [(e, .ping)] else []) ∧
      List.Forall₂ ((Legible.ledger s'.rows).Invokes e)
        ((report.outcomes.filter Outcome.isCalled).map Outcome.actionId) invoked := by
  have hs : Legible.Sound (through events : World σ).store.rows := sound_through events
  refine ⟨fun own queued action due prerequisite first => ?_,
    fun descends first failed action due => ?_, ?_⟩
  · exact Cycle.runAt_resolves hs ordered ran own queued action due prerequisite first
  · exact Cycle.runAt_descends hs ordered ran descends first failed action due
  · obtain ⟨c, pending, calls, -, noted, closed, rfl, rfl, -, -, -, accounted⟩ :=
      Cycle.runAt_closed hs ran
    obtain ⟨invoked, made, hcalls⟩ := accounted.closed closed
    exact ⟨calls, invoked, noted, hcalls, made⟩

def chain : List Event :=
  [.move (.create ⟨0, 0⟩ ⟨"first", ⟨1, 0⟩, none, ⟨"test.ping", [], []⟩, ["m1"], 2⟩),
    .move (.create ⟨0, 0⟩ ⟨"second", ⟨1, 0⟩, some 1, ⟨"test.ping", [], []⟩, ["m1"], 2⟩),
    .move (.create ⟨0, 0⟩ ⟨"third", ⟨2, 0⟩, some 2, ⟨"test.ping", [], []⟩, ["m1"], 2⟩)]

def chainPending : List PendingRecord :=
  [⟨.fresh 1 "m1" 2, "first", ⟨1, 0⟩⟩, ⟨.fresh 2 "m1" 2, "second", ⟨1, 0⟩⟩,
    ⟨.fresh 3 "m1" 2, "third", ⟨2, 0⟩⟩]

def refusing : Cycle.Channel Unit :=
  ⟨fun _ _ => pure (.ok (some (.failed 1 .null))), fun _ => pure (.ok none)⟩

theorem chain_fails : ∃ (report : Report) (s' : Store Ledger) (o : Outcome) (prior after : Record),
    Cycle.runAt ⟨.standard, 5⟩ refusing (fun _ => ⟨3, 0⟩) "m1" ⟨3, 0⟩
      (through chain : World Ledger).store () = (.ok report, s', ()) ∧
    report.Resolves "m1" (Legible.ledger s'.rows) 2 1 2 o prior after ∧
    .prerequisiteFailed 3 ∈ report.outcomes ∧
    ((Legible.ledger s'.rows).record? 3 "m1").map Record.status = some .failed := by
  have shown : (match Cycle.runAt ⟨.standard, 5⟩ refusing (fun _ => ⟨3, 0⟩) "m1" ⟨3, 0⟩
      (through chain : World Ledger).store () with
      | (.ok _, s', _) => ((Legible.ledger s'.rows).record? 1 "m1").map Record.status
      | (.error _, _) => none) = some .failed := by
    have sorted : chainPending.mergeSort PendingRecord.before = chainPending :=
      List.mergeSort_of_pairwise (by decide)
    have loaded : Cycle.step ⟨.standard, 5⟩ ⟨3, 0⟩ refusing
        ⟨.start "m1" ⟨3, 0⟩, (through chain : World Ledger).store, ()⟩ =
          (.ok (), ⟨Cycle.advance { Cycle.start "m1" ⟨3, 0⟩ with
            backlog := .ofPending (chainPending.mergeSort PendingRecord.before) },
            (through chain).store, ()⟩) := by
      rfl
    -- a sort does not reduce by itself, and the cycle that goes on from a sorted backlog does
    rw [Backlog.ofPending, sorted, sorted] at loaded
    rw [Cycle.runAt, loaded]
    decide +kernel
  have ordered : (through chain : World Ledger).ledger.Ordered "m1" := by decide +kernel
  have second : (through chain : World Ledger).ledger.record? 2 "m1" = some (.fresh 2 "m1" 2) := by
    decide +kernel
  have third : (through chain : World Ledger).ledger.record? 3 "m1" = some (.fresh 3 "m1" 2) := by
    decide +kernel
  have known (id p : ActionId) (h : ((through chain : World Ledger).ledger.action? id).any
      (fun a => decide (a.prerequisite = some p ∧ a.scheduledAt ≤ ⟨3, 0⟩)) = true) :
      ∃ a, (through chain : World Ledger).ledger.action? id = some a ∧ a.prerequisite = some p ∧
        a.scheduledAt ≤ ⟨3, 0⟩ := by
    obtain ⟨a, action, h⟩ := (Option.any_eq_true _ _).mp h
    exact ⟨a, action, of_decide_eq_true h⟩
  obtain ⟨a, action, prerequisite, due⟩ := known 2 1 (by decide +kernel)
  obtain ⟨b, action', prerequisite', due'⟩ := known 3 2 (by decide +kernel)
  cases ran : Cycle.runAt ⟨.standard, 5⟩ refusing (fun _ => ⟨3, 0⟩) "m1" ⟨3, 0⟩
      (through chain : World Ledger).store () with
  | mk answer rest =>
    rw [ran] at shown
    cases answer with
    | error err => cases shown
    | ok report =>
      obtain ⟨resolves, fails, -⟩ := prerequisites_cascade chain ⟨.standard, 5⟩ refusing
        (fun _ => ⟨3, 0⟩) "m1" ⟨3, 0⟩ ordered ran
      have present : ((through chain : World Ledger).ledger.record? 1 "m1").isSome := by
        decide +kernel
      obtain ⟨o, prior, after, second'⟩ :=
        resolves second rfl action due prerequisite present
      have descends : (through chain : World Ledger).ledger.Descends "m1" 1 3 :=
        .further (.direct second rfl action prerequisite) third rfl action' prerequisite'
      obtain ⟨barred, failed⟩ := fails descends present shown action' due'
      exact ⟨report, rest.1, o, prior, after, rfl, second', barred, failed⟩

end World

end FleetDispatch
