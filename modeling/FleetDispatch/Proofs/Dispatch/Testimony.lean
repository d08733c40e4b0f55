import FleetDispatch.Proofs.Dispatch.Cascade
import FleetDispatch.Proofs.Dispatch.Weave

namespace FleetDispatch

/-- What an outcome says of the record of an action, as the record was before and is after it. -/
def Outcome.Attests (a : Action) (before after : Record) : Outcome → Prop
  | completed _ n =>
    after.status = .completed ∧ after.resultCode = some 0 ∧ after.remainingTries = n ∧
      before.remainingTries = n + 1
  | failed _ n message =>
    after.status = .failed ∧ after.resultCode = some (-1) ∧ after.remainingTries = n ∧
      before.remainingTries = n + 1 ∧
      after.resultMsg = some (String.ofList (message.toList.take 1024))
  | noResult _ n => after = { before with remainingTries := n } ∧ before.remainingTries = n + 1
  | error _ _ =>
    ∃ n, after = { before with remainingTries := n } ∧ before.remainingTries = n + 1
  | held _ p => after = before ∧ a.prerequisite = some p
  | prerequisiteFailed _ =>
    after.status = .failed ∧ after.resultCode = some (-100) ∧
      after.remainingTries = before.remainingTries
  | retriesExhausted _ =>
    after.status = .failed ∧ after.resultCode = some (-101) ∧ before.remainingTries = 0
  | skipped _ _ => False

namespace Cycle

variable {k : Keeping} {policy : Policy} {wall : Instant} {c c' : Cycle} {l l' l₀ : Ledger}
  {o : Outcome} {id : ActionId} {ids : List ActionId} {r : Record} {a : Action}
  {pending : List PendingRecord}

/-- Whether an outcome tells the truth of the record of its action, as a cycle has come to it and
as it stands now. -/
def Attested (policy : Policy) (l₀ : Ledger) (c : Cycle) (l : Ledger) (o : Outcome) : Prop :=
  ∃ before after a, c.origin policy l₀ o.actionId = some before ∧ before.status = .queued ∧
    l.record? o.actionId c.endpoint = some after ∧ l.action? o.actionId = some a ∧
    o.Attests a before after

theorem Pace.origin_kept (pace : Pace k policy wall c l c' l') (hl : l.WellFormed)
    (trail : Trail policy ids l₀ c l) (found : l.record? id c.endpoint = some r) :
    c'.origin policy l₀ id = c.origin policy l₀ id := by
  cases pace.visit with
  | loaded => exact origin_congr checkpoint_advance endpoint_advance id
  | spent | replied => exact origin_congr rfl rfl id
  | settled => exact origin_congr checkpoint_settle endpoint_settle id
  | rested rests => exact origin_congr rests.checkpoint rests.endpoint id
  | checkpointed stage action =>
    -- no record has had the id that the checkpoint gets
    have old := hl.le_lastId_of_record found
    have new : l.lastId + 1 ≠ id := by lia
    rw [origin, origin, trail.open_ stage, if_neg (Option.some_ne_none id).symm, action]
    exact if_neg fun h => new (Option.some.inj h)

theorem Attested.keep (attested : c.Attested policy l₀ l o) (hl : l.WellFormed)
    (trail : Trail policy ids l₀ c l) (apart : c.stage.current ≠ some o.actionId)
    (pace : Pace k policy wall c l c' l') : c'.Attested policy l₀ l' o := by
  obtain ⟨before, after, a, hbefore, queued, hafter, action, attests⟩ := attested
  refine ⟨before, after, a, (pace.origin_kept hl trail hafter).trans hbefore, queued, ?_,
    pace.action_kept hl action, attests⟩
  rw [pace.unmoved.1]
  exact pace.frame hl hafter (.inr apart)

theorem attested_settle (hl : l.WellFormed) (trail : Trail policy ids l₀ c l)
    (fresh : ∀ i, c.stage.current = some i → i ∉ c.report.ids)
    (attested : ∀ o ∈ c.report.outcomes, c.Attested policy l₀ l o)
    (pace : Pace k policy wall c l (c.settle o) l') (hl' : l'.WellFormed) {before after : Record}
    (hbefore : c.origin policy l₀ o.actionId = some before) (queued : before.status = .queued)
    (hafter : l'.record? o.actionId c.endpoint = some after)
    (attests : ∀ a, l'.action? o.actionId = some a → o.Attests a before after) :
    ∀ x ∈ (c.settle o).report.outcomes, (c.settle o).Attested policy l₀ l' x := by
  intro x hx
  rw [outcomes_settle, List.mem_append, List.mem_singleton] at hx
  rcases hx with hx | rfl
  · refine (attested x hx).keep hl trail (fun h => ?_) pace
    exact fresh _ h (List.mem_map_of_mem hx)
  · obtain ⟨a, action⟩ := Option.isSome_iff_exists.mp (hl'.record_action hafter)
    exact ⟨before, after, a, (origin_congr checkpoint_settle endpoint_settle _).trans hbefore,
      queued, by rwa [endpoint_settle], action, attests a action⟩

theorem attests_unrecorded {left : Nat} (trail : Trail policy ids l₀ c l)
    (stage : c.stage = .calling a left) (reply : InvokeReply)
    (unanswered : ∀ result, reply ≠ .ok (some result)) :
    ∃ o, c.invoked reply = c.settle o ∧ ∃ before after,
      c.origin policy l₀ o.actionId = some before ∧ before.status = .queued ∧
      l.record? o.actionId c.endpoint = some after ∧ ∀ b, o.Attests b before after := by
  obtain ⟨before, hbefore, queued, tries, hafter⟩ := trail.spent (.inl stage)
  unfold Cycle.invoked
  simp only [stage]
  split
  · next err =>
    exact ⟨_, rfl, before, _, hbefore, queued, hafter, fun _ => ⟨left, rfl, tries⟩⟩
  · exact ⟨_, rfl, before, _, hbefore, queued, hafter, fun _ => ⟨rfl, tries⟩⟩
  · next result => exact absurd rfl (unanswered result)

theorem attests_outcomeOf {left : Nat} {before : Record} (p : Procedure) (result : CallResult)
    (time : Instant) (id : ActionId) (tries : before.remainingTries = left + 1) (b : Action) :
    let v := Verdict.ofResult p result
    (outcomeOf v id left).Attests b before
      ({ before with remainingTries := left }.finished v.status v.code v.message time) := by
  intro v
  rcases Verdict.ofResult_cases p result with ⟨status, code⟩ | ⟨status, code⟩
  · have ho : outcomeOf v id left = .completed id left := by rw [outcomeOf, status]
    rw [ho]
    exact ⟨status, congrArg some code, rfl, tries⟩
  · have ho : outcomeOf v id left = .failed id left v.message := by rw [outcomeOf, status]
    rw [ho]
    exact ⟨status, congrArg some code, rfl, tries, rfl⟩

theorem attested_next (hl₀ : l₀.WellFormed) (found : l₀.pending c.endpoint = .ok pending)
    (trail : Trail policy (Backlog.ofPending pending).ids l₀ c l) (hl : l.WellFormed)
    (hl' : l'.WellFormed) (attested : ∀ o ∈ c.report.outcomes, c.Attested policy l₀ l o)
    (pace : Pace k policy wall c l c' l') :
    ∀ o ∈ c'.report.outcomes, c'.Attested policy l₀ l' o := by
  have fresh (i : ActionId) (current : c.stage.current = some i) : i ∉ c.report.ids :=
    trail.unsettled hl₀ found current
  have still {c' : Cycle} {l' : Ledger} (pace : Pace k policy wall c l c' l')
      (outcomes : c'.report.outcomes = c.report.outcomes) :
      ∀ o ∈ c'.report.outcomes, c'.Attested policy l₀ l' o := by
    intro o ho
    rw [outcomes] at ho
    exact (attested o ho).keep hl trail (fun h => fresh _ h (List.mem_map_of_mem ho)) pace
  have as_was {id : ActionId} (stage : c.stage = .preparing id) :
      c.origin policy l₀ id = l.record? id c.endpoint :=
    (trail.at_preparing (Ledger.nodup_pending hl₀ found) (Ledger.le_lastId_pending hl₀ found)
      stage).symm
  have step := pace
  cases pace with
  | turned turn =>
    cases turn with
    | loaded stage => exact absurd stage trail.loaded
    | skipped stage own terminal =>
      -- what was queued when the cycle began is queued when the cycle comes to it
      refine absurd ?_ terminal
      exact trail.queued (Ledger.nodup_pending hl₀ found) (Ledger.le_lastId_pending hl₀ found)
        (fun id hid r hr => Ledger.queued_pending hl₀ found hid hr) stage own
    | @barred id r x p prior stage own queued action prerequisite first failed =>
      refine attested_settle hl trail fresh attested step hl' ((as_was stage).trans own) queued
        (own_putRecord own rfl rfl) fun b _ => ?_
      exact ⟨rfl, rfl, rfl⟩
    | @held id r x p prior stage own queued action prerequisite first waiting =>
      refine attested_settle hl trail fresh attested step hl' ((as_was stage).trans own) queued own
        fun b hb => ?_
      obtain rfl := Option.some.inj (hb.symm.trans action)
      exact ⟨rfl, prerequisite⟩
    | @exhausted id r x stage own queued action unblocked tries =>
      refine attested_settle hl trail fresh attested step hl' ((as_was stage).trans own) queued
        (own_putRecord own rfl rfl) fun b _ => ?_
      exact ⟨rfl, rfl, tries⟩
    | spent => exact still step rfl
    | @refused t left result r stage own terminal =>
      -- the record of a call that the cycle has made is its own to finish
      obtain ⟨before, -, queued, -, hnow⟩ := trail.spent (.inr ⟨_, stage⟩)
      obtain rfl := Option.some.inj (own.symm.trans hnow)
      exact absurd queued terminal
    | @recorded t left result r verdict stage own queued meaning =>
      -- the result is written over the record as the call left it, with one try less
      obtain ⟨before, hbefore, hqueued, tries, hnow⟩ := trail.spent (.inr ⟨_, stage⟩)
      obtain rfl := Option.some.inj (own.symm.trans hnow)
      subst meaning
      rw [← actionId_outcomeOf (Verdict.ofResult t.procedure result) t.id left] at hbefore own
      refine attested_settle hl trail fresh attested step hl' hbefore hqueued ?_ fun b _ =>
        attests_outcomeOf t.procedure result (k.time wall) t.id tries b
      rw [record?_withResult]
      exact own_putRecord own rfl rfl
    | unflagged stage clear => exact still step (by unfold conclude; split <;> rfl)
    | checkpointed stage flagged action => exact still step rfl
    | checkedIn stage => exact still step rfl
  | @answered t left stage reply =>
    by_cases unanswered : ∀ result, reply ≠ .ok (some result)
    · obtain ⟨o, hnext, before, after, hbefore, queued, hafter, attests⟩ :=
        attests_unrecorded trail stage reply unanswered
      rw [hnext] at step ⊢
      exact attested_settle hl trail fresh attested step hl' hbefore queued hafter fun b _ =>
        attests b
    · push Not at unanswered
      obtain ⟨result, rfl⟩ := unanswered
      refine still step ?_
      rw [invoked, stage]
  | pinged stage reply => exact still step (by unfold Cycle.pinged; split <;> rfl)
  | rested stage => exact attested

section run

variable {σ χ : Type} [ActionRows σ] [Legible σ] {channel : Channel χ} {clock : Nat → Instant}
  {e : EndpointId} {now : Instant} {s s' : Store σ} {memory memory' : χ} {report : Report}

theorem runAt_attested (hs : Legible.Sound s.rows)
    (ran : runAt policy channel clock e now s memory = (.ok report, s', memory')) :
    ∃ c : Cycle, c.report = report ∧ c.endpoint = e ∧ ∀ o ∈ report.outcomes,
      c.Attested policy (Legible.ledger s.rows) (Legible.ledger s'.rows) o := by
  have hl := Legible.wellFormed hs
  obtain ⟨r, pending, -, -, rfl, here, -, rfl, -, -, -, -, attested⟩ := runAt_along
    (Q := fun r => Legible.Sound r.store.rows ∧ ∀ o ∈ r.cycle.report.outcomes,
      r.cycle.Attested policy (Legible.ledger s.rows) (Legible.ledger r.store.rows) o) hs
    (fun {wall r pending} _ hstep hc _ => by
      refine ⟨(pace_of_step hs hstep).1, fun o ho => ?_⟩
      rw [hc, outcomes_advance.1] at ho
      cases ho)
    (fun {wall r r' pending} found hlr here trail _ ⟨hsr, attested⟩ hstep pace => by
      subst here
      obtain ⟨hsr', -⟩ := pace_of_step hsr hstep
      exact ⟨hsr', attested_next hl found trail hlr (Legible.wellFormed hsr') attested pace⟩)
    ran
  exact ⟨r.cycle, rfl, here, attested⟩

end run

end Cycle

namespace World

variable {σ χ : Type} [ActionRows σ] [Legible σ]

/-- The report of a cycle is true of the store. What it says of an action holds between the record
as the cycle came to it, which was queued, and the record as it is at the end; the one that the
cycle came to for its own checkpoint was new. -/
theorem report_attested (events : List Event) (policy : Policy) (channel : Cycle.Channel χ)
    (clock : Nat → Instant) (e : EndpointId) (now : Instant) {memory memory' : χ}
    {report : Report} {s' : Store σ}
    (ran : Cycle.runAt policy channel clock e now (through events : World σ).store memory =
      (.ok report, s', memory')) :
    ∀ o ∈ report.outcomes, ∃ before after a,
      (if report.checkpoint = some o.actionId then
        some (.fresh o.actionId e policy.checkpointRetries)
        else (through events : World σ).ledger.record? o.actionId e) = some before ∧
      before.status = .queued ∧
      (Legible.ledger s'.rows).record? o.actionId e = some after ∧
      (Legible.ledger s'.rows).action? o.actionId = some a ∧ o.Attests a before after := by
  have hs : Legible.Sound (through events : World σ).store.rows := sound_through events
  obtain ⟨c, rfl, rfl, attested⟩ := Cycle.runAt_attested hs ran
  exact attested

theorem oneInstall_attested : ∃ (report : Report) (s' : Store Ledger)
    (install checkpoint : Record),
    Cycle.runAt ⟨.standard, 5⟩ obliging (fun _ => ⟨3, 0⟩) "m1" ⟨3, 0⟩
      (through oneInstall : World Ledger).store () = (.ok report, s', ()) ∧
    report.outcomes = [.completed 1 1, .completed 2 4] ∧ report.checkpoint = some 2 ∧
    (Legible.ledger s'.rows).record? 1 "m1" = some install ∧ install.status = .completed ∧
      install.remainingTries = 1 ∧
    (Legible.ledger s'.rows).record? 2 "m1" = some checkpoint ∧ checkpoint.status = .completed ∧
      checkpoint.remainingTries = 4 := by
  have shown : (Cycle.runAt ⟨.standard, 5⟩ obliging (fun _ => ⟨3, 0⟩) "m1" ⟨3, 0⟩
      (through oneInstall : World Ledger).store ()).1.toOption.map
        (fun report => (report.outcomes, report.checkpoint)) =
      some ([.completed 1 1, .completed 2 4], some 2) := by
    decide +kernel
  cases ran : Cycle.runAt ⟨.standard, 5⟩ obliging (fun _ => ⟨3, 0⟩) "m1" ⟨3, 0⟩
      (through oneInstall : World Ledger).store () with
  | mk answer rest =>
    rw [ran] at shown
    cases answer with
    | error err => cases shown
    | ok report =>
      obtain ⟨outcomes, taken⟩ := Prod.mk.inj (Option.some.inj shown)
      have attested := report_attested oneInstall ⟨.standard, 5⟩ obliging (fun _ => ⟨3, 0⟩) "m1"
        ⟨3, 0⟩ ran
      obtain ⟨-, install, -, -, -, found, -, completed, -, tries, -⟩ :=
        attested (.completed 1 1) (by simp [outcomes])
      obtain ⟨-, checkpoint, -, -, -, found', -, completed', -, tries', -⟩ :=
        attested (.completed 2 4) (by simp [outcomes])
      exact ⟨report, rest.1, install, checkpoint, rfl, outcomes, taken, found, completed, tries,
        found', completed', tries'⟩

end World

end FleetDispatch
