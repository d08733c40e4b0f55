import FleetDispatch.Cycle
import FleetDispatch.Proofs.Store.Legible
import FleetDispatch.Proofs.Store.Transaction
import FleetDispatch.Proofs.Transition

namespace FleetDispatch

@[simp] theorem Record.kept_finished (k : Keeping) (status : Status) (code : Int) (msg : String)
    (time : Instant) (r : Record) :
    (r.finished status code msg time).kept k = r.finished status code msg (k.time time) := rfl

theorem Record.kept_withTries {k : Keeping} {r : Record} (h : r.kept k = r) (n : Nat) :
    ({ r with remainingTries := n } : Record).kept k = { r with remainingTries := n } := by
  have hc := congrArg Record.completedAt h
  simp only [Record.kept] at hc ⊢
  rw [hc]

namespace Ledger

def flag (e : EndpointId) (l : Ledger) : Ledger :=
  l.putEndpoint (l.endpoint e).markRefresh

def checkIn (e : EndpointId) (time : Instant) (l : Ledger) : Ledger :=
  l.putEndpoint ((l.endpoint e).checkIn time)

/-- Whether nothing that an action waits for stands in its way on an endpoint. -/
def Unblocked (a : Action) (e : EndpointId) (l : Ledger) : Prop :=
  ∀ p r, a.prerequisite = some p → l.record? p e = some r → r.status = .completed

def withResult (stale : Bool) (r : Record) (e : EndpointId) (time : Instant) (l : Ledger) :
    Ledger :=
  let l := l.putRecord r
  let l := if stale then l.flag e else l
  l.checkIn e time

def checkpoint (k : Keeping) (e : EndpointId) (now wall : Instant) (tries : Nat) (l : Ledger) :
    Action :=
  l.created (k.time wall) ((NewAction.packageRefresh e now tries).kept k)

end Ledger

namespace Cycle

/-- What one transaction of a cycle can do to the cycle and to the ledger. -/
inductive Turn (k : Keeping) (policy : Policy) (wall : Instant) (c : Cycle) (l : Ledger) :
    Cycle → Ledger → Prop
  | loaded {pending} (stage : c.stage = .loading) (found : l.pending c.endpoint = .ok pending) :
    Turn k policy wall c l { c with backlog := .ofPending pending }.advance l
  | skipped {id r} (stage : c.stage = .preparing id) (found : l.record? id c.endpoint = some r)
    (terminal : r.status ≠ .queued) :
    Turn k policy wall c l (c.settle (.skipped id r.status)) l
  | barred {id r a p prior} (stage : c.stage = .preparing id)
    (found : l.record? id c.endpoint = some r) (queued : r.status = .queued)
    (action : l.action? id = some a) (prerequisite : a.prerequisite = some p)
    (first : l.record? p c.endpoint = some prior) (failed : prior.status = .failed) :
    Turn k policy wall c l (c.settle (.prerequisiteFailed id))
      (l.putRecord (r.finished .failed ResultCode.prerequisiteFailed prerequisiteFailedMessage
        (k.time wall)))
  | held {id r a p prior} (stage : c.stage = .preparing id)
    (found : l.record? id c.endpoint = some r) (queued : r.status = .queued)
    (action : l.action? id = some a) (prerequisite : a.prerequisite = some p)
    (first : l.record? p c.endpoint = some prior) (waiting : prior.status = .queued) :
    Turn k policy wall c l (c.settle (.held id p)) l
  | exhausted {id r a} (stage : c.stage = .preparing id)
    (found : l.record? id c.endpoint = some r) (queued : r.status = .queued)
    (action : l.action? id = some a) (unblocked : l.Unblocked a c.endpoint)
    (tries : r.remainingTries = 0) :
    Turn k policy wall c l (c.settle (.retriesExhausted id))
      (l.putRecord (r.finished .failed ResultCode.retriesExhausted retriesExhaustedMessage
        (k.time wall)))
  | spent {id r a n} (stage : c.stage = .preparing id)
    (found : l.record? id c.endpoint = some r) (queued : r.status = .queued)
    (action : l.action? id = some a) (unblocked : l.Unblocked a c.endpoint)
    (tries : r.remainingTries = n + 1) :
    Turn k policy wall c l (c.call a n) (l.putRecord { r with remainingTries := n })
  | refused {a left result r} (stage : c.stage = .recording a left result)
    (found : l.record? a.id c.endpoint = some r) (terminal : r.status ≠ .queued) :
    Turn k policy wall c l
      (c.refuse a.id (.alreadyTerminal r.actionId r.endpoint r.status)).2 l
  | recorded {a left result r verdict} (stage : c.stage = .recording a left result)
    (found : l.record? a.id c.endpoint = some r) (queued : r.status = .queued)
    (meaning : verdict = Verdict.ofResult a.procedure result) :
    Turn k policy wall c l (c.settle (outcomeOf verdict a.id left))
      (l.withResult (isStale policy a.procedure result)
        (r.finished verdict.status verdict.code verdict.message (k.time wall)) c.endpoint
        (k.time wall))
  | unflagged (stage : c.stage = .refreshing)
    (clear : (l.endpoint c.endpoint).needsRefresh = false) :
    Turn k policy wall c l c.conclude l
  | checkpointed {a} (stage : c.stage = .refreshing)
    (flagged : (l.endpoint c.endpoint).needsRefresh = true)
    (action : a = l.checkpoint k c.endpoint c.now wall policy.checkpointRetries) :
    Turn k policy wall c l
      { c with stage := .preparing a.id, report := { c.report with checkpoint := some a.id } }
      ((l.issue a [c.endpoint] policy.checkpointRetries).putEndpoint
        (l.endpoint c.endpoint).clearRefresh)
  | checkedIn (stage : c.stage = .checkingIn) :
    Turn k policy wall c l
      { c with stage := .closed, report := { c.report with probe := some .alive } }
      (l.checkIn c.endpoint (k.time wall))

variable {σ : Type} [ActionRows σ] [Legible σ]
variable {policy : Policy} {wall : Instant} {c c' : Cycle} {rows rows' : σ} {ending : Ending}

def committed (ending : Ending) (rows rows' : σ) : σ :=
  if ending = .commit then rows' else rows

/-- What a transaction leaves behind is sound, and is what a turn of the cycle makes of it. -/
def Turned (policy : Policy) (wall : Instant) (c : Cycle) (rows : σ) (ending : Ending) (c' : Cycle)
    (rows' : σ) : Prop :=
  Legible.Sound (committed ending rows rows') ∧
    Turn (Legible.keeping σ) policy wall c (Legible.ledger rows) c'
      (Legible.ledger (committed ending rows rows'))

theorem turned_load (hs : Legible.Sound rows) (stage : c.stage = .loading)
    (h : Work.Yields c.load rows (ending, c') rows') :
    Turned policy wall c rows ending c' rows' := by
  obtain ⟨pending, mid, hl, hr⟩ := Work.yields_bind h
  obtain ⟨rfl, hp⟩ := Legible.pending_ok hs (Work.yields_attempt hl)
  obtain ⟨he, rfl⟩ := Work.yields_pure hr
  obtain ⟨rfl, rfl⟩ := Prod.mk.inj he
  exact ⟨hs, .loaded stage hp⟩

theorem turned_save {r : Record} {c₁ : Cycle} (hs : Legible.Sound rows)
    (h : Work.Yields (do
      Work.attempt .save (ActionRows.save r)
      return (Ending.commit, c₁)) rows (ending, c') rows')
    (ht : ∀ l', l' = (Legible.ledger rows).putRecord (r.kept (Legible.keeping σ)) →
      Turn (Legible.keeping σ) policy wall c (Legible.ledger rows) c₁ l') :
    Turned policy wall c rows ending c' rows' := by
  obtain ⟨u, mid, hl, hr⟩ := Work.yields_bind h
  obtain ⟨hs', hput⟩ := Legible.save_ok hs (Work.yields_attempt hl)
  obtain ⟨he, rfl⟩ := Work.yields_pure hr
  obtain ⟨rfl, rfl⟩ := Prod.mk.inj he
  exact ⟨hs', ht _ hput⟩

theorem turned_giveUp {r : Record} {code : Int} {msg : String} {o : Outcome}
    (hs : Legible.Sound rows) (queued : r.status = .queued)
    (h : Work.Yields (c.giveUp r code msg wall o) rows (ending, c') rows')
    (ht : ∀ l', l' = (Legible.ledger rows).putRecord
        (r.finished .failed code msg ((Legible.keeping σ).time wall)) →
      Turn (Legible.keeping σ) policy wall c (Legible.ledger rows) (c.settle o) l') :
    Turned policy wall c rows ending c' rows' := by
  unfold giveUp at h
  rw [Record.fail, Record.finish_of_queued queued] at h
  exact turned_save hs h ht

theorem turned_spend {id : ActionId} {r : Record} {a : Action} (hs : Legible.Sound rows)
    (stage : c.stage = .preparing id)
    (found : (Legible.ledger rows).record? id c.endpoint = some r) (queued : r.status = .queued)
    (action : (Legible.ledger rows).action? id = some a)
    (unblocked : (Legible.ledger rows).Unblocked a c.endpoint)
    (h : Work.Yields (c.spend r a wall) rows (ending, c') rows') :
    Turned policy wall c rows ending c' rows' := by
  have hid := Ledger.actionId_of_record? found
  unfold spend at h
  split at h
  · next hn =>
    refine turned_giveUp hs queued h fun l' hl' => ?_
    rw [hl', hid]
    exact .exhausted stage found queued action unblocked (by omega)
  · next hn =>
    obtain ⟨n, htries⟩ := Nat.exists_eq_add_of_le' (by omega : 1 ≤ r.remainingTries)
    rw [Record.consume_of_queued queued htries] at h
    refine turned_save hs h fun l' hl' => ?_
    rw [hl', Record.kept_withTries (Legible.kept_record hs found)]
    exact .spent stage found queued action unblocked htries

theorem turned_prepare {id : ActionId} (hs : Legible.Sound rows) (stage : c.stage = .preparing id)
    (h : Work.Yields (c.prepare id wall) rows (ending, c') rows') :
    Turned policy wall c rows ending c' rows' := by
  obtain ⟨found, mid, hl, hr⟩ := Work.yields_bind h
  obtain ⟨rfl, hfound⟩ := Legible.loadRecord_ok hs (Work.yields_attempt hl)
  cases found with
  | none => exact absurd hr Work.not_yields_throw
  | some r =>
    simp only at hr
    -- in the order of the source: the record itself, its action, and then the prerequisite
    split at hr
    · next hterminal =>
      obtain ⟨he, rfl⟩ := Work.yields_pure hr
      obtain ⟨rfl, rfl⟩ := Prod.mk.inj he
      exact ⟨hs, .skipped stage hfound (Record.isTerminal_iff.mp hterminal)⟩
    · next hterminal =>
      have queued : r.status = .queued := by
        simpa [Record.isTerminal_iff] using hterminal
      obtain ⟨a, mid, hl, hr₁⟩ := Work.yields_bind hr
      obtain ⟨rfl, haction⟩ := Legible.loadAction_ok hs (Work.yields_attempt hl)
      cases hp : a.prerequisite with
      | none =>
        simp only [hp] at hr₁
        exact turned_spend hs stage hfound queued haction (by simp [Ledger.Unblocked, hp]) hr₁
      | some p =>
        simp only [hp] at hr₁
        obtain ⟨prior, mid, hl, hr₂⟩ := Work.yields_bind hr₁
        obtain ⟨rfl, hprior⟩ := Legible.loadRecord_ok hs (Work.yields_attempt hl)
        have hid := Ledger.actionId_of_record? hfound
        split at hr₂
        · next hf =>
          obtain ⟨q, rfl, hq⟩ := Option.map_eq_some_iff.mp hf
          exact turned_giveUp hs queued hr₂ fun l' hl' =>
            hl' ▸ .barred stage hfound queued haction hp hprior hq
        · next hf =>
          obtain ⟨q, rfl, hq⟩ := Option.map_eq_some_iff.mp hf
          obtain ⟨he, rfl⟩ := Work.yields_pure hr₂
          obtain ⟨rfl, rfl⟩ := Prod.mk.inj he
          exact ⟨hs, .held stage hfound queued haction hp hprior hq⟩
        · next hne₁ hne₂ =>
          refine turned_spend hs stage hfound queued haction ?_ hr₂
          intro p' q hp' hq
          obtain rfl := Option.some.inj (hp.symm.trans hp')
          obtain rfl := hprior.symm.trans hq
          cases hst : q.status with
          | completed => rfl
          | queued => simp [hst] at hne₂
          | failed => simp [hst] at hne₁

theorem kept_ledger_endpoint (hs : Legible.Sound rows) (e : EndpointId) :
    ((Legible.ledger rows).endpoint e).kept (Legible.keeping σ) =
      (Legible.ledger rows).endpoint e := by
  rw [Ledger.endpoint_eq]
  cases he : (Legible.ledger rows).endpoint? e with
  | none => rfl
  | some x => exact Legible.kept_endpoint hs he

theorem turned_result {a : Action} {left : Nat} {result : CallResult} {r : Record} {rows₁ : σ}
    {l : Ledger} {verdict : Verdict} {stale : Bool} (hs : Legible.Sound rows₁)
    (stage : c.stage = .recording a left result) (found : l.record? a.id c.endpoint = some r)
    (queued : r.status = .queued) (meaning : verdict = Verdict.ofResult a.procedure result)
    (hstale : stale = isStale policy a.procedure result)
    (hl : (Legible.ledger rows₁).checkIn c.endpoint ((Legible.keeping σ).time wall) =
      l.withResult stale (r.finished verdict.status verdict.code verdict.message
        ((Legible.keeping σ).time wall)) c.endpoint ((Legible.keeping σ).time wall))
    (h : Work.Yields (do
      Work.attempt .recordCheckin (ActionRows.recordCheckin c.endpoint wall)
      return (Ending.commit, c.settle (outcomeOf verdict a.id left))) rows₁ (ending, c') rows') :
    Legible.Sound (committed ending rows rows') ∧ Turn (Legible.keeping σ) policy wall c l c'
      (Legible.ledger (committed ending rows rows')) := by
  obtain ⟨u, mid, hw, hr⟩ := Work.yields_bind h
  obtain ⟨hs', hput⟩ := Legible.recordCheckin_ok hs (Work.yields_attempt hw)
  obtain ⟨he, rfl⟩ := Work.yields_pure hr
  obtain ⟨rfl, rfl⟩ := Prod.mk.inj he
  refine ⟨hs', ?_⟩
  rw [committed, if_pos rfl, hput]
  change Turn _ _ _ _ _ _ ((Legible.ledger rows₁).checkIn c.endpoint _)
  rw [hl, hstale]
  exact .recorded stage found queued meaning

theorem turned_record {a : Action} {left : Nat} {result : CallResult} (hs : Legible.Sound rows)
    (stage : c.stage = .recording a left result)
    (h : Work.Yields (c.recordResult policy a left result wall) rows (ending, c') rows') :
    Turned policy wall c rows ending c' rows' := by
  obtain ⟨found, mid, hl, hr⟩ := Work.yields_bind h
  obtain ⟨rfl, hfound⟩ := Legible.loadRecord_ok hs (Work.yields_attempt hl)
  cases found with
  | none => exact absurd hr Work.not_yields_throw
  | some r =>
    simp only at hr
    by_cases queued : r.status = .queued
    · rw [Record.finish_of_queued queued] at hr
      obtain ⟨u, rows₁, hsave, hr₁⟩ := Work.yields_bind hr
      obtain ⟨hs₁, hput⟩ := Legible.save_ok hs (Work.yields_attempt hsave)
      rw [Record.kept_finished] at hput
      -- a stale package list raises the flag before the check-in is written
      split at hr₁
      · next hstale =>
        obtain ⟨e, mid, hload, hr₂⟩ := Work.yields_bind hr₁
        obtain ⟨rfl, he⟩ := Legible.loadEndpoint_ok hs₁ (Work.yields_attempt hload)
        obtain ⟨u, rows₂, hmark, hr₃⟩ := Work.yields_bind hr₂
        obtain ⟨hs₂, hflag⟩ := Legible.saveEndpoint_ok hs₁ (Work.yields_attempt hmark)
        refine turned_result hs₂ stage hfound queued rfl hstale.symm ?_ hr₃
        have hk : e.markRefresh.kept (Legible.keeping σ) = e.markRefresh := by
          rw [← he]
          exact congrArg Endpoint.markRefresh (kept_ledger_endpoint hs₁ c.endpoint)
        rw [hflag, hk, ← he, hput]
        rfl
      · next hstale =>
        refine turned_result hs₁ stage hfound queued rfl (Bool.eq_false_iff.mpr hstale).symm ?_ hr₁
        rw [hput]
        rfl
    · rw [Record.finish_of_terminal queued] at hr
      obtain ⟨he, rfl⟩ := Work.yields_pure hr
      obtain ⟨rfl, rfl⟩ := Prod.mk.inj he
      exact ⟨hs, .refused stage hfound queued⟩

theorem turned_refresh (hs : Legible.Sound rows) (stage : c.stage = .refreshing)
    (h : Work.Yields (c.refresh policy wall) rows (ending, c') rows') :
    Turned policy wall c rows ending c' rows' := by
  obtain ⟨e, mid, hl, hr⟩ := Work.yields_bind h
  obtain ⟨rfl, hfound⟩ := Legible.loadEndpoint_ok hs (Work.yields_attempt hl)
  split at hr
  · next hflag =>
    obtain ⟨a, rows₁, hinsert, hr₁⟩ := Work.yields_bind hr
    obtain ⟨hs₁, hid, -, hissue⟩ := Legible.insertAction_ok hs (Work.yields_attempt hinsert)
    obtain ⟨u, rows₂, hclear, hr₂⟩ := Work.yields_bind hr₁
    obtain ⟨hs₂, hput⟩ := Legible.saveEndpoint_ok hs₁ (Work.yields_attempt hclear)
    obtain ⟨he, rfl⟩ := Work.yields_pure hr₂
    obtain ⟨rfl, rfl⟩ := Prod.mk.inj he
    refine ⟨hs₂, ?_⟩
    have hk : e.clearRefresh.kept (Legible.keeping σ) = e.clearRefresh := by
      rw [← hfound]
      exact congrArg Endpoint.clearRefresh (kept_ledger_endpoint hs c.endpoint)
    rw [committed, if_pos rfl, hput, hk, hissue, hid, ← hfound]
    exact .checkpointed stage (by rw [hfound]; exact hflag) rfl
  · next hflag =>
    obtain ⟨he, rfl⟩ := Work.yields_pure hr
    obtain ⟨rfl, rfl⟩ := Prod.mk.inj he
    exact ⟨hs, .unflagged stage (by simpa [hfound] using hflag)⟩

theorem turned_checkIn (hs : Legible.Sound rows) (stage : c.stage = .checkingIn)
    (h : Work.Yields (c.checkIn wall) rows (ending, c') rows') :
    Turned policy wall c rows ending c' rows' := by
  obtain ⟨u, mid, hl, hr⟩ := Work.yields_bind h
  obtain ⟨hs', hput⟩ := Legible.recordCheckin_ok hs (Work.yields_attempt hl)
  obtain ⟨he, rfl⟩ := Work.yields_pure hr
  obtain ⟨rfl, rfl⟩ := Prod.mk.inj he
  refine ⟨hs', ?_⟩
  rw [committed, if_pos rfl, hput]
  exact .checkedIn stage

variable {s s' : Store σ} {w : Work σ (Ending × Cycle)}

/-- A transaction of a cycle that goes through makes a turn of it. -/
theorem turn_of_transact (hs : Legible.Sound s.rows) (hw : c.work? policy wall = some w)
    (h : s.transact w = (.ok c', s')) :
    Legible.Sound s'.rows ∧ Turn (Legible.keeping σ) policy wall c (Legible.ledger s.rows) c'
      (Legible.ledger s'.rows) := by
  obtain ⟨ending, rows, hy, hrows⟩ := Store.transact_ok h
  have ht : Turned policy wall c s.rows ending c' rows := by
    unfold work? at hw
    split at hw
    · next stage =>
      obtain rfl := Option.some.inj hw
      exact turned_load hs stage hy
    · next id stage =>
      obtain rfl := Option.some.inj hw
      exact turned_prepare hs stage hy
    · next a left result stage =>
      obtain rfl := Option.some.inj hw
      exact turned_record hs stage hy
    · next stage =>
      obtain rfl := Option.some.inj hw
      exact turned_refresh hs stage hy
    · next stage =>
      obtain rfl := Option.some.inj hw
      exact turned_checkIn hs stage hy
    · cases hw
  rwa [Turned, committed, ← hrows] at ht

end Cycle

namespace Store

variable {σ : Type} [ActionRows σ] [Legible σ] {s s' : Store σ} {now : Instant} {n : NewAction}

theorem createAction_ok {a : Action} (hs : Legible.Sound s.rows)
    (h : s.createAction now n = (.ok a, s')) :
    Legible.Sound s'.rows ∧ a.id = (Legible.ledger s.rows).lastId + 1 ∧
      (∀ p, n.prerequisite = some p → ((Legible.ledger s.rows).action? p).isSome) ∧
      Legible.ledger s'.rows = (Legible.ledger s.rows).issue ((Legible.ledger s.rows).created
        ((Legible.keeping σ).time now) (n.kept (Legible.keeping σ))) n.endpoints n.retries :=
  Legible.insertAction_ok hs (perform_ok h)

omit [Legible σ] in
theorem createAction_error {e : StoreError} (h : s.createAction now n = (.error e, s')) :
    s'.rows = s.rows :=
  transact_error h

end Store

end FleetDispatch
