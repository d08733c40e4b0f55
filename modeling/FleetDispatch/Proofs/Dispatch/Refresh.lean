import FleetDispatch.Proofs.Dispatch.Stride

namespace FleetDispatch

/-- What becomes of the refresh flag of an endpoint: a result raises it, or a checkpoint takes its
place. -/
inductive Signal where
  | raised
  | replaced
  deriving DecidableEq

namespace Ledger

variable {l : Ledger} {e x : EndpointId} {r : Record} {time : Instant}

def flagged (e : EndpointId) (l : Ledger) : Bool :=
  (l.endpoint e).needsRefresh

theorem flagged_putEndpoint {y : Endpoint} :
    (l.putEndpoint y).flagged e = if y.id = e then y.needsRefresh else l.flagged e := by
  rw [flagged, endpoint_eq, endpoint?_putEndpoint]
  split <;> rfl

@[simp] theorem flagged_putRecord : (l.putRecord r).flagged e = l.flagged e := rfl

@[simp] theorem flagged_checkIn : (l.checkIn x time).flagged e = l.flagged e := by
  rw [checkIn, flagged_putEndpoint]
  split
  · next h =>
    rw [← (id_endpoint x l).symm.trans h]
    rfl
  · rfl

theorem flagged_flag : (l.flag x).flagged e = (x == e || l.flagged e) := by
  have hid : (l.endpoint x).markRefresh.id = x := id_endpoint x l
  rw [flag, flagged_putEndpoint, hid]
  by_cases h : x = e <;> simp [h, Endpoint.markRefresh]

theorem flagged_withResult {stale : Bool} :
    (l.withResult stale r x time).flagged e = (stale && x == e || l.flagged e) := by
  cases stale <;> simp [withResult, flagged_flag]

end Ledger

namespace Cycle

variable {σ : Type} [ActionRows σ]

/-- The signal that the next transaction of a cycle gives if it is made: it commits the result of a
call that the classifier takes for a change of packages, other than the one that reads the package
list anew, or it commits a checkpoint. -/
def signal (policy : Policy) (wall : Instant) (s : Store σ) (c : Cycle) : Option Signal :=
  match c.stage with
  | .recording a left result =>
    if s.commits (c.recordResult policy a left result wall) &&
        (!a.procedure.isPackageRefresh && policy.classify a.procedure result) then some .raised
    else none
  | .refreshing => if s.commits (c.refresh policy wall) then some .replaced else none
  | _ => none

def signalOn (policy : Policy) (l : Ledger) (c : Cycle) : Option Signal :=
  match c.stage with
  | .recording a _ result =>
    if (l.record? a.id c.endpoint).any (·.status == .queued) && isStale policy a.procedure result
    then some .raised
    else none
  | .refreshing => if l.flagged c.endpoint then some .replaced else none
  | _ => none

variable [Legible σ] {policy : Policy} {wall : Instant} {c c' : Cycle} {rows rows' : σ}
  {ending : Ending} {s s' : Store σ} {work : Work σ (Ending × Cycle)}

theorem commit_recordResult {a : Action} {left : Nat} {result : CallResult}
    (hs : Legible.Sound rows)
    (h : Work.Yields (c.recordResult policy a left result wall) rows (ending, c') rows') :
    (ending == .commit) =
      ((Legible.ledger rows).record? a.id c.endpoint).any (·.status == .queued) := by
  obtain ⟨found, mid, hl, hr⟩ := Work.yields_bind h
  obtain ⟨rfl, hfound⟩ := Legible.loadRecord_ok hs (Work.yields_attempt hl)
  rw [hfound]
  cases found with
  | none => exact absurd hr Work.not_yields_throw
  | some r =>
    simp only at hr
    -- a record that has ended is not written, and its transaction is rolled back
    by_cases queued : r.status = .queued
    · rw [Record.finish_of_queued queued] at hr
      obtain ⟨u, rows₁, -, hr₁⟩ := Work.yields_bind hr
      have hlast {rows₁ : σ} (hr : Work.Yields (do
          Work.attempt .recordCheckin (ActionRows.recordCheckin c.endpoint wall)
          return (Ending.commit, c.settle
            (outcomeOf (Verdict.ofResult a.procedure result) a.id left)))
          rows₁ (ending, c') rows') : ending = .commit := by
        obtain ⟨u, mid, -, hr⟩ := Work.yields_bind hr
        exact (Prod.mk.inj (Work.yields_pure hr).1).1
      have hcommit : ending = .commit := by
        split at hr₁
        · obtain ⟨e, mid, -, hr₂⟩ := Work.yields_bind hr₁
          obtain ⟨u, mid, -, hr₃⟩ := Work.yields_bind hr₂
          exact hlast hr₃
        · exact hlast hr₁
      simp [hcommit, queued]
    · rw [Record.finish_of_terminal queued] at hr
      obtain ⟨hdrop, -⟩ := Prod.mk.inj (Work.yields_pure hr).1
      simp [hdrop, queued]

theorem commit_refresh (hs : Legible.Sound rows)
    (h : Work.Yields (c.refresh policy wall) rows (ending, c') rows') :
    (ending == .commit) = (Legible.ledger rows).flagged c.endpoint := by
  obtain ⟨e, mid, hl, hr⟩ := Work.yields_bind h
  obtain ⟨rfl, hfound⟩ := Legible.loadEndpoint_ok hs (Work.yields_attempt hl)
  rw [Ledger.flagged, hfound]
  split at hr
  · next hflag =>
    obtain ⟨a, mid, -, hr₁⟩ := Work.yields_bind hr
    obtain ⟨u, mid, -, hr₂⟩ := Work.yields_bind hr₁
    obtain ⟨hcommit, -⟩ := Prod.mk.inj (Work.yields_pure hr₂).1
    simp [hcommit, hflag]
  · next hflag =>
    obtain ⟨hrollback, -⟩ := Prod.mk.inj (Work.yields_pure hr).1
    simp [hrollback, hflag]

theorem signal_ok (hs : Legible.Sound s.rows) (hw : c.work? policy wall = some work)
    (h : s.transact work = (.ok c', s')) :
    c.signal policy wall s = c.signalOn policy (Legible.ledger s.rows) := by
  obtain ⟨ending, rows, hy, -, hcommits⟩ := Store.transact_ends h
  unfold work? at hw
  unfold signal signalOn
  split at hw
  · next stage => simp [stage]
  · next stage => simp [stage]
  · next a left result stage =>
    obtain rfl := Option.some.inj hw
    rw [stage]
    simp only
    rw [hcommits, commit_recordResult hs hy]
    rfl
  · next stage =>
    obtain rfl := Option.some.inj hw
    rw [stage]
    simp only [hcommits, commit_refresh hs hy]
  · next stage => simp [stage]
  · cases hw

omit [Legible σ] in
theorem signal_error {e : StoreError} (hw : c.work? policy wall = some work)
    (h : s.transact work = (.error e, s')) : c.signal policy wall s = none := by
  have hcommits : s.commits work = false := by
    rw [← Bool.not_eq_true]
    intro hcommits
    obtain ⟨a, s₁, hok⟩ := Store.transact_of_commits hcommits
    rw [hok] at h
    cases h
  unfold work? at hw
  unfold signal
  split at hw
  · next stage => simp [stage]
  · next stage => simp [stage]
  · next stage =>
    obtain rfl := Option.some.inj hw
    simp [stage, hcommits]
  · next stage =>
    obtain rfl := Option.some.inj hw
    simp [stage, hcommits]
  · next stage => simp [stage]
  · cases hw

omit [Legible σ] in
theorem signal_idle (hw : c.work? (σ := σ) policy wall = none) : c.signal policy wall s = none := by
  unfold work? at hw
  unfold signal
  split at hw
  · cases hw
  · cases hw
  · cases hw
  · cases hw
  · cases hw
  · next hload hprepare hrecord hrefresh hcheck =>
    split
    · next stage => exact absurd stage (hrecord _ _ _)
    · next stage => exact absurd stage hrefresh
    · rfl

variable {k : Keeping} {l l' : Ledger} {e : EndpointId}

omit [ActionRows σ] [Legible σ] in
theorem Turn.flag (turn : Turn k policy wall c l c' l') (e : EndpointId) :
    l'.flagged e =
      (if c.endpoint = e then c.signalOn policy l else none).elim (l.flagged e)
        (· == .raised) := by
  cases turn with
  | loaded stage | skipped stage | held stage | barred stage | exhausted stage | spent stage =>
    simp [signalOn, stage]
  | refused stage found terminal => simp [signalOn, stage, found, terminal]
  | @recorded a left result r verdict stage found queued meaning =>
    rw [Ledger.flagged_withResult]
    simp only [signalOn, stage, found, queued, Option.any_some, beq_self_eq_true, Bool.true_and]
    cases isStale policy a.procedure result <;> by_cases h : c.endpoint = e <;> simp [h]
  | unflagged stage clear =>
    have hclear : l.flagged c.endpoint = false := clear
    simp [signalOn, stage, hclear]
  | @checkpointed a stage flagged action =>
    have hid : (l.endpoint c.endpoint).clearRefresh.id = c.endpoint := Ledger.id_endpoint _ l
    have hflagged : l.flagged c.endpoint = true := flagged
    rw [Ledger.flagged_putEndpoint, hid, Ledger.flagged, Ledger.endpoint_issue]
    by_cases h : c.endpoint = e
    · subst h
      simp [signalOn, stage, hflagged, Endpoint.clearRefresh]
    · simp [h, Ledger.flagged]
  | checkedIn stage => simp [signalOn, stage]

omit [ActionRows σ] [Legible σ] in
theorem refreshing_of_replaced (h : c.signalOn policy l = some .replaced) :
    c.stage = .refreshing ∧ l.flagged c.endpoint = true := by
  unfold signalOn at h
  split at h
  · split at h <;> cases h
  · next stage =>
    split at h
    · next hflag => exact ⟨stage, hflag⟩
    · cases h
  · cases h

omit [ActionRows σ] [Legible σ] in
theorem Turn.replaced (turn : Turn k policy wall c l c' l')
    (h : c.signalOn policy l = some .replaced) :
    ∃ a, a = l.checkpoint k c.endpoint c.now wall policy.checkpointRetries ∧
      c' = { c with stage := .preparing a.id,
                    report := { c.report with checkpoint := some a.id } } ∧
      l' = (l.issue a [c.endpoint] policy.checkpointRetries).putEndpoint
        (l.endpoint c.endpoint).clearRefresh := by
  obtain ⟨hstage, hflag⟩ := refreshing_of_replaced h
  cases turn with
  | @checkpointed a stage flagged action => exact ⟨a, action, rfl, rfl⟩
  | unflagged stage clear =>
    rw [Ledger.flagged, clear] at hflag
    cases hflag
  | loaded stage | skipped stage | held stage | barred stage | exhausted stage | spent stage
  | refused stage | recorded stage | checkedIn stage => cases hstage.symm.trans stage

omit [ActionRows σ] [Legible σ] in
theorem Turn.lastId (turn : Turn k policy wall c l c' l')
    (h : c.signalOn policy l ≠ some .replaced) : l'.lastId = l.lastId := by
  cases turn with
  | checkpointed stage flagged action =>
    refine absurd ?_ h
    simp only [signalOn, stage]
    exact if_pos flagged
  | @recorded a left result =>
    unfold Ledger.withResult
    cases isStale policy a.procedure result <;> rfl
  | _ => rfl

end Cycle

namespace World

variable {σ : Type} [ActionRows σ]

def signal (e : EndpointId) (m : Move) (w : World σ) : Option Signal :=
  match m with
  | .transact i policy wall =>
    match w.cycles[i]? with
    | some c => if c.endpoint = e then c.signal policy wall w.store else none
    | none => none
  | _ => none

variable [Legible σ]

def signals (e : EndpointId) : List Move → World σ → List Signal
  | [], _ => []
  | m :: moves, w => (w.signal e m).toList ++ signals e moves (w.step m)

variable {w : World σ} {e : EndpointId}

omit [Legible σ] in
theorem signal_transact {i : Nat} {c : Cycle} {policy : Policy} {wall : Instant}
    (here : w.cycles[i]? = some c) :
    w.signal e (.transact i policy wall) =
      if c.endpoint = e then c.signal policy wall w.store else none := by
  simp only [signal, here]

theorem transact_signal (hs : w.Sound) (i : Nat) (policy : Policy) (wall : Instant) :
    ((w.transact i policy wall).ledger = w.ledger ∧
        (∀ e, w.signal e (.transact i policy wall) = none) ∧
        ((w.transact i policy wall).cycles = w.cycles ∨
          (w.transact i policy wall).cycles = w.cycles.eraseIdx i)) ∨
      ∃ c c', w.cycles[i]? = some c ∧ (w.transact i policy wall).cycles = w.cycles.set i c' ∧
        Cycle.Turn (Legible.keeping σ) policy wall c w.ledger c'
          (w.transact i policy wall).ledger ∧
        ∀ e, w.signal e (.transact i policy wall) =
          if c.endpoint = e then c.signalOn policy w.ledger else none := by
  unfold transact
  cases hc : w.cycles[i]? with
  | none => exact .inl ⟨rfl, fun _ => by rw [signal, hc], .inl rfl⟩
  | some c =>
    simp only
    cases hw : c.work? (σ := σ) policy wall with
    | none =>
      refine .inl ⟨rfl, fun e => ?_, .inl rfl⟩
      rw [signal_transact hc, Cycle.signal_idle hw, ite_self]
    | some work =>
      simp only
      cases ht : w.store.transact work with
      | mk r store =>
        cases r with
        | error err =>
          refine .inl ⟨congrArg Legible.ledger (Store.transact_error ht), fun e => ?_, .inr rfl⟩
          rw [signal_transact hc, Cycle.signal_error hw ht, ite_self]
        | ok c' =>
          obtain ⟨-, turn⟩ := Cycle.turn_of_transact hs hw ht
          refine .inr ⟨c, c', rfl, rfl, turn, fun e => ?_⟩
          rw [signal_transact hc, Cycle.signal_ok hs hw ht]
          rfl

omit [ActionRows σ] [Legible σ] in
theorem store_call (i : Nat) (reply : Option InvokeReply) (w : World σ) :
    (w.call i reply).store = w.store := by
  unfold call
  split
  · rfl
  · split <;> rfl

omit [ActionRows σ] [Legible σ] in
theorem store_ping (i : Nat) (reply : PingReply) (w : World σ) :
    (w.ping i reply).store = w.store := by
  unfold ping
  split
  · rfl
  · split <;> rfl

theorem flagged_step (hs : w.Sound) (e : EndpointId) (m : Move) :
    (w.step m).ledger.flagged e =
      (w.signal e m).elim (w.ledger.flagged e) (· == .raised) := by
  cases m with
  | start | abandon | disturb => rfl
  | call i reply =>
    change (Legible.ledger (w.call i reply).store.rows).flagged e = _
    rw [store_call]
    rfl
  | ping i reply =>
    change (Legible.ledger (w.ping i reply).store.rows).flagged e = _
    rw [store_ping]
    rfl
  | create wall request =>
    change (w.create wall request).ledger.flagged e = w.ledger.flagged e
    unfold create ledger
    cases h : w.store.createAction wall request with
    | mk r store =>
      cases r with
      | ok a =>
        obtain ⟨-, -, -, hl⟩ := Store.createAction_ok hs h
        simp only [hl, Ledger.flagged, Ledger.endpoint_issue]
      | error err => simp only [Store.createAction_error h]
  | transact i policy wall =>
    change (w.transact i policy wall).ledger.flagged e = _
    rcases transact_signal hs i policy wall with ⟨hledger, hnone, -⟩ | ⟨c, c', -, -, turn, hsignal⟩
    · rw [hledger, hnone]
      rfl
    · rw [hsignal, turn.flag]

theorem flagged_after (hs : w.Sound) (e : EndpointId) (moves : List Move) :
    (moves.foldl step w).ledger.flagged e =
      (signals e moves w).getLast?.elim (w.ledger.flagged e) (· == .raised) := by
  induction moves generalizing w with
  | nil => rfl
  | cons m moves ih =>
    rw [List.foldl_cons, ih (sound_step hs m), flagged_step hs, signals, List.getLast?_append]
    cases (signals e moves (w.step m)).getLast? with
    | some x => rfl
    | none => cases w.signal e m <;> rfl

theorem turn_of_signal (hs : w.Sound) {m : Move} {x : Signal} (h : w.signal e m = some x) :
    ∃ i policy wall c c', m = .transact i policy wall ∧ w.cycles[i]? = some c ∧ c.endpoint = e ∧
      Cycle.Turn (Legible.keeping σ) policy wall c w.ledger c' (w.step m).ledger ∧
      c.signalOn policy w.ledger = some x := by
  cases m with
  | transact i policy wall =>
    rcases transact_signal hs i policy wall with ⟨-, hnone, -⟩ | ⟨c, c', hc, -, turn, hsignal⟩
    · rw [hnone] at h
      cases h
    · rw [hsignal] at h
      split at h
      · next he => exact ⟨i, policy, wall, c, c', rfl, hc, he, turn, h⟩
      · cases h
  | create | start | call | ping | abandon | disturb => cases h

/-- A checkpoint for an endpoint is an action of its own with a record for the endpoint. It is
created in the transaction that takes the flag down. -/
theorem replaced_step (hs : w.Sound) {m : Move} (h : w.signal e m = some .replaced) :
    w.ledger.flagged e = true ∧ (w.step m).ledger.flagged e = false ∧
      ∃ a tries, w.ledger.action? a.id = none ∧ (w.step m).ledger.action? a.id = some a ∧
        a.procedure.isPackageRefresh ∧
        (w.step m).ledger.record? a.id e = some (.fresh a.id e tries) := by
  have hdown := flagged_step hs e m
  rw [h] at hdown
  obtain ⟨i, policy, wall, c, c', -, -, rfl, turn, hsignal⟩ := turn_of_signal hs h
  obtain ⟨a, ha, -, hledger⟩ := turn.replaced hsignal
  refine ⟨(Cycle.refreshing_of_replaced hsignal).2, hdown, a, policy.checkpointRetries, ?_, ?_⟩
  · have hid : a.id = w.ledger.lastId + 1 := by rw [ha]; rfl
    have hnew := (Legible.wellFormed hs).action_iff a.id
    rw [← Option.not_isSome_iff_eq_none, ledger, hnew, hid]
    exact fun hle => absurd hle.2 (by rw [ledger]; lia)
  · rw [hledger]
    refine ⟨by simp, ?_, by simp⟩
    rw [ha]
    exact Legible.keeps_refresh

theorem replaced_of_lastId (hs : w.Sound) {m : Move}
    (asked : ∀ wall request, m ≠ .create wall request)
    (h : (w.step m).ledger.lastId ≠ w.ledger.lastId) : ∃ e, w.signal e m = some .replaced := by
  cases m with
  | create wall request => exact absurd rfl (asked wall request)
  | start | abandon | disturb => exact absurd rfl h
  | call i reply =>
    change (Legible.ledger (w.call i reply).store.rows).lastId ≠ _ at h
    rw [store_call] at h
    exact absurd rfl h
  | ping i reply =>
    change (Legible.ledger (w.ping i reply).store.rows).lastId ≠ _ at h
    rw [store_ping] at h
    exact absurd rfl h
  | transact i policy wall =>
    change (w.transact i policy wall).ledger.lastId ≠ _ at h
    rcases transact_signal hs i policy wall with ⟨hledger, -⟩ | ⟨c, c', -, -, turn, hsignal⟩
    · exact absurd (congrArg Ledger.lastId hledger) h
    · refine ⟨c.endpoint, ?_⟩
      rw [hsignal, if_pos rfl]
      by_contra hne
      exact h (turn.lastId hne)

theorem count_replaced (hs : w.Sound) (e : EndpointId) (moves : List Move) :
    (signals e moves w).count .replaced + ((moves.foldl step w).ledger.flagged e).toNat ≤
      (signals e moves w).count .raised + (w.ledger.flagged e).toNat := by
  -- on the moves: the flag is what was raised and is not yet replaced
  induction moves generalizing w with
  | nil => exact Nat.le_refl _
  | cons m moves ih =>
    have hlater := ih (sound_step hs m)
    have hflag := flagged_step hs e m
    rw [List.foldl_cons, signals, List.count_append, List.count_append]
    cases hsignal : w.signal e m with
    | none =>
      rw [hsignal] at hflag
      rw [hflag] at hlater
      simpa using hlater
    | some x =>
      rw [hsignal] at hflag
      cases x with
      | raised =>
        have hone : (w.step m).ledger.flagged e = true := hflag
        rw [hone] at hlater
        simp only [Option.toList_some, List.count_singleton_self, Bool.toNat_true] at hlater ⊢
        rw [List.count_singleton, if_neg (by decide)]
        omega
      | replaced =>
        have hzero : (w.step m).ledger.flagged e = false := hflag
        have hup := (replaced_step hs hsignal).1
        rw [hzero] at hlater
        rw [hup]
        simp only [Option.toList_some, List.count_singleton_self, Bool.toNat_true,
          Bool.toNat_false] at hlater ⊢
        rw [List.count_singleton, if_neg (by decide)]
        omega

theorem flagged_iff (e : EndpointId) (moves : List Move) :
    (after moves : World σ).ledger.flagged e ↔
      ∃ early late, signals e moves (initial : World σ) = early ++ .raised :: late ∧
        .replaced ∉ late := by
  have hflag := flagged_after (w := (initial : World σ)) sound_initial e moves
  have hdown : (initial : World σ).ledger.flagged e = false := by
    rw [ledger, initial]
    exact congrArg (Ledger.flagged e) Legible.ledger_empty
  rw [after, hflag, hdown]
  generalize signals e moves (initial : World σ) = all
  -- only the last signal counts, and it is a raise with no checkpoint behind it
  constructor
  · intro hlast
    cases hx : all.getLast? with
    | none => simp [hx] at hlast
    | some x =>
      obtain rfl : x = .raised := by simpa [hx] using hlast
      obtain ⟨early, rfl⟩ := List.getLast?_eq_some_iff.mp hx
      exact ⟨early, [], rfl, List.not_mem_nil⟩
  · rintro ⟨early, late, rfl, hlate⟩
    rw [List.getLast?_append]
    cases hx : (Signal.raised :: late).getLast? with
    | none => simp at hx
    | some x =>
      cases x with
      | raised => rfl
      | replaced =>
        rcases List.mem_cons.mp (List.mem_of_getLast? hx) with h | h
        · cases h
        · exact absurd h hlate

end World

end FleetDispatch
