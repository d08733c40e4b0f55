import FleetDispatch.Proofs.Dispatch.Twin

namespace FleetDispatch.Cycle

open List (Forall₂)
open Tables (Mirrors)

/-- Transactions that take twin cycles to twins and end alike, one on a ledger and one on tables
that mirror it. -/
def Lockstep (L : Instant → Instant → Prop) (p : Work Ledger (Ending × Cycle))
    (q : Work Tables (Ending × Cycle)) : Prop :=
  Parallel (Draft.Related (Mirrors L)) (Store.Ended (Twin L)) p q

variable {L : Instant → Instant → Prop} {c d : Cycle} {r s : Record} {a b : Action}
variable {wall wall' : Instant}

theorem lockstep_load (hL : Lasting L) (h : Twin L c d) : Lockstep L c.load d.load := by
  unfold load
  rw [h.endpoint]
  refine .bind (.attempt _ (Tables.parallel_pending hL _)) fun ps qs hps => .pure ⟨rfl, ?_⟩
  exact Twin.advance ⟨rfl, h.now, h.whole, h.report, Backlog.twin_ofPending hps, h.stage⟩

theorem lockstep_giveUp (hwall : L wall wall') (hrecord : Record.Kept L r s) (code : Int)
    (message : String) (o : Outcome) (h : Twin L c d) :
    Lockstep L (c.giveUp r code message wall o) (d.giveUp s code message wall' o) := by
  have hfinish := Record.parallel_finish hwall .failed code message r s hrecord
  unfold giveUp Record.fail
  rw [hrecord.actionId]
  generalize Record.finish .failed code message wall r = x at hfinish
  generalize Record.finish .failed code message wall' s = y at hfinish
  cases hfinish with
  | error e => exact .pure (h.refuse _ e)
  | ok _ hkept =>
    exact .bind (.attempt _ (Tables.parallel_save hkept)) fun _ _ _ => .pure ⟨rfl, h.settle o⟩

theorem lockstep_spend (hwall : L wall wall') (hrecord : Record.Kept L r s)
    (haction : Action.Twin L a b) (h : Twin L c d) :
    Lockstep L (c.spend r a wall) (d.spend s b wall') := by
  have hconsume := Record.parallel_consume r s hrecord
  unfold spend
  rw [hrecord.remainingTries, hrecord.actionId]
  split
  · exact lockstep_giveUp hwall hrecord _ _ _ h
  · generalize Record.consume r = x at hconsume
    generalize Record.consume s = y at hconsume
    cases hconsume with
    | error e => exact .pure (h.refuse _ e)
    | ok hleft hkept =>
      subst hleft
      exact .bind (.attempt _ (Tables.parallel_save hkept)) fun _ _ _ =>
        .pure ⟨rfl, h.call haction _⟩

theorem lockstep_prepare (hL : Lasting L) (hwall : L wall wall') (id : ActionId)
    (h : Twin L c d) : Lockstep L (c.prepare id wall) (d.prepare id wall') := by
  unfold prepare
  rw [h.endpoint]
  refine .bind (.attempt _ (Tables.parallel_loadRecord hL _ _)) fun x y hxy => ?_
  cases hxy with
  | none => exact .throw _
  | @some r s hrecord =>
    have hterminal : s.isTerminal = r.isTerminal := congrArg Status.isTerminal hrecord.status
    simp only [hterminal, hrecord.status]
    split
    · exact .pure ⟨rfl, h.settle _⟩
    · refine .bind (.attempt _ (Tables.parallel_loadAction hL _)) fun a b haction => ?_
      have hprerequisite : b.prerequisite = a.prerequisite := by
        obtain ⟨u, -, rfl⟩ := haction
        rfl
      rw [hprerequisite]
      split
      · exact lockstep_spend hwall hrecord haction h
      · refine .bind (.attempt _ (Tables.parallel_loadRecord hL _ _)) fun x y hprior => ?_
        have hstatus : y.map Record.status = x.map Record.status := by
          cases hprior with
          | none => rfl
          | some hkept => exact congrArg some hkept.status
        rw [hstatus]
        split
        · exact lockstep_giveUp hwall hrecord _ _ _ h
        · exact .pure ⟨rfl, h.settle _⟩
        · exact lockstep_spend hwall hrecord haction h

theorem lockstep_recordResult (hL : Lasting L) (hwall : L wall wall') (policy : Policy)
    (haction : Action.Twin L a b) (left : Nat) (result : CallResult) (h : Twin L c d) :
    Lockstep L (c.recordResult policy a left result wall)
      (d.recordResult policy b left result wall') := by
  obtain ⟨u, -, rfl⟩ := haction
  unfold recordResult
  rw [h.endpoint]
  refine .bind (.attempt _ (Tables.parallel_loadRecord hL _ _)) fun x y hxy => ?_
  cases hxy with
  | none => exact .throw _
  | @some r s hrecord =>
    let verdict := Verdict.ofResult a.procedure result
    have hfinish := Record.parallel_finish hwall verdict.status verdict.code verdict.message r s
      hrecord
    simp only
    generalize Record.finish _ _ _ wall r = x at hfinish
    generalize Record.finish _ _ _ wall' s = y at hfinish
    cases hfinish with
    | error e => exact .pure (h.refuse _ e)
    | ok _ hkept =>
      let o := outcomeOf (Verdict.ofResult a.procedure result) a.id left
      have hcheckin : Lockstep L
          (do Work.attempt .recordCheckin (ActionRows.recordCheckin c.endpoint wall)
              return (.commit, c.settle o))
          (do Work.attempt .recordCheckin (ActionRows.recordCheckin c.endpoint wall')
              return (.commit, d.settle o)) :=
        .bind (.attempt _ (Tables.parallel_recordCheckin _ hwall)) fun _ _ _ =>
          .pure ⟨rfl, h.settle o⟩
      refine .bind (.attempt _ (Tables.parallel_save hkept)) fun _ _ _ => ?_
      split
      · refine .bind (.attempt _ (Tables.parallel_loadEndpoint hL _)) fun x y hxy => ?_
        have hmarked : Endpoint.Twin L x.markRefresh y.markRefresh := by
          obtain ⟨v, hv, rfl⟩ := hxy
          exact ⟨v, hv, rfl⟩
        exact .bind (.attempt _ (Tables.parallel_saveEndpoint hmarked)) fun _ _ _ => hcheckin
      · exact hcheckin

theorem fits_packageRefresh {now : Instant} {retries : Nat} (endpoint : EndpointId)
    (hnow : now.IsWhole) (hretries : retries ≤ Width.most32) :
    (NewAction.packageRefresh endpoint now retries).Fits := by
  have hstorable : Procedure.packageRefresh.isStorable = true := by decide +kernel
  exact ⟨hnow, hstorable, List.nodup_cons.mpr ⟨List.not_mem_nil, List.nodup_nil⟩, hretries⟩

theorem lockstep_refresh (hL : Lasting L) (hwall : L wall wall') {policy : Policy}
    (hretries : policy.checkpointRetries ≤ Width.most32) (h : Twin L c d) :
    Lockstep L (c.refresh policy wall) (d.refresh policy wall') := by
  unfold refresh
  rw [h.endpoint, h.now]
  refine .bind (.attempt _ (Tables.parallel_loadEndpoint hL _)) fun x y hxy => ?_
  have hclear : Endpoint.Twin L x.clearRefresh y.clearRefresh ∧
      y.needsRefresh = x.needsRefresh := by
    obtain ⟨v, hv, rfl⟩ := hxy
    exact ⟨⟨v, hv, rfl⟩, rfl⟩
  rw [hclear.2]
  split
  · have hfits := fits_packageRefresh c.endpoint h.whole hretries
    refine .bind (.attempt _ (Tables.parallel_insertAction hL hwall hfits)) fun a b haction => ?_
    obtain ⟨u, -, rfl⟩ := haction
    refine .bind (.attempt _ (Tables.parallel_saveEndpoint hclear.1)) fun _ _ _ => .pure ⟨rfl, ?_⟩
    exact ⟨rfl, rfl, h.whole, by rw [h.report], h.backlog, .preparing _⟩
  · exact .pure ⟨rfl, h.conclude⟩

theorem lockstep_checkIn (hwall : L wall wall') (h : Twin L c d) :
    Lockstep L (c.checkIn wall) (d.checkIn wall') := by
  unfold checkIn
  rw [h.endpoint]
  refine .bind (.attempt _ (Tables.parallel_recordCheckin _ hwall)) fun _ _ _ => .pure ⟨rfl, ?_⟩
  exact ⟨rfl, h.now, h.whole, by rw [h.report], h.backlog, .closed⟩

theorem lockstep_work? (hL : Lasting L) (hwall : L wall wall') {policy : Policy}
    (hretries : policy.checkpointRetries ≤ Width.most32) (h : Twin L c d) :
    Option.Rel (Lockstep L) (c.work? policy wall) (d.work? policy wall') := by
  have hstage := h.stage
  unfold work?
  generalize c.stage = x at hstage
  generalize d.stage = y at hstage
  cases hstage with
  | loading => exact .some (lockstep_load hL h)
  | preparing id => exact .some (lockstep_prepare hL hwall id h)
  | calling | pinging | closed => exact .none
  | recording haction left result =>
    exact .some (lockstep_recordResult hL hwall policy haction left result h)
  | refreshing => exact .some (lockstep_refresh hL hwall hretries h)
  | checkingIn => exact .some (lockstep_checkIn hwall h)

theorem Twin.pendingCall (h : Twin L c d) : d.pendingCall = c.pendingCall := by
  have hstage := h.stage
  unfold Cycle.pendingCall
  generalize c.stage = x at hstage
  generalize d.stage = y at hstage
  cases hstage with
  | calling haction left =>
    obtain ⟨u, -, rfl⟩ := haction
    rfl
  | _ => rfl

theorem Twin.invoked (reply : InvokeReply) (h : Twin L c d) :
    Twin L (c.invoked reply) (d.invoked reply) := by
  have hstage := h.stage
  unfold Cycle.invoked
  generalize hx : c.stage = x at hstage
  generalize hy : d.stage = y at hstage
  cases hstage with
  | calling haction left =>
    obtain ⟨u, hu, rfl⟩ := haction
    match reply with
    | .error e => exact h.settle _
    | .ok none => exact h.settle _
    | .ok (some result) =>
      exact ⟨h.endpoint, h.now, h.whole, h.report, h.backlog, .recording ⟨u, hu, rfl⟩ left result⟩
  | _ => exact h

theorem Twin.pinged (reply : PingReply) (h : Twin L c d) :
    Twin L (c.pinged reply) (d.pinged reply) := by
  unfold Cycle.pinged
  match reply with
  | .ok (some true) => exact ⟨h.endpoint, h.now, h.whole, h.report, h.backlog, .checkingIn⟩
  | .ok (some false) | .ok none | .error e =>
    exact ⟨h.endpoint, h.now, h.whole, by simp only [h.report], h.backlog, .closed⟩

section runs

variable {χ : Type}

structure Run.Twin (L : Instant → Instant → Prop) (r : Run Ledger χ) (s : Run Tables χ) : Prop where
  cycle : Cycle.Twin L r.cycle s.cycle
  store : Store.Related (Mirrors L) r.store s.store
  channel : s.channel = r.channel

variable {r : Run Ledger χ} {s : Run Tables χ} {policy : Policy} (channel : Channel χ)

theorem twin_step (hL : Lasting L) (hwall : L wall wall')
    (hretries : policy.checkpointRetries ≤ Width.most32) (h : Run.Twin L r s) :
    (step policy wall' channel s).1 = (step policy wall channel r).1 ∧
      Run.Twin L (step policy wall channel r).2 (step policy wall' channel s).2 := by
  have hwork := lockstep_work? hL hwall hretries h.cycle
  unfold step
  rw [h.cycle.pendingCall, h.channel, h.cycle.endpoint]
  generalize (r.cycle.work? policy wall : Option (Work Ledger _)) = x at hwork
  generalize (s.cycle.work? policy wall' : Option (Work Tables _)) = y at hwork
  cases hwork with
  | @some p q hpq =>
    have htransact := h.store.transact hpq
    simp only
    generalize r.store.transact p = x at htransact
    generalize s.store.transact q = y at htransact
    obtain ⟨a, st⟩ := x
    obtain ⟨b, st'⟩ := y
    obtain ⟨hab, hstore⟩ := htransact
    cases hab with
    | ok hcycle => exact ⟨rfl, hcycle, hstore, rfl⟩
    | error e => exact ⟨rfl, h.cycle, hstore, rfl⟩
  | none =>
    simp only
    split
    · exact ⟨rfl, h.cycle.invoked _, h.store, rfl⟩
    · exact ⟨rfl, h.cycle.pinged _, h.store, rfl⟩
    · exact ⟨rfl, h⟩

variable {clock clock' : Nat → Instant}

theorem twin_driveAt (hL : Lasting L) (hclock : ∀ i, L (clock i) (clock' i))
    (hretries : policy.checkpointRetries ≤ Width.most32) (n : Nat) (h : Run.Twin L r s) :
    (driveAt policy channel n clock' s).1 = (driveAt policy channel n clock r).1 ∧
      Run.Twin L (driveAt policy channel n clock r).2 (driveAt policy channel n clock' s).2 := by
  -- on the steps: both runs fail in one of them, or they are twins after it
  induction n generalizing clock clock' r s with
  | zero => exact ⟨rfl, h⟩
  | succ n ih =>
    have hstep := twin_step channel hL (hclock 0) hretries h
    unfold driveAt
    generalize step policy (clock 0) channel r = x at hstep
    generalize step policy (clock' 0) channel s = y at hstep
    obtain ⟨_, r⟩ := x
    obtain ⟨b, s⟩ := y
    obtain ⟨rfl, hrun⟩ := hstep
    cases b with
    | error e => exact ⟨rfl, hrun⟩
    | ok u => exact ih (fun i => hclock (i + 1)) hrun

theorem runAt_agrees (hL : Lasting L) (hclock : ∀ i, L (clock i) (clock' i))
    (hretries : policy.checkpointRetries ≤ Width.most32) {now : Instant} (hnow : now.IsWhole)
    (endpoint : EndpointId) (memory : χ) {st : Store Ledger} {st' : Store Tables}
    (h : Store.Related (Mirrors L) st st') :
    (runAt policy channel clock' endpoint now st' memory).1 =
        (runAt policy channel clock endpoint now st memory).1 ∧
      Store.Related (Mirrors L) (runAt policy channel clock endpoint now st memory).2.1
        (runAt policy channel clock' endpoint now st' memory).2.1 ∧
      (runAt policy channel clock' endpoint now st' memory).2.2 =
        (runAt policy channel clock endpoint now st memory).2.2 := by
  have hstart : Run.Twin L ⟨start endpoint now, st, memory⟩ ⟨start endpoint now, st', memory⟩ :=
    ⟨twin_start endpoint hnow, h, rfl⟩
  have hstep := twin_step channel hL (hclock 0) hretries hstart
  unfold runAt
  generalize step policy (clock 0) channel ⟨start endpoint now, st, memory⟩ = x at hstep
  generalize step policy (clock' 0) channel ⟨start endpoint now, st', memory⟩ = y at hstep
  obtain ⟨_, r⟩ := x
  obtain ⟨b, s⟩ := y
  obtain ⟨rfl, hrun⟩ := hstep
  cases b with
  | error e => exact ⟨rfl, hrun.store, hrun.channel⟩
  | ok u =>
    have hbound : s.cycle.stepBound = r.cycle.stepBound := by
      unfold stepBound
      rw [hrun.cycle.backlog.remaining]
    have hdrive := twin_driveAt channel hL (fun i => hclock (i + 1)) hretries r.cycle.stepBound hrun
    simp only
    rw [hbound]
    generalize driveAt policy channel r.cycle.stepBound (fun i => clock (i + 1)) r = x at hdrive
    generalize driveAt policy channel r.cycle.stepBound (fun i => clock' (i + 1)) s = y at hdrive
    obtain ⟨_, r⟩ := x
    obtain ⟨b, s⟩ := y
    obtain ⟨rfl, hrun⟩ := hdrive
    cases b with
    | error e => exact ⟨rfl, hrun.store, hrun.channel⟩
    | ok u => exact ⟨congrArg Except.ok hrun.cycle.report, hrun.store, hrun.channel⟩

end runs

end FleetDispatch.Cycle
