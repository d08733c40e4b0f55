import FleetDispatch.Proofs.Dispatch.Trail
import FleetDispatch.Proofs.Store.Near

namespace FleetDispatch

open List (Forall₂)
open Ledger (Slot)

def Outcome.withAction (id : ActionId) : Outcome → Outcome
  | skipped _ status => skipped id status
  | held _ prerequisite => held id prerequisite
  | prerequisiteFailed _ => prerequisiteFailed id
  | retriesExhausted _ => retriesExhausted id
  | completed _ n => completed id n
  | failed _ n message => failed id n message
  | noResult _ n => noResult id n
  | error _ message => error id message

def Outcome.Alike (b : ActionId) (o : Option ActionId) (x y : Outcome) : Prop :=
  ∃ id, Slot b o x.actionId id ∧ y = x.withAction id

def Report.renumber (f : ActionId → ActionId) (r : Report) : Report :=
  { r with
    outcomes := r.outcomes.map fun x => x.withAction (f x.actionId)
    checkpoint := r.checkpoint.map f }

structure Report.Alike (b : ActionId) (o : Option ActionId) (r r' : Report) : Prop where
  outcomes : Forall₂ (Outcome.Alike b o) r.outcomes r'.outcomes
  taken : r.checkpoint = o
  taken' : r'.checkpoint = o.map fun _ => b + 1
  same : r' = { r with outcomes := r'.outcomes, checkpoint := r'.checkpoint }

/-- Stages of loaded cycles that have come equally far. -/
inductive Stage.Alike (L : Instant → Instant → Prop) (b : ActionId) (o : Option ActionId) :
    Stage → Stage → Prop where
  | preparing {id id' : ActionId} (slot : Slot b o id id') :
    Alike L b o (.preparing id) (.preparing id')
  | calling {a a' : Action} (slot : Slot b o a.id a'.id) (h : Action.Renumbered L a'.id a a')
    (left : Nat) : Alike L b o (.calling a left) (.calling a' left)
  | recording {a a' : Action} (slot : Slot b o a.id a'.id) (h : Action.Renumbered L a'.id a a')
    (left : Nat) (result : CallResult) :
    Alike L b o (.recording a left result) (.recording a' left result)
  | refreshing (none_yet : o = none) : Alike L b o .refreshing .refreshing
  | pinging : Alike L b o .pinging .pinging
  | checkingIn : Alike L b o .checkingIn .checkingIn
  | closed : Alike L b o .closed .closed

structure Cycle.Alike (L : Instant → Instant → Prop) (b : ActionId) (o : Option ActionId)
    (c d : Cycle) : Prop where
  endpoint : d.endpoint = c.endpoint
  now : d.now = c.now
  backlog : d.backlog = c.backlog
  old : ∀ id ∈ c.backlog.ids, id ≤ b
  report : Report.Alike b o c.report d.report
  stage : Stage.Alike L b o c.stage d.stage

namespace Report

variable {b : ActionId} {o : Option ActionId} {r r' : Report}

theorem alike_opened (b : ActionId) (e : EndpointId) (now : Instant) :
    Alike b none (opened e now) (opened e now) :=
  ⟨.nil, rfl, rfl, rfl⟩

theorem Alike.add {x y : Outcome} (h : Alike b o r r') (hxy : Outcome.Alike b o x y) :
    Alike b o (r.add x) (r'.add y) where
  outcomes := List.rel_append h.outcomes (.cons hxy .nil)
  taken := h.taken
  taken' := h.taken'
  same := by
    rw [h.same]
    rfl

theorem Alike.visitedAny (h : Alike b o r r') : r'.visitedAny = r.visitedAny := by
  have houtcomes := h.outcomes
  unfold Report.visitedAny
  generalize r.outcomes = xs at houtcomes
  generalize r'.outcomes = ys at houtcomes
  cases houtcomes <;> rfl

theorem Alike.isSome_checkpoint (h : Alike b o r r') :
    r'.checkpoint.isSome = r.checkpoint.isSome := by
  rw [h.taken, h.taken', Option.isSome_map]

theorem Alike.eq_renumber (h : Alike b o r r') (later : ∀ new, o = some new → b < new) :
    r' = r.renumber (Ledger.standIn b o) := by
  have houtcomes : r'.outcomes =
      r.outcomes.map fun x => x.withAction (Ledger.standIn b o x.actionId) := by
    refine (List.forall₂_eq_eq_eq ▸ List.forall₂_map_left_iff.mpr ?_ : _ = _).symm
    refine h.outcomes.imp fun x y ⟨id, slot, hxy⟩ => ?_
    rw [slot.standIn_eq later, hxy]
  have hcheckpoint : r'.checkpoint = r.checkpoint.map (Ledger.standIn b o) := by
    rw [h.taken, h.taken']
    cases o with
    | none => rfl
    | some new => simp [Ledger.standIn]
  rw [h.same, Report.renumber, houtcomes, hcheckpoint]

theorem Alike.take {id : ActionId} (h : Alike b none r r') :
    Alike b (some id) { r with checkpoint := some id } { r' with checkpoint := some (b + 1) } where
  outcomes := h.outcomes.imp fun x y ⟨i, slot, hxy⟩ => ⟨i, slot.grow id, hxy⟩
  taken := rfl
  taken' := rfl
  same := by rw [h.same]

end Report

namespace Cycle

variable {L : Instant → Instant → Prop} {b id id' : ActionId} {o : Option ActionId} {c d : Cycle}

theorem Alike.conclude (h : Alike L b o c d) : Alike L b o c.conclude d.conclude := by
  refine ⟨h.endpoint, h.now, h.backlog, h.old, h.report, ?_⟩
  unfold Cycle.conclude
  simp only [h.report.visitedAny]
  split
  · exact .closed
  · exact .pinging

theorem Alike.advance (h : Alike L b o c d) : Alike L b o c.advance d.advance := by
  unfold Cycle.advance
  rw [h.report.isSome_checkpoint, h.backlog, h.now]
  split
  · exact h.conclude
  · next hopen =>
    have hnone : o = none := by
      rw [← h.report.taken]
      exact Option.not_isSome_iff_eq_none.mp hopen
    split
    · next p backlog hnext =>
      have hids := Backlog.ids_of_nextDue hnext
      refine ⟨h.endpoint, rfl, rfl, fun id hid => h.old id ?_, h.report,
        .preparing (.inl ⟨?_, rfl⟩)⟩
      · rw [hids]
        exact List.mem_cons_of_mem _ hid
      · refine h.old _ ?_
        rw [hids]
        exact List.mem_cons_self
    · next backlog hnext =>
      refine ⟨h.endpoint, rfl, rfl, fun id hid => h.old id ?_, ?_, .refreshing hnone⟩
      · rwa [← Backlog.ids_of_not_due hnext]
      · exact ⟨h.report.outcomes, h.report.taken, h.report.taken', by rw [h.report.same]⟩

theorem Alike.settle {x : Outcome} (slot : Slot b o x.actionId id') (h : Alike L b o c d) :
    Alike L b o (c.settle x) (d.settle (x.withAction id')) := by
  have hadd : Alike L b o { c with report := c.report.add x }
      { d with report := d.report.add (x.withAction id') } :=
    ⟨h.endpoint, h.now, h.backlog, h.old, h.report.add ⟨id', slot, rfl⟩, h.stage⟩
  exact hadd.advance

theorem Alike.call {a a' : Action} (slot : Slot b o a.id a'.id)
    (haa' : Action.Renumbered L a'.id a a') (left : Nat) (h : Alike L b o c d) :
    Alike L b o (c.call a left) (d.call a' left) := by
  refine ⟨h.endpoint, h.now, h.backlog, h.old, ?_, .calling slot haa' left⟩
  exact ⟨h.report.outcomes, h.report.taken, h.report.taken', by rw [Cycle.call, h.report.same]; rfl⟩

theorem Alike.invoked (reply : InvokeReply) (h : Alike L b o c d) :
    Alike L b o (c.invoked reply) (d.invoked reply) := by
  unfold Cycle.invoked
  have hstage := h.stage
  generalize hc : c.stage = x at hstage
  generalize hd : d.stage = y at hstage
  cases hstage with
  | calling slot haa' left =>
    simp only
    split
    · exact h.settle slot
    · exact h.settle slot
    · exact ⟨h.endpoint, h.now, h.backlog, h.old, h.report, .recording slot haa' left _⟩
  | preparing | recording | refreshing | pinging | checkingIn | closed => exact h

theorem Alike.probed (probe : Option Probe) (h : Alike L b o c d) :
    Alike L b o { c with stage := .closed, report := { c.report with probe } }
      { d with stage := .closed, report := { d.report with probe } } := by
  refine ⟨h.endpoint, h.now, h.backlog, h.old, ?_, .closed⟩
  exact ⟨h.report.outcomes, h.report.taken, h.report.taken', by rw [h.report.same]⟩

theorem Alike.pinged (reply : PingReply) (h : Alike L b o c d) :
    Alike L b o (c.pinged reply) (d.pinged reply) := by
  unfold Cycle.pinged
  split
  · exact ⟨h.endpoint, h.now, h.backlog, h.old, h.report, .checkingIn⟩
  · exact h.probed _
  · exact h.probed _

theorem Alike.pendingCall (h : Alike L b o c d) : d.pendingCall = c.pendingCall := by
  unfold Cycle.pendingCall
  have hstage := h.stage
  generalize c.stage = x at hstage
  generalize d.stage = y at hstage
  cases hstage with
  | calling slot haa' left =>
    simp only [haa'.same.2.2]
  | preparing | recording | refreshing | pinging | checkingIn | closed => rfl

/-- The record of what a cycle has a task for is queued: nobody else has finished it. -/
def Busy (c : Cycle) (l : Ledger) : Prop :=
  ∀ a, c.task? = some a → ∃ r, l.record? a.id c.endpoint = some r ∧ r.status = .queued

theorem busy_of_free {l : Ledger} (h : c.task? = none) : c.Busy l := by
  intro a ha
  rw [h] at ha
  cases ha

theorem Turn.busy {k : Keeping} {policy : Policy} {wall : Instant} {l l' : Ledger} {c' : Cycle}
    (turn : Turn k policy wall c l c' l') : c'.Busy l' := by
  cases turn with
  | loaded | skipped | barred | held | exhausted | recorded =>
    exact busy_of_free (by simp)
  | refused => exact busy_of_free (task?_settle (o := _))
  | unflagged => exact busy_of_free task?_conclude
  | checkpointed | checkedIn => exact busy_of_free rfl
  | @spent id r a n stage found queued action unblocked tries =>
    intro a' ha'
    obtain rfl := Option.some.inj ha'
    have hkey : r.actionId = a.id ∧ r.endpoint = c.endpoint :=
      ⟨(Ledger.actionId_of_record? found).trans (Ledger.id_of_action? action).symm,
        Ledger.endpoint_of_record? found⟩
    refine ⟨{ r with remainingTries := n }, ?_, queued⟩
    rw [Ledger.record?_putRecord, if_pos (by rw [hkey.1, hkey.2]; rfl)]

theorem Busy.invoked {l : Ledger} {a : Action} {left : Nat} (h : c.Busy l)
    (stage : c.stage = .calling a left) (reply : InvokeReply) : (c.invoked reply).Busy l := by
  rcases invoked_cases stage reply with ⟨x, -, hnext⟩ | ⟨result, hnext⟩
  · rw [hnext]
    exact busy_of_free task?_settle
  · rw [hnext]
    intro a' ha'
    obtain rfl := Option.some.inj ha'
    exact h a (by rw [task?, stage])

end Cycle

namespace Record.Renumbered

variable {L : Instant → Instant → Prop} {id : ActionId} {r s : Record} {wall wall' : Instant}

theorem finished (hwall : L wall wall') (h : Renumbered L id r s) (status : Status) (code : Int)
    (msg : String) : Renumbered L id (r.finished status code msg wall)
      (s.finished status code msg wall') := by
  obtain ⟨t, -, rfl⟩ := h
  exact ⟨some wall', .some hwall, rfl⟩

theorem withTries (h : Renumbered L id r s) (n : Nat) :
    Renumbered L id { r with remainingTries := n } { s with remainingTries := n } := by
  obtain ⟨t, ht, rfl⟩ := h
  exact ⟨t, ht, rfl⟩

end Record.Renumbered

namespace Endpoint.Twin

variable {L : Instant → Instant → Prop} {x y : Endpoint}

theorem needsRefresh (h : Twin L x y) : y.needsRefresh = x.needsRefresh := by
  obtain ⟨t, -, rfl⟩ := h
  rfl

theorem markRefresh (h : Twin L x y) : Twin L x.markRefresh y.markRefresh := by
  obtain ⟨t, ht, rfl⟩ := h
  exact ⟨t, ht, rfl⟩

theorem clearRefresh (h : Twin L x y) : Twin L x.clearRefresh y.clearRefresh := by
  obtain ⟨t, ht, rfl⟩ := h
  exact ⟨t, ht, rfl⟩

end Endpoint.Twin

namespace Cycle

variable {σ : Type} [ActionRows σ] [Legible σ] [Transcribed σ]

/-- What two transactions come to that go along with one another: one ending, cycles that are
alike, and rows that show the same unless they are rolled back. -/
def Settled (L : Instant → Instant → Prop) (e : EndpointId) (b : ActionId) (o : Option ActionId)
    (x y : Ending × Cycle) (s t : σ) : Prop :=
  y.1 = x.1 ∧ ∃ o', Alike L b o' x.2 y.2 ∧ Near L e b o' s t ∧ (x.1 ≠ .commit → o' = o)

variable {L : Instant → Instant → Prop} {e : EndpointId} {b id id' : ActionId} {o : Option ActionId}
  {c d : Cycle} {r r' : Record} {a a' : Action} {wall wall' : Instant} {policy : Policy}

open Work (Follows)

theorem follows_settled {ending : Ending} (h : Alike L b o c d) :
    Follows (Near L e b o) (Settled (σ := σ) L e b o) (pure (ending, c)) (pure (ending, d)) :=
  .pure fun _ _ hnear => ⟨rfl, o, h, hnear, fun _ => rfl⟩

section transactions

variable (hwall : L wall wall')

include hwall

theorem follows_giveUp {x : Outcome} (slot : Slot b o r.actionId id') (here : r.endpoint = e)
    (queued : r.status = .queued) (hrr' : Record.Renumbered L id' r r') (code : Int)
    (message : String) (hx : x.actionId = r.actionId) (h : Alike L b o c d) :
    Follows (Near L e b o) (Settled (σ := σ) L e b o) (c.giveUp r code message wall x)
      (d.giveUp r' code message wall' (x.withAction id')) := by
  have queued' : r'.status = .queued := hrr'.same.2.2.1.trans queued
  unfold giveUp
  rw [Record.fail, Record.fail, Record.finish_of_queued queued, Record.finish_of_queued queued']
  exact .bind (Work.follows_save slot here (hrr'.finished hwall _ _ _)) fun _ _ =>
    follows_settled (h.settle (hx ▸ slot))

theorem follows_spend (slot : Slot b o r.actionId id') (here : r.endpoint = e)
    (queued : r.status = .queued) (hrr' : Record.Renumbered L id' r r')
    (ha : a.id = r.actionId) (haa' : Action.Renumbered L id' a a') (h : Alike L b o c d) :
    Follows (Near L e b o) (Settled (σ := σ) L e b o) (c.spend r a wall) (d.spend r' a' wall') := by
  obtain ⟨hid, -, hstatus, htries⟩ := hrr'.same
  have queued' : r'.status = .queued := hstatus.trans queued
  unfold spend
  rw [htries, hid]
  split
  · exact follows_giveUp hwall slot here queued hrr' _ _ rfl h
  · next hn =>
    obtain ⟨n, hr⟩ := Nat.exists_eq_add_of_le' (by omega : 1 ≤ r.remainingTries)
    rw [Record.consume_of_queued queued hr, Record.consume_of_queued queued' (htries.trans hr)]
    obtain rfl := haa'.same.1
    exact .bind (Work.follows_save slot here (hrr'.withTries n)) fun _ _ =>
      follows_settled (h.call (ha ▸ slot) haa' n)

variable (hL : Instant.Interchange (Legible.keeping σ) L)

include hL

theorem follows_prepare (slot : Slot b o id id') (h : Alike L b o c d) :
    Follows (Near L c.endpoint b o) (Settled (σ := σ) L c.endpoint b o) (c.prepare id wall)
      (d.prepare id' wall') := by
  unfold prepare
  rw [h.endpoint]
  refine .bind (Work.follows_loadRecord hL slot) fun found found' => ?_
  refine .knowing fun ⟨hfound, hkey⟩ => ?_
  cases hfound with
  | none => exact .throw _
  | @some r r' hrr' =>
    obtain ⟨rfl, here⟩ := hkey r rfl
    obtain ⟨-, -, hstatus, -⟩ := hrr'.same
    have hterminal : r'.isTerminal = r.isTerminal := congrArg Status.isTerminal hstatus
    simp only [hterminal, hstatus]
    split
    · exact follows_settled (h.settle slot)
    · next hopen =>
      have queued : r.status = .queued := by simpa [Record.isTerminal_iff] using hopen
      refine .bind (Work.follows_loadAction hL slot) fun a a' => ?_
      refine .knowing fun ⟨ha, haa', hfirst⟩ => ?_
      simp only [haa'.same.2.1]
      split
      · exact follows_spend hwall slot here queued hrr' ha haa' h
      · next p hp =>
        -- only the status of the prior record is looked at
        refine .bind (Work.follows_loadRecord hL (hfirst p hp)) fun prior prior' => ?_
        refine .knowing fun ⟨hprior, _⟩ => ?_
        have hsame : prior'.map Record.status = prior.map Record.status := by
          cases hprior with
          | none => rfl
          | some hpp' => exact congrArg some hpp'.same.2.2.1
        rw [hsame]
        split
        · exact follows_giveUp hwall slot here queued hrr' _ _ rfl h
        · exact follows_settled (h.settle slot)
        · exact follows_spend hwall slot here queued hrr' ha haa' h

theorem follows_checkIn (h : Alike L b o c d) :
    Follows (Near L e b o) (Settled (σ := σ) L e b o)
      (do
        Work.attempt .recordCheckin (ActionRows.recordCheckin e wall)
        return (Ending.commit, c))
      (do
        Work.attempt .recordCheckin (ActionRows.recordCheckin e wall')
        return (Ending.commit, d)) :=
  .bind (Work.follows_recordCheckin hL.refl hwall) fun _ _ => follows_settled h

theorem follows_recordResult (slot : Slot b o a.id a'.id) (haa' : Action.Renumbered L a'.id a a')
    (left : Nat) (result : CallResult) (h : Alike L b o c d) :
    Follows (fun s t => (∃ r, (Legible.ledger s).record? a.id c.endpoint = some r ∧
        r.status = .queued) ∧ Near L c.endpoint b o s t)
      (Settled (σ := σ) L c.endpoint b o)
      (c.recordResult policy a left result wall) (d.recordResult policy a' left result wall') := by
  obtain ⟨-, -, hprocedure⟩ := haa'.same
  unfold recordResult
  rw [h.endpoint, hprocedure]
  generalize Verdict.ofResult a.procedure result = verdict
  refine .bind (Work.follows_loadQueued hL slot) fun found found' => ?_
  refine .knowing fun ⟨r, r', hr, hr', hrr', hid, here, queued⟩ => ?_
  subst hr hr'
  have queued' : r'.status = .queued := hrr'.same.2.2.1.trans queued
  have hslot : Slot b o r.actionId a'.id := hid ▸ slot
  have hsettle : Alike L b o (c.settle (outcomeOf verdict a.id left))
      (d.settle (outcomeOf verdict a'.id left)) := by
    unfold outcomeOf
    split
    · exact h.settle slot
    · exact h.settle slot
  simp only [Record.finish_of_queued queued, Record.finish_of_queued queued']
  refine .bind (Work.follows_save hslot here (hrr'.finished hwall _ _ _)) fun _ _ => ?_
  split
  · refine .bind (Work.follows_loadEndpoint hL) fun x x' => ?_
    refine .knowing fun ⟨hx, hxx'⟩ => ?_
    refine .bind (Work.follows_saveEndpoint hx hxx'.markRefresh) fun _ _ => ?_
    exact follows_checkIn hwall hL hsettle
  · exact follows_checkIn hwall hL hsettle

theorem follows_refresh (hdated : wall'.IsDated) (open_ : o = none) (h : Alike L b o c d) :
    Follows (Near L c.endpoint b o) (Settled (σ := σ) L c.endpoint b o) (c.refresh policy wall)
      (d.refresh policy wall') := by
  subst open_
  unfold refresh
  rw [h.endpoint, h.now]
  refine .bind (Work.follows_loadEndpoint hL) fun x x' => ?_
  refine .knowing fun ⟨hx, hxx'⟩ => ?_
  rw [hxx'.needsRefresh]
  split
  · refine .bind (Work.follows_insertAction hL.refl hwall rfl rfl hdated) fun new new' => ?_
    refine .knowing fun hid => ?_
    refine .bind (Work.follows_saveEndpoint hx hxx'.clearRefresh) fun _ _ => ?_
    refine .pure fun s t hnear => ⟨rfl, some new.id, ?_, hnear, fun hne => absurd rfl hne⟩
    rw [hid]
    exact ⟨rfl, rfl, h.backlog, h.old, h.report.take, .preparing (.inr ⟨rfl, rfl⟩)⟩
  · exact follows_settled h.conclude

/-- Cycles that are alike make transactions that go along with one another. -/
theorem Alike.follows (hdated : wall'.IsDated) (h : Alike L b o c d)
    {w : Work σ (Ending × Cycle)} (hw : c.work? policy wall = some w) :
    ∃ w', d.work? policy wall' = some w' ∧
      Follows (fun s t => c.Busy (Legible.ledger s) ∧ Near L c.endpoint b o s t)
        (Settled L c.endpoint b o) w w' := by
  have hstage := h.stage
  unfold work? at hw
  generalize hc : c.stage = x at hstage hw
  generalize hd : d.stage = y at hstage
  cases hstage with
  | preparing slot =>
    obtain rfl := Option.some.inj hw
    refine ⟨_, by rw [work?, hd], ?_⟩
    exact (follows_prepare hwall hL slot h).weaken fun _ _ hM => hM.2
  | recording slot haa' left result =>
    obtain rfl := Option.some.inj hw
    refine ⟨_, by rw [work?, hd], ?_⟩
    exact (follows_recordResult hwall hL slot haa' left result h).weaken
      fun _ _ hM => ⟨hM.1 _ (by rw [task?, hc]), hM.2⟩
  | refreshing open_ =>
    obtain rfl := Option.some.inj hw
    refine ⟨_, by rw [work?, hd], ?_⟩
    exact (follows_refresh hwall hL hdated open_ h).weaken fun _ _ hM => hM.2
  | checkingIn =>
    obtain rfl := Option.some.inj hw
    refine ⟨_, by rw [work?, hd], ?_⟩
    obtain ⟨e', now', backlog', report', stage'⟩ := d
    obtain rfl : e' = c.endpoint := h.endpoint
    exact (follows_checkIn hwall hL (h.probed (some .alive))).weaken fun _ _ hM => hM.2
  | calling | pinging | closed => cases hw

end transactions

end Cycle

end FleetDispatch
