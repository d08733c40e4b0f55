import FleetDispatch.Cycle
import FleetDispatch.Proofs.Store.Mirror
import FleetDispatch.Proofs.Transition

namespace FleetDispatch

open List (Forall₂)

variable {L : Instant → Instant → Prop}

section records

variable {r s : Record}

theorem Record.Kept.actionId (h : Kept L r s) : s.actionId = r.actionId := by
  obtain ⟨⟨u, -, rfl⟩, -⟩ := h
  rfl

theorem Record.Kept.status (h : Kept L r s) : s.status = r.status := by
  obtain ⟨⟨u, -, rfl⟩, -⟩ := h
  rfl

theorem Record.Kept.remainingTries (h : Kept L r s) : s.remainingTries = r.remainingTries := by
  obtain ⟨⟨u, -, rfl⟩, -⟩ := h
  rfl

theorem Record.parallel_consume : Parallel (Kept L) Eq consume consume := by
  rintro r _ ⟨⟨u, hu, rfl⟩, htries⟩
  by_cases queued : r.status = .queued
  · by_cases left : r.remainingTries = 0
    · rw [consume_of_exhausted queued left,
        consume_of_exhausted (r := { r with completedAt := u }) queued left]
      exact .error _ ⟨⟨u, hu, rfl⟩, htries⟩
    · obtain ⟨n, left⟩ := Nat.exists_eq_succ_of_ne_zero left
      rw [consume_of_queued queued left,
        consume_of_queued (r := { r with completedAt := u }) queued left]
      exact .ok rfl ⟨⟨u, hu, rfl⟩, Nat.le_trans (left ▸ Nat.le_succ n) htries⟩
  · rw [consume_of_terminal queued,
      consume_of_terminal (r := { r with completedAt := u }) queued]
    exact .error _ ⟨⟨u, hu, rfl⟩, htries⟩

theorem Record.parallel_finish {time time' : Instant} (htime : L time time') (status : Status)
    (code : Int) (message : String) :
    Parallel (Kept L) Eq (finish status code message time) (finish status code message time') := by
  rintro r _ ⟨⟨u, hu, rfl⟩, htries⟩
  by_cases queued : r.status = .queued
  · rw [finish_of_queued queued, finish_of_queued (r := { r with completedAt := u }) queued]
    exact .ok rfl ⟨⟨some time', .some htime, rfl⟩, htries⟩
  · rw [finish_of_terminal queued, finish_of_terminal (r := { r with completedAt := u }) queued]
    exact .error _ ⟨⟨u, hu, rfl⟩, htries⟩

end records

/-- Stages that differ at most in when the action they are about was created. -/
inductive Stage.Twin (L : Instant → Instant → Prop) : Stage → Stage → Prop where
  | loading : Twin L .loading .loading
  | preparing (id : ActionId) : Twin L (.preparing id) (.preparing id)
  | calling {a b : Action} (h : Action.Twin L a b) (left : Nat) :
    Twin L (.calling a left) (.calling b left)
  | recording {a b : Action} (h : Action.Twin L a b) (left : Nat) (result : CallResult) :
    Twin L (.recording a left result) (.recording b left result)
  | refreshing : Twin L .refreshing .refreshing
  | pinging : Twin L .pinging .pinging
  | checkingIn : Twin L .checkingIn .checkingIn
  | closed : Twin L .closed .closed

structure Backlog.Twin (L : Instant → Instant → Prop) (b c : Backlog) : Prop where
  items : Forall₂ (PendingRecord.Twin L) b.items c.items
  halted : c.halted = b.halted

structure Cycle.Twin (L : Instant → Instant → Prop) (c d : Cycle) : Prop where
  endpoint : d.endpoint = c.endpoint
  now : d.now = c.now
  whole : c.now.IsWhole
  report : d.report = c.report
  backlog : Backlog.Twin L c.backlog d.backlog
  stage : Stage.Twin L c.stage d.stage

theorem Backlog.Twin.remaining {b c : Backlog} (h : Twin L b c) : c.remaining = b.remaining :=
  h.items.length_eq.symm

theorem Backlog.Twin.nextDue {b c : Backlog} (now : Instant) (h : Twin L b c) :
    Option.Rel (PendingRecord.Twin L) (b.nextDue now).1 (c.nextDue now).1 ∧
      Twin L (b.nextDue now).2 (c.nextDue now).2 := by
  obtain ⟨items, halted⟩ := b
  obtain ⟨items', halted'⟩ := c
  obtain ⟨hitems, hhalted⟩ := h
  change halted' = halted at hhalted
  subst hhalted
  unfold Backlog.nextDue
  cases halted' with
  | true => exact ⟨.none, hitems, rfl⟩
  | false =>
    cases hitems with
    | nil => exact ⟨.none, .nil, rfl⟩
    | @cons p q ps qs hpq hrest =>
      obtain ⟨s, hs, rfl⟩ := hpq
      simp only [Bool.false_eq_true, ↓reduceIte]
      split
      · exact ⟨.some ⟨s, hs, rfl⟩, hrest, rfl⟩
      · exact ⟨.none, .cons ⟨s, hs, rfl⟩ hrest, rfl⟩

theorem PendingRecord.Twin.before {p q x y : PendingRecord} (hp : Twin L p x) (hq : Twin L q y) :
    before x y = before p q := by
  obtain ⟨-, ⟨u, -, rfl⟩, rfl⟩ := hp
  obtain ⟨-, ⟨v, -, rfl⟩, rfl⟩ := hq
  rfl

theorem Backlog.twin_ofPending {ps qs : List PendingRecord}
    (h : Forall₂ (PendingRecord.Twin L) ps qs) : Twin L (.ofPending ps) (.ofPending qs) :=
  ⟨mergeSort_forall₂ (fun _ _ _ _ hp hq => hp.before hq) h, rfl⟩

namespace Cycle

variable {c d : Cycle}

theorem twin_start {now : Instant} (endpoint : EndpointId) (hnow : now.IsWhole) :
    Twin L (start endpoint now) (start endpoint now) :=
  ⟨rfl, rfl, hnow, rfl, ⟨.nil, rfl⟩, .loading⟩

theorem Twin.conclude (h : Twin L c d) : Twin L c.conclude d.conclude := by
  refine ⟨h.endpoint, h.now, h.whole, h.report, h.backlog, ?_⟩
  unfold Cycle.conclude
  rw [h.report]
  simp only
  split
  · exact .closed
  · exact .pinging

theorem Twin.advance (h : Twin L c d) : Twin L c.advance d.advance := by
  have hnext := h.backlog.nextDue c.now
  unfold Cycle.advance
  rw [h.report, h.now]
  split
  · exact h.conclude
  · generalize c.backlog.nextDue c.now = x at hnext
    generalize d.backlog.nextDue c.now = y at hnext
    obtain ⟨p, b⟩ := x
    obtain ⟨q, b'⟩ := y
    obtain ⟨hpq, hb⟩ := hnext
    cases hpq with
    | none =>
      refine ⟨h.endpoint, rfl, h.whole, ?_, hb, .refreshing⟩
      simp only [hb.remaining]
    | some hpq =>
      obtain ⟨-, ⟨u, -, rfl⟩, rfl⟩ := hpq
      exact ⟨h.endpoint, rfl, h.whole, rfl, hb, .preparing _⟩

theorem Twin.settle (o : Outcome) (h : Twin L c d) : Twin L (c.settle o) (d.settle o) := by
  have hadd : Twin L { c with report := c.report.add o } { d with report := d.report.add o } :=
    ⟨h.endpoint, h.now, h.whole, by rw [h.report], h.backlog, h.stage⟩
  exact hadd.advance

theorem Twin.refuse (action : ActionId) (e : Refusal) (h : Twin L c d) :
    Store.Ended (Twin L) (c.refuse action e) (d.refuse action e) :=
  ⟨rfl, h.settle _⟩

theorem Twin.call {a b : Action} (hab : Action.Twin L a b) (left : Nat) (h : Twin L c d) :
    Twin L (c.call a left) (d.call b left) := by
  refine ⟨h.endpoint, h.now, h.whole, ?_, h.backlog, .calling hab left⟩
  unfold Cycle.call
  rw [h.report]

end Cycle

end FleetDispatch
