import FleetDispatch.Proofs.Pool.Load

namespace FleetDispatch

namespace Pool

variable {p p' : Pool} {event : Option Crew.Event} {w w' : Worker} {i : Nat} {e : EndpointId}

def counted (p : Pool) : Nat :=
  p.stats.totalCompleted + p.stats.totalFailed

def uncounted (p : Pool) : Nat :=
  p.active.countP (·.stage != .counted)

/-- The cycles that are still to be counted if there are no more requests. -/
def due (p : Pool) : Nat :=
  p.uncounted + p.reruns.length

theorem uncounted_set (here : p.active[i]? = some w) (active : p'.active = p.active.set i w') :
    p'.uncounted + (w.stage != .counted).toNat = p.uncounted + (w'.stage != .counted).toNat := by
  rw [uncounted, active]
  exact countP_set_of_getElem? here w'

theorem uncounted_without (here : p.active[i]? = some w) (stage : w.stage = .counted) :
    (p.without i).uncounted = p.uncounted := by
  have hcount := countP_eraseIdx_of_getElem? (p := (·.stage != .counted)) here
  rw [stage] at hcount
  exact hcount

theorem length_unmark {l : List EndpointId} (nodup : l.Nodup) (marked : e ∈ l) :
    (l.filter (· != e)).length + 1 = l.length := by
  rw [← nodup.erase_eq_filter, List.length_erase_of_mem marked]
  exact Nat.sub_add_cancel (List.length_pos_of_mem marked)

/-- What the step of a worker leaves as it is in the books: requests are not its business, a cycle
is counted or not, and one more cycle is begun for each mark that is used up. -/
structure Booked (p p' : Pool) : Prop where
  scheduled : p'.stats.totalScheduled = p.stats.totalScheduled
  deferred : p'.stats.deferredDuplicates = p.stats.deferredDuplicates
  cycles : p'.counted + p'.uncounted + p.stats.totalReruns =
    p.counted + p.uncounted + p'.stats.totalReruns
  marks : p'.stats.totalReruns + p'.reruns.length = p.stats.totalReruns + p.reruns.length
  nodup : p'.reruns.Nodup

namespace Booked

theorem moved (w' : Worker) (here : p.active[i]? = some w)
    (active : p'.active = p.active.set i w')
    (scheduled : p'.stats.totalScheduled = p.stats.totalScheduled)
    (deferred : p'.stats.deferredDuplicates = p.stats.deferredDuplicates)
    (cycles : p'.counted + p.stats.totalReruns + (w'.stage != .counted).toNat =
      p.counted + p'.stats.totalReruns + (w.stage != .counted).toNat)
    (marks : p'.stats.totalReruns + p'.reruns.length = p.stats.totalReruns + p.reruns.length)
    (nodup : p'.reruns.Nodup) : p.Booked p' where
  scheduled := scheduled
  deferred := deferred
  cycles := by
    have hset := uncounted_set here active
    omega
  marks := marks
  nodup := nodup

theorem without (here : p.active[i]? = some w) (stage : w.stage = .counted)
    (nodup : p.reruns.Nodup) : p.Booked (p.without i) where
  scheduled := rfl
  deferred := rfl
  cycles := by
    rw [uncounted_without here stage]
    rfl
  marks := rfl
  nodup := nodup

theorem trans {q : Pool} (h : p.Booked q) (h' : q.Booked p') : p.Booked p' where
  scheduled := h'.scheduled.trans h.scheduled
  deferred := h'.deferred.trans h.deferred
  cycles := by
    have hfirst := h.cycles
    have hthen := h'.cycles
    omega
  marks := h'.marks.trans h.marks
  nodup := h'.nodup

end Booked

theorem Worked.booked (step : p.Worked event p') (nodup : p.reruns.Nodup) : p.Booked p' := by
  cases step with
  | @granted i w here stage =>
    exact .moved { w with stage := .granted } here rfl rfl rfl (by rw [stage]; rfl) rfl nodup
  | @lined i w here stage =>
    exact .moved { w with stage := .waiting } here rfl rfl rfl (by rw [stage]; rfl) rfl nodup
  | @started i w here stage =>
    exact .moved { w with started := true, stage := .cycling } here rfl rfl rfl
      (by rw [stage]; rfl) rfl nodup
  | @completed i w here stage | @failed i w here stage =>
    refine .moved { w with stage := .counted } here rfl rfl rfl ?_ rfl nodup
    rw [stage]
    simp only [counted, bne_self_eq_false, Bool.toNat_false]
    have hopen : (WorkerStage.cycling != .counted).toNat = 1 := rfl
    omega
  | @again i w here stage marked =>
    -- the mark that is used up stands for the cycle that is begun
    have hlength := length_unmark nodup marked
    refine .moved { w with stage := .cycling } here rfl rfl rfl (by rw [stage]; rfl) ?_
      (nodup.filter _)
    simp only
    omega
  | left here stage => exact .without here stage nodup
  | @handed i w j v line here stage unmarked next waiting first =>
    refine (Booked.without here stage nodup).trans ?_
    exact .moved { v with stage := .granted } next rfl rfl rfl (by rw [waiting]; rfl) rfl nodup

/-- The books of a pool: each cycle that was claimed or begun again is counted or still to be
counted, and no more cycles are begun again than were asked for while an endpoint was active. -/
structure Tallied (p : Pool) : Prop where
  nodup : p.reruns.Nodup
  cycles : p.stats.totalScheduled + p.stats.totalReruns = p.counted + p.uncounted
  reruns : p.stats.totalReruns + p.reruns.length ≤ p.stats.deferredDuplicates

namespace Tallied

theorem worked (tallied : p.Tallied) (step : p.Worked event p') : p'.Tallied := by
  have hcycles := tallied.cycles
  have hreruns := tallied.reruns
  obtain ⟨hscheduled, hdeferred, hbooked, hmarks, hnodup⟩ := step.booked tallied.nodup
  exact ⟨hnodup, by omega, by omega⟩

theorem happens (tallied : p.Tallied) (happens : p.Happens event p') : p'.Tallied := by
  cases happens with
  | nothing | rejected => exact tallied
  | closed => exact ⟨tallied.nodup, tallied.cycles, tallied.reruns⟩
  | claimed =>
    refine ⟨tallied.nodup, ?_, tallied.reruns⟩
    have hcycles := tallied.cycles
    simp only [uncounted, counted, List.countP_append, List.countP_singleton] at hcycles ⊢
    simp
    omega
  | @marked e =>
    have hreruns := tallied.reruns
    have hnodup := tallied.nodup
    -- each request counts, but only the first one leaves a mark
    by_cases hmem : e ∈ p.reruns
    · rw [if_pos (by simpa using hmem)]
      exact ⟨hnodup, tallied.cycles, Nat.le_succ_of_le hreruns⟩
    · rw [if_neg (by simpa using hmem)]
      refine ⟨?_, tallied.cycles, ?_⟩
      · exact List.nodup_append.mpr
          ⟨hnodup, List.nodup_singleton e, fun x hx y hy hxy => by simp_all⟩
      · rw [List.length_append, List.length_singleton]
        simp only
        omega
  | worked step => exact tallied.worked step

end Tallied

theorem Happens.stays_closed (happens : p.Happens event p') (closed : p.closed = true) :
    p'.closed = true := by
  cases happens with
  | nothing | rejected | claimed | marked => exact closed
  | closed => rfl
  | worked step => cases step <;> exact closed

theorem Happens.due (happens : p.Happens event p') (closed : p.closed = true)
    (nodup : p.reruns.Nodup) : p'.counted + p'.due = p.counted + p.due := by
  cases happens with
  | nothing | closed | rejected => rfl
  | claimed accepting | marked accepting => simp [closed] at accepting
  | worked step =>
    obtain ⟨-, -, hcycles, hmarks, -⟩ := step.booked nodup
    simp only [Pool.due]
    omega

theorem due_of_idle (balanced : p.Balanced) (idle : p.isIdle) : p.due = 0 := by
  have hactive : p.active = [] := List.isEmpty_iff.mp idle
  have hreruns : p.reruns = [] := by
    refine List.eq_nil_iff_forall_not_mem.mpr fun e he => ?_
    have hmarked := balanced.marked e he
    rw [isActive, hactive] at hmarked
    cases hmarked
  rw [due, uncounted, hactive, hreruns]
  rfl

/-- When no cycle is due, the workers that are left have only to leave. -/
theorem counted_of_due (none : p.due = 0) :
    p.reruns = [] ∧ ∀ w ∈ p.active, w.stage = .counted := by
  obtain ⟨huncounted, hreruns⟩ := Nat.add_eq_zero_iff.mp none
  refine ⟨List.length_eq_zero_iff.mp hreruns, fun w hw => ?_⟩
  have hstage := List.countP_eq_zero.mp huncounted w hw
  simpa using hstage

theorem exists_isActive (busy : p.isIdle = false) : ∃ e, p.isActive e := by
  obtain ⟨w, active, hactive⟩ := List.exists_cons_of_ne_nil (List.isEmpty_eq_false_iff.mp busy)
  exact ⟨w.endpoint, isActive_iff.mpr ⟨w, hactive ▸ List.mem_cons_self, rfl⟩⟩

end Pool

namespace Crew

variable {c : Crew} {e : EndpointId}

theorem tallied_after (size : Nat) (moves : List Move) :
    ((ofSize size).after moves).pool.Tallied := by
  have hinit : (ofSize size).pool.Tallied := ⟨List.nodup_nil, rfl, Nat.le_refl 0⟩
  have hsound := ofSize_sound size
  generalize ofSize size = c at hinit hsound
  induction moves generalizing c with
  | nil => exact hinit
  | cons m moves ih => exact ih (c.step m).2 (hinit.happens (hsound.happens m).1) (hsound.step m)

theorem schedule_rejected (closed : c.pool.closed = true) :
    c.step (.schedule e) =
      (some (.answered e (.rejected "Scheduler is shutting down")), c) := by
  rw [step, schedule, Pool.schedule_closed closed]
  rfl

theorem step_drained (sound : c.Sound) (closed : c.pool.closed = true) (idle : c.pool.isIdle)
    (m : Move) : (c.step m).2 = c := by
  cases m with
  | schedule e => rw [schedule_rejected closed]
  | close =>
    rw [step, Pool.close, ← closed]
  | work i completed =>
    have hhands : c.hands = [] := (sound.occupied.at_rest idle).1
    rw [step, hhands]
    rfl

theorem after_drained (sound : c.Sound) (closed : c.pool.closed = true) (idle : c.pool.isIdle)
    (moves : List Move) : c.after moves = c := by
  induction moves with
  | nil => rfl
  | cons m moves ih => rw [after_cons, step_drained sound closed idle, ih]

theorem step_load_closed (sound : c.Sound) (closed : c.pool.closed = true) (m : Move) :
    (m.goesOn c).toNat + (c.step m).2.pool.load ≤ c.pool.load := by
  cases m with
  | schedule e =>
    rw [schedule_rejected closed]
    exact Nat.le_of_eq (Nat.zero_add _)
  | close => exact sound.step_load .close
  | work i completed => exact sound.step_load (.work i completed)

/-- From when a pool is closed, each cycle that is counted is one of those that were due, and each
step of a worker is one of those that were left. -/
theorem draining (sound : c.Sound) (tallied : c.pool.Tallied) (closed : c.pool.closed = true)
    (later : List Move) :
    (c.after later).pool.closed = true ∧
      (c.after later).pool.counted + (c.after later).pool.due = c.pool.counted + c.pool.due ∧
      steps later c + (c.after later).pool.load ≤ c.pool.load := by
  -- on the moves: a closed pool stays closed, and what a move counts was due before it
  induction later generalizing c with
  | nil => exact ⟨closed, rfl, Nat.le_of_eq (Nat.zero_add _)⟩
  | cons m later ih =>
    have hhappens := (sound.happens m).1
    obtain ⟨hclosed, hdue, hsteps⟩ :=
      ih (sound.step m) (tallied.happens hhappens) (hhappens.stays_closed closed)
    refine ⟨hclosed, hdue.trans (hhappens.due closed tallied.nodup), ?_⟩
    have hload := step_load_closed sound closed m
    simp only [steps, after_cons]
    omega

/-- The totals of a pool agree at any moment, whatever the order of requests and of the steps of
workers: each cycle that was scheduled, at first or again, is counted as completed or as failed, or
it is the current cycle of an active endpoint. Once the pool is closed, requests are rejected and
leave it as it is, and the cycles that are due are counted, no more and no less. With the last of
them the workers have nothing to do but to leave, and they do: as long as one is there some worker
can go on, and after a bounded number of steps none is there any more. -/
theorem totals_agree (size : Nat) (moves : List Move) :
    let c := (ofSize size).after moves
    let stats := c.pool.stats
    let closing := (c.step .close).2
    stats.totalScheduled + stats.totalReruns =
        stats.totalCompleted + stats.totalFailed + c.pool.uncounted ∧
      stats.totalReruns + c.pool.reruns.length ≤ stats.deferredDuplicates ∧
      (c.pool.isIdle →
        stats.totalScheduled + stats.totalReruns = stats.totalCompleted + stats.totalFailed) ∧
      ∀ later,
        let c' := closing.after later
        (∀ e, c'.step (.schedule e) =
          (some (.answered e (.rejected "Scheduler is shutting down")), c')) ∧
        c'.pool.counted + c'.pool.due = c.pool.counted + c.pool.due ∧
        (c'.pool.counted = c.pool.counted + c.pool.due →
          c'.pool.reruns = [] ∧ ∀ w ∈ c'.pool.active, w.stage = .counted) ∧
        (c'.pool.isIdle →
          c'.pool.counted = c.pool.counted + c.pool.due ∧ ∀ more, c'.after more = c') ∧
        (c'.pool.isIdle = false → ∀ completed, ∃ i, (Move.work i completed).goesOn c') ∧
        steps later closing ≤ c.pool.load ∧
        (steps later closing = c.pool.load → c'.pool.isIdle) := by
  intro c stats closing
  have hsound : c.Sound := (ofSize_sound size).after moves
  have htallied : c.pool.Tallied := tallied_after size moves
  have hcycles : stats.totalScheduled + stats.totalReruns =
      stats.totalCompleted + stats.totalFailed + c.pool.uncounted := htallied.cycles
  refine ⟨hcycles, htallied.reruns, fun idle => ?_, fun later => ?_⟩
  · have hdue := Pool.due_of_idle hsound.balanced idle
    rw [Pool.due] at hdue
    omega
  · intro c'
    have hclosing : closing.Sound := hsound.step .close
    have hend : c'.Sound := hclosing.after later
    have hcapacity : c'.pool.capacity = max size 1 := by
      rw [capacity_after hclosing later]
      exact capacity_after (ofSize_sound size) moves
    obtain ⟨hclosed, hdue, hsteps⟩ :=
      draining hclosing (htallied.happens (hsound.happens .close).1) rfl later
    change c'.pool.counted + c'.pool.due = c.pool.counted + c.pool.due at hdue
    change steps later closing + c'.pool.load ≤ c.pool.load at hsteps
    have hprogress (busy : c'.pool.isIdle = false) (completed : Bool) :
        ∃ i, (Move.work i completed).goesOn c' := by
      obtain ⟨e, hactive⟩ := Pool.exists_isActive busy
      exact hend.exists_goesOn (by omega) hactive completed
    refine ⟨fun e => schedule_rejected hclosed, hdue, fun hall => ?_, fun idle => ⟨?_, ?_⟩,
      hprogress, Nat.le_of_add_right_le hsteps, fun hall => ?_⟩
    · exact Pool.counted_of_due (by omega)
    · have hnone := Pool.due_of_idle hend.balanced idle
      omega
    · exact after_drained hend hclosed idle
    -- a worker that is left would have a step left, beyond the bound for all of them
    · by_contra hbusy
      obtain ⟨e, hactive⟩ := Pool.exists_isActive (Bool.eq_false_iff.mpr hbusy)
      have hload := Pool.load_pos hactive
      omega

def servedOnce : List Move :=
  [.schedule "web", .work 0 true, .work 0 true, .work 0 true, .work 0 true]

def wantedAgain : List Move :=
  [.schedule "web", .work 0 true, .work 0 true, .schedule "web", .schedule "db"]

def countedOut : List Move :=
  [.schedule "cache", .work 1 true, .work 0 true, .work 0 true, .work 0 false, .work 0 true,
    .work 0 true, .work 0 true]

theorem totals_agree_oneSlot :
    let served := (ofSize 1).after servedOnce
    let c := (ofSize 1).after wantedAgain
    let c' := (c.step .close).2.after countedOut
    let c'' := (c.step .close).2.after (countedOut ++ [.work 0 true])
    (served.pool.isIdle ∧ served.pool.stats.totalScheduled + served.pool.stats.totalReruns =
        served.pool.stats.totalCompleted + served.pool.stats.totalFailed) ∧
      c.pool.due = 3 ∧
      (c'.pool.counted = c.pool.counted + c.pool.due ∧ c'.pool.isIdle = false ∧
        c'.pool.reruns = [] ∧ (∀ w ∈ c'.pool.active, w.stage = .counted) ∧
        ∃ i, (Move.work i true).goesOn c') ∧
      steps (countedOut ++ [.work 0 true]) (c.step .close).2 = c.pool.load ∧ c''.pool.isIdle ∧
      c''.pool.counted = c.pool.counted + c.pool.due ∧
      ∀ more, c''.after more = c'' := by
  have hserved := (totals_agree 1 servedOnce).2.2.1
  have hclosed := (totals_agree 1 wantedAgain).2.2.2
  dsimp only at hserved hclosed ⊢
  obtain ⟨-, -, hlast, -, hgoes, -⟩ := hclosed countedOut
  obtain ⟨-, -, -, hend, -, -, hidle⟩ := hclosed (countedOut ++ [.work 0 true])
  obtain ⟨hreruns, hstages⟩ := hlast (by decide +kernel)
  have hdrained := hidle (by decide +kernel)
  exact ⟨⟨by decide +kernel, hserved (by decide +kernel)⟩, by decide +kernel,
    ⟨by decide +kernel, by decide +kernel, hreruns, hstages, hgoes (by decide +kernel) true⟩,
    by decide +kernel, hdrained, hend hdrained⟩

end Crew

end FleetDispatch
