import FleetDispatch.Proofs.Pool.Occupancy
import Mathlib.Data.List.InsertIdx

namespace FleetDispatch

def Worker.hand (w : Worker) : Hand :=
  ⟨w.endpoint, w.stage⟩

namespace Pool

variable {p p' : Pool} {e : EndpointId} {event : Option Crew.Event} {w : Worker} {i : Nat}
  {stage : WorkerStage} {completed : Bool}

theorem Happens.capacity (happens : p.Happens event p') : p'.capacity = p.capacity := by
  cases happens with
  | nothing | closed | rejected | claimed | marked => rfl
  | worked step => cases step <;> rfl

theorem Happens.busy (happens : p.Happens event p') (busy : p.line ≠ [] → p.free = 0) :
    p'.line ≠ [] → p'.free = 0 := by
  intro hline
  cases happens with
  | nothing | closed | rejected | claimed | marked => exact busy hline
  | worked step =>
    cases step with
    | started | completed | failed | again => exact busy hline
    | granted here stage free => exact absurd (busy hline) (Nat.pos_iff_ne_zero.mp free)
    | lined here stage full => exact full
    | left here stage unmarked line => exact absurd line hline
    | handed here stage unmarked next waiting first => exact busy (by simp [first])

theorem setStage_eq (p : Pool) (distinct : (p.active.map Worker.endpoint).Nodup)
    (here : p.active[i]? = some w) :
    p.setStage w.endpoint stage = { p with active := p.active.set i { w with stage } } := by
  rw [setStage, map_eq_set distinct here fun w => { w with stage }]

theorem schedule_closed (closed : p.closed = true) :
    p.schedule e = (.rejected "Scheduler is shutting down", p) := by
  rw [schedule, if_pos closed]

theorem schedule_active (accepting : p.closed = false) (active : p.isActive e = true) :
    p.schedule e = (.alreadyActive, { p with
      reruns := if p.reruns.contains e then p.reruns else p.reruns ++ [e]
      stats := { p.stats with deferredDuplicates := p.stats.deferredDuplicates + 1 } }) := by
  rw [schedule, if_neg (by simp [accepting]), claim, if_pos active]

theorem schedule_new (accepting : p.closed = false) (new : p.isActive e = false) :
    ∃ a : ScheduleAnswer, a.isClaim = true ∧ p.schedule e = (a, { p with
      active := p.active ++ [⟨e, false, .spawned⟩]
      stats := { p.stats with totalScheduled := p.stats.totalScheduled + 1 } }) := by
  rw [schedule, if_neg (by simp [accepting]), claim, if_neg (by simp [new])]
  dsimp only
  split_ifs
  · exact ⟨.ready, rfl, rfl⟩
  · exact ⟨.queued _, rfl, rfl⟩

theorem acquire_free (distinct : (p.active.map Worker.endpoint).Nodup)
    (here : p.active[i]? = some w) (free : 0 < p.free) :
    p.acquire w.endpoint = (true, { p with
      active := p.active.set i { w with stage := .granted }
      free := p.free - 1 }) := by
  rw [acquire, if_pos free, setStage_eq { p with free := p.free - 1 } distinct here]

theorem acquire_full (distinct : (p.active.map Worker.endpoint).Nodup)
    (here : p.active[i]? = some w) (full : p.free = 0) :
    p.acquire w.endpoint = (false, { p with
      active := p.active.set i { w with stage := .waiting }
      line := p.line ++ [w.endpoint] }) := by
  rw [acquire, if_neg (by simp [full]),
    setStage_eq { p with line := p.line ++ [w.endpoint] } distinct here]

theorem markStarted_eq (distinct : (p.active.map Worker.endpoint).Nodup)
    (here : p.active[i]? = some w) :
    p.markStarted w.endpoint = { p with
      active := p.active.set i { w with started := true, stage := .cycling }
      running := p.running + 1
      stats := { p.stats with
        peakConcurrent := max p.stats.peakConcurrent (p.running + 1) } } := by
  have active : p.isActive w.endpoint :=
    List.any_eq_true.mpr ⟨w, List.mem_of_getElem? here, by simp⟩
  rw [markStarted, if_pos active,
    map_eq_set distinct here fun w => { w with started := true, stage := .cycling }]

theorem finish_marked (distinct : (p.active.map Worker.endpoint).Nodup)
    (here : p.active[i]? = some w) (marked : w.endpoint ∈ p.reruns) :
    p.finish w.endpoint = (.again, { p with
      active := p.active.set i { w with stage := .cycling }
      reruns := p.reruns.filter (· != w.endpoint)
      stats := { p.stats with totalReruns := p.stats.totalReruns + 1 } }) := by
  rw [finish, if_pos (by simpa using marked)]
  exact congrArg (Prod.mk Finish.again) (setStage_eq _ distinct here)

theorem finish_unmarked (distinct : (p.active.map Worker.endpoint).Nodup)
    (here : p.active[i]? = some w) (started : w.started = true) (unmarked : w.endpoint ∉ p.reruns) :
    p.finish w.endpoint =
      let r := { p with active := p.active.eraseIdx i, running := p.running - 1 }.releaseSlot
      (.left r.1, r.2) := by
  have hstarted : (p.active.any fun x => x.endpoint == w.endpoint && x.started) = true :=
    List.any_eq_true.mpr ⟨w, List.mem_of_getElem? here, by simp [started]⟩
  rw [finish, if_neg (by simpa using unmarked)]
  simp only [hstarted, if_true, filter_eq_eraseIdx distinct here]

theorem finish_free (distinct : (p.active.map Worker.endpoint).Nodup)
    (here : p.active[i]? = some w) (started : w.started = true) (unmarked : w.endpoint ∉ p.reruns)
    (line : p.line = []) :
    p.finish w.endpoint = (.left none, p.without i) := by
  rw [finish_unmarked distinct here started unmarked, releaseSlot, without, line]

theorem finish_handed {line : List EndpointId} {j : Nat} {v : Worker}
    (distinct : (p.active.map Worker.endpoint).Nodup)
    (here : p.active[i]? = some w) (started : w.started = true) (unmarked : w.endpoint ∉ p.reruns)
    (next : (p.active.eraseIdx i)[j]? = some v) (first : p.line = v.endpoint :: line) :
    p.finish w.endpoint = (.left (some v.endpoint), { p with
      active := (p.active.eraseIdx i).set j { v with stage := .granted }
      running := p.running - 1
      line }) := by
  have hothers : ((p.active.eraseIdx i).map Worker.endpoint).Nodup :=
    distinct.sublist ((List.eraseIdx_sublist _ i).map _)
  rw [finish_unmarked distinct here started unmarked, releaseSlot, first]
  exact congrArg (Prod.mk (Finish.left (some v.endpoint))) (setStage_eq _ hothers next)

end Pool

namespace Crew

variable {c : Crew} {e : EndpointId} {i : Nat} {l : List Worker} {w : Worker}

def Known (c : Crew) : Prop :=
  c.hands = c.pool.active.map Worker.hand

/-- The pool is in balance and knows its workers, and none of them waits while a slot is free. -/
structure Sound (c : Crew) : Prop where
  balanced : c.pool.Balanced
  known : c.Known
  busy : c.pool.line ≠ [] → c.pool.free = 0

theorem set_hand (l : List Worker) (i : Nat) (w : Worker) (started : Bool) (stage : WorkerStage) :
    (l.map Worker.hand).set i { w.hand with stage } =
      (l.set i { w with started, stage }).map Worker.hand := by
  rw [List.map_set]
  rfl

theorem grant_none (hands : List Hand) : grant none hands = hands := by
  induction hands with
  | nil => rfl
  | cons h hands ih => rw [grant, if_neg (by simp), ih]

theorem grant_hand (distinct : (l.map Worker.endpoint).Nodup) (here : l[i]? = some w)
    (waiting : w.stage = .waiting) :
    grant (some w.endpoint) (l.map Worker.hand) =
      (l.set i { w with stage := .granted }).map Worker.hand := by
  induction l generalizing i with
  | nil => simp at here
  | cons y l ih =>
    rw [List.map_cons, List.nodup_cons] at distinct
    cases i with
    | zero =>
      obtain rfl := Option.some.inj here
      rw [List.map_cons, grant, if_pos ⟨rfl, waiting⟩]
      rfl
    | succ i =>
      have hne : w.endpoint ≠ y.endpoint := fun h =>
        distinct.1 (h ▸ List.mem_map_of_mem (List.mem_of_getElem? here))
      rw [List.map_cons, grant, if_neg fun h => hne (Option.some.inj h.1), ih distinct.2 here]
      rfl

namespace Sound

theorem schedule (sound : c.Sound) (e : EndpointId) :
    c.pool.Happens (c.schedule e).1 (c.schedule e).2.pool ∧ (c.schedule e).2.Known := by
  unfold Crew.schedule
  cases hclosed : c.pool.closed with
  | true =>
    rw [Pool.schedule_closed hclosed]
    exact ⟨.rejected hclosed, sound.known⟩
  | false =>
    cases hactive : c.pool.isActive e with
    | true =>
      rw [Pool.schedule_active hclosed hactive]
      exact ⟨.marked hclosed hactive, sound.known⟩
    | false =>
      obtain ⟨a, hclaim, hschedule⟩ := Pool.schedule_new hclosed hactive
      rw [hschedule]
      refine ⟨.claimed hclosed hactive hclaim, ?_⟩
      have hknown : c.hands = c.pool.active.map Worker.hand := sound.known
      simp only [Known, hclaim, if_true, hknown, List.map_append]
      rfl

theorem leave (sound : c.Sound) (here : c.pool.active[i]? = some w) (stage : w.stage = .counted)
    (unmarked : w.endpoint ∉ c.pool.reruns) (completed : Bool) :
    c.pool.Worked (c.work i w.hand completed).1 (c.work i w.hand completed).2.pool ∧
      (c.work i w.hand completed).2.Known := by
  have hdistinct := sound.balanced.distinct
  have hstarted : w.started = true := by
    rw [sound.balanced.started w (List.mem_of_getElem? here), stage]
    rfl
  have hrest : c.hands.eraseIdx i = (c.pool.active.eraseIdx i).map Worker.hand := by
    rw [sound.known, List.eraseIdx_map]
  simp only [Crew.work, Worker.hand, stage]
  by_cases hline : c.pool.line = []
  · rw [Pool.finish_free hdistinct here hstarted unmarked hline]
    exact ⟨.left here stage unmarked hline, (grant_none _).trans hrest⟩
  · obtain ⟨e, line, hline⟩ := List.exists_cons_of_ne_nil hline
    have hwaits : StandsAt e .waiting c.pool.active :=
      (sound.balanced.waits e).mp (by rw [hline]; exact List.mem_cons_self)
    have hnot := sound.balanced.not_lined here (by simp [stage])
    rw [hline, List.mem_cons, not_or] at hnot
    obtain ⟨v, hv, rfl, hwaiting⟩ :=
      (standsAt_eraseIdx hdistinct here).mpr ⟨Ne.symm hnot.1, hwaits⟩
    obtain ⟨j, hj⟩ := List.mem_iff_getElem?.mp hv
    have hothers : ((c.pool.active.eraseIdx i).map Worker.endpoint).Nodup :=
      hdistinct.sublist ((List.eraseIdx_sublist _ i).map _)
    rw [Pool.finish_handed hdistinct here hstarted unmarked hj hline]
    refine ⟨.handed here stage unmarked hj hwaiting hline, ?_⟩
    exact (congrArg _ hrest).trans (grant_hand hothers hj hwaiting)

theorem work (sound : c.Sound) (here : c.pool.active[i]? = some w) (ready : w.stage ≠ .waiting)
    (completed : Bool) :
    c.pool.Worked (c.work i w.hand completed).1 (c.work i w.hand completed).2.pool ∧
      (c.work i w.hand completed).2.Known := by
  have hdistinct := sound.balanced.distinct
  have hset (started : Bool) (stage : WorkerStage) : c.hands.set i { w.hand with stage } =
      (c.pool.active.set i { w with started, stage }).map Worker.hand :=
    sound.known ▸ set_hand c.pool.active i w started stage
  cases hstage : w.stage with
  | waiting => exact absurd hstage ready
  | spawned =>
    simp only [Crew.work, Worker.hand, hstage]
    rcases Nat.eq_zero_or_pos c.pool.free with hfull | hfree
    · rw [Pool.acquire_full hdistinct here hfull]
      exact ⟨.lined here hstage hfull, hset w.started .waiting⟩
    · rw [Pool.acquire_free hdistinct here hfree]
      exact ⟨.granted here hstage hfree, hset w.started .granted⟩
  | granted =>
    simp only [Crew.work, Worker.hand, hstage]
    rw [Pool.markStarted_eq hdistinct here]
    exact ⟨.started here hstage, hset true .cycling⟩
  | cycling =>
    simp only [Crew.work, Worker.hand, hstage]
    rw [Pool.countCycle, Pool.setStage_eq _ hdistinct here]
    cases completed
    · exact ⟨.failed here hstage, hset w.started .counted⟩
    · exact ⟨.completed here hstage, hset w.started .counted⟩
  | counted =>
    by_cases hmarked : w.endpoint ∈ c.pool.reruns
    · simp only [Crew.work, Worker.hand, hstage]
      rw [Pool.finish_marked hdistinct here hmarked]
      exact ⟨.again here hstage hmarked, hset w.started .cycling⟩
    · exact sound.leave here hstage hmarked completed

theorem getElem?_active (sound : c.Sound) {h : Hand} (here : c.hands[i]? = some h) :
    ∃ w, c.pool.active[i]? = some w ∧ w.hand = h := by
  rw [sound.known, List.getElem?_map, Option.map_eq_some_iff] at here
  exact here

theorem work_cases (sound : c.Sound) (i : Nat) (completed : Bool) :
    c.step (.work i completed) = (none, c) ∨
      c.pool.Worked (c.step (.work i completed)).1 (c.step (.work i completed)).2.pool ∧
        (c.step (.work i completed)).2.Known := by
  simp only [Crew.step]
  cases hhand : c.hands[i]? with
  | none => exact .inl rfl
  | some h =>
    obtain ⟨w, hw, rfl⟩ := sound.getElem?_active hhand
    by_cases hwaiting : w.stage = .waiting
    · have hhere : w.hand.stage = .waiting := hwaiting
      simp only [Crew.work, hhere]
      exact .inl trivial
    · exact .inr (sound.work hw hwaiting completed)

theorem happens (sound : c.Sound) (m : Move) :
    c.pool.Happens (c.step m).1 (c.step m).2.pool ∧ (c.step m).2.Known := by
  cases m with
  | schedule e => exact sound.schedule e
  | close => exact ⟨.closed, sound.known⟩
  | work i completed =>
    rcases sound.work_cases i completed with hnothing | ⟨hworked, hknown⟩
    · rw [hnothing]
      exact ⟨.nothing, sound.known⟩
    · exact ⟨.worked hworked, hknown⟩

theorem step (sound : c.Sound) (m : Move) : (c.step m).2.Sound where
  balanced := sound.balanced.happens (sound.happens m).1
  known := (sound.happens m).2
  busy := (sound.happens m).1.busy sound.busy

theorem after (sound : c.Sound) (moves : List Move) : (c.after moves).Sound := by
  induction moves generalizing c with
  | nil => exact sound
  | cons m moves ih => exact ih (sound.step m)

end Sound

theorem ofSize_sound (size : Nat) : (ofSize size).Sound where
  balanced :=
    { distinct := List.nodup_nil
      started := fun _ h => absurd h List.not_mem_nil
      running := rfl
      slots := Nat.zero_add _
      lined := List.nodup_nil
      waits := fun e => by simp [ofSize, Pool.ofSize, StandsAt]
      marked := fun _ h => absurd h List.not_mem_nil
      below_peak := Nat.zero_le _
      peak_le := Nat.zero_le _ }
  known := rfl
  busy := fun h => absurd rfl h

theorem capacity_after (sound : c.Sound) (moves : List Move) :
    (c.after moves).pool.capacity = c.pool.capacity := by
  induction moves generalizing c with
  | nil => rfl
  | cons m moves ih => exact (ih (sound.step m)).trans (sound.happens m).1.capacity

/-- How a pool with some slots is occupied at a moment. The workers are those of the crew: whatever
the pool has noted of them, an endpoint has one at most, and they run in the slots that are held. -/
structure Occupied (slots : Nat) (c : Crew) : Prop where
  one_worker : ∀ e, c.hands.countP (·.endpoint = e) ≤ 1
  one_cycle : ∀ e, c.hands.countP (fun h => h.endpoint = e ∧ h.stage = .cycling) ≤ 1
  cycles_le : c.hands.countP (·.stage = .cycling) ≤ slots
  registered : c.hands = c.pool.active.map Worker.hand
  running : c.pool.running = c.pool.active.countP (·.started)
  running_le : c.pool.running ≤ min slots c.pool.active.length
  running_pos : ∀ w ∈ c.pool.active, w.started → 0 < c.pool.running
  held_and_free : c.hands.countP (·.stage.holdsSlot) + c.pool.free = slots
  reruns_active : ∀ e ∈ c.pool.reruns, c.pool.isActive e
  running_le_peak : c.pool.running ≤ c.pool.stats.peakConcurrent
  peak_le : c.pool.stats.peakConcurrent ≤ slots
  at_rest : c.pool.isIdle →
    c.hands = [] ∧ c.pool.reruns = [] ∧ c.pool.running = 0 ∧ c.pool.free = slots

theorem Sound.occupied (sound : c.Sound) : c.Occupied c.pool.capacity := by
  have balanced := sound.balanced
  have known : c.hands = c.pool.active.map Worker.hand := sound.known
  have hdistinct : (c.hands.map Hand.endpoint).Nodup := by
    rw [known, List.map_map]
    exact balanced.distinct
  have hworker (e : EndpointId) : c.hands.countP (·.endpoint = e) ≤ 1 := by
    have hcount := List.nodup_iff_count_le_one.mp hdistinct e
    rw [List.count, List.countP_map] at hcount
    refine Nat.le_trans (List.countP_mono_left fun h _ hsame => ?_) hcount
    simpa using hsame
  have hholds : c.hands.countP (·.stage.holdsSlot) =
      c.pool.active.countP (·.stage.holdsSlot) := by
    rw [known, List.countP_map]
    rfl
  have hslots := balanced.slots
  refine
    { one_worker := hworker
      one_cycle := fun e => ?_
      cycles_le := ?_
      registered := known
      running := balanced.running
      running_le := ?_
      running_pos := fun w hw hstarted => ?_
      held_and_free := hholds ▸ hslots
      reruns_active := balanced.marked
      running_le_peak := balanced.below_peak
      peak_le := balanced.peak_le
      at_rest := fun hidle => ?_ }
  · refine Nat.le_trans (List.countP_mono_left fun h _ hcycling => ?_) (hworker e)
    simpa using (of_decide_eq_true hcycling).1
  -- a cycle runs in a slot, and the slots that are held are no more than there are
  · have hle : c.hands.countP (·.stage = .cycling) ≤ c.hands.countP (·.stage.holdsSlot) :=
      List.countP_mono_left fun h _ hc => by simp_all [WorkerStage.holdsSlot]
    omega
  · have hle := balanced.running_le
    have hlength : c.pool.running ≤ c.pool.active.length := balanced.running ▸ List.countP_le_length
    omega
  · rw [balanced.running]
    exact List.countP_pos_iff.mpr ⟨w, hw, hstarted⟩
  · have hactive : c.pool.active = [] := List.isEmpty_iff.mp hidle
    rw [hactive] at hslots known
    have hrunning := balanced.running
    rw [hactive] at hrunning
    refine ⟨known, List.eq_nil_iff_forall_not_mem.mpr fun e he => ?_, hrunning, ?_⟩
    · have hmarked := balanced.marked e he
      rw [Pool.isActive, hactive] at hmarked
      cases hmarked
    · exact (Nat.zero_add _).symm.trans hslots

/-- Whatever the order of requests and of the steps of workers, slots are neither lost nor given
twice, and no endpoint is served by two. -/
theorem always_occupied (size : Nat) (moves : List Move) :
    ((ofSize size).after moves).Occupied (max size 1) := by
  have hcapacity := capacity_after (ofSize_sound size) moves
  have hoccupied := ((ofSize_sound size).after moves).occupied
  rw [hcapacity] at hoccupied
  exact hoccupied

end Crew

end FleetDispatch
