import FleetDispatch.Poller
import FleetDispatch.Proofs.Pool.Totals
import FleetDispatch.Proofs.Pool.Requests

namespace FleetDispatch

namespace Pool

variable {p : Pool} {e x : EndpointId} {names : List EndpointId}

/-- The pool after a cycle was asked for on each of some endpoints: those that were idle are
claimed, and those that were active are to have one more cycle. -/
def surveyed (names : List EndpointId) (p : Pool) : Pool :=
  let started := names.filter fun e => !p.isActive e
  let marked := names.filter p.isActive
  { p with
    active := p.active ++ started.map fun e => ⟨e, false, .spawned⟩
    reruns := p.reruns ++ marked.filter fun e => !p.reruns.contains e
    stats := { p.stats with
      totalScheduled := p.stats.totalScheduled + started.length
      deferredDuplicates := p.stats.deferredDuplicates + marked.length } }

theorem surveyed_nil (p : Pool) : p.surveyed [] = p := by
  simp [surveyed]

theorem schedule_open (accepting : p.closed = false) :
    (p.schedule e).1.isClaim = !p.isActive e ∧ (p.schedule e).2 = p.surveyed [e] := by
  cases hactive : p.isActive e with
  | true =>
    rw [schedule_active accepting hactive]
    refine ⟨rfl, ?_⟩
    by_cases hmarked : e ∈ p.reruns <;> simp [surveyed, hactive, hmarked]
  | false =>
    obtain ⟨a, hclaim, hschedule⟩ := schedule_new accepting hactive
    rw [hschedule]
    exact ⟨hclaim, by simp [surveyed, hactive]⟩

theorem isActive_surveyed :
    (p.surveyed names).isActive x = true ↔ p.isActive x = true ∨ x ∈ names := by
  have hstarted : (∃ w ∈ (names.filter fun e => !p.isActive e).map fun e =>
      (⟨e, false, .spawned⟩ : Worker), w.endpoint = x) ↔ x ∈ names ∧ p.isActive x = false := by
    simp
  rw [isActive_iff, surveyed]
  simp only [List.mem_append, or_and_right, exists_or, hstarted, ← isActive_iff]
  cases p.isActive x <;> simp

theorem mem_reruns_surveyed :
    x ∈ (p.surveyed names).reruns ↔ x ∈ p.reruns ∨ x ∈ names ∧ p.isActive x = true := by
  by_cases hmarked : x ∈ p.reruns <;> simp [surveyed, hmarked]

theorem filter_surveyed (new : e ∉ names) :
    (names.filter fun x => !(p.surveyed [e]).isActive x) = names.filter fun x => !p.isActive x := by
  refine List.filter_congr fun x hx => ?_
  have hne : x ≠ e := fun he => new (he ▸ hx)
  rw [Bool.not_inj_iff, Bool.eq_iff_iff, isActive_surveyed, List.mem_singleton, or_iff_left hne]

theorem surveyed_cons (new : e ∉ names) :
    (p.surveyed [e]).surveyed names = p.surveyed (e :: names) := by
  have hne : ∀ x ∈ names, x ≠ e := fun x hx he => new (he ▸ hx)
  have hmarked : names.filter (p.surveyed [e]).isActive = names.filter p.isActive := by
    refine List.filter_congr fun x hx => ?_
    rw [Bool.eq_iff_iff, isActive_surveyed, List.mem_singleton, or_iff_left (hne x hx)]
  have hreruns : ∀ x ∈ names.filter p.isActive,
      (!(p.surveyed [e]).reruns.contains x) = !p.reruns.contains x := by
    intro x hx
    have hx' := hne x (List.mem_filter.mp hx).1
    rw [Bool.eq_iff_iff]
    simp [mem_reruns_surveyed, hx']
  rw [surveyed, filter_surveyed new, hmarked, List.filter_congr hreruns]
  cases h : p.isActive e with
  | true =>
    by_cases hmarked : e ∈ p.reruns <;> simp [surveyed, h, hmarked] <;> omega
  | false =>
    simp [surveyed, h]
    omega

theorem fresh_surveyed (distinct : names.Nodup) : (p.surveyed names).fresh e =
    p.fresh e + if e ∈ names ∧ p.isActive e = false then 1 else 0 := by
  have hstarted : ((names.filter fun e => !p.isActive e).map fun e =>
      (⟨e, false, .spawned⟩ : Worker)).countP (fun w => w.endpoint == e && !w.started) =
        (names.filter fun e => !p.isActive e).count e := by
    rw [List.countP_map]
    simp [Function.comp_def, List.count]
  have hcount := (distinct.filter fun e => !p.isActive e).count (a := e)
  rw [fresh, surveyed, List.countP_append, hstarted, hcount]
  simp [fresh]

theorem fresh_eq_zero (inactive : p.isActive e = false) : p.fresh e = 0 := by
  rw [fresh, List.countP_eq_zero]
  intro w hw hfresh
  obtain ⟨hsame, -⟩ := Bool.and_eq_true_iff.mp hfresh
  exact Bool.eq_false_iff.mp inactive (isActive_iff.mpr ⟨w, hw, beq_iff_eq.mp hsame⟩)

end Pool

namespace Poller

variable {p : Pool} {names : List EndpointId}

def ask (r : List EndpointId × Pool) (e : EndpointId) : List EndpointId × Pool :=
  (if (r.2.schedule e).1.isClaim then r.1 ++ [e] else r.1, (r.2.schedule e).2)

theorem scheduleAll_eq (names : List EndpointId) (p : Pool) :
    scheduleAll names p = names.foldl ask ([], p) :=
  rfl

theorem foldl_ask (names : List EndpointId) (r : List EndpointId × Pool) :
    names.foldl ask r = (r.1 ++ (scheduleAll names r.2).1, (scheduleAll names r.2).2) := by
  induction names generalizing r with
  | nil => exact Prod.ext (List.append_nil _).symm rfl
  | cons e names ih =>
    rw [scheduleAll_eq, List.foldl_cons, List.foldl_cons, ih, ih (ask ([], r.2) e)]
    cases hclaim : (r.2.schedule e).1.isClaim <;> simp [ask, hclaim]

theorem scheduleAll_cons (e : EndpointId) (names : List EndpointId) (p : Pool) :
    scheduleAll (e :: names) p =
      ((if (p.schedule e).1.isClaim then [e] else []) ++ (scheduleAll names (p.schedule e).2).1,
        (scheduleAll names (p.schedule e).2).2) := by
  rw [scheduleAll_eq, List.foldl_cons, foldl_ask]
  cases hclaim : (p.schedule e).1.isClaim <;> simp [ask, hclaim]

theorem scheduleAll_closed (closed : p.closed = true) (names : List EndpointId) :
    scheduleAll names p = ([], p) := by
  induction names with
  | nil => rfl
  | cons e names ih =>
    rw [scheduleAll_cons, Pool.schedule_closed closed, ih]
    rfl

theorem scheduleAll_open (accepting : p.closed = false) (distinct : names.Nodup) :
    scheduleAll names p = (names.filter fun e => !p.isActive e, p.surveyed names) := by
  induction names generalizing p with
  | nil => rw [Pool.surveyed_nil]; rfl
  | cons e names ih =>
    obtain ⟨hnew, hdistinct⟩ := List.nodup_cons.mp distinct
    obtain ⟨hclaim, hpool⟩ := Pool.schedule_open (e := e) accepting
    rw [scheduleAll_cons, hclaim, hpool, ih (p := p.surveyed [e]) accepting hdistinct,
      Pool.filter_surveyed hnew, Pool.surveyed_cons hnew]
    cases hactive : p.isActive e <;> simp [hactive]

end Poller

namespace Crew

variable {c : Crew} {e : EndpointId} {names : List EndpointId}

def hire (started : List EndpointId) (p : Pool) (c : Crew) : Crew :=
  ⟨p, c.hands ++ started.map fun e => ⟨e, .spawned⟩⟩

def Event.begins (e : EndpointId) : Event → Bool
  | began x _ => x == e
  | _ => false

theorem countP_begins (l : List Event) :
    l.countP (·.begins e) = l.count (.began e false) + l.count (.began e true) := by
  induction l with
  | nil => rfl
  | cons x l ih =>
    rw [List.countP_cons, List.count_cons, List.count_cons, ih]
    cases x with
    | answered | left => simp [Event.begins]
    | began y again =>
      by_cases hy : y = e <;> cases again <;> simp [Event.begins, hy] <;> omega

theorem after_requests (names : List EndpointId) (c : Crew) :
    c.after (names.map .schedule) =
      c.hire (Poller.scheduleAll names c.pool).1 (Poller.scheduleAll names c.pool).2 := by
  induction names generalizing c with
  | nil => exact congrArg (Crew.mk c.pool) (List.append_nil _).symm
  | cons e names ih =>
    rw [List.map_cons, after_cons, ih, Poller.scheduleAll_cons, hire, hire]
    simp only [Crew.step, Crew.schedule]
    cases hclaim : (c.pool.schedule e).1.isClaim <;> simp

theorem not_answered {later : List Move} (sound : c.Sound)
    (unrequested : ∀ m ∈ later, m.isRequest = false) (a : ScheduleAnswer) :
    .answered e a ∉ events later c := by
  -- on the moves: a worker shows that it began or left, and only a request is answered
  induction later generalizing c with
  | nil => exact List.not_mem_nil
  | cons m later ih =>
    rw [mem_events_cons, not_or]
    refine ⟨?_, ih (sound.step m) fun x hx => unrequested x (List.mem_cons_of_mem m hx)⟩
    have hm := unrequested m List.mem_cons_self
    cases m with
    | schedule x => cases hm
    | close => exact nofun
    | work i completed =>
      intro hanswered
      rcases sound.work_cases i completed with hnothing | ⟨hworked, -⟩
      · rw [hnothing] at hanswered
        cases hanswered
      · rw [hanswered] at hworked
        cases hworked

/-- An endpoint whose worker has not started has one cycle until all workers have left, if there are
no more requests, or two if it is marked. -/
theorem cycles_after {later : List Move} (sound : c.Sound) (fresh : c.pool.fresh e = 1)
    (unrequested : ∀ m ∈ later, m.isRequest = false) (idle : (c.after later).pool.isIdle = true) :
    (events later c).countP (·.begins e) = if e ∈ c.pool.reruns then 2 else 1 := by
  have hend := sound.after later
  have hfirst := sound.count_first (e := e) later
  have hfurther := sound.count_further (e := e) later
    (not_answered sound unrequested .alreadyActive)
  have hnobody : (events later c).countP (·.claims e) = 0 := by
    rw [List.countP_eq_zero]
    intro x hx
    cases x with
    | answered y a =>
      exact absurd hx (not_answered sound unrequested a)
    | began | left => exact Bool.false_ne_true
  have hinactive : (c.after later).pool.isActive e = false := by
    rw [Pool.isActive, List.isEmpty_iff.mp idle]
    rfl
  have hreruns : (c.after later).pool.reruns = [] := (hend.occupied.at_rest idle).2.1
  rw [Pool.fresh_eq_zero hinactive, fresh, hnobody, Nat.zero_add] at hfirst
  rw [hreruns, if_neg List.not_mem_nil, Nat.add_zero] at hfurther
  rw [countP_begins, hfirst, hfurther]
  split_ifs <;> rfl

end Crew

end FleetDispatch
