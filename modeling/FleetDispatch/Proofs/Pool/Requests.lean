import FleetDispatch.Proofs.Pool.Load

namespace FleetDispatch

def Crew.Event.claims (e : EndpointId) : Crew.Event → Bool
  | answered e' a => e' == e && a.isClaim
  | _ => false

namespace Pool

variable {p p' : Pool} {e : EndpointId} {event : Option Crew.Event} {w w' : Worker} {i : Nat}

/-- A cycle that was asked for and is still to begin: the worker of the endpoint has not started
yet, or it is wanted once more. -/
def Owes (e : EndpointId) (p : Pool) : Prop :=
  ∃ w ∈ p.active, w.endpoint = e ∧ (w.started = false ∨ e ∈ p.reruns)

namespace Owes

theorem isActive (h : p.Owes e) : p.isActive e := by
  obtain ⟨w, hw, hsame, -⟩ := h
  exact isActive_iff.mpr ⟨w, hw, hsame⟩

theorem mono (h : p.Owes e) (active : ∀ w ∈ p.active, w ∈ p'.active)
    (reruns : ∀ e ∈ p.reruns, e ∈ p'.reruns) : p'.Owes e := by
  obtain ⟨w, hw, hsame, howed⟩ := h
  exact ⟨w, active w hw, hsame, howed.imp_right (reruns e)⟩

theorem other (h : p.Owes e) (balanced : p.Balanced) (here : p.active[i]? = some w)
    (active : p'.active = p.active.set i w')
    (reruns : ∀ e ≠ w.endpoint, e ∈ p.reruns → e ∈ p'.reruns) (hne : e ≠ w.endpoint) :
    p'.Owes e := by
  obtain ⟨x, hx, rfl, howed⟩ := h
  refine ⟨x, ?_, rfl, howed.imp_right (reruns _ hne)⟩
  rw [active, mem_set_iff balanced.distinct here]
  exact .inr ⟨hx, hne⟩

theorem moved (stage : WorkerStage) (h : p.Owes e) (balanced : p.Balanced)
    (here : p.active[i]? = some w) (active : p'.active = p.active.set i { w with stage })
    (reruns : p'.reruns = p.reruns) : p'.Owes e := by
  by_cases hsame : e = w.endpoint
  · obtain ⟨x, hx, rfl, howed⟩ := h
    obtain rfl := eq_of_endpoint balanced.distinct (List.mem_of_getElem? here) hx hsame
    refine ⟨{ x with stage }, ?_, rfl, reruns ▸ howed⟩
    rw [active, mem_set_iff balanced.distinct here]
    exact .inl rfl
  · exact h.other balanced here active (fun _ _ he => reruns ▸ he) hsame

theorem without (h : p.Owes e) (balanced : p.Balanced) (here : p.active[i]? = some w)
    (stage : w.stage = .counted) (unmarked : w.endpoint ∉ p.reruns) :
    (p.without i).Owes e ∧ e ≠ w.endpoint := by
  obtain ⟨x, hx, rfl, howed⟩ := h
  have hne : x.endpoint ≠ w.endpoint := by
    intro hsame
    obtain rfl := eq_of_endpoint balanced.distinct (List.mem_of_getElem? here) hx hsame
    rcases howed with hstarted | hmarked
    · rw [balanced.started x hx, stage] at hstarted
      cases hstarted
    · exact unmarked hmarked
  exact ⟨⟨x, (mem_eraseIdx_iff balanced.distinct here).mpr ⟨hx, hne⟩, rfl, howed⟩, hne⟩

end Owes

namespace Worked

/-- A cycle that is owed begins, or it is owed still and the worker has not left. -/
theorem began_or_owes (step : p.Worked event p') (balanced : p.Balanced) (owes : p.Owes e) :
    (∃ again, event = some (.began e again)) ∨ p'.Owes e ∧ event ≠ some (.left e) := by
  cases step with
  | granted here | lined here | completed here | failed here =>
    exact .inr ⟨owes.moved _ balanced here rfl rfl, nofun⟩
  | @started i w here =>
    by_cases hsame : e = w.endpoint
    · exact .inl ⟨false, by rw [hsame]⟩
    · exact .inr ⟨owes.other balanced here rfl (fun _ _ => id) hsame, nofun⟩
  | @again i w here =>
    by_cases hsame : e = w.endpoint
    · exact .inl ⟨true, by rw [hsame]⟩
    · refine .inr ⟨owes.other balanced here rfl (fun x hx hmem => ?_) hsame, nofun⟩
      exact List.mem_filter.mpr ⟨hmem, bne_iff_ne.mpr hx⟩
  | left here stage unmarked line =>
    obtain ⟨hrest, hne⟩ := owes.without balanced here stage unmarked
    exact .inr ⟨hrest, fun h => hne (by simpa using h.symm)⟩
  | handed here stage unmarked next waiting first =>
    obtain ⟨hrest, hne⟩ := owes.without balanced here stage unmarked
    have hbalanced := balanced.without here stage unmarked
    exact .inr ⟨hrest.moved .granted hbalanced next rfl rfl, fun h => hne (by simpa using h.symm)⟩

end Worked

namespace Happens

theorem began_or_owes (happens : p.Happens event p') (balanced : p.Balanced) (owes : p.Owes e) :
    (∃ again, event = some (.began e again)) ∨ p'.Owes e ∧ event ≠ some (.left e) := by
  cases happens with
  | nothing | closed | rejected => exact .inr ⟨owes, nofun⟩
  | claimed => exact .inr ⟨owes.mono (fun _ => List.mem_append_left _) fun _ => id, nofun⟩
  | marked => exact .inr ⟨owes.mono (fun _ => id) fun _ hx => mem_marks.mpr (.inl hx), nofun⟩
  | worked step => exact step.began_or_owes balanced owes

theorem owes {a : ScheduleAnswer} (happens : p.Happens (some (.answered e a)) p')
    (accepted : ∀ reason, a ≠ .rejected reason) : p'.Owes e := by
  cases happens with
  | rejected closed => exact absurd rfl (accepted _)
  | claimed accepting new claim =>
    exact ⟨⟨e, false, .spawned⟩, List.mem_append_right _ (List.mem_singleton_self _), rfl, .inl rfl⟩
  | marked accepting active =>
    obtain ⟨w, hw, rfl⟩ := isActive_iff.mp active
    exact ⟨w, hw, rfl, .inr (mem_marks.mpr (.inr rfl))⟩
  | worked step => cases step

/-- The mark of an endpoint is set by a duplicate request and used up by a further cycle, and
nothing else changes it. -/
theorem mem_reruns (happens : p.Happens event p') (unused : event ≠ some (.began e true)) :
    e ∈ p'.reruns ↔ e ∈ p.reruns ∨ event = some (.answered e .alreadyActive) := by
  cases happens with
  | nothing | closed | rejected => simp
  | @claimed e' a accepting new claim =>
    have ha : a ≠ .alreadyActive := by
      rintro rfl
      cases claim
    simp [ha]
  | @marked e' accepting active =>
    refine mem_marks.trans (or_congr_right ⟨?_, ?_⟩)
    · rintro rfl
      rfl
    · rintro ⟨⟩
      rfl
  | worked step =>
    cases step with
    | granted | lined | started | completed | failed | left | handed => simp [without]
    | again here stage marked =>
      have hne : e ≠ _ := fun h => unused (by rw [h])
      simp [hne]

theorem used (happens : p.Happens (some (.began e true)) p') : e ∈ p.reruns ∧ e ∉ p'.reruns := by
  cases happens with
  | worked step =>
    cases step with
    | again here stage marked => exact ⟨marked, by simp⟩

theorem unmarked (happens : p.Happens (some (.left e)) p') : e ∉ p.reruns := by
  cases happens with
  | worked step =>
    cases step with
    | left here stage unmarked => exact unmarked
    | handed here stage unmarked => exact unmarked

end Happens

def fresh (e : EndpointId) (p : Pool) : Nat :=
  p.active.countP fun w => w.endpoint == e && !w.started

theorem fresh_moved (stage : WorkerStage) (here : p.active[i]? = some w)
    (active : p'.active = p.active.set i { w with stage }) : p'.fresh e = p.fresh e := by
  have hcount := countP_set_of_getElem?
    (p := fun w : Worker => w.endpoint == e && !w.started) here { w with stage }
  rw [fresh, active]
  exact Nat.add_right_cancel hcount

theorem fresh_without (balanced : p.Balanced) (here : p.active[i]? = some w)
    (stage : w.stage = .counted) : (p.without i).fresh e = p.fresh e := by
  have hcount := countP_eraseIdx_of_getElem?
    (p := fun w : Worker => w.endpoint == e && !w.started) here
  have hstarted : w.started = true := by
    rw [balanced.started w (List.mem_of_getElem? here), stage]
    rfl
  simp only [hstarted, Bool.not_true, Bool.and_false, Bool.toNat_false] at hcount
  exact hcount

theorem fresh_started (here : p.active[i]? = some w) (started : w.started = false)
    (active : p'.active = p.active.set i { w with started := true, stage := .cycling }) :
    p'.fresh e + (if w.endpoint = e then 1 else 0) = p.fresh e := by
  have hcount := countP_set_of_getElem?
    (p := fun w : Worker => w.endpoint == e && !w.started) here
    { w with started := true, stage := .cycling }
  simp only [started, Bool.not_true, Bool.not_false, Bool.and_true, Bool.and_false,
    Bool.toNat_false, Nat.add_zero] at hcount
  rw [fresh, fresh, active, ← hcount]
  by_cases hsame : w.endpoint = e <;> simp [hsame]

theorem fresh_claimed {e' : EndpointId} (active : p'.active = p.active ++ [⟨e', false, .spawned⟩]) :
    p'.fresh e = p.fresh e + (if e' = e then 1 else 0) := by
  rw [fresh, fresh, active, List.countP_append, List.countP_singleton]
  simp

theorem Worked.fresh (step : p.Worked event p') (balanced : p.Balanced) :
    p'.fresh e + (if event = some (.began e false) then 1 else 0) = p.fresh e := by
  cases step with
  | granted here | lined here | completed here | failed here | again here =>
    rw [fresh_moved _ here rfl]
    simp
  | started here stage =>
    have hstarted := balanced.started _ (List.mem_of_getElem? here)
    rw [stage] at hstarted
    simp only [Option.some.injEq, Crew.Event.began.injEq, and_true]
    exact fresh_started here hstarted rfl
  | left here stage unmarked line =>
    rw [fresh_without balanced here stage]
    simp
  | handed here stage unmarked next waiting first =>
    rw [fresh_moved (p := p.without _) _ next rfl, fresh_without balanced here stage]
    simp

theorem Happens.fresh (happens : p.Happens event p') (balanced : p.Balanced) :
    p'.fresh e + (if event = some (.began e false) then 1 else 0) =
      p.fresh e + (if event.any (·.claims e) then 1 else 0) := by
  cases happens with
  | nothing | closed => simp [Pool.fresh]
  | rejected => simp [Crew.Event.claims, ScheduleAnswer.isClaim]
  | claimed accepting new claim =>
    rw [fresh_claimed rfl]
    simp [Crew.Event.claims, claim]
  | marked accepting active => simp [Pool.fresh, Crew.Event.claims, ScheduleAnswer.isClaim]
  | worked step =>
    rw [step.fresh balanced]
    cases step <;> simp [Crew.Event.claims]

end Pool

namespace Crew

variable {c : Crew} {e : EndpointId}

def Begins (e : EndpointId) (events : List Event) : Prop :=
  ∃ again, .began e again ∈ events

theorem mem_events_cons {x : Event} {m : Move} {moves : List Move} :
    x ∈ events (m :: moves) c ↔ (c.step m).1 = some x ∨ x ∈ events moves (c.step m).2 := by
  rw [events, List.mem_append, Option.mem_toList]

theorem count_events_cons (x : Event) (m : Move) (moves : List Move) :
    (events (m :: moves) c).count x =
      (if (c.step m).1 = some x then 1 else 0) + (events moves (c.step m).2).count x := by
  rw [events, List.count_append]
  cases (c.step m).1 with
  | none => simp
  | some y => simp [List.count_singleton]

theorem countP_events_cons (p : Event → Bool) (m : Move) (moves : List Move) :
    (events (m :: moves) c).countP p =
      (if (c.step m).1.any p then 1 else 0) + (events moves (c.step m).2).countP p := by
  rw [events, List.countP_append]
  cases (c.step m).1 with
  | none => simp
  | some y => simp [List.countP_singleton]

namespace Sound

theorem owes_after (sound : c.Sound) (owes : c.pool.Owes e) (later : List Move)
    (waits : ¬Begins e (events later c)) :
    (c.after later).pool.Owes e ∧ .left e ∉ events later c := by
  -- on the moves: what is owed is owed on, or it begins, which it does not
  induction later generalizing c with
  | nil => exact ⟨owes, List.not_mem_nil⟩
  | cons m later ih =>
    rcases (sound.happens m).1.began_or_owes sound.balanced owes with
      ⟨again, hbegan⟩ | ⟨howes, hleft⟩
    · exact absurd ⟨again, mem_events_cons.mpr (.inl hbegan)⟩ waits
    · have hwaits : ¬Begins e (events later (c.step m).2) := fun ⟨again, hmem⟩ =>
        waits ⟨again, mem_events_cons.mpr (.inr hmem)⟩
      obtain ⟨hafter, hlater⟩ := ih (sound.step m) howes hwaits
      refine ⟨hafter, fun hmem => ?_⟩
      rcases mem_events_cons.mp hmem with hnow | hmem
      · exact hleft hnow
      · exact hlater hmem

theorem mem_reruns_after (sound : c.Sound) (later : List Move)
    (unused : .began e true ∉ events later c) :
    e ∈ (c.after later).pool.reruns ↔
      e ∈ c.pool.reruns ∨ .answered e .alreadyActive ∈ events later c := by
  induction later generalizing c with
  | nil => exact (or_iff_left List.not_mem_nil).symm
  | cons m later ih =>
    rw [mem_events_cons, not_or] at unused
    rw [after_cons, ih (sound.step m) unused.2, (sound.happens m).1.mem_reruns unused.1,
      mem_events_cons, or_assoc]

theorem count_further (sound : c.Sound) (later : List Move)
    (alone : .answered e .alreadyActive ∉ events later c) :
    (events later c).count (.began e true) +
        (if e ∈ (c.after later).pool.reruns then 1 else 0) =
      if e ∈ c.pool.reruns then 1 else 0 := by
  -- on the moves: the mark that is there is used up by the one further cycle, and none is set
  induction later generalizing c with
  | nil => exact Nat.zero_add _
  | cons m later ih =>
    rw [mem_events_cons, not_or] at alone
    have hlater := ih (sound.step m) alone.2
    rw [count_events_cons, after_cons, Nat.add_assoc, hlater]
    by_cases hused : (c.step m).1 = some (.began e true)
    · have hmarks := (hused ▸ (sound.happens m).1).used
      simp [hused, hmarks]
    · have hmarks := (sound.happens m).1.mem_reruns hused
      simp [hused, hmarks, alone.1]

theorem count_first (sound : c.Sound) (later : List Move) :
    (c.after later).pool.fresh e + (events later c).count (.began e false) =
      c.pool.fresh e + (events later c).countP (·.claims e) := by
  induction later generalizing c with
  | nil => rfl
  | cons m later ih =>
    have hlater := ih (sound.step m)
    have hstep := (sound.happens m).1.fresh (e := e) sound.balanced
    rw [count_events_cons, countP_events_cons, after_cons]
    omega

end Sound

/-- Each request that is not rejected gets its cycle: as long as none has begun, the endpoint stays
active and its worker does not leave, some worker can go on, and the workers have not made all the
steps that the requests so far call for. Requests for an active endpoint share one further cycle:
between the times at which its mark is used up, there is one if there were any such requests, and
none if not. Besides these, a cycle begins for each worker that was started. -/
theorem requests_served (size : Nat) (moves : List Move) (e : EndpointId) :
    let c := (ofSize size).after moves
    ((∀ reason, (c.pool.schedule e).1 ≠ .rejected reason) → ∀ later,
      let c' := (c.step (.schedule e)).2
      ¬Begins e (events later c') →
        (c'.after later).pool.isActive e ∧ .left e ∉ events later c' ∧
        (∀ completed, ∃ i, (Move.work i completed).goesOn (c'.after later)) ∧
        steps later c' < c'.pool.load + 4 * later.countP (·.isRequest)) ∧
    (e ∉ c.pool.reruns → ∀ window, .began e true ∉ events window c →
      let c' := c.after window
      let n := (events window c).count (.answered e .alreadyActive)
      (∀ m, (c'.step m).1 = some (.began e true) → 0 < n ∧ e ∉ (c'.step m).2.pool.reruns) ∧
      (∀ m, (c'.step m).1 = some (.left e) → n = 0) ∧
      ∀ later, .answered e .alreadyActive ∉ events later c' →
        (events later c').count (.began e true) +
          (if e ∈ (c'.after later).pool.reruns then 1 else 0) = min n 1) ∧
    (events moves (ofSize size)).count (.began e false) + c.pool.fresh e =
      (events moves (ofSize size)).countP (·.claims e) := by
  intro c
  have hsound : c.Sound := (ofSize_sound size).after moves
  have hcapacity : c.pool.capacity = max size 1 := capacity_after (ofSize_sound size) moves
  refine ⟨?_, ?_, ?_⟩
  · intro accepted later c' waits
    have hsound' : c'.Sound := hsound.step (.schedule e)
    have howes : c'.pool.Owes e := (hsound.schedule e).1.owes accepted
    obtain ⟨hlater, hleft⟩ := hsound'.owes_after howes later waits
    have hend := hsound'.after later
    refine ⟨hlater.isActive, hleft, fun completed => ?_, ?_⟩
    · refine hend.exists_goesOn ?_ hlater.isActive completed
      have hcapacity' : c'.pool.capacity = c.pool.capacity := (hsound.schedule e).1.capacity
      rw [capacity_after hsound' later]
      omega
    · have hsteps := hsound'.steps_le later
      have hload := Pool.load_pos hlater.isActive
      omega
  · intro unmarked window unused c' n
    have hsound' : c'.Sound := hsound.after window
    have hmarked : e ∈ c'.pool.reruns ↔ 0 < n := by
      rw [hsound.mem_reruns_after window unused, or_iff_right unmarked, List.count_pos_iff]
    refine ⟨fun m hm => ?_, fun m hm => ?_, fun later alone => ?_⟩
    · have hused := (hm ▸ (hsound'.happens m).1).used
      exact ⟨hmarked.mp hused.1, hused.2⟩
    · have hnot := (hm ▸ (hsound'.happens m).1).unmarked
      exact Nat.eq_zero_of_not_pos fun hpos => hnot (hmarked.mpr hpos)
    · rw [hsound'.count_further later alone]
      split_ifs with hmem
      · exact (Nat.min_eq_right (hmarked.mp hmem)).symm
      · have hnone := Nat.eq_zero_of_not_pos fun hpos => hmem (hmarked.mpr hpos)
        rw [hnone, Nat.zero_min]
  · have hcount := (ofSize_sound size).count_first (e := e) moves
    have hnone : (ofSize size).pool.fresh e = 0 := rfl
    rw [hnone, Nat.zero_add, Nat.add_comm] at hcount
    exact hcount

theorem requests_served_oneSlot :
    let c := (ofSize 0).after [.schedule "db", .work 0 true, .work 0 true]
    let c' := (c.step (.schedule "web")).2.after [.work 1 true, .schedule "web"]
    let twice := c.after [.schedule "db", .schedule "db", .work 0 false]
    c'.pool.isActive "web" ∧ (∃ i, (Move.work i true).goesOn c') ∧
      "db" ∉ (twice.step (.work 0 true)).2.pool.reruns ∧
      (events [.work 0 true, .work 0 true, .work 0 true] twice).count (.began "db" true) =
        min 2 1 ∧
      (events [.work 0 true] c).count (.answered "db" .alreadyActive) = 0 := by
  intro c c' twice
  have hweb := (requests_served 0 [.schedule "db", .work 0 true, .work 0 true] "web").1
  have hdb := (requests_served 0 [.schedule "db", .work 0 true, .work 0 true] "db").2.1
  have hqueued : (c.pool.schedule "web").1 = .queued 1 := by decide +kernel
  have hwaits : ¬Begins "web" (events [.work 1 true, .schedule "web"]
      (c.step (.schedule "web")).2) := by
    rintro ⟨again, hmem⟩
    cases again <;> revert hmem <;> decide +kernel
  obtain ⟨hactive, -, hgoes, -⟩ := hweb (by rw [hqueued]; nofun) _ hwaits
  obtain ⟨hused, -, hfurther⟩ := hdb (by decide +kernel)
    [.schedule "db", .schedule "db", .work 0 false] (by decide +kernel)
  obtain ⟨-, hleft, -⟩ := hdb (by decide +kernel) [.work 0 true] (by decide +kernel)
  have hcount := hfurther [.work 0 true, .work 0 true, .work 0 true] (by decide +kernel)
  have htwice : (events [.schedule "db", .schedule "db", .work 0 false]
      ((ofSize 0).after [.schedule "db", .work 0 true, .work 0 true])).count
        (.answered "db" .alreadyActive) = 2 := by
    decide +kernel
  rw [if_neg (by decide +kernel), htwice, Nat.add_zero] at hcount
  obtain ⟨-, hunmarked⟩ := hused (.work 0 true) (by decide +kernel)
  have hnone := hleft (.work 0 true) (by decide +kernel)
  exact ⟨hactive, hgoes true, hunmarked, hcount, hnone⟩

end Crew

end FleetDispatch
