import FleetDispatch.Proofs.Counting
import FleetDispatch.Proofs.Pool.Crew
import Mathlib.Data.List.Nodup

namespace FleetDispatch

def WorkerStage.isStarted : WorkerStage → Bool
  | cycling => true
  | counted => true
  | _ => false

def WorkerStage.holdsSlot : WorkerStage → Bool
  | spawned => false
  | waiting => false
  | _ => true

section rows

variable {l : List Worker} {w w' x : Worker} {i j : Nat} {e : EndpointId} {stage : WorkerStage}

theorem map_eq_set (distinct : (l.map Worker.endpoint).Nodup) (here : l[i]? = some w)
    (f : Worker → Worker) :
    (l.map fun x => if x.endpoint = w.endpoint then f x else x) = l.set i (f w) := by
  -- on the list: only the worker at the place has this endpoint
  induction l generalizing i with
  | nil => simp at here
  | cons y l ih =>
    rw [List.map_cons, List.nodup_cons] at distinct
    cases i with
    | zero =>
      obtain rfl := Option.some.inj here
      have hrest : (l.map fun x => if x.endpoint = y.endpoint then f x else x) = l.map id := by
        refine List.map_congr_left fun x hx => if_neg fun h => distinct.1 ?_
        exact h ▸ List.mem_map_of_mem hx
      rw [List.map_cons, if_pos rfl, hrest, List.map_id, List.set_cons_zero]
    | succ i =>
      have hne : y.endpoint ≠ w.endpoint := fun h =>
        distinct.1 (h ▸ List.mem_map_of_mem (List.mem_of_getElem? here))
      rw [List.map_cons, if_neg hne, List.set_cons_succ, ih distinct.2 here]

theorem filter_eq_eraseIdx (distinct : (l.map Worker.endpoint).Nodup) (here : l[i]? = some w) :
    l.filter (·.endpoint != w.endpoint) = l.eraseIdx i := by
  induction l generalizing i with
  | nil => simp at here
  | cons y l ih =>
    rw [List.map_cons, List.nodup_cons] at distinct
    cases i with
    | zero =>
      obtain rfl := Option.some.inj here
      rw [List.filter_cons_of_neg (by simp), List.eraseIdx_cons_zero, List.filter_eq_self]
      intro x hx
      have hne : x.endpoint ≠ y.endpoint := fun h => distinct.1 (h ▸ List.mem_map_of_mem hx)
      simpa using hne
    | succ i =>
      have hne : y.endpoint ≠ w.endpoint := fun h =>
        distinct.1 (h ▸ List.mem_map_of_mem (List.mem_of_getElem? here))
      rw [List.filter_cons_of_pos (by simpa using hne), List.eraseIdx_cons_succ,
        ih distinct.2 here]

theorem mem_set_iff (distinct : (l.map Worker.endpoint).Nodup) (here : l[i]? = some w) :
    x ∈ l.set i w' ↔ x = w' ∨ x ∈ l ∧ x.endpoint ≠ w.endpoint := by
  rw [← map_eq_set distinct here fun _ => w', List.mem_map]
  constructor
  · rintro ⟨y, hy, rfl⟩
    split
    · exact .inl rfl
    · next hne => exact .inr ⟨hy, hne⟩
  · rintro (rfl | ⟨hx, hne⟩)
    · exact ⟨w, List.mem_of_getElem? here, if_pos rfl⟩
    · exact ⟨x, hx, if_neg hne⟩

theorem mem_eraseIdx_iff (distinct : (l.map Worker.endpoint).Nodup) (here : l[i]? = some w) :
    x ∈ l.eraseIdx i ↔ x ∈ l ∧ x.endpoint ≠ w.endpoint := by
  rw [← filter_eq_eraseIdx distinct here, List.mem_filter, bne_iff_ne]

theorem eq_of_endpoint (distinct : (l.map Worker.endpoint).Nodup) (hw : w ∈ l) (hx : x ∈ l)
    (h : x.endpoint = w.endpoint) : x = w :=
  List.inj_on_of_nodup_map distinct hx hw h

def StandsAt (e : EndpointId) (stage : WorkerStage) (l : List Worker) : Prop :=
  ∃ w ∈ l, w.endpoint = e ∧ w.stage = stage

theorem standsAt_set (distinct : (l.map Worker.endpoint).Nodup) (here : l[i]? = some w)
    (same : w'.endpoint = w.endpoint) :
    StandsAt e stage (l.set i w') ↔
      e = w.endpoint ∧ w'.stage = stage ∨ e ≠ w.endpoint ∧ StandsAt e stage l := by
  simp only [StandsAt, mem_set_iff distinct here]
  constructor
  · rintro ⟨x, rfl | ⟨hx, hne⟩, rfl, hstage⟩
    · exact .inl ⟨same, hstage⟩
    · exact .inr ⟨hne, x, hx, rfl, hstage⟩
  · rintro (⟨rfl, hstage⟩ | ⟨hne, x, hx, rfl, hstage⟩)
    · exact ⟨w', .inl rfl, same, hstage⟩
    · exact ⟨x, .inr ⟨hx, hne⟩, rfl, hstage⟩

theorem standsAt_eraseIdx (distinct : (l.map Worker.endpoint).Nodup) (here : l[i]? = some w) :
    StandsAt e stage (l.eraseIdx i) ↔ e ≠ w.endpoint ∧ StandsAt e stage l := by
  simp only [StandsAt, mem_eraseIdx_iff distinct here]
  constructor
  · rintro ⟨x, ⟨hx, hne⟩, rfl, hstage⟩
    exact ⟨hne, x, hx, rfl, hstage⟩
  · rintro ⟨hne, x, hx, rfl, hstage⟩
    exact ⟨x, ⟨hx, hne⟩, rfl, hstage⟩

theorem started_le_holders (h : ∀ w ∈ l, w.started = w.stage.isStarted) :
    l.countP (·.started) ≤ l.countP (·.stage.holdsSlot) := by
  refine List.countP_mono_left fun w hw hstarted => ?_
  rw [h w hw] at hstarted
  cases hstage : w.stage with
  | spawned | waiting | granted => simp [hstage, WorkerStage.isStarted] at hstarted
  | cycling | counted => rfl

end rows

namespace Pool

def without (i : Nat) (p : Pool) : Pool :=
  { p with active := p.active.eraseIdx i, running := p.running - 1, free := p.free + 1 }

inductive Worked (p : Pool) : Option Crew.Event → Pool → Prop
  | granted {i w} (here : p.active[i]? = some w) (stage : w.stage = .spawned) (free : 0 < p.free) :
    Worked p none { p with
      active := p.active.set i { w with stage := .granted }
      free := p.free - 1 }
  | lined {i w} (here : p.active[i]? = some w) (stage : w.stage = .spawned) (full : p.free = 0) :
    Worked p none { p with
      active := p.active.set i { w with stage := .waiting }
      line := p.line ++ [w.endpoint] }
  | started {i w} (here : p.active[i]? = some w) (stage : w.stage = .granted) :
    Worked p (some (.began w.endpoint false)) { p with
      active := p.active.set i { w with started := true, stage := .cycling }
      running := p.running + 1
      stats := { p.stats with
        peakConcurrent := max p.stats.peakConcurrent (p.running + 1) } }
  | completed {i w} (here : p.active[i]? = some w) (stage : w.stage = .cycling) :
    Worked p none { p with
      active := p.active.set i { w with stage := .counted }
      stats := { p.stats with totalCompleted := p.stats.totalCompleted + 1 } }
  | failed {i w} (here : p.active[i]? = some w) (stage : w.stage = .cycling) :
    Worked p none { p with
      active := p.active.set i { w with stage := .counted }
      stats := { p.stats with totalFailed := p.stats.totalFailed + 1 } }
  | again {i w} (here : p.active[i]? = some w) (stage : w.stage = .counted)
    (marked : w.endpoint ∈ p.reruns) :
    Worked p (some (.began w.endpoint true)) { p with
      active := p.active.set i { w with stage := .cycling }
      reruns := p.reruns.filter (· != w.endpoint)
      stats := { p.stats with totalReruns := p.stats.totalReruns + 1 } }
  | left {i w} (here : p.active[i]? = some w) (stage : w.stage = .counted)
    (unmarked : w.endpoint ∉ p.reruns) (line : p.line = []) :
    Worked p (some (.left w.endpoint)) (p.without i)
  | handed {i w j v line} (here : p.active[i]? = some w) (stage : w.stage = .counted)
    (unmarked : w.endpoint ∉ p.reruns) (next : (p.active.eraseIdx i)[j]? = some v)
    (waiting : v.stage = .waiting) (first : p.line = v.endpoint :: line) :
    Worked p (some (.left w.endpoint)) { p with
      active := (p.active.eraseIdx i).set j { v with stage := .granted }
      running := p.running - 1
      line }

/-- What a move can make of a pool, and what it shows. -/
inductive Happens (p : Pool) : Option Crew.Event → Pool → Prop
  | nothing : Happens p none p
  | closed : Happens p none { p with closed := true }
  | rejected {e reason} (closed : p.closed = true) :
    Happens p (some (.answered e (.rejected reason))) p
  | claimed {e a} (accepting : p.closed = false) (new : p.isActive e = false) (claim : a.isClaim) :
    Happens p (some (.answered e a)) { p with
      active := p.active ++ [⟨e, false, .spawned⟩]
      stats := { p.stats with totalScheduled := p.stats.totalScheduled + 1 } }
  | marked {e} (accepting : p.closed = false) (active : p.isActive e) :
    Happens p (some (.answered e .alreadyActive)) { p with
      reruns := if p.reruns.contains e then p.reruns else p.reruns ++ [e]
      stats := { p.stats with deferredDuplicates := p.stats.deferredDuplicates + 1 } }
  | worked {event p'} (step : Worked p event p') : Happens p event p'

variable {p p' : Pool} {w w' : Worker} {i : Nat} {e : EndpointId}

theorem isActive_iff : p.isActive e ↔ ∃ w ∈ p.active, w.endpoint = e := by
  simp [isActive]

/-- What holds of a pool at any time: its workers are for different endpoints, those that have
started are counted as running, each slot is held by a worker or free, the line is that of the
workers that wait, and a cycle more is asked of active endpoints only. -/
structure Balanced (p : Pool) : Prop where
  distinct : (p.active.map Worker.endpoint).Nodup
  started : ∀ w ∈ p.active, w.started = w.stage.isStarted
  running : p.running = p.active.countP (·.started)
  slots : p.active.countP (·.stage.holdsSlot) + p.free = p.capacity
  lined : p.line.Nodup
  waits : ∀ e, e ∈ p.line ↔ StandsAt e .waiting p.active
  marked : ∀ e ∈ p.reruns, p.isActive e
  below_peak : p.running ≤ p.stats.peakConcurrent
  peak_le : p.stats.peakConcurrent ≤ p.capacity

namespace Balanced

theorem not_lined (h : p.Balanced) (here : p.active[i]? = some w) (hw : w.stage ≠ .waiting) :
    w.endpoint ∉ p.line := by
  rw [h.waits]
  rintro ⟨x, hx, hsame, hwaiting⟩
  obtain rfl := eq_of_endpoint h.distinct (List.mem_of_getElem? here) hx hsame
  exact hw hwaiting

theorem aside {stage : WorkerStage} (h : p.Balanced) (here : p.active[i]? = some w)
    (hw : w.stage ≠ .waiting) (hs : stage ≠ .waiting) (e : EndpointId) :
    e ∈ p.line ↔ e = w.endpoint ∧ stage = .waiting ∨ e ≠ w.endpoint ∧ e ∈ p.line := by
  constructor
  · intro he
    refine .inr ⟨?_, he⟩
    rintro rfl
    exact h.not_lined here hw he
  · rintro (⟨-, hstage⟩ | ⟨-, he⟩)
    · exact absurd hstage hs
    · exact he

theorem running_le (h : p.Balanced) : p.running ≤ p.active.countP (·.stage.holdsSlot) := by
  rw [h.running]
  exact started_le_holders h.started

theorem running_lt (h : p.Balanced) (here : p.active[i]? = some w) (stage : w.stage = .granted) :
    p.running < p.active.countP (·.stage.holdsSlot) := by
  have hruns := countP_eraseIdx_of_getElem? (p := (·.started)) here
  have hholds := countP_eraseIdx_of_getElem? (p := (·.stage.holdsSlot)) here
  have hothers := started_le_holders (l := p.active.eraseIdx i)
    fun x hx => h.started x (List.mem_of_mem_eraseIdx hx)
  have hw : w.started = false ∧ w.stage.holdsSlot = true := by
    rw [h.started w (List.mem_of_getElem? here), stage]
    exact ⟨rfl, rfl⟩
  rw [hw.1, Bool.toNat_false] at hruns
  rw [hw.2, Bool.toNat_true] at hholds
  rw [h.running]
  omega

theorem moved (w' : Worker) (h : p.Balanced) (here : p.active[i]? = some w)
    (same : w'.endpoint = w.endpoint) (active : p'.active = p.active.set i w')
    (capacity : p'.capacity = p.capacity) (started : w'.started = w'.stage.isStarted)
    (running : p'.running + w.started.toNat = p.running + w'.started.toNat)
    (slots : p'.free + w'.stage.holdsSlot.toNat = p.free + w.stage.holdsSlot.toNat)
    (lined : p'.line.Nodup)
    (waits : ∀ e, e ∈ p'.line ↔ e = w.endpoint ∧ w'.stage = .waiting ∨ e ≠ w.endpoint ∧ e ∈ p.line)
    (marked : ∀ e ∈ p'.reruns, e ∈ p.reruns)
    (below_peak : p'.running ≤ p'.stats.peakConcurrent)
    (peak_le : p'.stats.peakConcurrent ≤ p'.capacity) : p'.Balanced where
  distinct := by
    rw [active, map_set_of_getElem? Worker.endpoint here same]
    exact h.distinct
  started x hx := by
    rw [active, mem_set_iff h.distinct here] at hx
    rcases hx with rfl | ⟨hx, -⟩
    · exact started
    · exact h.started x hx
  running := by
    have hcount := countP_set_of_getElem? (p := (·.started)) here w'
    have hold := h.running
    rw [active]
    omega
  slots := by
    have hcount := countP_set_of_getElem? (p := (·.stage.holdsSlot)) here w'
    have hold := h.slots
    rw [active, capacity]
    omega
  lined := lined
  waits e := by
    rw [waits, active, standsAt_set h.distinct here same, h.waits]
  marked e he := by
    obtain ⟨x, hx, rfl⟩ := isActive_iff.mp (h.marked e (marked e he))
    refine isActive_iff.mpr ?_
    by_cases hsame : x.endpoint = w.endpoint
    · refine ⟨w', ?_, same.trans hsame.symm⟩
      rw [active, mem_set_iff h.distinct here]
      exact .inl rfl
    · refine ⟨x, ?_, rfl⟩
      rw [active, mem_set_iff h.distinct here]
      exact .inr ⟨hx, hsame⟩
  below_peak := below_peak
  peak_le := peak_le

theorem claimed (h : p.Balanced) (new : p.isActive e = false)
    (active : p'.active = p.active ++ [⟨e, false, .spawned⟩]) (capacity : p'.capacity = p.capacity)
    (running : p'.running = p.running) (free : p'.free = p.free) (line : p'.line = p.line)
    (reruns : p'.reruns = p.reruns)
    (peak : p'.stats.peakConcurrent = p.stats.peakConcurrent) : p'.Balanced where
  distinct := by
    have hnew : e ∉ p.active.map Worker.endpoint := by
      rw [List.mem_map]
      exact fun hmem => Bool.eq_false_iff.mp new (isActive_iff.mpr hmem)
    rw [active, List.map_append, List.map_singleton]
    refine List.nodup_append.mpr ⟨h.distinct, List.nodup_singleton e, fun x hx y hy hxy => ?_⟩
    obtain rfl := List.mem_singleton.mp hy
    exact hnew (hxy ▸ hx)
  started x hx := by
    rw [active] at hx
    rcases List.mem_append.mp hx with hx | hx
    · exact h.started x hx
    · obtain rfl := List.mem_singleton.mp hx
      rfl
  running := by
    rw [running, active, List.countP_append, h.running]
    rfl
  slots := by
    rw [free, capacity, active, List.countP_append, ← h.slots]
    rfl
  lined := line ▸ h.lined
  waits x := by
    rw [line, h.waits, active]
    simp [StandsAt, or_and_right, exists_or]
  marked x hx := by
    rw [reruns] at hx
    obtain ⟨w, hw, rfl⟩ := isActive_iff.mp (h.marked x hx)
    exact isActive_iff.mpr ⟨w, active ▸ List.mem_append_left _ hw, rfl⟩
  below_peak := by
    rw [running, peak]
    exact h.below_peak
  peak_le := by
    rw [peak, capacity]
    exact h.peak_le

theorem without (h : p.Balanced) (here : p.active[i]? = some w) (stage : w.stage = .counted)
    (unmarked : w.endpoint ∉ p.reruns) : (p.without i).Balanced where
  distinct := h.distinct.sublist ((List.eraseIdx_sublist p.active i).map Worker.endpoint)
  started x hx := h.started x (List.mem_of_mem_eraseIdx hx)
  running := by
    have hcount := countP_eraseIdx_of_getElem? (p := (·.started)) here
    have hstarted : w.started = true := by
      rw [h.started w (List.mem_of_getElem? here), stage]
      rfl
    have hold := h.running
    rw [hstarted, Bool.toNat_true] at hcount
    simp only [Pool.without]
    omega
  slots := by
    have hcount := countP_eraseIdx_of_getElem? (p := (·.stage.holdsSlot)) here
    have hholds : w.stage.holdsSlot = true := by
      rw [stage]
      rfl
    have hold := h.slots
    rw [hholds, Bool.toNat_true] at hcount
    simp only [Pool.without]
    omega
  lined := h.lined
  waits x := by
    simp only [Pool.without]
    rw [standsAt_eraseIdx h.distinct here, h.waits]
    constructor
    · intro hwaits
      refine ⟨?_, hwaits⟩
      rintro rfl
      exact h.not_lined here (by simp [stage]) ((h.waits _).mpr hwaits)
    · exact And.right
  marked x hx := by
    obtain ⟨v, hv, rfl⟩ := isActive_iff.mp (h.marked x hx)
    refine isActive_iff.mpr ⟨v, ?_, rfl⟩
    rw [Pool.without, mem_eraseIdx_iff h.distinct here]
    exact ⟨hv, fun hsame => unmarked (hsame ▸ hx)⟩
  below_peak := Nat.le_trans (Nat.sub_le p.running 1) h.below_peak
  peak_le := h.peak_le

end Balanced

variable {event : Option Crew.Event}

theorem Balanced.worked (h : p.Balanced) (step : p.Worked event p') : p'.Balanced := by
  cases step with
  | @granted i w here stage free =>
    refine h.moved { w with stage := .granted } here rfl rfl rfl ?_ rfl ?_ h.lined
      (h.aside here (by simp [stage]) (by simp)) (fun _ hx => hx) h.below_peak h.peak_le
    · rw [h.started w (List.mem_of_getElem? here), stage]
      rfl
    · simp only [stage, WorkerStage.holdsSlot, Bool.toNat_true, Bool.toNat_false]
      omega
  | @lined i w here stage full =>
    have hnot := h.not_lined here (by simp [stage])
    refine h.moved { w with stage := .waiting } here rfl rfl rfl ?_ rfl ?_ ?_ (fun x => ?_)
      (fun _ hx => hx) h.below_peak h.peak_le
    · rw [h.started w (List.mem_of_getElem? here), stage]
      rfl
    · simp only [stage, WorkerStage.holdsSlot]
    · refine List.nodup_append.mpr ⟨h.lined, List.nodup_singleton _, fun x hx y hy hxy => ?_⟩
      obtain rfl := List.mem_singleton.mp hy
      exact hnot (hxy ▸ hx)
    · by_cases hx : x = w.endpoint <;> simp [hx]
  | @started i w here stage =>
    have hlt := h.running_lt here stage
    have hslots := h.slots
    refine h.moved { w with started := true, stage := .cycling } here rfl rfl rfl rfl ?_ ?_ h.lined
      (h.aside here (by simp [stage]) (by simp)) (fun _ hx => hx) (Nat.le_max_right _ _) ?_
    · rw [h.started w (List.mem_of_getElem? here), stage]
      rfl
    · simp only [stage, WorkerStage.holdsSlot]
    · exact Nat.max_le.mpr ⟨h.peak_le, by simp only; omega⟩
  | @completed i w here stage | @failed i w here stage =>
    refine h.moved { w with stage := .counted } here rfl rfl rfl ?_ rfl ?_ h.lined
      (h.aside here (by simp [stage]) (by simp)) (fun _ hx => hx) h.below_peak h.peak_le
    · rw [h.started w (List.mem_of_getElem? here), stage]
      rfl
    · simp only [stage, WorkerStage.holdsSlot]
  | @again i w here stage marked =>
    refine h.moved { w with stage := .cycling } here rfl rfl rfl ?_ rfl ?_ h.lined
      (h.aside here (by simp [stage]) (by simp)) (fun _ hx => (List.mem_filter.mp hx).1)
      h.below_peak h.peak_le
    · rw [h.started w (List.mem_of_getElem? here), stage]
      rfl
    · simp only [stage, WorkerStage.holdsSlot]
  | left here stage unmarked line =>
    exact h.without here stage unmarked
  -- the one worker leaves and the other goes on: the balance without the first
  -- is that with a slot free, which the second takes
  | @handed i w j v line here stage unmarked next waiting first =>
    have hrest := h.without here stage unmarked
    have hlined := h.lined
    rw [first, List.nodup_cons] at hlined
    refine hrest.moved { v with stage := .granted } next rfl rfl rfl ?_ rfl ?_ hlined.2
      (fun x => ?_) (fun _ hx => hx) hrest.below_peak h.peak_le
    · rw [hrest.started v (List.mem_of_getElem? next), waiting]
      rfl
    · simp only [Pool.without, waiting, WorkerStage.holdsSlot, Bool.toNat_true, Bool.toNat_false]
    · simp only [Pool.without, first, List.mem_cons]
      constructor
      · intro hx
        exact .inr ⟨fun heq => hlined.1 (heq ▸ hx), .inr hx⟩
      · rintro (⟨-, hstage⟩ | ⟨hne, hx⟩)
        · cases hstage
        · exact hx.resolve_left hne

theorem mem_marks {l : List EndpointId} {e' : EndpointId} :
    e ∈ (if l.contains e' then l else l ++ [e']) ↔ e ∈ l ∨ e = e' := by
  split_ifs with hmem
  · refine ⟨.inl, ?_⟩
    rintro (h | rfl)
    · exact h
    · exact List.contains_iff_mem.mp hmem
  · rw [List.mem_append, List.mem_singleton]

theorem Balanced.happens (h : p.Balanced) (happens : p.Happens event p') : p'.Balanced := by
  cases happens with
  | nothing | rejected => exact h
  | closed => exact ⟨h.1, h.2, h.3, h.4, h.5, h.6, h.7, h.8, h.9⟩
  | claimed accepting new claim => exact h.claimed new rfl rfl rfl rfl rfl rfl rfl
  | @marked e accepting active =>
    refine ⟨h.distinct, h.started, h.running, h.slots, h.lined, h.waits, fun x hx => ?_,
      h.below_peak, h.peak_le⟩
    rcases mem_marks.mp hx with hx | rfl
    · exact h.marked x hx
    · exact active
  | worked step => exact h.worked step

end Pool

end FleetDispatch
