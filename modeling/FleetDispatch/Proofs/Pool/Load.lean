import FleetDispatch.Proofs.Pool.Slots
import Mathlib.Algebra.Ring.Nat

namespace FleetDispatch

def WorkerStage.stepsLeft : WorkerStage → Nat
  | spawned => 4
  | waiting => 3
  | granted => 3
  | cycling => 2
  | counted => 1

namespace Pool

variable {p p' : Pool} {e : EndpointId} {event : Option Crew.Event} {w w' : Worker} {i : Nat}

/-- A bound for the steps that are left to all workers if there are no more requests: a further
cycle takes two. -/
def load (p : Pool) : Nat :=
  (p.active.map (·.stage.stepsLeft)).sum + 2 * p.reruns.length

theorem load_set (here : p.active[i]? = some w) (active : p'.active = p.active.set i w') :
    p'.load + (2 * p.reruns.length + w.stage.stepsLeft) =
      p.load + (2 * p'.reruns.length + w'.stage.stepsLeft) := by
  have hsum := sum_set_of_getElem? (fun w : Worker => w.stage.stepsLeft) here w'
  rw [load, load, active]
  omega

theorem load_lt_of_set (here : p.active[i]? = some w) (active : p'.active = p.active.set i w')
    (less : 2 * p'.reruns.length + w'.stage.stepsLeft < 2 * p.reruns.length + w.stage.stepsLeft) :
    p'.load < p.load := by
  have hset := load_set here active
  omega

theorem load_without (here : p.active[i]? = some w) (stage : w.stage = .counted) :
    (p.without i).load < p.load := by
  have hsum := sum_eraseIdx_of_getElem? (fun w : Worker => w.stage.stepsLeft) here
  simp only [stage, WorkerStage.stepsLeft] at hsum
  simp only [load, without, WorkerStage.stepsLeft]
  omega

theorem Worked.load_lt (step : p.Worked event p') : p'.load < p.load := by
  cases step with
  | granted here stage | lined here stage | started here stage | completed here stage
  | failed here stage =>
    exact load_lt_of_set here rfl (by simp [stage, WorkerStage.stepsLeft])
  | @again i w here stage marked =>
    have hlt : (p.reruns.filter (· != w.endpoint)).length < p.reruns.length :=
      List.length_filter_lt_length_iff_exists.mpr ⟨w.endpoint, marked, by simp⟩
    -- The worker has a step more before it, and the mark that stood for two is gone.
    refine load_lt_of_set here rfl ?_
    simp only [stage, WorkerStage.stepsLeft]
    omega
  | left here stage unmarked line => exact load_without here stage
  | @handed i w j v line here stage unmarked next waiting first =>
    let q : Pool := { p with
      active := (p.active.eraseIdx i).set j { v with stage := .granted }
      running := p.running - 1
      line }
    have hset := load_set (p := p.without i) next
      (rfl : q.active = (p.without i).active.set j { v with stage := .granted })
    rw [waiting] at hset
    calc
      _ = (p.without i).load := Nat.add_right_cancel hset
      _ < p.load := load_without here stage

theorem Happens.load_le (happens : p.Happens event p') : p'.load ≤ p.load + 4 := by
  cases happens with
  | nothing | rejected => exact Nat.le_add_right _ _
  | closed => exact Nat.le_add_right _ _
  | claimed =>
    simp only [load, List.map_append, List.sum_append, List.map_singleton, List.sum_singleton,
      WorkerStage.stepsLeft]
    omega
  | marked =>
    simp only [load]
    split_ifs
    · omega
    · rw [List.length_append, List.length_singleton]
      omega
  | worked step => exact Nat.le_add_right_of_le (Nat.le_of_lt step.load_lt)

theorem load_pos (active : p.isActive e) : 0 < p.load := by
  obtain ⟨w, hw, -⟩ := isActive_iff.mp active
  obtain ⟨i, hi⟩ := List.mem_iff_getElem?.mp hw
  have hsum := sum_eraseIdx_of_getElem? (fun w : Worker => w.stage.stepsLeft) hi
  have hone : 0 < w.stage.stepsLeft := by cases w.stage <;> decide
  rw [load]
  omega

end Pool

namespace Crew

variable {c : Crew}

/-- Whether a worker goes on in a move: one that waits does not. -/
def Move.goesOn : Move → Crew → Bool
  | .work i _, c => c.hands[i]?.any (·.stage != .waiting)
  | _, _ => false

def Move.isRequest : Move → Bool
  | .schedule _ => true
  | _ => false

def steps : List Move → Crew → Nat
  | [], _ => 0
  | m :: moves, c => (m.goesOn c).toNat + steps moves (c.step m).2

namespace Sound

theorem step_load (sound : c.Sound) (m : Move) :
    (m.goesOn c).toNat + (c.step m).2.pool.load ≤ c.pool.load + 4 * m.isRequest.toNat := by
  cases m with
  | schedule e =>
    have hload := (sound.schedule e).1.load_le
    simp only [Move.goesOn, Move.isRequest, Crew.step, Bool.toNat_false, Bool.toNat_true]
    omega
  | close => exact Nat.le_of_eq (Nat.zero_add _)
  | work i completed =>
    cases hhand : c.hands[i]? with
    | none => simp [Move.goesOn, Move.isRequest, Crew.step, hhand]
    | some h =>
      obtain ⟨w, hw, rfl⟩ := sound.getElem?_active hhand
      simp only [Move.goesOn, Move.isRequest, Crew.step, hhand, Option.any_some]
      by_cases hwaiting : w.stage = .waiting
      · have hhere : w.hand.stage = .waiting := hwaiting
        simp [Crew.work, hhere]
      · have hload := (sound.work hw hwaiting completed).1.load_lt
        have hbne : (w.hand.stage != .waiting) = true := bne_iff_ne.mpr hwaiting
        rw [hbne, Bool.toNat_true]
        omega

theorem steps_le (sound : c.Sound) (later : List Move) :
    steps later c + (c.after later).pool.load ≤
      c.pool.load + 4 * later.countP (·.isRequest) := by
  -- on the moves: a request adds four steps at most, and a worker that goes on takes one off
  induction later generalizing c with
  | nil => exact Nat.le_of_eq (Nat.zero_add _)
  | cons m later ih =>
    have hstep := sound.step_load m
    have hlater := ih (sound.step m)
    rw [List.countP_cons]
    simp only [steps, after_cons]
    cases hm : m.isRequest <;> simp only [hm, Bool.toNat_true, Bool.toNat_false] at hstep ⊢ <;>
      simp <;> omega

/-- As long as workers are left, one of them does not wait: those that wait leave no slot free, so
that there is one that holds a slot. -/
theorem exists_goesOn (sound : c.Sound) (slots : 0 < c.pool.capacity) {e : EndpointId}
    (active : c.pool.isActive e) (completed : Bool) : ∃ i, (Move.work i completed).goesOn c := by
  have hready : ∃ w ∈ c.pool.active, w.stage ≠ .waiting := by
    -- if all wait then no slot is free, so one is held, and whoever holds it does not wait
    by_contra hall
    push Not at hall
    obtain ⟨w, hw, -⟩ := Pool.isActive_iff.mp active
    have hline : w.endpoint ∈ c.pool.line :=
      (sound.balanced.waits _).mpr ⟨w, hw, rfl, hall w hw⟩
    have hfree := sound.busy (List.ne_nil_of_mem hline)
    have hslots := sound.balanced.slots
    have hheld : 0 < c.pool.active.countP (·.stage.holdsSlot) := by omega
    obtain ⟨x, hx, hholds⟩ := List.countP_pos_iff.mp hheld
    rw [hall x hx] at hholds
    cases hholds
  obtain ⟨w, hw, hstage⟩ := hready
  have hhand : w.hand ∈ c.hands := by
    rw [sound.known]
    exact List.mem_map_of_mem hw
  obtain ⟨i, hi⟩ := List.mem_iff_getElem?.mp hhand
  refine ⟨i, ?_⟩
  simp only [Move.goesOn, hi, Option.any_some]
  exact bne_iff_ne.mpr hstage

end Sound

end Crew

end FleetDispatch
