import FleetDispatch.Proofs.Transition
import FleetDispatch.Scenario.Answer

namespace FleetDispatch

namespace Text

variable {n : Nat} {s : String}

/-- The longest beginning of a text that has at most so many characters. -/
structure LongestStart (n : Nat) (s start : String) : Prop where
  starts : start.toList <+: s.toList
  length_le : start.length ≤ n
  longest : ∀ t : String, t.toList <+: s.toList → t.length ≤ n → t.toList <+: start.toList

theorem longestStart_cut (n : Nat) (s : String) : LongestStart n s (cut n s) where
  starts := by
    rw [cut, String.toList_ofList]
    exact List.take_prefix n s.toList
  length_le := by
    rw [cut, String.length_ofList, List.length_take]
    exact Nat.min_le_left n s.toList.length
  longest t hstart hlength := by
    rw [cut, String.toList_ofList, List.prefix_take_iff, String.length_toList]
    exact ⟨hstart, hlength⟩

end Text

namespace Scenario

def RecordStep.IsCall (s : RecordStep) : Prop :=
  ∀ fault, s ≠ .refused fault

def StepResult.isDone : StepResult → Bool
  | .done => true
  | _ => false

def StepResult.isTries : StepResult → Bool
  | .tries _ => true
  | _ => false

def RecordStep.results : List RecordStep → Record → List StepResult
  | [], _ => []
  | s :: steps, r => (s.apply r).1 :: results steps (s.apply r).2

def RecordStep.after (steps : List RecordStep) (r : Record) : Record :=
  steps.foldl (fun r s => (s.apply r).2) r

namespace RecordStep

variable {r : Record} {s : RecordStep} {steps : List RecordStep}

theorem after_cons : after (s :: steps) r = after steps (s.apply r).2 :=
  rfl

/-- What is shown of some steps are their results, and at the end the record after them. -/
theorem recordSteps_shows :
    (recordSteps steps r).1.map (·.field? "result") =
        (results steps r).map (fun result => some result.toJson) ∧
      (recordSteps steps r).2 = after steps r := by
  induction steps generalizing r with
  | nil => exact ⟨rfl, rfl⟩
  | cons s steps ih =>
    obtain ⟨hshown, hafter⟩ := @ih (s.apply r).2
    refine ⟨?_, hafter⟩
    rw [recordSteps, results, List.map_cons, List.map_cons, hshown]
    rfl

theorem apply_complete (h : r.status = .queued) (code : Int) (msg : String) (time : Instant) :
    (complete code msg time).apply r = (.done, r.finished .completed code msg time) := by
  rw [apply, Record.complete, Record.finish_of_queued h]

theorem apply_fail (h : r.status = .queued) (code : Int) (msg : String) (time : Instant) :
    (fail code msg time).apply r = (.done, r.finished .failed code msg time) := by
  rw [apply, Record.fail, Record.finish_of_queued h]

theorem apply_consume (h : r.status = .queued) {n : Nat} (hn : r.remainingTries = n + 1) :
    consume.apply r = (.tries n, { r with remainingTries := n }) := by
  rw [apply, Record.consume_of_queued h hn]

theorem apply_consume_zero (h : r.status = .queued) (hn : r.remainingTries = 0) :
    consume.apply r = (.failed (.noAttemptsLeft r.actionId r.endpoint), r) := by
  rw [apply, Record.consume_of_exhausted h hn]

theorem apply_of_terminal (h : r.status ≠ .queued) (hs : s.IsCall) :
    s.apply r = (.failed (.alreadyTerminal r.actionId r.endpoint r.status), r) := by
  cases s with
  | consume => rw [apply, Record.consume_of_terminal h]
  | complete code msg time => rw [apply, Record.complete, Record.finish_of_terminal h]
  | fail code msg time => rw [apply, Record.fail, Record.finish_of_terminal h]
  | refused fault => exact absurd rfl (hs fault)

/-- What a step can do to a record: end it, spend an attempt, or nothing. -/
theorem apply_cases (s : RecordStep) (r : Record) :
    (r.status = .queued ∧ ∃ status code msg time, status ≠ .queued ∧
      s.apply r = (.done, r.finished status code msg time)) ∨
    (r.status = .queued ∧ ∃ n, r.remainingTries = n + 1 ∧
      s.apply r = (.tries n, { r with remainingTries := n })) ∨
    ((s.apply r).2 = r ∧ (s.apply r).1.isDone = false ∧ (s.apply r).1.isTries = false) := by
  by_cases h : r.status = .queued
  · cases s with
    | consume =>
      cases hn : r.remainingTries with
      | zero =>
        rw [apply_consume_zero h hn]
        exact .inr (.inr ⟨rfl, rfl, rfl⟩)
      | succ n => exact .inr (.inl ⟨h, n, rfl, apply_consume h hn⟩)
    | complete code msg time =>
      exact .inl ⟨h, .completed, code, msg, time, by decide, apply_complete h code msg time⟩
    | fail code msg time =>
      exact .inl ⟨h, .failed, code, msg, time, by decide, apply_fail h code msg time⟩
    | refused fault => exact .inr (.inr ⟨rfl, rfl, rfl⟩)
  · refine .inr (.inr ?_)
    by_cases hs : s.IsCall
    · rw [apply_of_terminal h hs]
      exact ⟨rfl, rfl, rfl⟩
    · obtain ⟨fault, hfault⟩ := Classical.not_forall.mp hs
      rw [Classical.not_not.mp hfault]
      exact ⟨rfl, rfl, rfl⟩

theorem apply_failed {e : Refusal} (h : (s.apply r).1 = .failed e) : (s.apply r).2 = r := by
  unfold apply at h ⊢
  cases s with
  | consume =>
    cases hr : Record.consume r with
    | ok n r' => simp [hr] at h
    | error e' r' => exact Record.consume_error hr
  | complete code msg time =>
    cases hr : Record.complete code msg time r with
    | ok u r' => simp [hr] at h
    | error e' r' =>
      simp only [hr]
      exact Record.finish_error hr
  | fail code msg time =>
    cases hr : Record.fail code msg time r with
    | ok u r' => simp [hr] at h
    | error e' r' =>
      simp only [hr]
      exact Record.finish_error hr
  | refused fault => rfl

theorem snd_apply_of_terminal (h : r.status ≠ .queued) :
    (s.apply r).2 = r ∧ (s.apply r).1.isDone = false ∧ (s.apply r).1.isTries = false := by
  rcases apply_cases s r with ⟨hqueued, -⟩ | ⟨hqueued, -⟩ | hsame
  · exact absurd hqueued h
  · exact absurd hqueued h
  · exact hsame

theorem after_of_terminal (h : r.status ≠ .queued) (steps : List RecordStep) :
    after steps r = r := by
  induction steps with
  | nil => rfl
  | cons s steps ih => rw [after_cons, (snd_apply_of_terminal h).1, ih]

theorem done_of_terminal (h : r.status ≠ .queued) (steps : List RecordStep) :
    (results steps r).countP StepResult.isDone = 0 := by
  induction steps with
  | nil => rfl
  | cons s steps ih =>
    obtain ⟨hsame, hdone, -⟩ := snd_apply_of_terminal (s := s) h
    rw [results, List.countP_cons_of_neg (by simp [hdone]), hsame, ih]

/-- Steps keep the name of a record. A record that is queued stays so until a transition ends it,
and no second one does. -/
theorem after_queued (steps : List RecordStep) (r : Record) :
    (after steps r).actionId = r.actionId ∧ (after steps r).endpoint = r.endpoint ∧
      ((after steps r).status = .queued ↔
        r.status = .queued ∧ (results steps r).countP StepResult.isDone = 0) ∧
      (results steps r).countP StepResult.isDone ≤ 1 := by
  induction steps generalizing r with
  | nil => simp [after, results]
  | cons s steps ih =>
    obtain ⟨hid, hendpoint, hstatus, hle⟩ := ih (s.apply r).2
    rw [after_cons, results, hid, hendpoint, hstatus, List.countP_cons]
    -- of the three things a step can do only the first ends the record, and then no later step
    -- is done
    rcases apply_cases s r with ⟨hqueued, status, code, msg, time, hend, hs⟩ |
      ⟨hqueued, n, hn, hs⟩ | ⟨hsame, hdone, -⟩
    · have hterminal : (r.finished status code msg time).status ≠ .queued := hend
      have hzero := done_of_terminal hterminal steps
      simp only [hs, hzero, StepResult.isDone]
      simp [Record.finished, hend]
    · rw [hs] at hle ⊢
      simpa [StepResult.isDone, hqueued] using hle
    · simpa [hsame, hdone] using hle

theorem remainingTries_after (steps : List RecordStep) (r : Record) :
    (after steps r).remainingTries + (results steps r).countP StepResult.isTries =
      r.remainingTries := by
  induction steps generalizing r with
  | nil => rfl
  | cons s steps ih =>
    have hrest := ih (s.apply r).2
    rw [after_cons, results, List.countP_cons]
    rcases apply_cases s r with ⟨hqueued, status, code, msg, time, hend, hs⟩ |
      ⟨hqueued, n, hn, hs⟩ | ⟨hsame, -, htries⟩
    · rw [hs] at hrest ⊢
      exact hrest
    · rw [hs] at hrest ⊢
      simp only [StepResult.isTries, if_true] at hrest ⊢
      omega
    · rw [hsame] at hrest ⊢
      simpa [htries] using hrest

/-- A record that takes transitions: either ending succeeds, with attempts left or without, and
keeps the longest beginning of its message that fits, and an attempt is spent if there is one. -/
structure Takes (r : Record) : Prop where
  completes (code : Int) (msg : String) (time : Instant) :
    ∃ kept, Text.LongestStart 1024 msg kept ∧ (complete code msg time).apply r = (.done, { r with
      status := .completed, resultCode := some code, resultMsg := some kept,
      completedAt := some time })
  fails (code : Int) (msg : String) (time : Instant) :
    ∃ kept, Text.LongestStart 1024 msg kept ∧ (fail code msg time).apply r = (.done, { r with
      status := .failed, resultCode := some code, resultMsg := some kept,
      completedAt := some time })
  spends {n : Nat} (left : r.remainingTries = n + 1) :
    consume.apply r = (.tries n, { r with remainingTries := n })
  exhausted (none_left : r.remainingTries = 0) :
    consume.apply r = (.failed (.noAttemptsLeft r.actionId r.endpoint), r)

/-- A record that refuses transitions, each for its status, and stays as it is. -/
structure Refuses (r : Record) : Prop where
  refuses {s : RecordStep} (call : s.IsCall) :
    (s.apply r).1 = .failed (.alreadyTerminal r.actionId r.endpoint r.status)
  stays (steps : List RecordStep) : after steps r = r

theorem takes_of_queued (h : r.status = .queued) : Takes r where
  completes code msg time := ⟨_, Text.longestStart_cut 1024 msg, apply_complete h code msg time⟩
  fails code msg time := ⟨_, Text.longestStart_cut 1024 msg, apply_fail h code msg time⟩
  spends left := apply_consume h left
  exhausted none_left := apply_consume_zero h none_left

theorem refuses_of_terminal (h : r.status ≠ .queued) : Refuses r where
  refuses call := by rw [apply_of_terminal h call]
  stays := after_of_terminal h

theorem done_mem_results_iff :
    StepResult.done ∈ results steps r ↔ (results steps r).countP StepResult.isDone ≠ 0 := by
  rw [← Nat.pos_iff_ne_zero, List.countP_pos_iff]
  constructor
  · exact fun h => ⟨_, h, rfl⟩
  · rintro ⟨result, hmem, hresult⟩
    cases result with
    | done => exact hmem
    | _ => cases hresult

/-- A record takes every transition until one of them ends it, and from then on refuses them all.
One that it refuses leaves each field as it is, and the attempts that are left and those that were
spent are together the ones that it had at the start. -/
theorem transitions_monotone (r : Record) (steps : List RecordStep) :
    let r' := after steps r
    let given := results steps r
    (∀ (s : RecordStep) (e : Refusal), (s.apply r').1 = .failed e → (s.apply r').2 = r') ∧
      given.countP StepResult.isDone ≤ 1 ∧
      (r.status ≠ .queued ∨ .done ∈ given → r'.status ≠ .queued ∧ Refuses r') ∧
      (r.status = .queued → .done ∉ given → r'.status = .queued ∧ Takes r') ∧
      r'.remainingTries + given.countP StepResult.isTries = r.remainingTries ∧
      r'.actionId = r.actionId ∧ r'.endpoint = r.endpoint := by
  intro r' given
  obtain ⟨hid, hendpoint, hstatus, hle⟩ := after_queued steps r
  refine ⟨fun s e => apply_failed, hle, fun hended => ?_, fun hqueued hnot => ?_,
    remainingTries_after steps r, hid, hendpoint⟩
  · have hterminal : r'.status ≠ .queued := by
      intro h
      obtain ⟨hqueued, hzero⟩ := hstatus.mp h
      rcases hended with hended | hended
      · exact hended hqueued
      · exact done_mem_results_iff.mp hended hzero
    exact ⟨hterminal, refuses_of_terminal hterminal⟩
  · have hzero : given.countP StepResult.isDone = 0 :=
      Decidable.byContradiction fun h => hnot (done_mem_results_iff.mpr h)
    have hstill : r'.status = .queued := hstatus.mpr ⟨hqueued, hzero⟩
    exact ⟨hstill, takes_of_queued hstill⟩

def overrun : List RecordStep :=
  [.consume, .consume, .complete 0 "ok" ⟨5, 0⟩, .fail (-1) "late" ⟨6, 0⟩]

theorem transitions_overrun :
    let r := Record.fresh 7 "web-1" 1
    results overrun r = [.tries 0, .failed (.noAttemptsLeft 7 "web-1"), .done,
        .failed (.alreadyTerminal 7 "web-1" .completed)] ∧
      Takes (after (overrun.take 2) r) ∧ Refuses (after overrun r) ∧
      (after overrun r).remainingTries + 1 = r.remainingTries := by
  intro r
  obtain ⟨-, -, -, htakes, -⟩ := transitions_monotone r (overrun.take 2)
  obtain ⟨-, -, hrefuses, -, hspent, -⟩ := transitions_monotone r overrun
  have hbefore : results (overrun.take 2) r = [.tries 0, .failed (.noAttemptsLeft 7 "web-1")] := rfl
  have hdone : StepResult.done ∉ results (overrun.take 2) r := by
    rw [hbefore]
    simp
  have hended : StepResult.done ∈ results overrun r := .tail _ (.tail _ (.head _))
  exact ⟨rfl, (htakes rfl hdone).2, (hrefuses (.inr hended)).2, hspent⟩

end RecordStep

end Scenario

end FleetDispatch
