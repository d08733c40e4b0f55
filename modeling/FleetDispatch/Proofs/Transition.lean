import FleetDispatch.Record

namespace FleetDispatch.Record

variable {r r' : Record} {status : Status} {code : Int} {msg : String} {time : Instant}

def finished (status : Status) (code : Int) (msg : String) (time : Instant) (r : Record) :
    Record :=
  { r with
    status, resultCode := some code, resultMsg := some (Text.cut messageLimit msg),
    completedAt := some time }

theorem isTerminal_iff : r.isTerminal ↔ r.status ≠ .queued := by
  cases h : r.status <;> simp [isTerminal, Status.isTerminal, h]

theorem ensureQueued_bind_of_queued {α : Type} (h : r.status = .queued)
    (f : Unit → Transition α) : (ensureQueued >>= f) r = f () r := by
  have hopen : ensureQueued r = .ok () r := by
    change (if r.isTerminal then throw _ else pure () : Transition Unit) r = _
    rw [if_neg (fun hr => isTerminal_iff.mp hr h)]
    rfl
  change EStateM.bind ensureQueued f r = _
  rw [EStateM.bind, hopen]

/-- Of a record that has ended no transition gets further than its guard. -/
theorem ensureQueued_bind_of_terminal {α : Type} (h : r.status ≠ .queued)
    (f : Unit → Transition α) :
    (ensureQueued >>= f) r = .error (.alreadyTerminal r.actionId r.endpoint r.status) r := by
  have hended : ensureQueued r = .error (.alreadyTerminal r.actionId r.endpoint r.status) r := by
    change (if r.isTerminal then throw _ else pure () : Transition Unit) r = _
    rw [if_pos (isTerminal_iff.mpr h)]
    rfl
  change EStateM.bind ensureQueued f r = _
  rw [EStateM.bind, hended]

theorem finish_of_queued (h : r.status = .queued) (status : Status) (code : Int) (msg : String)
    (time : Instant) :
    finish status code msg time r = .ok () (r.finished status code msg time) :=
  ensureQueued_bind_of_queued h _

theorem finish_of_terminal (h : r.status ≠ .queued) (status : Status) (code : Int) (msg : String)
    (time : Instant) :
    finish status code msg time r = .error (.alreadyTerminal r.actionId r.endpoint r.status) r :=
  ensureQueued_bind_of_terminal h _

theorem consume_of_queued (h : r.status = .queued) {n : Nat} (hn : r.remainingTries = n + 1) :
    consume r = .ok n { r with remainingTries := n } := by
  obtain ⟨id, endpoint, status, tries, code, msg, time⟩ := r
  obtain rfl : tries = n + 1 := hn
  exact ensureQueued_bind_of_queued h _

theorem consume_of_exhausted (h : r.status = .queued) (hn : r.remainingTries = 0) :
    consume r = .error (.noAttemptsLeft r.actionId r.endpoint) r := by
  obtain ⟨id, endpoint, status, tries, code, msg, time⟩ := r
  obtain rfl : tries = 0 := hn
  exact ensureQueued_bind_of_queued h _

theorem consume_of_terminal (h : r.status ≠ .queued) :
    consume r = .error (.alreadyTerminal r.actionId r.endpoint r.status) r :=
  ensureQueued_bind_of_terminal h _

theorem finish_error {e : Refusal} (h : finish status code msg time r = .error e r') : r' = r := by
  by_cases hr : r.status = .queued
  · rw [finish_of_queued hr] at h
    cases h
  · rw [finish_of_terminal hr] at h
    cases h
    rfl

theorem consume_error {e : Refusal} (h : consume r = .error e r') : r' = r := by
  by_cases hr : r.status = .queued
  · cases hn : r.remainingTries with
    | zero =>
      rw [consume_of_exhausted hr hn] at h
      cases h
      rfl
    | succ n =>
      rw [consume_of_queued hr hn] at h
      cases h
  · rw [consume_of_terminal hr] at h
    cases h
    rfl

theorem endpoint_of_finish (h : finish status code msg time r = .ok () r') :
    r'.endpoint = r.endpoint := by
  by_cases hr : r.status = .queued
  · rw [finish_of_queued hr] at h
    cases h
    rfl
  · rw [finish_of_terminal hr] at h
    cases h

theorem endpoint_of_consume {n : Nat} (h : consume r = .ok n r') : r'.endpoint = r.endpoint := by
  by_cases hr : r.status = .queued
  · cases hn : r.remainingTries with
    | zero =>
      rw [consume_of_exhausted hr hn] at h
      cases h
    | succ n =>
      rw [consume_of_queued hr hn] at h
      cases h
      rfl
  · rw [consume_of_terminal hr] at h
    cases h

end FleetDispatch.Record
