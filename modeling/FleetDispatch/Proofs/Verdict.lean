import FleetDispatch.Verdict

namespace FleetDispatch

namespace Json

/-- A value names no state that failed, and no reason why none was run. -/
def StatesHold : Json → Prop
  | .arr reasons => reasons = []
  | .obj states => ∀ s ∈ states, s.2.field? "result" = some (.bool true)
  | _ => True

variable {v : Json}

theorem bool?_eq_some {b : Bool} : v.bool? = some b ↔ v = .bool b := by
  cases v <;> simp [bool?]

theorem bool?_bind_eq_some {o : Option Json} {b : Bool} :
    o.bind bool? = some b ↔ o = some (.bool b) := by
  cases o <;> simp [bool?_eq_some]

end Json

namespace CallResult

def Succeeds (r : CallResult) : Prop :=
  r.success = true ∧ r.retcode = 0

end CallResult

namespace Verdict

theorem stateComment_eq_none {id : String} {state : Json} :
    stateComment id state = none ↔ state.field? "result" = some (.bool true) := by
  rw [← Json.bool?_bind_eq_some]
  unfold stateComment
  split
  · next h => simp [h]
  · next h =>
    simp only [h, iff_false]
    split
    · split <;> simp
    · simp

theorem failingState_eq_none {v : Json} : failingState v = none ↔ v.StatesHold := by
  cases v with
  | obj states =>
    simp [failingState, Json.StatesHold, List.findSome?_eq_none_iff, stateComment_eq_none]
  | arr reasons => cases reasons <;> simp [failingState, Json.StatesHold]
  | _ => simp [failingState, Json.StatesHold]

theorem failureOf_eq_none {p : Procedure} {r : CallResult} : failureOf p r = none ↔
    (p.function = "state.apply" ∨ p.function = "state.highstate" → r.payload.StatesHold) := by
  unfold failureOf
  split
  · next h =>
    simp only [Procedure.isStateApply, Bool.or_eq_true, beq_iff_eq] at h
    simp [failingState_eq_none, h]
  · next h =>
    simp only [Procedure.isStateApply, Bool.or_eq_true, beq_iff_eq] at h
    simp [h]

theorem ofResult_cases (p : Procedure) (r : CallResult) :
    ((ofResult p r).status = .completed ∧ (ofResult p r).code = 0) ∨
      ((ofResult p r).status = .failed ∧ (ofResult p r).code = -1) := by
  unfold ofResult
  by_cases h : (r.success && r.retcode == 0 && (failureOf p r).isNone) = true
  · exact .inl (by simp [h, ResultCode.success])
  · exact .inr (by simp [h, ResultCode.remoteError])

theorem status_ne_queued (p : Procedure) (r : CallResult) :
    (ofResult p r).status ≠ .queued := by
  rcases ofResult_cases p r with ⟨h, -⟩ | ⟨h, -⟩ <;> rw [h] <;> decide

theorem code_ne_prerequisiteFailed (p : Procedure) (r : CallResult) :
    (ofResult p r).code ≠ ResultCode.prerequisiteFailed := by
  rcases ofResult_cases p r with ⟨-, h⟩ | ⟨-, h⟩ <;> rw [h] <;> decide

theorem completed_iff {p : Procedure} {r : CallResult} :
    (ofResult p r).status = .completed ↔ r.Succeeds ∧ failureOf p r = none := by
  unfold ofResult CallResult.Succeeds
  simp only [← Option.isNone_iff_eq_none, ← beq_iff_eq (a := r.retcode), ← Bool.and_eq_true]
  split
  · next h => simp [h]
  · next h => simp [h]

end Verdict

end FleetDispatch
