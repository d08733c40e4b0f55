import FleetDispatch.Helper.Run
import FleetDispatch.Proofs.Verdict

namespace FleetDispatch

namespace Json

/-- The value that stands alone under a key, or else the value as it is. -/
inductive Under (key : String) : Json → Json → Prop
  | alone (w : Json) : Under key (.obj [(key, w)]) w
  | whole (v : Json) (h : ∀ w, v ≠ .obj [(key, w)]) : Under key v v

/-- A value that has a return code tells of a success: the code is the integer zero, and its
`success` is not `false`. -/
def Affirms (w : Json) : Prop :=
  ∀ code, w.field? "retcode" = some code → code = .int 0 ∧ w.field? "success" ≠ some (.bool false)

def returned (w : Json) : Json :=
  match w.field? "retcode", w.field? "return" with
  | some _, some v => v
  | _, _ => w

variable {v w : Json} {key : String}

theorem int64?_getD_eq_zero : v.int64?.getD (-1) = 0 ↔ v = .int 0 := by
  cases v with
  | int n =>
    simp only [int64?, inRange, int.injEq]
    split
    · simp
    · next outside =>
      simp only [Width.least64, Width.greatest64] at outside
      constructor <;> intro h
      · simp at h
      · subst h
        simp at outside
  | _ => simp [int64?, inRange]

theorem parse_empty : ∃ m, parse "" = .error m :=
  ⟨_, rfl⟩

theorem ne_null_of_field? {x : Json} (h : w.field? key = some x) : w ≠ .null := by
  rintro rfl
  cases h

end Json

namespace CallResult

variable {endpoint : EndpointId} {v w : Json} {status reported : Int} {r : CallResult}

theorem unwrap_eq_iff : unwrap endpoint v = w ↔ v.Under endpoint w := by
  constructor
  · intro h
    subst h
    unfold unwrap
    split
    · next k x =>
      split
      · next hk =>
        subst hk
        exact .alone x
      · next hk => exact .whole _ fun y => by simp [hk]
    · next hv => exact .whole v fun y hy => hv _ _ hy
  · intro h
    cases h with
    | alone => simp [unwrap]
    | whole _ h =>
      unfold unwrap
      split
      · next k x =>
        split
        · next hk => exact absurd (by rw [hk]) (h x)
        · rfl
      · rfl

theorem ofReported_succeeds : (ofReported reported w status).Succeeds ↔
    reported = 0 ∧ status = 0 ∧ w.field? "success" ≠ some (.bool false) := by
  have said : ((w.field? "success").bind Json.bool?).getD true = true ↔
      w.field? "success" ≠ some (.bool false) := by
    rw [ne_eq, ← Json.bool?_bind_eq_some]
    cases (w.field? "success").bind Json.bool? with
    | none => simp
    | some b => cases b <;> simp
  simp only [Succeeds, ofReported, Bool.and_eq_true, beq_iff_eq, said]
  by_cases h : reported = 0
  · simp [h, and_comm]
  · simp [h]

theorem ofReply?_of_reported {code : Json} (h : w.field? "retcode" = some code) :
    ofReply? w status = some (ofReported (code.int64?.getD (-1)) w status) := by
  unfold ofReply?
  split
  · cases h
  · rw [h]

theorem ofReply?_of_plain (some : w ≠ .null) (h : w.field? "retcode" = none) :
    ofReply? w status = .some (if status = 0 then succeeded w else failed status w) := by
  unfold ofReply?
  split
  · exact absurd rfl some
  · rw [h]

theorem ofReply?_null : ofReply? .null status = none := rfl

theorem payload_ofReply? (h : ofReply? w status = some r) : r.payload = w.returned := by
  cases code : w.field? "retcode" with
  | some x =>
    rw [ofReply?_of_reported code] at h
    obtain rfl := Option.some.inj h
    cases value : w.field? "return" <;> simp [ofReported, Json.returned, code, value]
  | none =>
    have value : w ≠ .null := by
      rintro rfl
      cases h
    rw [ofReply?_of_plain value code] at h
    obtain rfl := Option.some.inj h
    by_cases zero : status = 0 <;> simp [Json.returned, code, zero, succeeded, failed]

theorem ofReply?_succeeds : (∃ r, ofReply? w status = some r ∧ r.Succeeds) ↔
    status = 0 ∧ w ≠ .null ∧ w.Affirms := by
  cases code : w.field? "retcode" with
  | some x =>
    have value := Json.ne_null_of_field? code
    simp only [ofReply?_of_reported code, Option.some.injEq, exists_eq_left', ofReported_succeeds,
      Json.int64?_getD_eq_zero, Json.Affirms, code]
    constructor
    · rintro ⟨zero, ended, said⟩
      refine ⟨ended, value, ?_⟩
      rintro _ rfl
      exact ⟨zero, said⟩
    · rintro ⟨ended, -, affirms⟩
      obtain ⟨zero, said⟩ := affirms x rfl
      exact ⟨zero, ended, said⟩
  | none =>
    have affirms : w.Affirms := by simp [Json.Affirms, code]
    by_cases value : w = .null
    · subst value
      simp [ofReply?_null]
    · simp only [ofReply?_of_plain value code, Option.some.injEq, exists_eq_left']
      by_cases zero : status = 0 <;> simp [Succeeds, succeeded, failed, zero, value, affirms]

theorem succeeds_of_success (h : ofReply? w status = some r) (success : r.success = true) :
    r.Succeeds := by
  refine ⟨success, ?_⟩
  cases code : w.field? "retcode" with
  | some x =>
    rw [ofReply?_of_reported code] at h
    obtain rfl := Option.some.inj h
    simp only [ofReported, Bool.and_eq_true, beq_iff_eq] at success ⊢
    exact success.2
  | none =>
    have value : w ≠ .null := by
      rintro rfl
      cases h
    rw [ofReply?_of_plain value code] at h
    obtain rfl := Option.some.inj h
    by_cases zero : status = 0
    · simp [zero, succeeded]
    · simp [zero, failed] at success

end CallResult

namespace HelperRun

variable {endpoint : EndpointId} {output errors : List Char} {status : Option Nat} {w : Json}
  {r : CallResult}

/-- A run of a helper that ended well and wrote a value that tells of no failure. -/
structure Brought (endpoint : EndpointId) (output : List Char) (status : Option Nat) (w : Json) :
    Prop where
  ended : status = some 0
  written : ∃ v, Json.parse (String.ofList (Text.trim output)) = .ok v ∧ v.Under endpoint w
  affirms : w.Affirms

theorem statusOf_eq_zero : statusOf status = 0 ↔ status = some 0 := by
  cases status <;> simp [statusOf]

theorem reply_of_read {v : Json} (reached : isUnreachable output status = false)
    (read : Json.parse (String.ofList (Text.trim output)) = .ok v) :
    (ended output errors status).reply endpoint =
      .ok (CallResult.ofReply? (CallResult.unwrap endpoint v) (statusOf status)) := by
  have written : (Text.trim output).isEmpty = false := by
    cases h : Text.trim output with
    | nil =>
      obtain ⟨m, hm⟩ := Json.parse_empty
      rw [h] at read
      cases hm.symm.trans read
    | cons c cs => rfl
  simp [reply, reached, written, read]

theorem read_of_reply {r : CallResult}
    (h : (ended output errors status).reply endpoint = .ok (some r)) :
    ∃ v, Json.parse (String.ofList (Text.trim output)) = .ok v ∧
      CallResult.ofReply? (CallResult.unwrap endpoint v) (statusOf status) = some r := by
  simp only [reply] at h
  split at h
  · cases h
  · split at h
    · cases h
    · split at h
      · cases h
      · next v read => exact ⟨v, read, Except.ok.inj h⟩

theorem reply_succeeds {P : Json → Prop} :
    (∃ r, (ended output errors status).reply endpoint = .ok (some r) ∧ r.Succeeds ∧ P r.payload) ↔
      ∃ w, Brought endpoint output status w ∧ w ≠ .null ∧ P w.returned := by
  constructor
  · rintro ⟨r, h, succeeds, hp⟩
    obtain ⟨v, read, hr⟩ := read_of_reply h
    obtain ⟨zero, value, affirms⟩ := CallResult.ofReply?_succeeds.mp ⟨r, hr, succeeds⟩
    refine ⟨_, ⟨statusOf_eq_zero.mp zero, ⟨v, read, CallResult.unwrap_eq_iff.mp rfl⟩, affirms⟩,
      value, ?_⟩
    rwa [← CallResult.payload_ofReply? hr]
  · rintro ⟨w, ⟨rfl, ⟨v, read, under⟩, affirms⟩, value, hp⟩
    obtain ⟨r, hr, succeeds⟩ :=
      CallResult.ofReply?_succeeds.mpr ⟨statusOf_eq_zero.mpr rfl, value, affirms⟩
    refine ⟨r, ?_, succeeds, ?_⟩
    · rw [reply_of_read rfl read, CallResult.unwrap_eq_iff.mpr under, hr]
    · rwa [CallResult.payload_ofReply? hr]

theorem pingReply_eq_true : (ended output errors status).pingReply endpoint = .ok (some true) ↔
    ∃ r, (ended output errors status).reply endpoint = .ok (some r) ∧ r.Succeeds ∧
      r.payload = .bool true := by
  unfold pingReply
  cases h : (ended output errors status).reply endpoint with
  | error e => simp [Except.map]
  | ok o =>
    cases o with
    | none => simp [Except.map]
    | some r =>
      obtain ⟨v, -, hr⟩ := read_of_reply h
      have success : r.success = true ↔ r.Succeeds :=
        ⟨CallResult.succeeds_of_success hr, And.left⟩
      simp only [Except.map, Except.ok.injEq, Option.bind_some, Option.map_eq_some_iff,
        Bool.and_eq_true, Option.some.injEq, exists_eq_left', success, ← Json.bool?_eq_some]
      constructor
      · rintro ⟨b, alive, rfl, succeeds⟩
        exact ⟨succeeds, alive⟩
      · rintro ⟨succeeds, alive⟩
        exact ⟨true, alive, rfl, succeeds⟩

/-- What a run of a helper means that started and ended in time: the call is completed if the
helper ended well and wrote a value that tells of no failure and of no state that failed. Otherwise
it brought no result, or one that fails the record. An endpoint is alive if its answer to a ping is
`true` and tells of no failure. -/
theorem run_meaning (endpoint : EndpointId) (p : Procedure) (output errors : List Char)
    (status : Option Nat) :
    let run := ended output errors status
    let completes := ∃ w, Brought endpoint output status w ∧ w ≠ .null ∧
      (p.function = "state.apply" ∨ p.function = "state.highstate" → w.returned.StatesHold)
    ((∃ r, run.reply endpoint = .ok (some r) ∧ (Verdict.ofResult p r).status = .completed) ↔
      completes) ∧
    (¬ completes → (∃ e, run.reply endpoint = .error e) ∨ run.reply endpoint = .ok none ∨
      ∃ r, run.reply endpoint = .ok (some r) ∧ (Verdict.ofResult p r).status = .failed ∧
        (Verdict.ofResult p r).code = -1) ∧
    (run.pingReply endpoint = .ok (some true) ↔
      ∃ w, Brought endpoint output status w ∧ w.returned = .bool true) := by
  intro run completes
  have completed : (∃ r, run.reply endpoint = .ok (some r) ∧
      (Verdict.ofResult p r).status = .completed) ↔ completes := by
    simp only [Verdict.completed_iff, Verdict.failureOf_eq_none]
    exact reply_succeeds (P := fun x =>
      p.function = "state.apply" ∨ p.function = "state.highstate" → x.StatesHold)
  refine ⟨completed, fun hnot => ?_, ?_⟩
  · cases h : run.reply endpoint with
    | error e => exact .inl ⟨e, rfl⟩
    | ok o =>
      cases o with
      | none => exact .inr (.inl rfl)
      | some r =>
        refine .inr (.inr ⟨r, rfl, ?_⟩)
        rcases Verdict.ofResult_cases p r with ⟨done, -⟩ | failed
        · exact absurd (completed.mp ⟨r, h, done⟩) hnot
        · exact failed
  · rw [pingReply_eq_true, reply_succeeds (P := fun x => x = .bool true)]
    constructor
    · rintro ⟨w, brought, -, alive⟩
      exact ⟨w, brought, alive⟩
    · rintro ⟨w, brought, alive⟩
      refine ⟨w, brought, ?_, alive⟩
      rintro rfl
      cases alive

end HelperRun

end FleetDispatch
