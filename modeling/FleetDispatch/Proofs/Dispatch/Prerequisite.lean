import FleetDispatch.Proofs.Dispatch.Budget
import FleetDispatch.Proofs.Verdict

namespace FleetDispatch

/-- How the record of an action stands to the record of its prerequisite: it is not begun before
that one is completed, and given up without a try only if that one failed. -/
structure Record.Follows (r : Record) (budget : Nat) (prior : Record) : Prop where
  begun : r.status = .completed ∨
    (r.status = .failed ∧ r.resultCode ≠ some ResultCode.prerequisiteFailed) ∨
    r.remainingTries < budget → prior.status = .completed
  barred : r.status = .failed → r.resultCode = some ResultCode.prerequisiteFailed →
    prior.status = .failed ∧ budget ≤ r.remainingTries

namespace Record.Follows

variable {budget : Nat} {prior r : Record}

theorem of_completed (completed : prior.status = .completed)
    (h : r.status = .failed → r.resultCode ≠ some ResultCode.prerequisiteFailed) :
    r.Follows budget prior :=
  ⟨fun _ => completed, fun hf hc => absurd hc (h hf)⟩

theorem of_fresh (id : ActionId) (e : EndpointId) (tries : Nat) (prior : Record) :
    (Record.fresh id e tries).Follows tries prior := by
  refine ⟨fun h => ?_, fun hf => ?_⟩
  · rcases h with h | ⟨h, -⟩ | h
    · cases h
    · cases h
    · exact absurd h (Nat.lt_irrefl _)
  · cases hf

theorem budget_le_of_failed (h : r.Follows budget prior) (failed : prior.status = .failed) :
    budget ≤ r.remainingTries := by
  refine Nat.not_lt.mp fun hlt => ?_
  have hc := h.begun (.inr (.inr hlt))
  rw [failed] at hc
  cases hc

end Record.Follows

namespace Scene

variable {k : Keeping} {s : Scene} {id p : ActionId} {e : EndpointId} {next : Bool}
  {o : Option Record} {r r' prior : Record} {a : Action} {budget : Nat}

theorem Stride.follows (stride : Stride k s id e next o) (ho : o = some r')
    (hs : s.ledger.WellFormed) (found : s.ledger.record? id e = some r)
    (action : s.ledger.action? id = some a) (prerequisite : a.prerequisite = some p)
    (first : s.ledger.record? p e = some prior) (follows : r.Follows budget prior)
    (task : ∀ {c b}, c ∈ s.cycles → c.task? = some b → b.id = id → c.endpoint = e →
      r.remainingTries < budget) : r'.Follows budget prior := by
  have hunblocked {b : Action} (hb : s.ledger.action? id = some b)
      (unblocked : s.ledger.Unblocked b e) : prior.status = .completed := by
    obtain rfl := Option.some.inj (action.symm.trans hb)
    exact unblocked p prior prerequisite first
  -- only a turn that finds the prerequisite failed can end the record for it, and this one fixes
  -- its code; every other turn that changes the record finds the prerequisite completed
  cases stride with
  | same silent =>
    obtain rfl := Option.some.inj (found.symm.trans ho)
    exact follows
  | fresh tries new silent =>
    rw [hs.record?_eq_none (by lia)] at found
    cases found
  | spent hfound queued haction unblocked tries =>
    obtain rfl := Option.some.inj ho
    refine .of_completed (hunblocked haction unblocked) fun hf => ?_
    rw [queued] at hf
    cases hf
  | @barred q b p' prior' time hfound queued haction hp hfirst failed silent =>
    obtain rfl := Option.some.inj ho
    obtain rfl := Option.some.inj (hfound.symm.trans found)
    obtain rfl := Option.some.inj (action.symm.trans haction)
    obtain rfl := Option.some.inj (prerequisite.symm.trans hp)
    obtain rfl := Option.some.inj (first.symm.trans hfirst)
    have hle := follows.budget_le_of_failed failed
    refine ⟨fun h => ?_, fun _ _ => ⟨failed, hle⟩⟩
    rcases h with h | ⟨-, h⟩ | h
    · cases h
    · exact absurd rfl h
    · exact absurd h (Nat.not_lt.mpr hle)
  | exhausted time hfound queued haction unblocked tries silent =>
    obtain rfl := Option.some.inj ho
    refine .of_completed (hunblocked haction unblocked) fun _ hc => ?_
    exact absurd (Option.some.inj hc) (by decide)
  | recorded time hfound queued run htask this here result silent =>
    obtain rfl := Option.some.inj ho
    have hlt := task run htask this here
    refine .of_completed (follows.begun (.inr (.inr hlt))) fun _ hc => ?_
    exact Verdict.code_ne_prerequisiteFailed _ result (Option.some.inj hc)

end Scene

namespace World

variable {σ : Type} [ActionRows σ] [Legible σ] {w : World σ} {id p : ActionId} {e : EndpointId}
  {a : Action} {r prior : Record}

def InOrder (w : World σ) : Prop :=
  ∀ {id e a p r prior}, w.ledger.action? id = some a → a.prerequisite = some p →
    w.ledger.record? id e = some r → w.ledger.record? p e = some prior →
    r.Follows (w.budget id e) prior

theorem inOrder_initial : (initial : World σ).InOrder := by
  intro id e a p r prior action
  simp [initial, ledger, Store.empty, Store.ofRows, Legible.ledger_empty, Ledger.empty,
    Ledger.action?] at action

theorem prior_before {called : Option (ActionId × EndpointId)} {w' : World σ} (hs : w.Sound)
    (happens : w.scene.Happens (Legible.keeping σ) called w'.scene)
    (action : w.ledger.action? id = some a) (prerequisite : a.prerequisite = some p)
    (first : w'.ledger.record? p e = some prior) : ∃ q, w.ledger.record? p e = some q := by
  have hwf := wellFormed hs
  have hlt := (hwf.prerequisite_lt action prerequisite).2
  have hid := hwf.le_lastId action
  obtain ⟨next, stride, -⟩ := happens.stride p e
  cases hq : w.ledger.record? p e with
  | some q => exact ⟨q, rfl⟩
  | none =>
    obtain ⟨-, hnone | ⟨hnew, -⟩⟩ := stride.of_none hq
    · rw [show w'.scene.ledger.record? p e = some prior from first] at hnone
      cases hnone
    · lia

theorem inOrder_step (h : w.Accounted) (ho : w.InOrder) (m : Move) : (w.step m).InOrder := by
  intro id e a p r' prior' action prerequisite found first
  obtain ⟨-, called, happens, -, -⟩ := shows_act h.sound m
  have hwf := wellFormed h.sound
  rcases h.strode m found with ⟨-, tries, rfl, hbudget⟩ | ⟨r, next, hr, hbudget, stride, task⟩
  · -- A record that was not there before has all the tries that are noted for it.
    rw [hbudget]
    exact .of_fresh id e tries prior'
  · obtain ⟨b, hb⟩ := Option.isSome_iff_exists.mp (hwf.record_action hr)
    obtain rfl := Option.some.inj ((happens.action hwf hb).symm.trans action)
    obtain ⟨prior, hprior⟩ := prior_before h.sound happens hb prerequisite first
    have hafter := stride.follows rfl hwf hr hb prerequisite hprior
      (ho hb prerequisite hr hprior) task
    rw [hbudget]
    -- A prerequisite that is completed or failed is still so after the move.
    obtain ⟨next', stride', -⟩ := happens.stride p e
    have hsame (hterminal : prior.status ≠ .queued) : prior' = prior :=
      Option.some.inj (first.symm.trans (stride'.of_terminal hwf hprior hterminal).1)
    refine ⟨fun hbegun => ?_, fun failed code => ?_⟩
    · have hc := hafter.begun hbegun
      rw [hsame (by rw [hc]; decide)]
      exact hc
    · obtain ⟨hf, hle⟩ := hafter.barred failed code
      rw [hsame (by rw [hf]; decide)]
      exact ⟨hf, hle⟩

theorem inOrder_after (moves : List Move) :
    (after moves : World σ).Accounted ∧ (after moves : World σ).InOrder :=
  foldl_step (P := fun w => w.Accounted ∧ w.InOrder)
    (fun _ m h => ⟨h.1.step m, inOrder_step h.1 h.2 m⟩) moves ⟨accounted_initial, inOrder_initial⟩

/-- Whatever happens, an action that was called for or came to a result on an endpoint has its
prerequisite completed there, and one that was given up for its prerequisite has that failed and
was never called for. -/
theorem prerequisite_first (moves : List Move)
    (action : (after moves : World σ).ledger.action? id = some a)
    (prerequisite : a.prerequisite = some p)
    (found : (after moves : World σ).ledger.record? id e = some r)
    (first : (after moves : World σ).ledger.record? p e = some prior) :
    ((r.status = .completed ∨
        (r.status = .failed ∧ r.resultCode ≠ some ResultCode.prerequisiteFailed) ∨
        (∃ budget, (after moves : World σ).granted id e = some budget ∧
          r.remainingTries < budget) → prior.status = .completed)) ∧
      (r.status = .failed → r.resultCode = some ResultCode.prerequisiteFailed →
        prior.status = .failed ∧
          (after moves : World σ).granted id e = some r.remainingTries ∧
          (after moves : World σ).made id e = 0) := by
  obtain ⟨h, ho⟩ := inOrder_after (σ := σ) moves
  have follows := ho action prerequisite found first
  obtain ⟨n, hn⟩ := h.granted_of_some found
  have hbudget : (after moves : World σ).budget id e = n := by rw [budget, hn, Option.getD_some]
  rw [hbudget] at follows
  refine ⟨fun hbegun => follows.begun ?_, fun failed code => ?_⟩
  · rcases hbegun with hc | hf | ⟨budget, hg, hlt⟩
    · exact .inl hc
    · exact .inr (.inl hf)
    · obtain rfl := Option.some.inj (hn.symm.trans hg)
      exact .inr (.inr hlt)
  · obtain ⟨hf, hle⟩ := follows.barred failed code
    have hcovered := h.covered id e
    rw [hbudget, tries_eq found] at hcovered
    refine ⟨hf, ?_, by omega⟩
    rw [hn]
    exact congrArg some (by omega)

def twoActions : List Move :=
  let policy : Policy := ⟨.standard, 5⟩
  [.create ⟨0, 0⟩ ⟨"first", ⟨0, 0⟩, none, ⟨"test.ping", [], []⟩, ["m1", "m2"], 2⟩,
    .start "m1" ⟨1, 0⟩, .transact 0 policy ⟨1, 0⟩, .transact 0 policy ⟨1, 0⟩,
    .call 0 (some (.ok (some (.failed 1 .null)))), .transact 0 policy ⟨1, 0⟩,
    .start "m2" ⟨1, 0⟩, .transact 1 policy ⟨1, 0⟩, .transact 1 policy ⟨1, 0⟩,
    .call 1 (some (.ok (some (.succeeded .null)))), .transact 1 policy ⟨1, 0⟩,
    .create ⟨1, 0⟩ ⟨"second", ⟨1, 0⟩, some 1, ⟨"test.ping", [], []⟩, ["m1", "m2"], 2⟩,
    .start "m1" ⟨2, 0⟩, .transact 2 policy ⟨2, 0⟩, .transact 2 policy ⟨2, 0⟩,
    .start "m2" ⟨2, 0⟩, .transact 3 policy ⟨2, 0⟩, .transact 3 policy ⟨2, 0⟩]

theorem twoActions_in_order :
    (∃ prior r, (after twoActions : World Ledger).ledger.record? 2 "m2" = some r ∧
        r.remainingTries = 1 ∧
        (after twoActions : World Ledger).ledger.record? 1 "m2" = some prior ∧
        prior.status = .completed) ∧
      ∃ prior r, (after twoActions : World Ledger).ledger.record? 2 "m1" = some r ∧
        r.status = .failed ∧
        (after twoActions : World Ledger).ledger.record? 1 "m1" = some prior ∧
        prior.status = .failed ∧
        (after twoActions : World Ledger).granted 2 "m1" = some r.remainingTries ∧
        (after twoActions : World Ledger).made 2 "m1" = 0 := by
  have second : ((after twoActions : World Ledger).ledger.action? 2).bind Action.prerequisite =
      some 1 := by
    decide +kernel
  obtain ⟨a, action, prerequisite⟩ := Option.bind_eq_some_iff.mp second
  have onTwo : (after twoActions : World Ledger).ledger.record? 2 "m2" =
      some ⟨2, "m2", .queued, 1, none, none, none⟩ := by
    decide +kernel
  have onTwoFirst : (after twoActions : World Ledger).ledger.record? 1 "m2" =
      some ⟨1, "m2", .completed, 1, some 0, some "test.ping succeeded", some ⟨1, 0⟩⟩ := by
    decide +kernel
  have onOne : (after twoActions : World Ledger).ledger.record? 2 "m1" =
      some ⟨2, "m1", .failed, 2, some (-100), some "Prerequisite failed.", some ⟨2, 0⟩⟩ := by
    decide +kernel
  have onOneFirst : (after twoActions : World Ledger).ledger.record? 1 "m1" =
      some ⟨1, "m1", .failed, 1, some (-1), some "test.ping failed with return code 1",
        some ⟨1, 0⟩⟩ := by
    decide +kernel
  have begun := (prerequisite_first twoActions action prerequisite onTwo onTwoFirst).1
  have barred := (prerequisite_first twoActions action prerequisite onOne onOneFirst).2
  refine ⟨⟨_, _, onTwo, rfl, onTwoFirst, begun (.inr (.inr ⟨2, by decide +kernel, by decide⟩))⟩, ?_⟩
  exact ⟨_, _, onOne, rfl, onOneFirst, barred rfl rfl⟩

end World

end FleetDispatch
