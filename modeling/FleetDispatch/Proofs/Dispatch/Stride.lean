import FleetDispatch.Proofs.Counting
import FleetDispatch.Proofs.Dispatch.World

namespace FleetDispatch

namespace Cycle

variable {c c' : Cycle} {o : Outcome} {a : Action} {left : Nat}

theorem advance_unmoved : c.advance.endpoint = c.endpoint ∧ c.advance.now = c.now := by
  unfold advance
  split
  · exact ⟨rfl, rfl⟩
  · split <;> exact ⟨rfl, rfl⟩

@[simp] theorem endpoint_advance : c.advance.endpoint = c.endpoint :=
  advance_unmoved.1

@[simp] theorem endpoint_settle : (c.settle o).endpoint = c.endpoint :=
  endpoint_advance

@[simp] theorem now_advance : c.advance.now = c.now :=
  advance_unmoved.2

@[simp] theorem now_settle : (c.settle o).now = c.now :=
  now_advance

@[simp] theorem task?_conclude : c.conclude.task? = none := by
  unfold conclude task?
  by_cases h : c.report.visitedAny <;> simp [h]

@[simp] theorem task?_advance : c.advance.task? = none := by
  unfold advance
  split
  · exact task?_conclude
  · split <;> rfl

@[simp] theorem task?_settle : (c.settle o).task? = none :=
  task?_advance

theorem calls_eq_false (h : c.task? = none) (id : ActionId) (e : EndpointId) :
    c.calls id e = false := by
  unfold calls
  split
  · next stage => simp [task?, stage] at h
  · rfl

theorem calls_settle (o : Outcome) (c : Cycle) (id : ActionId) (e : EndpointId) :
    (c.settle o).calls id e = false :=
  calls_eq_false task?_settle id e

theorem calls_of_calling (stage : c.stage = .calling a left) (id : ActionId) (e : EndpointId) :
    c.calls id e = ((a.id, c.endpoint) == (id, e)) := by
  simp only [calls, stage]
  rfl

@[simp] theorem task?_pinged {reply : PingReply} : (c.pinged reply).task? = none := by
  unfold pinged
  split <;> rfl

theorem pinged_unmoved {reply : PingReply} :
    (c.pinged reply).endpoint = c.endpoint ∧ (c.pinged reply).now = c.now := by
  unfold pinged
  split <;> exact ⟨rfl, rfl⟩

theorem checkpoint_pinged {reply : PingReply} :
    (c.pinged reply).report.checkpoint = c.report.checkpoint := by
  unfold pinged
  split <;> rfl

theorem invoked_cases (stage : c.stage = .calling a left) (reply : InvokeReply) :
    (∃ o, o.actionId = a.id ∧ c.invoked reply = c.settle o) ∨
      ∃ result, c.invoked reply = { c with stage := .recording a left result } := by
  unfold invoked
  simp only [stage]
  split
  · exact .inl ⟨_, rfl, rfl⟩
  · exact .inl ⟨_, rfl, rfl⟩
  · next result => exact .inr ⟨result, rfl⟩

theorem calls_invoked (stage : c.stage = .calling a left) (reply : InvokeReply) (id : ActionId)
    (e : EndpointId) : (c.invoked reply).calls id e = false := by
  rcases invoked_cases stage reply with ⟨o, -, hnext⟩ | ⟨result, hnext⟩
  · rw [hnext]
    exact calls_settle o c id e
  · rw [hnext]
    rfl

end Cycle

namespace Scene

def waiting (id : ActionId) (e : EndpointId) (s : Scene) : Nat :=
  s.cycles.countP (Cycle.calls id e)

/-- What a move can make of one record, and whether a call for it comes next. -/
inductive Stride (k : Keeping) (s : Scene) (id : ActionId) (e : EndpointId) (next : Bool) :
    Option Record → Prop
  | same (silent : next = false) : Stride k s id e next (s.ledger.record? id e)
  | fresh (tries : Nat) (new : id = s.ledger.lastId + 1) (silent : next = false) :
    Stride k s id e next (some (.fresh id e tries))
  | spent {r a n} (found : s.ledger.record? id e = some r) (queued : r.status = .queued)
    (action : s.ledger.action? id = some a) (unblocked : s.ledger.Unblocked a e)
    (tries : r.remainingTries = n + 1) :
    Stride k s id e next (some { r with remainingTries := n })
  | barred {r a p prior} (time : Instant) (found : s.ledger.record? id e = some r)
    (queued : r.status = .queued) (action : s.ledger.action? id = some a)
    (prerequisite : a.prerequisite = some p) (first : s.ledger.record? p e = some prior)
    (failed : prior.status = .failed) (silent : next = false) :
    Stride k s id e next (some (r.finished .failed ResultCode.prerequisiteFailed
      Cycle.prerequisiteFailedMessage (k.time time)))
  | exhausted {r a} (time : Instant) (found : s.ledger.record? id e = some r)
    (queued : r.status = .queued) (action : s.ledger.action? id = some a)
    (unblocked : s.ledger.Unblocked a e) (tries : r.remainingTries = 0) (silent : next = false) :
    Stride k s id e next (some (r.finished .failed ResultCode.retriesExhausted
      Cycle.retriesExhaustedMessage (k.time time)))
  | recorded {r c a} (time : Instant) (found : s.ledger.record? id e = some r)
    (queued : r.status = .queued) (run : c ∈ s.cycles) (task : c.task? = some a)
    (this : a.id = id) (here : c.endpoint = e) (result : CallResult) (silent : next = false) :
    Stride k s id e next (some (r.finished (Verdict.ofResult a.procedure result).status
      (Verdict.ofResult a.procedure result).code (Verdict.ofResult a.procedure result).message
      (k.time time)))

theorem Stride.was_queued {k : Keeping} {s : Scene} {id : ActionId} {e : EndpointId} {next : Bool}
    {o : Option Record} {r' : Record} (stride : Stride k s id e next o) (ho : o = some r')
    (queued : r'.status = .queued) (old : id ≠ s.ledger.lastId + 1) :
    ∃ r, s.ledger.record? id e = some r ∧ r.status = .queued := by
  cases stride with
  | same => exact ⟨r', ho, queued⟩
  | fresh tries new => exact absurd new old
  | spent found hqueued => exact ⟨_, found, hqueued⟩
  | barred time found hqueued => exact ⟨_, found, hqueued⟩
  | exhausted time found hqueued => exact ⟨_, found, hqueued⟩
  | recorded time found hqueued => exact ⟨_, found, hqueued⟩

end Scene

namespace Cycle

variable {k : Keeping} {policy : Policy} {wall : Instant} {s : Scene} {c c' : Cycle} {l' : Ledger}
  {id : ActionId} {e : EndpointId}

theorem record?_withResult {l : Ledger} {stale : Bool} {r : Record} {e' : EndpointId}
    {t : Instant} : (l.withResult stale r e' t).record? id e = (l.putRecord r).record? id e := by
  cases stale <;> rfl

theorem action?_withResult {l : Ledger} {stale : Bool} {r : Record} {e' : EndpointId}
    {t : Instant} : (l.withResult stale r e' t).action? id = l.action? id := by
  cases stale <;> rfl

theorem stride_put {r r' : Record} {i : ActionId} {next : Bool}
    (found : s.ledger.record? i c.endpoint = some r) (hid : r'.actionId = r.actionId)
    (he : r'.endpoint = r.endpoint)
    (this : i = id → c.endpoint = e → Scene.Stride k s id e next (some r'))
    (silent : ¬ (i = id ∧ c.endpoint = e) → next = false) :
    Scene.Stride k s id e next ((s.ledger.putRecord r').record? id e) := by
  rw [Ledger.record?_putRecord, hid, he, Ledger.actionId_of_record? found,
    Ledger.endpoint_of_record? found]
  split
  · next h =>
    obtain ⟨hi, hc⟩ := Prod.mk.inj h
    exact this hi hc
  · next h => exact .same (silent fun hh => h (Prod.ext hh.1 hh.2))

theorem Turn.stride (turn : Turn k policy wall c s.ledger c' l') (run : c ∈ s.cycles)
    (id : ActionId) (e : EndpointId) :
    Scene.Stride k s id e (c'.calls id e) (l'.record? id e) := by
  cases turn with
  | loaded stage found => exact .same (calls_eq_false task?_advance id e)
  | skipped | held | refused => exact .same (calls_settle _ c id e)
  | unflagged => exact .same (calls_eq_false task?_conclude id e)
  | checkedIn => exact .same (calls_eq_false rfl id e)
  | barred stage found queued action prerequisite first failed =>
    refine stride_put found rfl rfl (fun hi hc => ?_) fun _ => calls_settle _ c id e
    subst hi hc
    exact .barred wall found queued action prerequisite first failed (calls_settle _ c _ _)
  | exhausted stage found queued action unblocked tries =>
    refine stride_put found rfl rfl (fun hi hc => ?_) fun _ => calls_settle _ c id e
    subst hi hc
    exact .exhausted wall found queued action unblocked tries (calls_settle _ c _ _)
  | @spent i r a n stage found queued action unblocked tries =>
    refine stride_put found rfl rfl (fun hi hc => ?_) fun hne => ?_
    · subst hi hc
      exact .spent found queued action unblocked tries
    · have hid := Ledger.id_of_action? action
      have hcalls : (c.call a n).calls id e = ((a.id, c.endpoint) == (id, e)) :=
        calls_of_calling rfl id e
      rw [hcalls, hid, beq_eq_false_iff_ne]
      exact fun heq => hne (Prod.mk.inj heq)
  | @recorded a left result r verdict stage found queued meaning =>
    rw [record?_withResult]
    refine stride_put found rfl rfl (fun hi hc => ?_) fun _ => calls_settle _ c id e
    subst meaning
    have task : c.task? = some a := by simp [task?, stage]
    exact .recorded wall (hi ▸ hc ▸ found) queued run task hi hc result (calls_settle _ c _ _)
  | checkpointed stage flagged action =>
    subst action
    rw [Ledger.record?_putEndpoint, Ledger.record?_issue]
    split
    · next h =>
      have new : id = s.ledger.lastId + 1 := h.1.symm
      rw [h.1]
      exact .fresh _ new rfl
    · exact .same rfl

theorem Turn.silent (turn : Turn k policy wall c s.ledger c' l') (id : ActionId) (e : EndpointId) :
    c.calls id e = false := by
  cases turn <;> simp [calls, *]

theorem Turn.task {a : Action} (turn : Turn k policy wall c s.ledger c' l')
    (task : c'.task? = some a) :
    ∃ r n, c'.endpoint = c.endpoint ∧ s.ledger.record? a.id c.endpoint = some r ∧
      s.ledger.action? a.id = some a ∧ r.remainingTries = n + 1 ∧
      l'.record? a.id c.endpoint = some { r with remainingTries := n } := by
  cases turn with
  | @spent i r b n stage found queued action unblocked tries =>
    obtain rfl := Option.some.inj task
    obtain rfl := Ledger.id_of_action? action
    refine ⟨r, n, rfl, found, action, tries, ?_⟩
    rw [Ledger.record?_putRecord, if_pos]
    exact Prod.ext (Ledger.actionId_of_record? found) (Ledger.endpoint_of_record? found)
  | loaded | skipped | barred | held | exhausted | refused | recorded =>
    simp [refuse] at task
  | unflagged => simp at task
  | checkpointed | checkedIn => cases task

end Cycle

namespace Scene

variable {k : Keeping} {s s' : Scene} {called : Option (ActionId × EndpointId)}

/-- Every move is a stride of every record. A call is made by a cycle that waited to make it. -/
theorem Happens.stride (happens : s.Happens k called s') (id : ActionId) (e : EndpointId) :
    ∃ next, Stride k s id e next (s'.ledger.record? id e) ∧
      s'.waiting id e + called.toList.count (id, e) ≤ s.waiting id e + next.toNat := by
  cases happens with
  | nothing => exact ⟨false, .same rfl, Nat.le_refl _⟩
  | @created now n present =>
    refine ⟨false, ?_, Nat.le_refl _⟩
    rw [Ledger.record?_issue]
    split
    · next h =>
      have new : id = s.ledger.lastId + 1 := h.1.symm
      rw [h.1]
      exact .fresh _ new rfl
    · exact .same rfl
  | started x now =>
    refine ⟨false, .same rfl, ?_⟩
    simp [waiting, Cycle.calls, Cycle.start]
  | @turned i c c' l' policy wall here turn =>
    refine ⟨c'.calls id e, turn.stride (List.mem_of_getElem? here) id e, ?_⟩
    have hcount := countP_set_of_getElem? (p := Cycle.calls id e) here c'
    rw [turn.silent id e] at hcount
    simpa [waiting] using Nat.le_of_eq hcount
  -- the call that is made here was waited for before, and this cycle does not wait any more
  | @answered i c a left here stage reply =>
    refine ⟨false, .same rfl, ?_⟩
    have hcount := countP_set_of_getElem? (p := Cycle.calls id e) here (c.invoked reply)
    rw [Cycle.calls_invoked stage, Cycle.calls_of_calling stage] at hcount
    simp only [waiting, Option.toList_some, List.count_singleton]
    rw [← hcount]
    cases (a.id, c.endpoint) == (id, e) <;> simp
  | @broken i c a left here stage =>
    refine ⟨false, .same rfl, ?_⟩
    have hcount := countP_eraseIdx_of_getElem? (p := Cycle.calls id e) here
    rw [Cycle.calls_of_calling stage] at hcount
    simp only [waiting, Option.toList_some, List.count_singleton]
    rw [← hcount]
    cases (a.id, c.endpoint) == (id, e) <;> simp
  | @pinged i c here stage reply =>
    refine ⟨false, .same rfl, ?_⟩
    have hcount := countP_set_of_getElem? (p := Cycle.calls id e) here (c.pinged reply)
    rw [Cycle.calls_eq_false Cycle.task?_pinged] at hcount
    simp only [waiting, Option.toList_none, List.count_nil]
    omega
  | dropped i =>
    exact ⟨false, .same rfl, (List.eraseIdx_sublist s.cycles i).countP_le⟩

theorem Happens.task {c : Cycle} {a : Action} (happens : s.Happens k called s')
    (run : c ∈ s'.cycles) (task : c.task? = some a) :
    (∃ c₀ ∈ s.cycles, c₀.task? = some a ∧ c₀.endpoint = c.endpoint) ∨
      ∃ r n, s.ledger.record? a.id c.endpoint = some r ∧ s.ledger.action? a.id = some a ∧
        r.remainingTries = n + 1 ∧
        s'.ledger.record? a.id c.endpoint = some { r with remainingTries := n } := by
  cases happens with
  | nothing | created => exact .inl ⟨c, run, task, rfl⟩
  | started x now =>
    rcases List.mem_append.mp run with run | run
    · exact .inl ⟨c, run, task, rfl⟩
    · obtain rfl := List.mem_singleton.mp run
      cases task
  | @turned i c₀ c' l' policy wall here turn =>
    rcases List.mem_or_eq_of_mem_set run with run | rfl
    · exact .inl ⟨c, run, task, rfl⟩
    · obtain ⟨r, n, he, found, action, tries, put⟩ := turn.task task
      rw [he]
      exact .inr ⟨r, n, found, action, tries, put⟩
  | @answered i c₀ b left here stage reply =>
    rcases List.mem_or_eq_of_mem_set run with run | rfl
    · exact .inl ⟨c, run, task, rfl⟩
    · refine .inl ⟨c₀, List.mem_of_getElem? here, ?_⟩
      rcases Cycle.invoked_cases stage reply with ⟨o, -, hnext⟩ | ⟨result, hnext⟩
      · rw [hnext, Cycle.task?_settle] at task
        cases task
      · rw [hnext] at task ⊢
        exact ⟨by simpa [Cycle.task?, stage] using task, rfl⟩
  | @pinged i c₀ here stage reply =>
    rcases List.mem_or_eq_of_mem_set run with run | rfl
    · exact .inl ⟨c, run, task, rfl⟩
    · simp at task
  | broken | dropped => exact .inl ⟨c, List.mem_of_mem_eraseIdx run, task, rfl⟩

theorem Happens.action {id : ActionId} {a : Action} (happens : s.Happens k called s')
    (hs : s.ledger.WellFormed) (action : s.ledger.action? id = some a) :
    s'.ledger.action? id = some a := by
  have hid := hs.le_lastId action
  have hissue {b : Action} {es : List EndpointId} {tries : Nat} (hb : b.id = s.ledger.lastId + 1) :
      (s.ledger.issue b es tries).action? id = some a := by
    rw [Ledger.action?_issue, if_neg (by lia), action]
  cases happens with
  | created => exact hissue rfl
  | turned here turn =>
    cases turn with
    | checkpointed stage flagged haction => exact hissue (by rw [haction]; rfl)
    | recorded => exact Cycle.action?_withResult.trans action
    | _ => exact action
  | _ => exact action

end Scene

end FleetDispatch
