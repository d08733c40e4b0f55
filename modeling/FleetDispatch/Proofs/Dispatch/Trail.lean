import FleetDispatch.Proofs.Dispatch.Drain

namespace FleetDispatch

def Stage.current : Stage → Option ActionId
  | preparing id => some id
  | calling a _ => some a.id
  | recording a _ _ => some a.id
  | _ => none

def Report.ids (r : Report) : List ActionId :=
  r.outcomes.map Outcome.actionId

@[simp] theorem Report.ids_add (o : Outcome) (r : Report) :
    (r.add o).ids = r.ids ++ [o.actionId] :=
  List.map_append

namespace Ledger

variable {l : Ledger} {e : EndpointId} {pending : List PendingRecord}

theorem perm_pending (h : l.pending e = .ok pending) :
    (Backlog.ofPending pending).ids.Perm ((l.queued e).map Record.actionId) := by
  obtain ⟨found, hm, h₁⟩ := of_bind_eq_ok h
  obtain rfl := Except.ok.inj h₁
  have hids : found.map PendingRecord.actionId = (l.queued e).map Record.actionId := by
    refine map_of_mapM (fun r _ p hp => ?_) hm
    obtain ⟨a, -, rfl⟩ := pendingOf_ok hp
    rfl
  rw [← hids]
  exact ((List.mergeSort_perm _ _).trans (List.mergeSort_perm _ _)).map _

theorem nodup_pending (hl : l.WellFormed) (h : l.pending e = .ok pending) :
    (Backlog.ofPending pending).ids.Nodup := by
  have hqueued : Rows.Ascending (l.queued e) := List.Pairwise.filter _ hl.records_ascending
  refine (perm_pending h).nodup_iff.mpr (List.pairwise_map.mpr ?_)
  refine hqueued.imp_of_mem fun {r s} hr hs hbefore => ?_
  have hsame : r.endpoint = s.endpoint :=
    (endpoint_of_record? ((mem_queued hl).mp hr).1).trans
      (endpoint_of_record? ((mem_queued hl).mp hs).1).symm
  rcases before_record.mp hbefore with hlt | ⟨-, hlt⟩
  · exact Int.ne_of_lt hlt
  · have hlt : r.endpoint < s.endpoint := hlt
    rw [hsame] at hlt
    exact absurd hlt (String.lt_irrefl _)

theorem le_lastId_pending (hl : l.WellFormed) (h : l.pending e = .ok pending) :
    ∀ id ∈ (Backlog.ofPending pending).ids, id ≤ l.lastId := by
  intro id hid
  obtain ⟨r, hr, rfl⟩ := List.mem_map.mp ((perm_pending h).mem_iff.mp hid)
  exact hl.le_lastId_of_record ((mem_queued hl).mp hr).1

theorem queued_pending (hl : l.WellFormed) (h : l.pending e = .ok pending) {id : ActionId}
    {r : Record} (hid : id ∈ (Backlog.ofPending pending).ids) (found : l.record? id e = some r) :
    r.status = .queued := by
  obtain ⟨q, hq, rfl⟩ := List.mem_map.mp ((perm_pending h).mem_iff.mp hid)
  obtain ⟨hrecord, queued⟩ := (mem_queued hl).mp hq
  rwa [Option.some.inj (found.symm.trans hrecord)]

end Ledger

namespace Cycle

def visited (c : Cycle) : List ActionId :=
  c.report.ids ++ c.stage.current.toList

/-- The record of an action as a cycle comes to it: as it was when the cycle began, or new if it
is the one of the checkpoint. -/
def origin (policy : Policy) (l₀ : Ledger) (c : Cycle) (id : ActionId) : Option Record :=
  if c.report.checkpoint = some id then some (.fresh id c.endpoint policy.checkpointRetries)
  else l₀.record? id c.endpoint

variable {k : Keeping} {policy : Policy} {wall : Instant} {c c' : Cycle} {l l' l₀ : Ledger}
  {o : Outcome} {id : ActionId}

@[simp] theorem current_conclude : c.conclude.stage.current = none := by
  unfold conclude
  by_cases h : c.report.visitedAny <;> simp [h, Stage.current]

theorem conclude_stage_refreshing : c.conclude.stage ≠ .refreshing := by
  unfold conclude
  by_cases h : c.report.visitedAny <;> simp [h]

@[simp] theorem ids_advance : c.advance.report.ids = c.report.ids := by
  unfold advance
  split
  · rfl
  · split <;> rfl

@[simp] theorem checkpoint_advance : c.advance.report.checkpoint = c.report.checkpoint := by
  unfold advance
  split
  · rfl
  · split <;> rfl

@[simp] theorem ids_settle : (c.settle o).report.ids = c.report.ids ++ [o.actionId] :=
  ids_advance.trans (Report.ids_add o c.report)

@[simp] theorem checkpoint_settle : (c.settle o).report.checkpoint = c.report.checkpoint :=
  checkpoint_advance

theorem checkpoint_of_refreshing (h : c.advance.stage = .refreshing) :
    c.report.checkpoint = none := by
  unfold advance at h
  split at h
  · exact absurd h conclude_stage_refreshing
  · next hnone => simpa using hnone

/-- A step between records leaves all that the cycle has come to as it is. -/
structure Rests (c : Cycle) (l : Ledger) (c' : Cycle) (l' : Ledger) : Prop where
  before : c.stage.current = none
  after : c'.stage.current = none
  stage : c'.stage ≠ .refreshing
  endpoint : c'.endpoint = c.endpoint
  backlog : c'.backlog = c.backlog
  ids : c'.report.ids = c.report.ids
  checkpoint : c'.report.checkpoint = c.report.checkpoint
  deferred : c'.report.deferred = c.report.deferred
  records : l'.records = l.records
  actions : l'.actions = l.actions
  last : l'.lastId = l.lastId

/-- One step of a cycle as it bears on the records that the cycle comes to. -/
inductive Visit (k : Keeping) (policy : Policy) (wall : Instant) (c : Cycle) (l : Ledger) :
    Cycle → Ledger → Prop
  | loaded {pending} (stage : c.stage = .loading) (found : l.pending c.endpoint = .ok pending) :
    Visit k policy wall c l { c with backlog := .ofPending pending }.advance l
  | spent {id r a n} (stage : c.stage = .preparing id)
    (found : l.record? id c.endpoint = some r) (queued : r.status = .queued)
    (action : l.action? id = some a) (tries : r.remainingTries = n + 1) :
    Visit k policy wall c l (c.call a n) (l.putRecord { r with remainingTries := n })
  | replied {a left} (stage : c.stage = .calling a left) (result : CallResult) :
    Visit k policy wall c l { c with stage := .recording a left result } l
  | settled {o : Outcome} {l' : Ledger} (current : c.stage.current = some o.actionId)
    (others : ∀ id e, (o.actionId, c.endpoint) ≠ (id, e) → l'.record? id e = l.record? id e)
    (actions : l'.actions = l.actions) (last : l'.lastId = l.lastId) :
    Visit k policy wall c l (c.settle o) l'
  | checkpointed {a} (stage : c.stage = .refreshing)
    (action : a = l.checkpoint k c.endpoint c.now wall policy.checkpointRetries) :
    Visit k policy wall c l
      { c with stage := .preparing a.id, report := { c.report with checkpoint := some a.id } }
      ((l.issue a [c.endpoint] policy.checkpointRetries).putEndpoint
        (l.endpoint c.endpoint).clearRefresh)
  | rested {c' : Cycle} {l' : Ledger} (rests : c.Rests l c' l') : Visit k policy wall c l c' l'

theorem others_putRecord {r : Record} (r' : Record) (found : l.record? id c.endpoint = some r)
    (hid : r'.actionId = r.actionId) (he : r'.endpoint = r.endpoint) (i : ActionId)
    (e : EndpointId) (hne : (id, c.endpoint) ≠ (i, e)) :
    (l.putRecord r').record? i e = l.record? i e := by
  rw [Ledger.record?_putRecord, hid, he, Ledger.actionId_of_record? found,
    Ledger.endpoint_of_record? found, if_neg hne]

theorem own_putRecord {r r' : Record} (found : l.record? id c.endpoint = some r)
    (hid : r'.actionId = r.actionId) (he : r'.endpoint = r.endpoint) :
    (l.putRecord r').record? id c.endpoint = some r' := by
  rw [Ledger.record?_putRecord, hid, he, Ledger.actionId_of_record? found,
    Ledger.endpoint_of_record? found, if_pos rfl]

theorem actionId_outcomeOf (v : Verdict) (id : ActionId) (left : Nat) :
    (outcomeOf v id left).actionId = id := by
  unfold outcomeOf
  split <;> rfl

theorem Turn.visit (turn : Turn k policy wall c l c' l') : Visit k policy wall c l c' l' := by
  cases turn with
  | loaded stage found => exact .loaded stage found
  | skipped stage | held stage =>
    exact .settled (by rw [stage]; rfl) (fun _ _ _ => rfl) rfl rfl
  | barred stage found | exhausted stage found =>
    exact .settled (by rw [stage]; rfl) (others_putRecord _ found rfl rfl) rfl rfl
  | spent stage found queued action unblocked tries => exact .spent stage found queued action tries
  | refused stage => exact .settled (by rw [stage]; rfl) (fun _ _ _ => rfl) rfl rfl
  | @recorded a left result r verdict stage found queued meaning =>
    refine .settled (by rw [stage, actionId_outcomeOf]; rfl) (fun id e hne => ?_) ?_ ?_
    · rw [record?_withResult]
      rw [actionId_outcomeOf] at hne
      exact others_putRecord (r.finished _ _ _ _) found rfl rfl id e hne
    all_goals cases isStale policy a.procedure result <;> rfl
  | unflagged stage clear =>
    exact .rested ⟨by rw [stage]; rfl, current_conclude, conclude_stage_refreshing, rfl, rfl, rfl,
      rfl, rfl, rfl, rfl, rfl⟩
  | checkpointed stage flagged action => exact .checkpointed stage action
  | checkedIn stage =>
    exact .rested ⟨by rw [stage]; rfl, rfl, Stage.noConfusion, rfl, rfl, rfl, rfl, rfl, rfl, rfl,
      rfl⟩

theorem Pace.visit (pace : Pace k policy wall c l c' l') : Visit k policy wall c l c' l' := by
  cases pace with
  | turned turn => exact turn.visit
  | answered stage reply =>
    rcases invoked_cases stage reply with ⟨o, hid, hnext⟩ | ⟨result, hnext⟩
    · rw [hnext]
      exact .settled (by rw [stage, hid]; rfl) (fun _ _ _ => rfl) rfl rfl
    · rw [hnext]
      exact .replied stage result
  | pinged stage reply =>
    have hsame : (c.pinged reply).stage.current = none ∧
        (c.pinged reply).stage ≠ .refreshing ∧ (c.pinged reply).backlog = c.backlog ∧
        (c.pinged reply).report.ids = c.report.ids ∧
        (c.pinged reply).report.deferred = c.report.deferred := by
      unfold Cycle.pinged
      split <;> exact ⟨rfl, Stage.noConfusion, rfl, rfl, rfl⟩
    obtain ⟨hcurrent, hstage, hbacklog, hids, hdeferred⟩ := hsame
    exact .rested ⟨by rw [stage]; rfl, hcurrent, hstage, pinged_unmoved.1, hbacklog, hids,
      checkpoint_pinged, hdeferred, rfl, rfl, rfl⟩
  | rested stage =>
    exact .rested ⟨by rw [stage]; rfl, by rw [stage]; rfl, by rw [stage]; exact Stage.noConfusion,
      rfl, rfl, rfl, rfl, rfl, rfl, rfl, rfl⟩

theorem Visit.others (visit : Visit k policy wall c l c' l') {e : EndpointId} (old : id ≤ l.lastId)
    (apart : c.stage.current ≠ some id ∨ e ≠ c.endpoint) : l'.record? id e = l.record? id e := by
  have away {i : ActionId} (current : c.stage.current = some i) : (i, c.endpoint) ≠ (id, e) := by
    intro same
    obtain ⟨rfl, rfl⟩ := Prod.mk.inj same
    exact apart.elim (fun h => h current) fun h => h rfl
  cases visit with
  | loaded | replied => rfl
  | @spent i r a n stage found =>
    exact others_putRecord { r with remainingTries := n } found rfl rfl id e
      (away (by rw [stage]; rfl))
  | settled current others => exact others id e (away current)
  | checkpointed stage action =>
    rw [Ledger.record?_putEndpoint, Ledger.record?_issue, if_neg]
    rintro ⟨same, -⟩
    rw [action] at same
    have new : (l.checkpoint k c.endpoint c.now wall policy.checkpointRetries).id =
      l.lastId + 1 := rfl
    lia
  | rested rests => rw [Ledger.record?, rests.records]; rfl

/-- How far a loaded cycle that is alone with its store has come on a backlog with these actions,
and what it has left as it was on the ledger that it began with. -/
structure Trail (policy : Policy) (ids : List ActionId) (l₀ : Ledger) (c : Cycle) (l : Ledger) :
    Prop where
  loaded : c.stage ≠ .loading
  route : ∃ walked, c.visited = walked ++ c.report.checkpoint.toList ∧
    walked ++ c.backlog.ids = ids
  open_ : c.stage = .refreshing → c.report.checkpoint = none
  taken : ∀ {id}, c.report.checkpoint = some id → id = l₀.lastId + 1
  untaken : c.report.checkpoint = none → l.actions = l₀.actions ∧ l.lastId = l₀.lastId
  elsewhere : ∀ id e, e ≠ c.endpoint → l.record? id e = l₀.record? id e
  kept : ∀ id, id ∉ c.report.ids → (∀ a, c.task? = some a → a.id ≠ id) →
    l.record? id c.endpoint = c.origin policy l₀ id
  spent : ∀ {a left}, (c.stage = .calling a left ∨ ∃ result, c.stage = .recording a left result) →
    ∃ r, c.origin policy l₀ a.id = some r ∧ r.status = .queued ∧ r.remainingTries = left + 1 ∧
      l.record? a.id c.endpoint = some { r with remainingTries := left }

variable {ids : List ActionId}

theorem origin_congr (hcheckpoint : c'.report.checkpoint = c.report.checkpoint)
    (hendpoint : c'.endpoint = c.endpoint) (id : ActionId) :
    c'.origin policy l₀ id = c.origin policy l₀ id := by
  rw [origin, origin, hcheckpoint, hendpoint]

theorem task?_of_current (h : c.stage.current = none) : c.task? = none := by
  unfold task?
  cases hstage : c.stage <;> simp [hstage, Stage.current] at h ⊢

theorem current_of_task {a : Action} (h : c.task? = some a) : c.stage.current = some a.id := by
  unfold task? at h
  cases hstage : c.stage <;> simp [hstage] at h <;> simp [Stage.current, h]

theorem route_advance (h : ∃ walked, c.report.ids = walked ++ c.report.checkpoint.toList ∧
    walked ++ c.backlog.ids = ids) :
    ∃ walked, c.advance.visited = walked ++ c.advance.report.checkpoint.toList ∧
      walked ++ c.advance.backlog.ids = ids := by
  obtain ⟨walked, hids, hrest⟩ := h
  rw [visited, ids_advance, checkpoint_advance]
  -- a record that is taken from the backlog moves from what is to come to what was visited
  unfold advance
  split
  · refine ⟨walked, ?_, hrest⟩
    rw [current_conclude, Option.toList_none, List.append_nil, hids]
  · next hnone =>
    have hopen : c.report.checkpoint = none := by simpa using hnone
    rw [hopen, Option.toList_none, List.append_nil] at hids
    rw [hopen, Option.toList_none]
    split
    · next p backlog hnext =>
      refine ⟨walked ++ [p.actionId], ?_, ?_⟩
      · simp [Stage.current, hids]
      · rw [← hrest, Backlog.ids_of_nextDue hnext, List.append_assoc]
        rfl
    · next backlog hnext =>
      refine ⟨walked, ?_, ?_⟩
      · simp [Stage.current, hids]
      · rw [← hrest, Backlog.ids_of_not_due hnext]

namespace Trail

theorem nodup_visited (trail : Trail policy ids l₀ c l) (distinct : ids.Nodup)
    (old : ∀ id ∈ ids, id ≤ l₀.lastId) : c.visited.Nodup := by
  obtain ⟨walked, hvisited, rfl⟩ := trail.route
  rw [hvisited]
  cases hcheckpoint : c.report.checkpoint with
  | none => simpa using distinct.sublist (List.sublist_append_left _ _)
  | some id =>
    have hid := trail.taken hcheckpoint
    refine List.nodup_append.mpr ⟨distinct.sublist (List.sublist_append_left _ _), by simp, ?_⟩
    intro x hx y hy
    have hle := old x (List.mem_append_left _ hx)
    rw [Option.toList_some, List.mem_singleton] at hy
    lia

theorem current_fresh (trail : Trail policy ids l₀ c l) (distinct : ids.Nodup)
    (old : ∀ id ∈ ids, id ≤ l₀.lastId) (current : c.stage.current = some id) :
    id ∉ c.report.ids := by
  have hnodup := trail.nodup_visited distinct old
  rw [visited, current, Option.toList_some] at hnodup
  intro hid
  exact (List.nodup_append.mp hnodup).2.2 id hid id (List.mem_singleton_self id) rfl

theorem at_preparing (trail : Trail policy ids l₀ c l) (distinct : ids.Nodup)
    (old : ∀ id ∈ ids, id ≤ l₀.lastId) (stage : c.stage = .preparing id) :
    l.record? id c.endpoint = c.origin policy l₀ id :=
  trail.kept id (trail.current_fresh distinct old (by rw [stage]; rfl)) fun a ha => by
    simp [task?, stage] at ha

theorem unvisited (trail : Trail policy ids l₀ c l) (hid : id ∉ c.visited) :
    l.record? id c.endpoint = l₀.record? id c.endpoint := by
  have hapart : id ∉ c.report.ids ∧ id ∉ c.stage.current.toList := by
    rwa [visited, List.mem_append, not_or] at hid
  have hkept := trail.kept id hapart.1 fun a ha haid =>
    hapart.2 (by simp [current_of_task ha, haid])
  rw [hkept, origin, if_neg]
  intro hcheckpoint
  obtain ⟨walked, hvisited, -⟩ := trail.route
  exact hid (by simp [hvisited, hcheckpoint])

theorem settled (trail : Trail policy ids l₀ c l) (current : c.stage.current = some o.actionId)
    (others : ∀ id e, (o.actionId, c.endpoint) ≠ (id, e) → l'.record? id e = l.record? id e)
    (actions : l'.actions = l.actions) (last : l'.lastId = l.lastId) :
    Trail policy ids l₀ (c.settle o) l' where
  loaded := settle_stage_ne o
  route := by
    refine route_advance (c := { c with report := c.report.add o }) ?_
    obtain ⟨walked, hvisited, hrest⟩ := trail.route
    rw [visited, current, Option.toList_some] at hvisited
    exact ⟨walked, (Report.ids_add o c.report).trans hvisited, hrest⟩
  open_ h := checkpoint_settle.trans
    (checkpoint_of_refreshing (c := { c with report := c.report.add o }) h)
  taken h := trail.taken (checkpoint_settle.symm.trans h)
  untaken h := by
    obtain ⟨hactions, hlast⟩ := trail.untaken (checkpoint_settle.symm.trans h)
    exact ⟨actions.trans hactions, last.trans hlast⟩
  elsewhere id e he := by
    rw [endpoint_settle] at he
    have hne : (o.actionId, c.endpoint) ≠ (id, e) := fun h => he (Prod.mk.inj h).2.symm
    rw [others id e hne, trail.elsewhere id e he]
  -- a record that the cycle has not settled is not this one, so it was not written here
  kept id hid _ := by
    rw [ids_settle, List.mem_append, List.mem_singleton, not_or] at hid
    have hne : (o.actionId, c.endpoint) ≠ (id, c.endpoint) := fun h => hid.2 (Prod.mk.inj h).1.symm
    rw [endpoint_settle, others id _ hne, origin_congr checkpoint_settle endpoint_settle]
    refine trail.kept id hid.1 fun a ha haid => hid.2 ?_
    rw [← haid]
    exact Option.some.inj ((current_of_task ha).symm.trans current)
  spent h := by
    have htask : (c.settle o).task? = none := task?_settle
    rcases h with h | ⟨result, h⟩ <;> simp [task?, h] at htask

theorem call {r : Record} {a : Action} {n : Nat} (trail : Trail policy ids l₀ c l)
    (distinct : ids.Nodup) (old : ∀ id ∈ ids, id ≤ l₀.lastId) (stage : c.stage = .preparing id)
    (found : l.record? id c.endpoint = some r) (queued : r.status = .queued)
    (action : l.action? id = some a) (tries : r.remainingTries = n + 1) :
    Trail policy ids l₀ (c.call a n) (l.putRecord { r with remainingTries := n }) where
  loaded := Stage.noConfusion
  route := by
    have hsame : (c.call a n).visited = c.visited := by
      simp [visited, Cycle.call, Stage.current, Report.ids, stage, Ledger.id_of_action? action]
    obtain ⟨walked, hvisited, hrest⟩ := trail.route
    exact ⟨walked, hsame.trans hvisited, hrest⟩
  open_ h := Stage.noConfusion h
  taken h := trail.taken h
  untaken h := trail.untaken h
  elsewhere i e he := by
    have hput := others_putRecord { r with remainingTries := n } found rfl rfl i e
      fun h => he (Prod.mk.inj h).2.symm
    exact hput.trans (trail.elsewhere i e he)
  kept i hi htask := by
    have hid : id ≠ i := fun h => htask a rfl ((Ledger.id_of_action? action).trans h)
    have hput := others_putRecord { r with remainingTries := n } found rfl rfl i c.endpoint
      fun h => hid (Prod.mk.inj h).1
    refine hput.trans (trail.kept i hi fun b hb => ?_)
    simp [task?, stage] at hb
  spent {b left} h := by
    obtain ⟨rfl, rfl⟩ : a = b ∧ n = left := by
      rcases h with h | ⟨result, h⟩
      · exact Stage.calling.inj h
      · cases h
    obtain rfl := Ledger.id_of_action? action
    refine ⟨r, ?_, queued, tries, ?_⟩
    · exact (trail.at_preparing distinct old stage).symm.trans found
    · exact own_putRecord found rfl rfl

theorem replied {a : Action} {left : Nat} (trail : Trail policy ids l₀ c l)
    (stage : c.stage = .calling a left) (result : CallResult) :
    Trail policy ids l₀ { c with stage := .recording a left result } l where
  loaded := Stage.noConfusion
  route := by
    obtain ⟨walked, hvisited, hrest⟩ := trail.route
    rw [visited, stage] at hvisited
    exact ⟨walked, hvisited, hrest⟩
  open_ h := Stage.noConfusion h
  taken h := trail.taken h
  untaken h := trail.untaken h
  elsewhere := trail.elsewhere
  kept i hi htask := trail.kept i hi fun b hb => htask b (by simpa [task?, stage] using hb)
  spent {b left'} h := by
    obtain ⟨rfl, rfl⟩ : a = b ∧ left = left' := by
      rcases h with h | ⟨result, h⟩
      · cases h
      · obtain ⟨ha, hleft, -⟩ := Stage.recording.inj h
        exact ⟨ha, hleft⟩
    exact trail.spent (.inl stage)

theorem checkpointed {a : Action} (trail : Trail policy ids l₀ c l)
    (stage : c.stage = .refreshing)
    (action : a = l.checkpoint k c.endpoint c.now wall policy.checkpointRetries) :
    Trail policy ids l₀
      { c with stage := .preparing a.id, report := { c.report with checkpoint := some a.id } }
      ((l.issue a [c.endpoint] policy.checkpointRetries).putEndpoint
        (l.endpoint c.endpoint).clearRefresh) where
  loaded := Stage.noConfusion
  route := by
    obtain ⟨walked, hvisited, hrest⟩ := trail.route
    rw [visited, trail.open_ stage, stage] at hvisited
    refine ⟨walked, ?_, hrest⟩
    simpa [visited, Stage.current, Report.ids] using hvisited
  open_ h := Stage.noConfusion h
  taken h := by
    obtain rfl := Option.some.inj h
    rw [← (trail.untaken (trail.open_ stage)).2, action]
    rfl
  untaken h := absurd h (Option.some_ne_none _)
  elsewhere i e he := by
    rw [Ledger.record?_putEndpoint, Ledger.record?_issue,
      if_neg fun h => he (List.mem_singleton.mp h.2)]
    exact trail.elsewhere i e he
  kept i hi _ := by
    rw [Ledger.record?_putEndpoint, Ledger.record?_issue, origin]
    by_cases h : a.id = i
    · subst h
      simp
    · have hkept := trail.kept i hi fun b hb => by simp [task?, stage] at hb
      rw [origin, trail.open_ stage, if_neg (Option.some_ne_none _).symm] at hkept
      simpa [h] using hkept
  spent h := by
    rcases h with h | ⟨result, h⟩ <;> cases h

theorem rested (trail : Trail policy ids l₀ c l) (rests : c.Rests l c' l')
    (loaded : c'.stage ≠ .loading) : Trail policy ids l₀ c' l' where
  loaded := loaded
  route := by
    have hsame : c'.visited = c.visited := by
      rw [visited, visited, rests.ids, rests.after, rests.before]
    obtain ⟨walked, hvisited, hrest⟩ := trail.route
    exact ⟨walked, by rw [hsame, hvisited, rests.checkpoint], by rw [rests.backlog, hrest]⟩
  open_ h := absurd h rests.stage
  taken h := trail.taken (rests.checkpoint ▸ h)
  untaken h := by
    obtain ⟨hactions, hlast⟩ := trail.untaken (rests.checkpoint ▸ h)
    exact ⟨rests.actions.trans hactions, rests.last.trans hlast⟩
  elsewhere i e he := by
    rw [Ledger.record?, rests.records]
    exact trail.elsewhere i e (rests.endpoint ▸ he)
  kept i hi _ := by
    rw [origin_congr rests.checkpoint rests.endpoint, Ledger.record?, rests.records,
      rests.endpoint]
    refine trail.kept i (rests.ids ▸ hi) fun a ha => ?_
    rw [task?_of_current rests.before] at ha
    cases ha
  spent h := by
    have hafter := rests.after
    rcases h with h | ⟨result, h⟩ <;> simp [h, Stage.current] at hafter

theorem next (trail : Trail policy ids l₀ c l) (distinct : ids.Nodup)
    (old : ∀ id ∈ ids, id ≤ l₀.lastId) (pace : Pace k policy wall c l c' l') :
    Trail policy ids l₀ c' l' := by
  have hloaded := (pace.togo_lt trail.loaded).2
  cases pace.visit with
  | loaded stage => exact absurd stage trail.loaded
  | spent stage found queued action tries =>
    exact trail.call distinct old stage found queued action tries
  | replied stage result => exact trail.replied stage result
  | settled current others actions last => exact trail.settled current others actions last
  | checkpointed stage action => exact trail.checkpointed stage action
  | rested rests => exact trail.rested rests hloaded

end Trail

theorem trail_loaded {e : EndpointId} {now : Instant} {pending : List PendingRecord} :
    Trail policy (Backlog.ofPending pending).ids l
      { start e now with backlog := .ofPending pending }.advance l where
  loaded := advance_stage_ne
  route := route_advance ⟨[], rfl, rfl⟩
  open_ h := checkpoint_advance.trans (checkpoint_of_refreshing h)
  taken h := absurd (checkpoint_advance.symm.trans h).symm (Option.some_ne_none _)
  untaken _ := ⟨rfl, rfl⟩
  elsewhere _ _ _ := rfl
  kept id _ _ := by
    rw [origin_congr checkpoint_advance endpoint_advance, origin, endpoint_advance]
    exact (if_neg (Option.some_ne_none id).symm).symm
  spent {a left} h := by
    have htask : ({ start e now with backlog := .ofPending pending }.advance).task? = none :=
      task?_advance
    rcases h with h | ⟨result, h⟩ <;> simp [task?, h] at htask

end Cycle

end FleetDispatch
