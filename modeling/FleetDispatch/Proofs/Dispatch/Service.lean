import FleetDispatch.Proofs.Dispatch.Events
import FleetDispatch.Proofs.Store.Serving
import FleetDispatch.Proofs.Transition

namespace FleetDispatch

namespace Cycle

section work

variable {σ : Type} [ActionRows σ] {X : EndpointId → Prop} {c : Cycle} {wall : Instant}

open Work (Serves)

theorem serves_load : Serves X (c.load : Work σ (Ending × Cycle)) :=
  .pending _ fun _ => .pure _

theorem serves_giveUp {r : Record} (here : X r.endpoint) (code : Int) (message : String)
    (o : Outcome) : Serves X (c.giveUp r code message wall o : Work σ (Ending × Cycle)) := by
  unfold giveUp
  split
  · exact .pure _
  · next r' hfail => exact .save (Record.endpoint_of_finish hfail ▸ here) (.pure _)

theorem serves_spend {r : Record} (here : X r.endpoint) (a : Action) :
    Serves X (c.spend r a wall : Work σ (Ending × Cycle)) := by
  unfold spend
  split
  · exact serves_giveUp here _ _ _
  · split
    · exact .pure _
    · next r' hconsume => exact .save (Record.endpoint_of_consume hconsume ▸ here) (.pure _)

theorem serves_prepare (here : X c.endpoint) (id : ActionId) :
    Serves X (c.prepare id wall : Work σ (Ending × Cycle)) := by
  refine .loadRecord id here fun found hfound => ?_
  cases found with
  | none => exact .throw _
  | some r =>
    have hr := hfound r rfl
    simp only
    split
    · exact .pure _
    · refine .loadAction id fun a => ?_
      split
      · exact serves_spend hr a
      · refine .loadRecord _ here fun prior _ => ?_
        split
        · exact serves_giveUp hr _ _ _
        · exact .pure _
        · exact serves_spend hr a

theorem serves_recordResult (here : X c.endpoint) (policy : Policy) (a : Action) (left : Nat)
    (result : CallResult) :
    Serves X (c.recordResult policy a left result wall : Work σ (Ending × Cycle)) := by
  refine .loadRecord a.id here fun found hfound => ?_
  cases found with
  | none => exact .throw _
  | some r =>
    simp only
    split
    · exact .pure _
    · next r' hfinish =>
      refine .save (Record.endpoint_of_finish hfinish ▸ hfound r rfl) ?_
      split
      · exact .loadEndpoint here fun x hx => .saveEndpoint hx (.recordCheckin wall here (.pure _))
      · exact .recordCheckin wall here (.pure _)

theorem serves_refresh (here : X c.endpoint) (policy : Policy) :
    Serves X (c.refresh policy wall : Work σ (Ending × Cycle)) := by
  refine .loadEndpoint here fun x hx => ?_
  split
  · refine .insertAction wall (fun e he => ?_) fun a => .saveEndpoint hx (.pure _)
    exact List.mem_singleton.mp he ▸ here
  · exact .pure _

theorem serves_checkIn (here : X c.endpoint) :
    Serves X (c.checkIn wall : Work σ (Ending × Cycle)) :=
  .recordCheckin wall here (.pure _)

theorem serves_work? {policy : Policy} {work : Work σ (Ending × Cycle)} (here : X c.endpoint)
    (h : c.work? policy wall = some work) : work.Serves X := by
  unfold work? at h
  split at h
  · obtain rfl := Option.some.inj h
    exact serves_load
  · next id _ =>
    obtain rfl := Option.some.inj h
    exact serves_prepare here id
  · next a left result _ =>
    obtain rfl := Option.some.inj h
    exact serves_recordResult here policy a left result
  · obtain rfl := Option.some.inj h
    exact serves_refresh here policy
  · obtain rfl := Option.some.inj h
    exact serves_checkIn here
  · cases h

end work

end Cycle

def Move.Within {σ : Type} (X : EndpointId → Prop) (w : World σ) : Move → Prop
  | .create _ request => ∀ e ∈ request.endpoints, X e
  | .transact i _ _ => ∀ c, w.cycles[i]? = some c → X c.endpoint
  | _ => True

namespace World

variable {σ : Type} [ActionRows σ] [Legible σ] {X : EndpointId → Prop} {P : σ → Prop} {w : World σ}

/-- What withstands writing about some endpoints is kept by a move that writes about these. -/
theorem step_keeps (hP : Withstands X P) (hs : w.Sound) (hrows : P w.store.rows) {m : Move}
    (hm : m.Within X w) : P (w.step m).store.rows := by
  cases m with
  | create wall n => exact Store.createAction_keeps hm hP hs hrows
  | transact i policy wall =>
    change P (w.transact i policy wall).store.rows
    unfold transact
    split
    · exact hrows
    · next c hc =>
      split
      · exact hrows
      · next work hw =>
        have hkept := Store.transact_keeps (Cycle.serves_work? (hm c hc) hw) hP hs hrows
        split
        · next ht => rwa [ht] at hkept
        · next ht => rwa [ht] at hkept
  | call i reply =>
    change P (w.call i reply).store.rows
    unfold call
    split
    · exact hrows
    · split <;> exact hrows
  | ping i reply =>
    change P (w.ping i reply).store.rows
    unfold ping
    split
    · exact hrows
    · split <;> exact hrows
  | start | abandon | disturb => exact hrows

theorem meet_keeps (hP : Withstands (fun _ => True) P) (hs : w.Sound) (hrows : P w.store.rows)
    (v : Event) : P (w.meet v).store.rows := by
  cases v with
  | move m =>
    refine step_keeps hP hs hrows ?_
    cases m <;> simp [Move.Within]
  | checkIn e time =>
    exact Store.transact_keeps (.recordCheckin time trivial (.pure _)) hP hs hrows
  | flag e up =>
    refine Store.transact_keeps (.loadEndpoint trivial fun x _ => ?_) hP hs hrows
    exact .saveEndpoint trivial (.pure _)

theorem foldl_meet_keeps (hP : Withstands (fun _ => True) P) (hs : w.Sound)
    (hrows : P w.store.rows) (events : List Event) : P (events.foldl meet w).store.rows := by
  induction events generalizing w with
  | nil => exact hrows
  | cons v events ih => exact ih (sound_meet hs v) (meet_keeps hP hs hrows v)

end World

end FleetDispatch
