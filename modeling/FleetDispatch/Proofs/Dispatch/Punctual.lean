import FleetDispatch.Proofs.Dispatch.Account
import FleetDispatch.Proofs.Dispatch.Budget
import FleetDispatch.Proofs.Dispatch.Follow

namespace FleetDispatch

/-- Before a time, and before what a store keeps of that time. -/
def Keeping.Early (k : Keeping) (s now : Instant) : Prop :=
  ¬ s ≤ now ∧ ¬ k.time s ≤ now

theorem Backlog.mem_of_nextDue {b b' : Backlog} {now : Instant} {o : Option PendingRecord}
    (h : b.nextDue now = (o, b')) {x : PendingRecord} (hx : x ∈ b'.items) : x ∈ b.items := by
  unfold nextDue at h
  split at h
  · cases h
    exact hx
  · split at h
    · cases h
      exact hx
    · next head rest items =>
      split at h
      · cases h
        rw [items]
        exact List.mem_cons_of_mem _ hx
      · cases h
        exact hx

namespace Cycle

variable {k : Keeping} {policy : Policy} {wall : Instant} {c c' : Cycle} {l l' : Ledger}
  {id : ActionId} {a : Action} {s : Instant}

/-- How a cycle stands to the times of the actions: it has listed them rightly, and has come to
what was due or to its own checkpoint. -/
structure Punctual (c : Cycle) (l : Ledger) : Prop where
  listed : ∀ x ∈ c.backlog.items, ∃ a, l.action? x.actionId = some a ∧
    a.scheduledAt = x.scheduledAt
  reached : ∀ id, c.stage.current = some id → c.report.checkpoint = some id ∨
    ∃ a, l.action? id = some a ∧ a.scheduledAt ≤ c.now
  taken : ∀ id, c.report.checkpoint = some id → (l.action? id).isSome

namespace Punctual

theorem start (e : EndpointId) (now : Instant) (l : Ledger) : (Cycle.start e now).Punctual l where
  listed := by simp [Cycle.start]
  reached id h := by cases h
  taken id h := by cases h

theorem lift (punctual : c.Punctual l)
    (kept : ∀ {id a}, l.action? id = some a → l'.action? id = some a) : c.Punctual l' where
  listed x hx := by
    obtain ⟨a, action, time⟩ := punctual.listed x hx
    exact ⟨a, kept action, time⟩
  reached id current := (punctual.reached id current).imp_right fun ⟨a, action, due⟩ =>
    ⟨a, kept action, due⟩
  taken id taken := by
    obtain ⟨a, action⟩ := Option.isSome_iff_exists.mp (punctual.taken id taken)
    rw [kept action]
    rfl

theorem advance
    (listed : ∀ x ∈ c.backlog.items, ∃ a, l.action? x.actionId = some a ∧
      a.scheduledAt = x.scheduledAt)
    (taken : ∀ id, c.report.checkpoint = some id → (l.action? id).isSome) :
    c.advance.Punctual l := by
  unfold Cycle.advance
  split
  · exact ⟨listed, fun id current => by simp at current, taken⟩
  · split
    · next p backlog hnext =>
      refine ⟨fun x hx => listed x (Backlog.mem_of_nextDue hnext hx), fun id current => .inr ?_,
        taken⟩
      obtain rfl := Option.some.inj current
      obtain ⟨items, due, -⟩ := Backlog.nextDue_some hnext
      obtain ⟨a, action, time⟩ := listed p (by simp [items])
      exact ⟨a, action, time ▸ due⟩
    · next backlog hnext =>
      refine ⟨fun x hx => listed x (Backlog.mem_of_nextDue hnext hx), fun id current => ?_, taken⟩
      cases current

end Punctual

theorem Pace.punctual (pace : Pace k policy wall c l c' l') (hl : l.WellFormed)
    (punctual : c.Punctual l) : c'.Punctual l' := by
  have lifted := punctual.lift (pace.action_kept hl)
  cases pace.visit with
  | loaded stage found =>
    refine .advance (fun x hx => ?_) lifted.taken
    obtain ⟨r, a, -, -, action, time⟩ := Ledger.awaits_of_mem hl found hx
    exact ⟨a, action, time⟩
  | @spent i r a n stage found queued action tries =>
    refine ⟨lifted.listed, fun id current => lifted.reached id ?_, lifted.taken⟩
    rw [stage, ← Ledger.id_of_action? action]
    exact current
  | replied stage result =>
    refine ⟨lifted.listed, fun id current => lifted.reached id ?_, lifted.taken⟩
    rw [stage]
    exact current
  | settled => exact .advance lifted.listed lifted.taken
  | checkpointed stage action =>
    refine ⟨lifted.listed, fun id current => .inl current, fun id taken => ?_⟩
    obtain rfl := Option.some.inj taken
    rw [Ledger.action?_putEndpoint, Ledger.action?_issue, if_pos rfl]
    rfl
  | rested rests =>
    refine ⟨fun x hx => lifted.listed x (rests.backlog ▸ hx), fun id current => ?_,
      fun id taken => lifted.taken id (rests.checkpoint ▸ taken)⟩
    rw [rests.after] at current
    cases current

theorem Pace.checkpoint_cases (pace : Pace k policy wall c l c' l')
    (taken : c'.report.checkpoint = some id) :
    c.report.checkpoint = some id ∨ id = l.lastId + 1 := by
  cases pace.visit with
  | loaded =>
    rw [checkpoint_advance] at taken
    exact .inl taken
  | spent | replied => exact .inl taken
  | settled => exact .inl (checkpoint_settle.symm.trans taken)
  | checkpointed stage action =>
    obtain rfl := Option.some.inj taken
    rw [action]
    exact .inr rfl
  | rested rests => exact .inl (rests.checkpoint ▸ taken)

theorem Pace.time_of_new (pace : Pace k policy wall c l c' l') (new : l.action? id = none)
    (created : l'.action? id = some a) : a.scheduledAt = k.time c.now := by
  have same {l'' : Ledger} (actions : l''.actions = l.actions) (h : l''.action? id = some a) :
      a.scheduledAt = k.time c.now := by
    rw [Ledger.action?, actions] at h
    cases new.symm.trans h
  cases pace.visit with
  | loaded | replied | spent => exact same rfl created
  | settled current others actions => exact same actions created
  | rested rests => exact same rests.actions created
  | checkpointed stage action =>
    rw [Ledger.action?_putEndpoint, Ledger.action?_issue] at created
    split at created
    · obtain rfl := Option.some.inj created
      rw [action]
      rfl
    · exact same rfl created

/-- A cycle that runs too early for an action does not come to it, unless it is its checkpoint. -/
theorem Punctual.apart (punctual : c.Punctual l) (own : c.report.checkpoint = some id → s = c.now)
    (action : l.action? id = some a) (time : a.scheduledAt = k.time s) (early : k.Early s c.now) :
    c.stage.current ≠ some id := by
  intro current
  rcases punctual.reached id current with taken | ⟨b, hb, due⟩
  · exact early.1 (own taken ▸ Instant.le_refl _)
  · obtain rfl := Option.some.inj (action.symm.trans hb)
    exact early.2 (time ▸ due)

theorem calls_of_apart (apart : c.stage.current ≠ some id) (e : EndpointId) :
    c.calls id e = false := by
  unfold calls
  split
  · next a left stage =>
    have ne : a.id ≠ id := fun h => apart (by rw [stage, ← h]; rfl)
    simp [ne]
  · rfl

section run

variable {σ χ : Type} [ActionRows σ] [Legible σ] {channel : Channel χ} {clock : Nat → Instant}
  {now : Instant} {store store' : Store σ} {memory memory' : χ} {e : EndpointId} {n : Nat}
  {r : Run σ χ} {report : Report} {record : Record}

theorem driveAt_apart (hs : Legible.Sound store.rows)
    (action : (Legible.ledger store.rows).action? id = some a)
    (time : a.scheduledAt = (Legible.keeping σ).time s) (early : (Legible.keeping σ).Early s now)
    (e : EndpointId)
    (drive : driveAt policy channel n clock ⟨start e now, store, memory⟩ = (.ok (), r)) :
    r.cycle.calls id e = false ∧
      (Legible.ledger r.store.rows).record? id e = (Legible.ledger store.rows).record? id e := by
  obtain ⟨-, apart, -, -, -, -, same⟩ := driveAt_keeps
    (P := fun c l => c.stage.current ≠ some id ∧ c.Punctual l ∧ c.report.checkpoint ≠ some id ∧
      c.now = now ∧ l.action? id = some a ∧
      l.record? id e = (Legible.ledger store.rows).record? id e)
    (fun {wall c l c' l'} hl ⟨apart, punctual, own, hnow, action, same⟩ pace => by
      have old := hl.le_lastId action
      -- the action was there before, so the cycle cannot take it for its checkpoint
      have own' : c'.report.checkpoint ≠ some id := fun taken => by
        rcases pace.checkpoint_cases taken with taken | new
        · exact own taken
        · lia
      have hnow' : c'.now = now := pace.unmoved.2.trans hnow
      have action' := pace.action_kept hl action
      have punctual' := pace.punctual hl punctual
      refine ⟨?_, punctual', own', hnow', action', (pace.visit.others old (.inl apart)).trans same⟩
      exact punctual'.apart (fun taken => absurd taken own') action' time (hnow'.symm ▸ early))
    hs ⟨fun h => (by cases h), .start e now _, fun h => (by cases h), rfl, action, rfl⟩ drive
  exact ⟨calls_of_apart apart e, same⟩

theorem runAt_deferred (hs : Legible.Sound store.rows)
    (action : (Legible.ledger store.rows).action? id = some a)
    (time : a.scheduledAt = (Legible.keeping σ).time s) (early : (Legible.keeping σ).Early s now)
    (found : (Legible.ledger store.rows).record? id e = some record)
    (queued : record.status = .queued)
    (ran : runAt policy channel clock e now store memory = (.ok report, store', memory')) :
    ∃ due later, (Legible.ledger store.rows).Agenda e now due later ∧ id ∈ later ∧
      report.deferred = later.length := by
  obtain ⟨c, pending, -, loaded, -, closed, rfl, rfl, rfl, -, round, -⟩ := runAt_closed hs ran
  obtain ⟨due, later, agenda, -, deferred⟩ :=
    round.closed closed rfl (Legible.wellFormed hs) loaded
  refine ⟨due, later, agenda, (agenda.mem_later id).mpr ⟨_, ?_, early.2⟩, deferred⟩
  exact ⟨record, a, found, queued, action, time⟩

end run

end Cycle

namespace Scene

variable {k : Keeping} {s s' : Scene} {called : Option (ActionId × EndpointId)} {c : Cycle}

theorem Happens.cycle_cases (happens : s.Happens k called s') (run : c ∈ s'.cycles) :
    c ∈ s.cycles ∨ (∃ e now, c = Cycle.start e now) ∨
      ∃ c₀ ∈ s.cycles, ∃ policy wall, Cycle.Pace k policy wall c₀ s.ledger c s'.ledger := by
  cases happens with
  | nothing | created => exact .inl run
  | started e now =>
    rcases List.mem_append.mp run with run | run
    · exact .inl run
    · exact .inr (.inl ⟨e, now, List.mem_singleton.mp run⟩)
  | @turned i c₀ c' l' policy wall here turn =>
    rcases List.mem_or_eq_of_mem_set run with run | rfl
    · exact .inl run
    · exact .inr (.inr ⟨c₀, List.mem_of_getElem? here, policy, wall, .turned turn⟩)
  | @answered i c₀ a left here stage reply =>
    rcases List.mem_or_eq_of_mem_set run with run | rfl
    · exact .inl run
    · exact .inr (.inr ⟨c₀, List.mem_of_getElem? here, ⟨.standard, 0⟩, ⟨0, 0⟩,
        .answered stage reply⟩)
  | @pinged i c₀ here stage reply =>
    rcases List.mem_or_eq_of_mem_set run with run | rfl
    · exact .inl run
    · exact .inr (.inr ⟨c₀, List.mem_of_getElem? here, ⟨.standard, 0⟩, ⟨0, 0⟩, .pinged stage reply⟩)
  | broken | dropped => exact .inl (List.mem_of_mem_eraseIdx run)

theorem Happens.punctual (happens : s.Happens k called s') (hs : s.ledger.WellFormed)
    (punctual : ∀ c ∈ s.cycles, c.Punctual s.ledger) : ∀ c ∈ s'.cycles, c.Punctual s'.ledger := by
  intro c run
  rcases happens.cycle_cases run with run | ⟨e, now, rfl⟩ | ⟨c₀, run, policy, wall, pace⟩
  · exact (punctual c run).lift (happens.action hs)
  · exact .start e now _
  · exact pace.punctual hs (punctual c₀ run)

end Scene

/-- The time for which an action is asked that is created in a move. A cycle asks for its checkpoint
at its own time. -/
def Move.asks {σ : Type} (w : World σ) : Move → Option Instant
  | .create _ request => some request.scheduledAt
  | .transact i _ _ => (w.cycles[i]?).map Cycle.now
  | _ => none

namespace World

variable {σ : Type} [ActionRows σ] [Legible σ] {w : World σ} {id : ActionId} {a : Action}
  {s : Instant} {c : Cycle} {m : Move} {i : Nat}

def Punctual (w : World σ) : Prop :=
  ∀ c ∈ w.cycles, c.Punctual w.ledger

/-- An action that was asked for a time: it is scheduled for what the store keeps of the time, and
is the checkpoint of no cycle of another time. -/
structure Asked (id : ActionId) (s : Instant) (w : World σ) : Prop where
  scheduled : ∃ a, w.ledger.action? id = some a ∧ a.scheduledAt = (Legible.keeping σ).time s
  own : ∀ c ∈ w.cycles, c.report.checkpoint = some id → s = c.now

theorem punctual_step (hs : w.Sound) (h : w.Punctual) (m : Move) : (w.step m).Punctual := by
  obtain ⟨-, called, happens, -, -⟩ := shows_act hs m
  exact happens.punctual (wellFormed hs) h

theorem Asked.step (hs : w.Sound) (h : w.Asked id s) (m : Move) : (w.step m).Asked id s := by
  obtain ⟨-, called, happens, -, -⟩ := shows_act hs m
  obtain ⟨a, action, time⟩ := h.scheduled
  refine ⟨⟨a, happens.action (wellFormed hs) action, time⟩, fun c run taken => ?_⟩
  rcases happens.cycle_cases run with run | ⟨e, now, rfl⟩ | ⟨c₀, run, policy, wall, pace⟩
  · exact h.own c run taken
  · cases taken
  · rw [pace.unmoved.2]
    rcases pace.checkpoint_cases taken with taken | new
    · exact h.own c₀ run taken
    · have known := (wellFormed hs).le_lastId action
      lia

theorem meet_cases (hs : w.Sound) (v : Event) : (∃ m, v = .move m) ∨
    ((w.meet v).cycles = w.cycles ∧ ∀ id, (w.meet v).ledger.action? id = w.ledger.action? id) := by
  cases v with
  | move m => exact .inl ⟨m, rfl⟩
  | checkIn e time =>
    refine .inr ⟨rfl, fun id => ?_⟩
    cases ran : w.store.checkIn e time with
    | mk answer store =>
      simp only [meet, ran, ledger]
      cases answer with
      | ok u => rw [(Store.checkIn_ok hs ran).2]; rfl
      | error err => rw [Store.transact_error ran]
  | flag e up =>
    refine .inr ⟨rfl, fun id => ?_⟩
    cases ran : w.store.setFlag e up with
    | mk answer store =>
      simp only [meet, ran, ledger]
      cases answer with
      | ok u => rw [(Store.setFlag_ok hs ran).2]; rfl
      | error err => rw [Store.transact_error ran]

theorem punctual_meet (hs : w.Sound) (h : w.Punctual) (v : Event) : (w.meet v).Punctual := by
  rcases meet_cases hs v with ⟨m, rfl⟩ | ⟨cycles, actions⟩
  · exact punctual_step hs h m
  · intro c run
    exact (h c (cycles ▸ run)).lift fun {id a} action => (actions id).trans action

theorem Asked.meet (hs : w.Sound) (h : w.Asked id s) (v : Event) : (w.meet v).Asked id s := by
  rcases meet_cases hs v with ⟨m, rfl⟩ | ⟨cycles, actions⟩
  · exact h.step hs m
  · obtain ⟨a, action, time⟩ := h.scheduled
    exact ⟨⟨a, (actions id).trans action, time⟩, fun c run => h.own c (cycles ▸ run)⟩

theorem punctual_through (events : List Event) :
    (through events : World σ).Sound ∧ (through events : World σ).Punctual :=
  foldl_meet (P := fun w => w.Sound ∧ w.Punctual)
    (fun _ v h => ⟨sound_meet h.1 v, punctual_meet h.1 h.2 v⟩) events
    ⟨sound_initial, fun c run => by cases run⟩

theorem Asked.foldl (hs : w.Sound) (h : w.Asked id s) (events : List Event) :
    (events.foldl World.meet w).Asked id s :=
  (foldl_meet (P := fun w => w.Sound ∧ w.Asked id s)
    (fun _ v h => ⟨sound_meet h.1 v, h.2.meet h.1 v⟩) events ⟨hs, h⟩).2

theorem asked_of_new (hs : w.Sound) (punctual : w.Punctual) (new : w.ledger.action? id = none)
    (created : (w.step m).ledger.action? id = some a) :
    ∃ s, m.asks w = some s ∧ (w.step m).Asked id s := by
  have unmade (h : (w.step m).ledger = w.ledger) : False := by
    rw [h, new] at created
    cases created
  have settle {s : Instant} (time : a.scheduledAt = (Legible.keeping σ).time s)
      (cycles : ∀ c ∈ (w.step m).cycles, c ∈ w.cycles ∨ s = c.now) : (w.step m).Asked id s := by
    refine ⟨⟨a, created, time⟩, fun c run taken => (cycles c run).elim (fun run => ?_) fun h => h⟩
    have known := (punctual c run).taken id taken
    rw [new] at known
    cases known
  -- two moves create actions: one is asked to, and a transaction of a cycle takes a checkpoint
  cases m with
  | create wall n =>
    refine ⟨_, rfl, settle ?_ fun c run => .inl run⟩
    change (w.create wall n).ledger.action? id = _ at created
    cases hc : w.store.createAction wall n with
    | mk answer store =>
      rw [World.create, hc, ledger] at created
      cases answer with
      | ok b =>
        obtain ⟨-, -, -, hl⟩ := Store.createAction_ok hs hc
        rw [hl, Ledger.action?_issue] at created
        split at created
        · obtain rfl := Option.some.inj created
          rfl
        · cases new.symm.trans created
      | error err =>
        rw [Store.createAction_error hc] at created
        cases new.symm.trans created
  | transact i policy wall =>
    rcases transact_signal hs i policy wall with ⟨same, -, -⟩ | ⟨c, c', here, cycles, turn, -⟩
    · exact (unmade same).elim
    · refine ⟨c.now, by rw [Move.asks, here]; rfl, ?_⟩
      have pace := Cycle.Pace.turned turn
      refine settle (pace.time_of_new new created) fun x run => ?_
      change x ∈ (w.transact i policy wall).cycles at run
      rw [cycles] at run
      rcases List.mem_or_eq_of_mem_set run with run | rfl
      · exact .inl run
      · exact .inr pace.unmoved.2.symm
  | start e now => exact (unmade rfl).elim
  | abandon i => exact (unmade rfl).elim
  | disturb plan poisoned => exact (unmade rfl).elim
  | call i reply => exact (unmade (congrArg (Legible.ledger ·.rows) (store_call i reply w))).elim
  | ping i reply => exact (unmade (congrArg (Legible.ledger ·.rows) (store_ping i reply w))).elim

theorem made_of_apart (hs : w.Sound) (here : w.cycles[i]? = some c)
    (apart : c.stage.current ≠ some id) (action : w.ledger.action? id = some a)
    (mine : m.target = some i) (e : EndpointId) :
    (w.step m).made id e = w.made id e ∧
      (w.step m).ledger.record? id e = w.ledger.record? id e := by
  have old := (wellFormed hs).le_lastId action
  cases m with
  | create | start | disturb => cases mine
  | abandon j => exact ⟨rfl, rfl⟩
  | ping j reply =>
    obtain rfl := Option.some.inj mine
    refine ⟨?_, congrArg (fun s => (Legible.ledger s.rows).record? id e) (store_ping j reply w)⟩
    change (w.ping j reply).calls.count (id, e) = w.calls.count (id, e)
    rw [ping, here]
    simp only
    split <;> rfl
  | call j reply =>
    obtain rfl := Option.some.inj mine
    refine ⟨?_, congrArg (fun s => (Legible.ledger s.rows).record? id e) (store_call j reply w)⟩
    change (w.call j reply).calls.count (id, e) = w.calls.count (id, e)
    rw [call, here]
    simp only
    split
    · next a left stage =>
      have ne : (a.id, c.endpoint) ≠ (id, e) := fun h =>
        apart (by rw [stage, ← (Prod.mk.inj h).1]; rfl)
      exact List.count_cons_of_ne ne
    · rfl
  -- a transaction makes no call, and of the records it changes only the one that its cycle is at
  | transact j policy wall =>
    obtain rfl := Option.some.inj mine
    constructor
    · change (w.transact j policy wall).calls.count (id, e) = w.calls.count (id, e)
      rw [transact, here]
      simp only
      split
      · rfl
      · split <;> rfl
    · change (w.transact j policy wall).ledger.record? id e = w.ledger.record? id e
      rcases transact_signal hs j policy wall with ⟨same, -, -⟩ | ⟨c₀, c', here₀, -, turn, -⟩
      · rw [same]
      · obtain rfl := Option.some.inj (here.symm.trans here₀)
        exact turn.visit.others old (.inl apart)

/-- No action is dispatched early. An action that is new after a move was asked for a time. Whatever
happens afterwards, a cycle on its way whose time is before that one, and before what the store
keeps of it, makes no step that is a call for the action or changes a record of it; and a cycle that
begins then comes to no such call, leaves the record, and counts it as deferred if it is queued. -/
theorem never_early (χ : Type) (events : List Event) (m : Move) {id : ActionId} {a : Action}
    (new : (through events : World σ).ledger.action? id = none)
    (created : ((through events : World σ).step m).ledger.action? id = some a) :
    ∃ s, m.asks (through events : World σ) = some s ∧ ∀ later : List Event,
      let w : World σ := through (events ++ .move m :: later)
      (∀ {i c m'}, w.cycles[i]? = some c → (Legible.keeping σ).Early s c.now →
        m'.target = some i → ∀ e, (w.step m').made id e = w.made id e ∧
          (w.step m').ledger.record? id e = w.ledger.record? id e) ∧
      ∀ (policy : Policy) (channel : Cycle.Channel χ) (clock : Nat → Instant) (e : EndpointId)
        (now : Instant) (memory : χ), (Legible.keeping σ).Early s now →
        (∀ n r, Cycle.driveAt policy channel n clock ⟨Cycle.start e now, w.store, memory⟩ =
          (.ok (), r) → r.cycle.calls id e = false) ∧
        ∀ answer s' memory',
          Cycle.runAt policy channel clock e now w.store memory = (answer, s', memory') →
          (Legible.ledger s'.rows).record? id e = w.ledger.record? id e ∧
          ∀ report r, answer = .ok report → w.ledger.record? id e = some r →
            r.status = .queued → ∃ due later, w.ledger.Agenda e now due later ∧ id ∈ later ∧
              report.deferred = later.length := by
  obtain ⟨sound, punctual⟩ := punctual_through (σ := σ) events
  obtain ⟨s, asks, asked⟩ := asked_of_new sound punctual new created
  refine ⟨s, asks, fun later => ?_⟩
  intro w
  obtain ⟨hs, timely⟩ : w.Sound ∧ w.Punctual := punctual_through _
  have requested : w.Asked id s := by
    have h := Asked.foldl (sound_step sound m) asked later
    have same : w = later.foldl meet ((through events : World σ).step m) := by
      simp only [w, through, List.foldl_append, List.foldl_cons]
      rfl
    rwa [same]
  obtain ⟨b, action, time⟩ := requested.scheduled
  -- a cycle on its way has the invariant; one that begins has it from its first step on
  refine ⟨fun {i c m'} here early mine e => ?_, fun policy channel clock e now memory early => ?_⟩
  · have run := List.mem_of_getElem? here
    have apart := (timely c run).apart (requested.own c run) action time early
    exact made_of_apart hs here apart action mine e
  · refine ⟨fun n r drive => (Cycle.driveAt_apart hs action time early e drive).1, ?_⟩
    intro answer s' memory' ran
    obtain ⟨n, r, drive, rows⟩ := Cycle.runAt_reaches hs ran
    refine ⟨rows ▸ (Cycle.driveAt_apart hs action time early e drive).2, ?_⟩
    rintro report r rfl found queued
    exact Cycle.runAt_deferred hs action time early found queued ran

def soon : Move :=
  .create ⟨0, 0⟩ ⟨"ping", ⟨0, 1500000⟩, none, ⟨"test.ping", [], []⟩, ["m1"], 2⟩

theorem soon_deferred : ∃ (report : Report) (s' : Store Tables) (due later : List ActionId),
    Cycle.runAt ⟨.standard, 5⟩ unreachable (fun _ => ⟨3, 0⟩) "m1" ⟨0, 900000⟩
      (through [.move soon] : World Tables).store () = (.ok report, s', ()) ∧
    (Legible.ledger s'.rows).record? 1 "m1" = some (.fresh 1 "m1" 2) ∧
    (through [.move soon] : World Tables).ledger.Agenda "m1" ⟨0, 900000⟩ due later ∧
    1 ∈ later ∧ report.deferred = later.length := by
  have goes : (match (Cycle.runAt ⟨.standard, 5⟩ unreachable (fun _ => ⟨3, 0⟩) "m1" ⟨0, 900000⟩
      (through [.move soon] : World Tables).store ()).1 with
      | .ok _ => true
      | .error _ => false) = true := by decide +kernel
  have found : (through [.move soon] : World Tables).ledger.record? 1 "m1" =
      some (.fresh 1 "m1" 2) := by decide +kernel
  have early : (Legible.keeping Tables).Early ⟨0, 1500000⟩ ⟨0, 900000⟩ := by
    constructor <;> decide +kernel
  have known : ((through [.move soon] : World Tables).ledger.action? 1).isSome := by decide +kernel
  obtain ⟨a, created⟩ := Option.isSome_iff_exists.mp known
  obtain ⟨s, asks, punctual⟩ := never_early Unit [] soon (by decide +kernel) created
  obtain rfl := Option.some.inj asks
  cases ran : Cycle.runAt ⟨.standard, 5⟩ unreachable (fun _ => ⟨3, 0⟩) "m1" ⟨0, 900000⟩
      (through [.move soon] : World Tables).store () with
  | mk answer rest =>
    rw [ran] at goes
    cases answer with
    | error err => cases goes
    | ok report =>
      obtain ⟨same, deferred⟩ := ((punctual []).2 ⟨.standard, 5⟩ unreachable (fun _ => ⟨3, 0⟩) "m1"
        ⟨0, 900000⟩ () early).2 _ _ _ ran
      obtain ⟨due, later, agenda, listed, counted⟩ := deferred report _ rfl found rfl
      exact ⟨report, rest.1, due, later, rfl, same.trans found, agenda, listed, counted⟩

/-- An action for less than a millisecond after the start, of which the tables keep nothing. -/
def hurried : List Event :=
  [.move (.create ⟨0, 0⟩ ⟨"ping", ⟨0, 900⟩, none, ⟨"test.ping", [], []⟩, ["m1"], 2⟩)]

theorem hurried_called_early :
    let w : World Tables := through (hurried ++ [.move (.start "m1" ⟨0, 100⟩),
      .move (.transact 0 ⟨.standard, 5⟩ ⟨0, 100⟩), .move (.transact 0 ⟨.standard, 5⟩ ⟨0, 100⟩)])
    ¬ (⟨0, 900⟩ : Instant) ≤ ⟨0, 100⟩ ∧ w.cycles.map Cycle.now = [⟨0, 100⟩] ∧
      w.made 1 "m1" = 0 ∧ (w.step (.call 0 (some (.ok none)))).made 1 "m1" = 1 ∧
      (match (Cycle.runAt ⟨.standard, 5⟩ unreachable (fun _ => ⟨3, 0⟩) "m1" ⟨0, 100⟩
        (through hurried : World Tables).store ()).1 with
        | .ok report => some (report.remoteCalls, report.deferred)
        | .error _ => none) = some (1, 0) := by
  decide +kernel

end World

end FleetDispatch
