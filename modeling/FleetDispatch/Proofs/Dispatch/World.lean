import FleetDispatch.Proofs.Dispatch.Turn

namespace FleetDispatch

/-- A store with the cycles that are on their way over it, any number of them on one endpoint. Of
what happened it is noted which calls were made, the latest first, and how many tries each record
had when it was first there. -/
structure World (σ : Type) where
  store : Store σ
  cycles : List Cycle
  calls : List (ActionId × EndpointId)
  granted : ActionId → EndpointId → Option Nat

/-- What can happen next: an action is created, a cycle is started, one of the cycles makes its
next transaction or call or is given up, or the store is made to fail. A call that breaks down has
no reply, and its cycle is given up. -/
inductive Move where
  | create (wall : Instant) (request : NewAction)
  | start (endpoint : EndpointId) (now : Instant)
  | transact (i : Nat) (policy : Policy) (wall : Instant)
  | call (i : Nat) (reply : Option InvokeReply)
  | ping (i : Nat) (reply : PingReply)
  | abandon (i : Nat)
  | disturb (plan : FaultPlan) (poisoned : Bool)

namespace World

variable {σ : Type} [ActionRows σ]

def initial : World σ :=
  ⟨.empty, [], [], fun _ _ => none⟩

def create (wall : Instant) (n : NewAction) (w : World σ) : World σ :=
  { w with store := (w.store.createAction wall n).2 }

def transact (i : Nat) (policy : Policy) (wall : Instant) (w : World σ) : World σ :=
  match w.cycles[i]? with
  | none => w
  | some c =>
    match c.work? policy wall with
    | none => w
    | some work =>
      match w.store.transact work with
      | (.error _, store) => { w with store, cycles := w.cycles.eraseIdx i }
      | (.ok c, store) => { w with store, cycles := w.cycles.set i c }

def call (i : Nat) (reply : Option InvokeReply) (w : World σ) : World σ :=
  match w.cycles[i]? with
  | none => w
  | some c =>
    match c.stage with
    | .calling a _ =>
      { w with
        calls := (a.id, c.endpoint) :: w.calls
        cycles := match reply with
          | some reply => w.cycles.set i (c.invoked reply)
          | none => w.cycles.eraseIdx i }
    | _ => w

def ping (i : Nat) (reply : PingReply) (w : World σ) : World σ :=
  match w.cycles[i]? with
  | none => w
  | some c =>
    match c.stage with
    | .pinging => { w with cycles := w.cycles.set i (c.pinged reply) }
    | _ => w

def act (m : Move) (w : World σ) : World σ :=
  match m with
  | .create wall request => w.create wall request
  | .start endpoint now => { w with cycles := w.cycles ++ [Cycle.start endpoint now] }
  | .transact i policy wall => w.transact i policy wall
  | .call i reply => w.call i reply
  | .ping i reply => w.ping i reply
  | .abandon i => { w with cycles := w.cycles.eraseIdx i }
  | .disturb plan poisoned => { w with store := { w.store with plan, poisoned } }

variable [Legible σ]

def ledger (w : World σ) : Ledger :=
  Legible.ledger w.store.rows

/-- Notes the tries of the records that were not there before. -/
def note (w : World σ) : World σ :=
  { w with
    granted := fun id e =>
      (w.granted id e).or ((w.ledger.record? id e).map Record.remainingTries) }

def step (w : World σ) (m : Move) : World σ :=
  (w.act m).note

def after (moves : List Move) : World σ :=
  moves.foldl step initial

end World

namespace Cycle

/-- The action that a cycle has spent an attempt on and not yet settled. -/
def task? (c : Cycle) : Option Action :=
  match c.stage with
  | .calling a _ => some a
  | .recording a _ _ => some a
  | _ => none

def calls (id : ActionId) (e : EndpointId) (c : Cycle) : Bool :=
  match c.stage with
  | .calling a _ => a.id == id && c.endpoint == e
  | _ => false

end Cycle

structure Scene where
  ledger : Ledger
  cycles : List Cycle

/-- What a move can make of a scene, and the call that is made with it. -/
inductive Scene.Happens (k : Keeping) (s : Scene) : Option (ActionId × EndpointId) → Scene → Prop
  | nothing : Happens k s none s
  | created {now : Instant} {n : NewAction}
    (present : ∀ p, n.prerequisite = some p → (s.ledger.action? p).isSome) :
    Happens k s none
      { s with ledger := s.ledger.issue (s.ledger.created now (n.kept k)) n.endpoints n.retries }
  | started (e : EndpointId) (now : Instant) :
    Happens k s none { s with cycles := s.cycles ++ [Cycle.start e now] }
  | turned {i c c' l' policy wall} (here : s.cycles[i]? = some c)
    (turn : Cycle.Turn k policy wall c s.ledger c' l') : Happens k s none ⟨l', s.cycles.set i c'⟩
  | answered {i c a left} (here : s.cycles[i]? = some c) (stage : c.stage = .calling a left)
    (reply : InvokeReply) :
    Happens k s (some (a.id, c.endpoint)) { s with cycles := s.cycles.set i (c.invoked reply) }
  | broken {i c a left} (here : s.cycles[i]? = some c) (stage : c.stage = .calling a left) :
    Happens k s (some (a.id, c.endpoint)) { s with cycles := s.cycles.eraseIdx i }
  | pinged {i c} (here : s.cycles[i]? = some c) (stage : c.stage = .pinging) (reply : PingReply) :
    Happens k s none { s with cycles := s.cycles.set i (c.pinged reply) }
  | dropped (i : Nat) : Happens k s none { s with cycles := s.cycles.eraseIdx i }

namespace World

variable {σ : Type} [ActionRows σ] [Legible σ] {w : World σ}

def scene (w : World σ) : Scene :=
  ⟨w.ledger, w.cycles⟩

def Sound (w : World σ) : Prop :=
  Legible.Sound w.store.rows

def Shows (w w' : World σ) : Prop :=
  w'.Sound ∧ ∃ called, w.scene.Happens (Legible.keeping σ) called w'.scene ∧
    w'.calls = called.toList ++ w.calls ∧ w'.granted = w.granted

theorem shows_create (hs : w.Sound) (wall : Instant) (n : NewAction) :
    w.Shows (w.create wall n) := by
  unfold create
  cases h : w.store.createAction wall n with
  | mk r store =>
    cases r with
    | ok a =>
      obtain ⟨hs', -, hp, hl⟩ := Store.createAction_ok hs h
      refine ⟨hs', none, ?_, rfl, rfl⟩
      simp only [scene, ledger, hl]
      exact .created hp
    | error e =>
      have hrows := Store.createAction_error h
      refine ⟨by rwa [Sound, hrows], none, ?_, rfl, rfl⟩
      simp only [scene, ledger, hrows]
      exact .nothing

theorem shows_transact (hs : w.Sound) (i : Nat) (policy : Policy) (wall : Instant) :
    w.Shows (w.transact i policy wall) := by
  unfold transact
  split
  · exact ⟨hs, none, .nothing, rfl, rfl⟩
  · next c hc =>
    split
    · exact ⟨hs, none, .nothing, rfl, rfl⟩
    · next work hw =>
      split
      · next e store ht =>
        have hrows := Store.transact_error ht
        refine ⟨by rwa [Sound, hrows], none, ?_, rfl, rfl⟩
        simp only [scene, ledger, hrows]
        exact .dropped i
      · next c' store ht =>
        obtain ⟨hs', hturn⟩ := Cycle.turn_of_transact hs hw ht
        exact ⟨hs', none, .turned hc hturn, rfl, rfl⟩

theorem shows_call (hs : w.Sound) (i : Nat) (reply : Option InvokeReply) :
    w.Shows (w.call i reply) := by
  unfold call
  split
  · exact ⟨hs, none, .nothing, rfl, rfl⟩
  · next c hc =>
    split
    · next a left stage =>
      cases reply with
      | none => exact ⟨hs, some (a.id, c.endpoint), .broken hc stage, rfl, rfl⟩
      | some reply => exact ⟨hs, some (a.id, c.endpoint), .answered hc stage reply, rfl, rfl⟩
    · exact ⟨hs, none, .nothing, rfl, rfl⟩

theorem shows_ping (hs : w.Sound) (i : Nat) (reply : PingReply) : w.Shows (w.ping i reply) := by
  unfold ping
  split
  · exact ⟨hs, none, .nothing, rfl, rfl⟩
  · next c hc =>
    split
    · next stage => exact ⟨hs, none, .pinged hc stage reply, rfl, rfl⟩
    · exact ⟨hs, none, .nothing, rfl, rfl⟩

theorem shows_act (hs : w.Sound) (m : Move) : w.Shows (w.act m) := by
  cases m with
  | create wall n => exact shows_create hs wall n
  | start e now => exact ⟨hs, none, .started e now, rfl, rfl⟩
  | transact i policy wall => exact shows_transact hs i policy wall
  | call i reply => exact shows_call hs i reply
  | ping i reply => exact shows_ping hs i reply
  | abandon i => exact ⟨hs, none, .dropped i, rfl, rfl⟩
  | disturb plan poisoned => exact ⟨hs, none, .nothing, rfl, rfl⟩

theorem sound_initial : (initial : World σ).Sound :=
  Legible.sound_empty

theorem after_append (moves later : List Move) :
    (after (moves ++ later) : World σ) = later.foldl step (after moves) :=
  List.foldl_append

theorem sound_step (h : w.Sound) (m : Move) : (w.step m).Sound :=
  (shows_act h m).1

theorem foldl_step {P : World σ → Prop} (hstep : ∀ w m, P w → P (w.step m)) {w : World σ}
    (moves : List Move) (h : P w) : P (moves.foldl step w) := by
  induction moves generalizing w with
  | nil => exact h
  | cons m moves ih => exact ih (hstep w m h)

theorem sound_after (moves : List Move) : (after moves : World σ).Sound :=
  foldl_step (P := Sound) (fun _ m h => sound_step h m) moves sound_initial

end World

end FleetDispatch
