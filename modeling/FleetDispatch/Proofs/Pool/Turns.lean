import FleetDispatch.Proofs.Pool.Requests

namespace FleetDispatch

/-- An endpoint that was claimed, and whether its worker has come to a slot. -/
structure Turn where
  endpoint : EndpointId
  served : Bool
  deriving DecidableEq

namespace Turn

def next? (l : List Turn) : Option EndpointId :=
  (l.find? (!·.served)).map Turn.endpoint

/-- Whether nobody has come to a slot but the one whose turn it was. -/
def InOrder (l l' : List Turn) : Prop :=
  ∀ t ∈ l', t.served = true → t ∈ l ∨ next? l = some t.endpoint

instance (l l' : List Turn) : Decidable (InOrder l l') :=
  inferInstanceAs (Decidable (∀ t ∈ l', _))

def Orderly (l : List Turn) : Prop :=
  ∀ i t, l[i]? = some t → (t.served = true ↔ i < l.countP Turn.served)

end Turn

def Crew.Event.isRelease : Crew.Event → Bool
  | left _ => true
  | _ => false

namespace Turn

/-- What a move can make of the turns, and what it shows. -/
inductive Advance (free : Nat) (l : List Turn) : Option Crew.Event → List Turn → Prop
  | kept {event} (quiet : event.any (·.isRelease) = false) : Advance free l event l
  | claimed {event} (e : EndpointId) (quiet : event.any (·.isRelease) = false) :
    Advance free l event (l ++ [⟨e, false⟩])
  | granted {i e} (here : l[i]? = some ⟨e, false⟩) (room : 0 < free) :
    Advance free l none (l.set i ⟨e, true⟩)
  | left {i e} (here : l[i]? = some ⟨e, true⟩) :
    Advance free l (some (.left e)) (l.eraseIdx i)
  | handed {i e j f} (here : l[i]? = some ⟨e, true⟩) (full : free = 0)
    (next : (l.eraseIdx i)[j]? = some ⟨f, false⟩) :
    Advance free l (some (.left e)) ((l.eraseIdx i).set j ⟨f, true⟩)

variable {l l' : List Turn} {i j free : Nat} {s t : Turn} {e : EndpointId}
  {event : Option Crew.Event}

theorem getElem?_eraseIdx_of_ne {k : Nat} (here : l[i]? = some t) (hne : k ≠ i) :
    (l.eraseIdx k)[if i < k then i else i - 1]? = some t := by
  rw [List.getElem?_eraseIdx]
  split_ifs with hlt
  · exact here
  · omega
  · rwa [Nat.sub_add_cancel (by omega)]

namespace Orderly

theorem append (orderly : Orderly l) (e : EndpointId) : Orderly (l ++ [⟨e, false⟩]) := by
  intro i t here
  have hcount : (l ++ [(⟨e, false⟩ : Turn)]).countP Turn.served = l.countP Turn.served := by
    rw [List.countP_append, List.countP_singleton]
    rfl
  rw [hcount]
  rcases Nat.lt_or_ge i l.length with hi | hi
  · rw [List.getElem?_append_left hi] at here
    exact orderly i t here
  · rw [List.getElem?_append_right hi, List.getElem?_singleton] at here
    split at here
    · obtain rfl := Option.some.inj here
      have hle : l.countP Turn.served ≤ l.length := List.countP_le_length
      simp only [Bool.false_eq_true, false_iff]
      omega
    · cases here

theorem serve (orderly : Orderly l) (here : l[i]? = some ⟨e, false⟩)
    (first : i = l.countP Turn.served) : Orderly (l.set i ⟨e, true⟩) := by
  intro k t hk
  have hcount := countP_set_of_getElem? (p := Turn.served) here ⟨e, true⟩
  simp only [Bool.toNat_false, Bool.toNat_true, Nat.add_zero] at hcount
  rw [hcount]
  rw [List.getElem?_set] at hk
  split at hk
  · next hik =>
    split at hk
    · obtain rfl := Option.some.inj hk
      simp only [true_iff]
      omega
    · cases hk
  · next hik =>
    rw [orderly k t hk]
    omega

theorem erase (orderly : Orderly l) (here : l[i]? = some ⟨e, true⟩) :
    Orderly (l.eraseIdx i) := by
  intro k t hk
  have hcount := countP_eraseIdx_of_getElem? (p := Turn.served) here
  simp only [Bool.toNat_true] at hcount
  have hi : i < l.countP Turn.served := (orderly i _ here).mp rfl
  rw [List.getElem?_eraseIdx] at hk
  split at hk
  · rw [orderly k t hk]
    omega
  · rw [orderly (k + 1) t hk]
    omega

theorem le_of_unserved (orderly : Orderly l) (here : l[i]? = some t) (unserved : t.served = false) :
    l.countP Turn.served ≤ i := by
  by_contra hlt
  rw [(orderly i t here).mpr (Nat.lt_of_not_ge hlt)] at unserved
  cases unserved

theorem find?_eq (orderly : Orderly l) :
    l.find? (!·.served) = l[l.countP Turn.served]? := by
  -- on the list: as long as the turns are served the next one lies behind them
  induction l with
  | nil => rfl
  | cons t l ih =>
    have hfirst := orderly 0 t rfl
    cases ht : t.served with
    | false =>
      have hnone : (t :: l).countP Turn.served = 0 := by
        rw [ht] at hfirst
        simpa using hfirst
      rw [hnone, List.find?_cons_of_pos (by simp [ht])]
      rfl
    | true =>
      have hcount : (t :: l).countP Turn.served = l.countP Turn.served + 1 :=
        List.countP_cons_of_pos ht
      rw [List.find?_cons_of_neg (by simp [ht]), hcount, List.getElem?_cons_succ]
      refine ih fun i s hs => ?_
      rw [orderly (i + 1) s hs, hcount, Nat.add_lt_add_iff_right]

theorem index_of_next (orderly : Orderly l) (distinct : (l.map Turn.endpoint).Nodup)
    (here : l[i]? = some t) (next : next? l = some t.endpoint) : i = l.countP Turn.served := by
  obtain ⟨s, hs, hsame⟩ := Option.map_eq_some_iff.mp next
  rw [orderly.find?_eq] at hs
  exact index_unique distinct here hs hsame.symm

end Orderly

theorem InOrder.index (inOrder : InOrder l l') (orderly : Orderly l)
    (distinct : (l.map Turn.endpoint).Nodup) (here : l[i]? = some ⟨e, false⟩)
    (served : ⟨e, true⟩ ∈ l') : i = l.countP Turn.served := by
  rcases inOrder _ served rfl with hmem | hnext
  · obtain ⟨j, hj⟩ := List.mem_iff_getElem?.mp hmem
    obtain rfl := index_unique distinct here hj rfl
    cases here.symm.trans hj
  · exact orderly.index_of_next distinct here hnext

theorem InOrder.index_handed {f : EndpointId} (orderly : Orderly l)
    (distinct : (l.map Turn.endpoint).Nodup) (here : l[i]? = some ⟨e, true⟩)
    (next : (l.eraseIdx i)[j]? = some ⟨f, false⟩)
    (inOrder : InOrder l ((l.eraseIdx i).set j ⟨f, true⟩)) :
    j + 1 = l.countP Turn.served := by
  have hi : i < l.countP Turn.served := (orderly i _ here).mp rfl
  have hserved : ⟨f, true⟩ ∈ (l.eraseIdx i).set j ⟨f, true⟩ := by
    have hj : j < (l.eraseIdx i).length := (List.getElem?_eq_some_iff.mp next).1
    exact List.mem_set hj _
  rw [List.getElem?_eraseIdx] at next
  split at next
  · have hle := orderly.le_of_unserved next rfl
    omega
  · exact inOrder.index orderly distinct next hserved

theorem Advance.orderly (advance : Advance free l event l') (orderly : Orderly l)
    (distinct : (l.map Turn.endpoint).Nodup) (inOrder : InOrder l l') : Orderly l' := by
  cases advance with
  | kept => exact orderly
  | claimed e => exact orderly.append e
  | @granted i e here room =>
    have hi : i < l.length := (List.getElem?_eq_some_iff.mp here).1
    refine orderly.serve here (inOrder.index orderly distinct here ?_)
    exact List.mem_set hi _
  | left here => exact orderly.erase here
  | handed here full next =>
    have hj := inOrder.index_handed orderly distinct here next
    have hcount := countP_eraseIdx_of_getElem? (p := Turn.served) here
    simp only [Bool.toNat_true] at hcount
    exact (orderly.erase here).serve next (by omega)

/-- Where the turn of an endpoint stands that was claimed behind some others, after some releases:
as many were released as it had to wait for, or each of them has brought it one place forward. -/
def Stands (e : EndpointId) (capacity behind released : Nat) (l : List Turn) : Prop :=
  ∃ i t, l[i]? = some t ∧ t.endpoint = e ∧
    ((t.served = true ∧ behind < capacity + released) ∨
      (t.served = false ∧ i + released = behind))

namespace Stands

variable {capacity behind released : Nat}

theorem serve {f : EndpointId} (stands : Stands e capacity behind released l)
    (here : l[i]? = some ⟨f, false⟩) (room : i < capacity) :
    Stands e capacity behind released (l.set i ⟨f, true⟩) := by
  obtain ⟨k, t, there, rfl, place⟩ := stands
  by_cases hik : i = k
  · subst hik
    obtain rfl := Option.some.inj (here.symm.trans there)
    have hi : i < l.length := (List.getElem?_eq_some_iff.mp here).1
    refine ⟨i, ⟨f, true⟩, List.getElem?_set_self hi, rfl, .inl ⟨rfl, ?_⟩⟩
    rcases place with ⟨hserved, -⟩ | ⟨-, hbehind⟩
    · cases hserved
    · omega
  · exact ⟨k, t, by rwa [List.getElem?_set_ne hik], rfl, place⟩

theorem release {f : EndpointId} (stands : Stands e capacity behind released l)
    (orderly : Orderly l) (here : l[i]? = some ⟨f, true⟩) (stays : f ≠ e) :
    Stands e capacity behind (released + 1) (l.eraseIdx i) := by
  obtain ⟨k, t, there, rfl, place⟩ := stands
  have hik : i ≠ k := by
    rintro rfl
    obtain rfl := Option.some.inj (here.symm.trans there)
    exact stays rfl
  refine ⟨_, t, getElem?_eraseIdx_of_ne there hik, rfl, ?_⟩
  have hserved : i < l.countP Turn.served := (orderly i _ here).mp rfl
  refine place.imp (fun ⟨hs, hn⟩ => ⟨hs, by omega⟩) fun ⟨hs, hn⟩ => ⟨hs, ?_⟩
  have hle := orderly.le_of_unserved there hs
  split_ifs <;> omega

theorem advance (stands : Stands e capacity behind released l) (advance : Advance free l event l')
    (orderly : Orderly l) (distinct : (l.map Turn.endpoint).Nodup) (inOrder : InOrder l l')
    (slots : l.countP Turn.served + free = capacity) (stays : event ≠ some (.left e)) :
    Stands e capacity behind (released + if event.any (·.isRelease) then 1 else 0) l' := by
  cases advance with
  | kept quiet =>
    rw [quiet]
    exact stands
  | claimed f quiet =>
    obtain ⟨i, t, here, rfl, place⟩ := stands
    have hi : i < l.length := (List.getElem?_eq_some_iff.mp here).1
    rw [quiet]
    exact ⟨i, t, by rwa [List.getElem?_append_left hi], rfl, place⟩
  | @granted i f here room =>
    have hi : i < l.length := (List.getElem?_eq_some_iff.mp here).1
    have hfirst := inOrder.index orderly distinct here (List.mem_set hi _)
    exact stands.serve here (by omega)
  | left here => exact stands.release orderly here fun h => stays (by rw [h])
  | handed here full next =>
    have hlast := inOrder.index_handed orderly distinct here next
    exact (stands.release orderly here fun h => stays (by rw [h])).serve next (by omega)

end Stands

end Turn

def Worker.turn (w : Worker) : Turn :=
  ⟨w.endpoint, w.stage.holdsSlot⟩

namespace Pool

variable {p p' : Pool} {event : Option Crew.Event} {w w' : Worker} {i : Nat} {e : EndpointId}

def turns (p : Pool) : List Turn :=
  p.active.map Worker.turn

theorem getElem?_turns (here : p.active[i]? = some w) : p.turns[i]? = some w.turn := by
  rw [turns, List.getElem?_map, here, Option.map_some]

theorem schedule_claim (claim : (p.schedule e).1.isClaim = true) :
    p.closed = false ∧ p.isActive e = false ∧ (p.schedule e).1 =
      if p.active.length < p.capacity then .ready
      else .queued (p.active.length + 1 - p.capacity) := by
  cases hclosed : p.closed with
  | true =>
    rw [schedule_closed hclosed] at claim
    cases claim
  | false =>
    cases hactive : p.isActive e with
    | true =>
      rw [schedule_active hclosed hactive] at claim
      cases claim
    | false =>
      refine ⟨rfl, rfl, ?_⟩
      rw [schedule, if_neg (by simp [hclosed]), Pool.claim, if_neg (by simp [hactive])]
      simp only [List.length_append, List.length_singleton, Nat.add_one_le_iff]
      split_ifs <;> rfl

theorem Worked.advance (step : p.Worked event p') (busy : p.line ≠ [] → p.free = 0) :
    Turn.Advance p.free p.turns event p'.turns := by
  -- most steps leave the turn of their worker as it is, and so do they all others
  have kept {event : Option Crew.Event} {i : Nat} {w w' : Worker}
      (quiet : event.any (·.isRelease) = false) (here : p.active[i]? = some w)
      (same : w'.turn = w.turn) :
      Turn.Advance p.free p.turns event ((p.active.set i w').map Worker.turn) := by
    rw [map_set_of_getElem? Worker.turn here same]
    exact .kept quiet
  have held {i : Nat} {w : Worker} (here : p.active[i]? = some w) (stage : w.stage = .counted) :
      p.turns[i]? = some ⟨w.endpoint, true⟩ := by
    rw [getElem?_turns here, Worker.turn, stage]
    rfl
  cases step with
  | lined here stage | completed here stage | failed here stage | started here stage
  | again here stage =>
    exact kept rfl here (by simp only [Worker.turn, stage, WorkerStage.holdsSlot])
  | @granted i w here stage free =>
    have hopen : p.turns[i]? = some ⟨w.endpoint, false⟩ := by
      rw [getElem?_turns here, Worker.turn, stage]
      rfl
    simp only [turns, List.map_set]
    exact .granted hopen free
  | @left i w here stage unmarked line =>
    simp only [turns, without, ← List.eraseIdx_map]
    exact .left (held here stage)
  | @handed i w j v line here stage unmarked next waiting first =>
    have hopen : (p.turns.eraseIdx i)[j]? = some ⟨v.endpoint, false⟩ := by
      rw [turns, List.eraseIdx_map, List.getElem?_map, next, Option.map_some, Worker.turn, waiting]
      rfl
    simp only [turns, List.map_set, ← List.eraseIdx_map]
    exact .handed (held here stage) (busy (by simp [first])) hopen

theorem Happens.advance (happens : p.Happens event p') (busy : p.line ≠ [] → p.free = 0) :
    Turn.Advance p.free p.turns event p'.turns := by
  cases happens with
  | nothing | closed | rejected | marked => exact .kept rfl
  | @claimed e a accepting new claim =>
    simp only [turns, List.map_append]
    exact .claimed e rfl
  | worked step => exact step.advance busy

end Pool

namespace Crew

variable {c : Crew} {e : EndpointId} {i : Nat}

def turns (c : Crew) : List Turn :=
  c.hands.map fun h => ⟨h.endpoint, h.stage.holdsSlot⟩

/-- Whether slots are given to endpoints in the order in which these were claimed. -/
def GrantsInOrder : List Move → Crew → Prop
  | [], _ => True
  | m :: moves, c => Turn.InOrder c.turns (c.step m).2.turns ∧ GrantsInOrder moves (c.step m).2

instance decidableGrantsInOrder : (moves : List Move) → (c : Crew) →
    Decidable (GrantsInOrder moves c)
  | [], _ => isTrue trivial
  | m :: moves, c => @instDecidableAnd _ _ inferInstance (decidableGrantsInOrder moves (c.step m).2)

def HasAsked (e : EndpointId) (c : Crew) : Prop :=
  ∃ h ∈ c.hands, h.endpoint = e ∧ h.stage ≠ .spawned

def HasSlot (e : EndpointId) (c : Crew) : Prop :=
  ∃ h ∈ c.hands, h.endpoint = e ∧ h.stage.holdsSlot = true

/-- Whether the worker of an endpoint comes to a slot by asking for it in its turn, without anything
else that happens. -/
def ComesIn (e : EndpointId) (c : Crew) : Prop :=
  ∃ asks, GrantsInOrder asks c ∧ events asks c = [] ∧ HasSlot e (c.after asks)

instance (e : EndpointId) (c : Crew) : Decidable (c.HasAsked e) :=
  inferInstanceAs (Decidable (∃ h ∈ c.hands, _))

theorem grantsInOrder_append {moves later : List Move} : GrantsInOrder (moves ++ later) c ↔
    GrantsInOrder moves c ∧ GrantsInOrder later (c.after moves) := by
  induction moves generalizing c with
  | nil => exact (iff_of_eq (true_and _)).symm
  | cons m moves ih => simp only [List.cons_append, GrantsInOrder, ih, and_assoc, after_cons]

theorem hasSlot_iff : c.HasSlot e ↔ ⟨e, true⟩ ∈ c.turns := by
  simp only [HasSlot, turns, List.mem_map, Turn.mk.injEq]

/-- The workers have come to slots in the order in which their endpoints were claimed. -/
structure InTurn (c : Crew) : Prop where
  sound : c.Sound
  orderly : Turn.Orderly c.turns

theorem turns_eq (known : c.Known) : c.turns = c.pool.turns := by
  rw [turns, known, List.map_map]
  rfl

theorem ofSize_inTurn (size : Nat) : (ofSize size).InTurn :=
  ⟨ofSize_sound size, fun _ _ h => by cases h⟩

namespace InTurn

theorem distinct (inTurn : c.InTurn) : (c.turns.map Turn.endpoint).Nodup := by
  rw [turns_eq inTurn.sound.known, Pool.turns, List.map_map]
  exact inTurn.sound.balanced.distinct

theorem slots (inTurn : c.InTurn) :
    c.turns.countP Turn.served + c.pool.free = c.pool.capacity := by
  rw [turns_eq inTurn.sound.known, Pool.turns, List.countP_map]
  exact inTurn.sound.balanced.slots

theorem advance (inTurn : c.InTurn) (m : Move) :
    Turn.Advance c.pool.free c.turns (c.step m).1 (c.step m).2.turns := by
  rw [turns_eq inTurn.sound.known, turns_eq (inTurn.sound.step m).known]
  exact (inTurn.sound.happens m).1.advance inTurn.sound.busy

theorem step (inTurn : c.InTurn) {m : Move} (order : Turn.InOrder c.turns (c.step m).2.turns) :
    (c.step m).2.InTurn :=
  ⟨inTurn.sound.step m, (inTurn.advance m).orderly inTurn.orderly inTurn.distinct order⟩

theorem after (inTurn : c.InTurn) {moves : List Move} (order : GrantsInOrder moves c) :
    (c.after moves).InTurn := by
  induction moves generalizing c with
  | nil => exact inTurn
  | cons m moves ih => exact ih (inTurn.step order.1) order.2

theorem stands_after {behind released : Nat} {later : List Move} (inTurn : c.InTurn)
    (order : GrantsInOrder later c) (stays : .left e ∉ events later c)
    (stands : Turn.Stands e c.pool.capacity behind released c.turns) :
    Turn.Stands e c.pool.capacity behind (released + (events later c).countP (·.isRelease))
      (c.after later).turns := by
  -- on the moves: each advances the turns, and the endpoint stands where the releases so far put it
  induction later generalizing c released with
  | nil => exact stands
  | cons m later ih =>
    have hcapacity : (c.step m).2.pool.capacity = c.pool.capacity :=
      (inTurn.sound.happens m).1.capacity
    rw [mem_events_cons, not_or] at stays
    have hstep := stands.advance (inTurn.advance m) inTurn.orderly inTurn.distinct order.1
      inTurn.slots stays.1
    rw [← hcapacity] at hstep ⊢
    rw [countP_events_cons, ← Nat.add_assoc]
    exact ih (inTurn.step order.1) order.2 stays.2 hstep

theorem spawned (inTurn : c.InTurn) {h : Hand} (here : h ∈ c.hands)
    (without : h.stage.holdsSlot = false) (free : 0 < c.pool.free) : h.stage = .spawned := by
  have hnot : h.stage ≠ .waiting := by
    intro hwaiting
    rw [inTurn.sound.known] at here
    obtain ⟨w, hw, rfl⟩ := List.mem_map.mp here
    have hline : w.endpoint ∈ c.pool.line :=
      (inTurn.sound.balanced.waits _).mpr ⟨w, hw, rfl, hwaiting⟩
    exact Nat.ne_of_gt free (inTurn.sound.busy (List.ne_nil_of_mem hline))
  cases hstage : h.stage with
  | spawned => rfl
  | waiting => exact absurd hstage hnot
  | granted | cycling | counted =>
    rw [hstage] at without
    cases without

theorem ask (inTurn : c.InTurn) (here : c.turns[i]? = some ⟨e, false⟩) (free : 0 < c.pool.free) :
    (c.step (.work i true)).1 = none ∧
      (c.step (.work i true)).2.turns = c.turns.set i ⟨e, true⟩ := by
  have hhand := here
  rw [turns, List.getElem?_map, Option.map_eq_some_iff] at hhand
  obtain ⟨h, hh, hturn⟩ := hhand
  obtain ⟨rfl, hwithout⟩ := Turn.mk.inj hturn
  have hstage := inTurn.spawned (List.mem_of_getElem? hh) hwithout free
  simp only [Crew.step, hh, Crew.work, hstage, Pool.acquire, if_pos free]
  refine ⟨trivial, ?_⟩
  simp only [turns, List.map_set]
  rfl

theorem asked_inOrder (inTurn : c.InTurn)
    (here : c.turns[c.turns.countP Turn.served]? = some ⟨e, false⟩) :
    Turn.InOrder c.turns (c.turns.set (c.turns.countP Turn.served) ⟨e, true⟩) := by
  intro t ht _
  refine (List.mem_or_eq_of_mem_set ht).imp_right ?_
  rintro rfl
  rw [Turn.next?, inTurn.orderly.find?_eq, here]
  rfl

theorem comesIn {ahead : Nat} (inTurn : c.InTurn) (here : c.turns[i]? = some ⟨e, false⟩)
    (room : i < c.pool.capacity) (hahead : i = c.turns.countP Turn.served + ahead) :
    c.ComesIn e := by
  induction ahead generalizing c with
  | zero =>
    have hslots := inTurn.slots
    have hi : i < c.turns.length := (List.getElem?_eq_some_iff.mp here).1
    obtain ⟨hquiet, hturns⟩ := inTurn.ask here (by omega)
    rw [Nat.add_zero] at hahead
    refine ⟨[.work i true], ⟨?_, trivial⟩, ?_, hasSlot_iff.mpr ?_⟩
    · rw [hturns, hahead]
      exact inTurn.asked_inOrder (hahead ▸ here)
    · rw [events, hquiet]
      rfl
    · exact hturns ▸ List.mem_set hi _
  | succ ahead ih =>
    -- the first of those ahead asks before it
    have hslots := inTurn.slots
    have hlength : i < c.turns.length := (List.getElem?_eq_some_iff.mp here).1
    obtain ⟨⟨f, served⟩, hfirst⟩ : ∃ t, c.turns[c.turns.countP Turn.served]? = some t :=
      ⟨_, List.getElem?_eq_getElem (by omega)⟩
    obtain rfl : served = false := by
      have hiff := inTurn.orderly _ _ hfirst
      simpa using hiff
    obtain ⟨hquiet, hturns⟩ := inTurn.ask hfirst (by omega)
    have horder := inTurn.asked_inOrder hfirst
    rw [← hturns] at horder
    have hcount := countP_set_of_getElem? (p := Turn.served) hfirst ⟨f, true⟩
    simp only [Bool.toNat_false, Bool.toNat_true, Nat.add_zero] at hcount
    have hcapacity := (inTurn.sound.happens (.work (c.turns.countP Turn.served) true)).1.capacity
    obtain ⟨asks, hasks, hnothing, hslot⟩ := ih (inTurn.step horder)
      (by rwa [hturns, List.getElem?_set_ne (by omega)]) (hcapacity ▸ room)
      (by rw [hturns, hcount]; omega)
    refine ⟨.work (c.turns.countP Turn.served) true :: asks, ⟨horder, hasks⟩, ?_, hslot⟩
    rw [events, hquiet, hnothing]
    rfl

theorem le_of_asked (inTurn : c.InTurn) (here : c.turns[i]? = some ⟨e, false⟩)
    (asked : c.HasAsked e) : c.pool.capacity ≤ i := by
  obtain ⟨h, hh, rfl, hstage⟩ := asked
  by_contra hlt
  have hslots := inTurn.slots
  have hle := inTurn.orderly.le_of_unserved here rfl
  obtain ⟨j, hj⟩ := List.mem_iff_getElem?.mp hh
  have hturn : c.turns[j]? = some ⟨h.endpoint, h.stage.holdsSlot⟩ := by
    rw [turns, List.getElem?_map, hj, Option.map_some]
  obtain rfl := index_unique inTurn.distinct here hturn rfl
  have hwithout := (Turn.mk.inj (Option.some.inj (here.symm.trans hturn))).2
  exact hstage (inTurn.spawned hh hwithout.symm (by omega))

theorem claimed (inTurn : c.InTurn) (claim : (c.pool.schedule e).1.isClaim = true) :
    Turn.Stands e c.pool.capacity c.pool.active.length 0 (c.step (.schedule e)).2.turns := by
  obtain ⟨hclosed, hactive, -⟩ := Pool.schedule_claim claim
  obtain ⟨a, ha, hschedule⟩ := Pool.schedule_new hclosed hactive
  have hlength : c.turns.length = c.pool.active.length := by
    rw [turns_eq inTurn.sound.known, Pool.turns, List.length_map]
  have hturns : (c.step (.schedule e)).2.turns = c.turns ++ [⟨e, false⟩] := by
    simp only [Crew.step, Crew.schedule, hschedule, ha, if_true, turns, List.map_append]
    rfl
  refine ⟨c.pool.active.length, ⟨e, false⟩, ?_, rfl, .inr ⟨rfl, rfl⟩⟩
  rw [hturns, ← hlength, List.getElem?_concat_length]

/-- An endpoint that was claimed comes to a slot as soon as those that were claimed before it, but
for as many as there are slots, have been released. -/
theorem served_iff {later : List Move} (inTurn : c.InTurn)
    (order : GrantsInOrder (.schedule e :: later) c)
    (claim : (c.pool.schedule e).1.isClaim = true)
    (stays : .left e ∉ events later (c.step (.schedule e)).2) :
    let c' := (c.step (.schedule e)).2
    let reached := c.pool.active.length < c.pool.capacity +
      (events later c').countP (·.isRelease)
    ((c'.after later).HasAsked e → ((c'.after later).HasSlot e ↔ reached)) ∧
      (reached → (c'.after later).ComesIn e) := by
  intro c' reached
  have hcapacity : c'.pool.capacity = c.pool.capacity :=
    (inTurn.sound.happens (.schedule e)).1.capacity
  have hclaimed := inTurn.claimed claim
  have inTurn' : c'.InTurn := inTurn.step order.1
  rw [← hcapacity] at hclaimed
  have inTurn'' := inTurn'.after order.2
  obtain ⟨i, ⟨f, served⟩, here, rfl, place⟩ := inTurn'.stands_after order.2 stays hclaimed
  rw [Nat.zero_add, hcapacity] at place
  have hcapacity' : (c'.after later).pool.capacity = c.pool.capacity :=
    (capacity_after inTurn'.sound later).trans hcapacity
  -- it has come to a slot by now, or it stands behind the slots by what was not yet released
  rcases place with ⟨rfl, hreached⟩ | ⟨rfl, hbehind⟩
  · have hslot := hasSlot_iff.mpr (List.mem_of_getElem? here)
    exact ⟨fun _ => iff_of_true hslot hreached, fun _ => ⟨[], trivial, rfl, hslot⟩⟩
  · refine ⟨fun asked => iff_of_false (fun hslot => ?_) ?_, fun hreached => ?_⟩
    · obtain ⟨j, hj⟩ := List.mem_iff_getElem?.mp (hasSlot_iff.mp hslot)
      obtain rfl := index_unique inTurn''.distinct here hj rfl
      cases here.symm.trans hj
    · have hle := inTurn''.le_of_asked here asked
      omega
    · have hle := inTurn''.orderly.le_of_unserved here rfl
      exact inTurn''.comesIn here (by omega) (Nat.add_sub_of_le hle).symm

end InTurn

/-- The answers to requests are right as long as slots are given in the order in which endpoints
are claimed. One that is answered as ready comes to a slot although no other endpoint is released.
One that is queued comes to its slot with just that release after its request which the answer
says, whatever is requested later, and however many more cycles run before. -/
theorem answers_accurate (size : Nat) (moves later : List Move) (e : EndpointId)
    (order : GrantsInOrder (moves ++ .schedule e :: later) (ofSize size)) :
    let c := (ofSize size).after moves
    let c' := (c.step (.schedule e)).2
    let c'' := c'.after later
    let released := (events later c').countP (·.isRelease)
    .left e ∉ events later c' →
      ((c.pool.schedule e).1 = .ready → (c''.HasAsked e → c''.HasSlot e) ∧ c''.ComesIn e) ∧
      ∀ k, (c.pool.schedule e).1 = .queued k → 1 ≤ k ∧
        (c''.HasAsked e → (c''.HasSlot e ↔ k ≤ released)) ∧
        (k ≤ released → c''.ComesIn e) := by
  intro c c' c'' released stays
  obtain ⟨hbefore, hlater⟩ := grantsInOrder_append.mp order
  have inTurn : c.InTurn := (ofSize_inTurn size).after hbefore
  have hserved := inTurn.served_iff hlater
  constructor
  · intro ready
    have hclaim : (c.pool.schedule e).1.isClaim = true := by rw [ready]; rfl
    obtain ⟨hslot, hcomes⟩ := hserved hclaim stays
    obtain ⟨-, -, hanswer⟩ := Pool.schedule_claim hclaim
    rw [ready] at hanswer
    split at hanswer
    · next hlt =>
      have hreached := Nat.lt_add_right released hlt
      exact ⟨fun asked => (hslot asked).mpr hreached, hcomes hreached⟩
    · cases hanswer
  · intro k queued
    have hclaim : (c.pool.schedule e).1.isClaim = true := by rw [queued]; rfl
    obtain ⟨hslot, hcomes⟩ := hserved hclaim stays
    obtain ⟨-, -, hanswer⟩ := Pool.schedule_claim hclaim
    rw [queued] at hanswer
    split at hanswer
    · cases hanswer
    · next hfull =>
      obtain rfl := ScheduleAnswer.queued.inj hanswer
      have hreached : c.pool.active.length < c.pool.capacity + released ↔
          c.pool.active.length + 1 - c.pool.capacity ≤ released := by omega
      exact ⟨by omega, fun asked => (hslot asked).trans hreached,
        fun h => hcomes (hreached.mpr h)⟩

def oneBusy : List Move :=
  [.schedule "db", .work 0 true, .work 0 true]

def oneBehind : List Move :=
  [.work 1 true, .schedule "db", .schedule "app", .work 0 true, .work 0 false, .work 0 true]

theorem answers_accurate_oneBusy :
    let c := (ofSize 1).after oneBusy
    let c' := (c.step (.schedule "web")).2
    (c.pool.schedule "web").1 = .queued 1 ∧
      (c'.after oneBehind).HasAsked "web" ∧ ¬ (c'.after oneBehind).HasSlot "web" ∧
      (c'.after (oneBehind ++ [.work 0 true])).HasSlot "web" := by
  intro c c'
  have queued : (c.pool.schedule "web").1 = .queued 1 := by decide +kernel
  have before := (answers_accurate 1 oneBusy oneBehind "web" (by decide +kernel)
    (by decide +kernel)).2 1 queued
  have behind := (answers_accurate 1 oneBusy (oneBehind ++ [.work 0 true]) "web" (by decide +kernel)
    (by decide +kernel)).2 1 queued
  have asked : (c'.after oneBehind).HasAsked "web" := by decide +kernel
  refine ⟨queued, asked, fun slot => ?_, (behind.2.1 (by decide +kernel)).mpr (by decide +kernel)⟩
  have none : (events oneBehind c').countP (·.isRelease) = 0 := by decide +kernel
  have released := (before.2.1 asked).mp slot
  rw [none] at released
  cases released

end Crew

end FleetDispatch
