import FleetDispatch.Proofs.Pool.Turns

namespace FleetDispatch

section rows

variable {l before behind : List Worker} {w : Worker} {i : Nat}

theorem index_eq_length (distinct : (l.map Worker.endpoint).Nodup) (here : l[i]? = some w)
    (split : l = before ++ w :: behind) : i = before.length := by
  refine index_unique distinct here ?_ rfl
  rw [split, List.getElem?_append_right (Nat.le_refl _), Nat.sub_self, List.getElem?_cons_zero]

theorem set_of_split (distinct : (l.map Worker.endpoint).Nodup) (here : l[i]? = some w)
    (split : l = before ++ w :: behind) (w' : Worker) : l.set i w' = before ++ w' :: behind := by
  rw [index_eq_length distinct here split, split]
  simp

theorem eraseIdx_of_split (distinct : (l.map Worker.endpoint).Nodup) (here : l[i]? = some w)
    (split : l = before ++ w :: behind) : l.eraseIdx i = before ++ behind := by
  rw [index_eq_length distinct here split, split]
  simp [List.eraseIdx_append_of_length_le]

end rows

theorem Turn.next?_append {l l' : List Turn} (served : ∀ t ∈ l, t.served = true)
    (unserved : ∀ t ∈ l', t.served = false) : next? (l ++ l') = l'.head?.map Turn.endpoint := by
  have hnone : l.find? (!·.served) = none := by
    rw [List.find?_eq_none]
    intro t ht
    simp [served t ht]
  rw [next?, List.find?_append, hnone, Option.none_or]
  cases l' with
  | nil => rfl
  | cons t l' => rw [List.find?_cons_of_pos (by simp [unserved t List.mem_cons_self])]; rfl

namespace Pool

variable {p p' : Pool} {event : Option Crew.Event} {w v : Worker} {i : Nat} {stage : WorkerStage}
  {held waiting spawned : List Worker}

def asks (p : Pool) : List Turn :=
  p.active.map fun w => ⟨w.endpoint, w.stage != .spawned⟩

/-- The workers with a slot were claimed first, then those in line, in its order, and at last those
that have not asked. -/
structure Lined (p : Pool) (held waiting spawned : List Worker) : Prop where
  active : p.active = held ++ (waiting ++ spawned)
  holds : ∀ w ∈ held, w.stage.holdsSlot = true
  waits : ∀ w ∈ waiting, w.stage = .waiting
  unasked : ∀ w ∈ spawned, w.stage = .spawned
  inLine : p.line = waiting.map Worker.endpoint

namespace Lined

theorem next_turn (lined : p.Lined held waiting spawned) :
    Turn.next? p.turns = (waiting ++ spawned).head?.map Worker.endpoint := by
  rw [turns, lined.active, List.map_append, Turn.next?_append, List.head?_map, Option.map_map]
  · rfl
  · intro t ht
    obtain ⟨w, hw, rfl⟩ := List.mem_map.mp ht
    exact lined.holds w hw
  · intro t ht
    obtain ⟨w, hw, rfl⟩ := List.mem_map.mp ht
    rcases List.mem_append.mp hw with hw | hw
    · rw [Worker.turn, lined.waits w hw]
      rfl
    · rw [Worker.turn, lined.unasked w hw]
      rfl

theorem next_ask (lined : p.Lined held waiting spawned) :
    Turn.next? p.asks = spawned.head?.map Worker.endpoint := by
  rw [asks, lined.active, ← List.append_assoc, List.map_append, Turn.next?_append, List.head?_map,
    Option.map_map]
  · rfl
  · intro t ht
    obtain ⟨w, hw, rfl⟩ := List.mem_map.mp ht
    rw [bne_iff_ne]
    intro hspawned
    rcases List.mem_append.mp hw with hw | hw
    · have hholds := lined.holds w hw
      rw [hspawned] at hholds
      cases hholds
    · cases (lined.waits w hw).symm.trans hspawned
  · intro t ht
    obtain ⟨w, hw, rfl⟩ := List.mem_map.mp ht
    rw [lined.unasked w hw]
    rfl

theorem asking (lined : p.Lined held waiting spawned) (balanced : p.Balanced)
    (here : p.active[i]? = some w) (before : w.stage = .spawned) (asked : stage ≠ .spawned)
    (active : p'.active = p.active.set i { w with stage }) (order : Turn.InOrder p.asks p'.asks) :
    ∃ rest, spawned = w :: rest := by
  have hw := List.mem_of_getElem? here
  have hi : i < p.active.length := (List.getElem?_eq_some_iff.mp here).1
  have hasked : ⟨w.endpoint, true⟩ ∈ p'.asks := by
    rw [asks, active, List.mem_map]
    exact ⟨_, List.mem_set hi _, by simp [asked]⟩
  rcases order _ hasked rfl with hmem | hnext
  · obtain ⟨x, hx, hturn⟩ := List.mem_map.mp hmem
    obtain ⟨hsame, hstage⟩ := Turn.mk.inj hturn
    obtain rfl := eq_of_endpoint balanced.distinct hw hx hsame
    rw [before] at hstage
    cases hstage
  · rw [lined.next_ask] at hnext
    obtain ⟨x, hhead, hsame⟩ := Option.map_eq_some_iff.mp hnext
    obtain ⟨rest, rfl⟩ := List.head?_eq_some_iff.mp hhead
    have hx : x ∈ p.active := by
      rw [lined.active]
      simp
    obtain rfl := eq_of_endpoint balanced.distinct hw hx hsame
    exact ⟨rest, rfl⟩

theorem mem_held (lined : p.Lined held waiting spawned) (hw : w ∈ p.active)
    (holds : w.stage.holdsSlot = true) : w ∈ held := by
  rw [lined.active, List.mem_append, List.mem_append] at hw
  rcases hw with hw | hw | hw
  · exact hw
  · rw [lined.waits w hw] at holds
    cases holds
  · rw [lined.unasked w hw] at holds
    cases holds

theorem inSlot {w' : Worker} (lined : p.Lined held waiting spawned) (balanced : p.Balanced)
    (here : p.active[i]? = some w) (before : w.stage.holdsSlot = true)
    (active : p'.active = p.active.set i w') (same : w'.endpoint = w.endpoint)
    (after : w'.stage.holdsSlot = true) (line : p'.line = p.line) :
    ∃ held' waiting' spawned', p'.Lined held' waiting' spawned' ∧
      Turn.InOrder p.turns p'.turns := by
  obtain ⟨first, last, rfl⟩ :=
    List.append_of_mem (lined.mem_held (List.mem_of_getElem? here) before)
  have hsplit : p.active = first ++ w :: (last ++ (waiting ++ spawned)) := by simp [lined.active]
  have hset := set_of_split balanced.distinct here hsplit w'
  refine ⟨first ++ w' :: last, waiting, spawned, ⟨by simp [active, hset], fun x hx => ?_,
    lined.waits, lined.unasked, line.trans lined.inLine⟩, ?_⟩
  · rw [List.mem_append, List.mem_cons] at hx
    rcases hx with hx | rfl | hx
    · exact lined.holds x (by simp [hx])
    · exact after
    · exact lined.holds x (by simp [hx])
  · have hturns : p'.turns = p.turns := by
      have hturn : w'.turn = w.turn := by rw [Worker.turn, Worker.turn, same, before, after]
      rw [turns, active]
      exact map_set_of_getElem? Worker.turn here hturn
    rw [hturns]
    exact fun t ht _ => .inl ht

theorem without (lined : p.Lined held waiting spawned) (balanced : p.Balanced)
    (here : p.active[i]? = some w) (stage : w.stage = .counted) :
    ∃ held', (p.without i).Lined held' waiting spawned := by
  have holds : w.stage.holdsSlot = true := by
    rw [stage]
    rfl
  obtain ⟨first, last, rfl⟩ := List.append_of_mem (lined.mem_held (List.mem_of_getElem? here) holds)
  have hsplit : p.active = first ++ w :: (last ++ (waiting ++ spawned)) := by simp [lined.active]
  have herase := eraseIdx_of_split balanced.distinct here hsplit
  refine ⟨first ++ last, ⟨by simp [Pool.without, herase], fun x hx => ?_, lined.waits,
    lined.unasked, lined.inLine⟩⟩
  rcases List.mem_append.mp hx with hx | hx <;> exact lined.holds x (by simp [hx])

end Lined

theorem inOrder_given {q : Pool} (active : p'.active = q.active.set i { w with stage })
    (others : ∀ x ∈ q.active, x ∈ p.active) (next : Turn.next? p.turns = some w.endpoint) :
    Turn.InOrder p.turns p'.turns := by
  intro t ht _
  rw [turns, active, List.mem_map] at ht
  obtain ⟨x, hx, rfl⟩ := ht
  rcases List.mem_or_eq_of_mem_set hx with hx | rfl
  · exact .inl (List.mem_map_of_mem (others x hx))
  · exact .inr next

theorem inOrder_of_subset (sub : ∀ t ∈ p'.turns, t.served = true → t ∈ p.turns) :
    Turn.InOrder p.turns p'.turns :=
  fun t ht served => .inl (sub t ht served)

theorem Worked.lined_after (step : p.Worked event p') (balanced : p.Balanced)
    (busy : p.line ≠ [] → p.free = 0) (lined : p.Lined held waiting spawned)
    (order : Turn.InOrder p.asks p'.asks) : ∃ held' waiting' spawned',
      p'.Lined held' waiting' spawned' ∧ Turn.InOrder p.turns p'.turns := by
  cases step with
  | @granted i w here stage free =>
    obtain ⟨rest, rfl⟩ := lined.asking balanced here stage (by simp) rfl order
    -- nobody waits while a slot is free, so that it goes to the first that has not asked
    obtain rfl : waiting = [] := by
      by_contra hwaiting
      have hline : p.line ≠ [] := by
        rw [lined.inLine]
        simpa using hwaiting
      exact Nat.ne_of_gt free (busy hline)
    have hset := set_of_split balanced.distinct here lined.active { w with stage := .granted }
    refine ⟨held ++ [{ w with stage := .granted }], [], rest,
      ⟨by simp [hset], ?_, nofun, (List.forall_mem_cons.mp lined.unasked).2, lined.inLine⟩,
      inOrder_given rfl (fun _ => id) lined.next_turn⟩
    exact List.forall_mem_append.mpr ⟨lined.holds, List.forall_mem_singleton.mpr rfl⟩
  | @lined i w here stage full =>
    obtain ⟨rest, rfl⟩ := lined.asking balanced here stage (by simp) rfl order
    have hsplit : p.active = held ++ waiting ++ w :: rest := by simp [lined.active]
    have hset := set_of_split balanced.distinct here hsplit { w with stage := .waiting }
    refine ⟨held, waiting ++ [{ w with stage := .waiting }], rest,
      ⟨by simp [hset], lined.holds, ?_, (List.forall_mem_cons.mp lined.unasked).2,
        by simp [lined.inLine]⟩, ?_⟩
    · exact List.forall_mem_append.mpr ⟨lined.waits, List.forall_mem_singleton.mpr rfl⟩
    · refine inOrder_of_subset fun t ht served => ?_
      rw [turns, map_set_of_getElem? Worker.turn here (by simp [Worker.turn, stage,
        WorkerStage.holdsSlot])] at ht
      exact ht
  | started here stage | completed here stage | failed here stage | again here stage =>
    exact lined.inSlot balanced here (by rw [stage]; rfl) rfl rfl rfl rfl
  | left here stage unmarked line =>
    obtain ⟨held', hlined⟩ := lined.without balanced here stage
    refine ⟨held', waiting, spawned, hlined, inOrder_of_subset fun t ht _ => ?_⟩
    obtain ⟨x, hx, rfl⟩ := List.mem_map.mp ht
    exact List.mem_map_of_mem (List.mem_of_mem_eraseIdx hx)
  | @handed i w j v line here stage unmarked next wait first =>
    -- the first in line stands right behind those that hold slots
    have hv : v ∈ p.active := List.mem_of_mem_eraseIdx (List.mem_of_getElem? next)
    obtain ⟨v', rest, rfl⟩ : ∃ v' rest, waiting = v' :: rest := by
      refine List.exists_cons_of_ne_nil fun hnone => ?_
      rw [lined.inLine, hnone] at first
      cases first
    have hinLine := lined.inLine
    rw [first, List.map_cons] at hinLine
    obtain ⟨hsame, hline⟩ := List.cons.inj hinLine
    obtain rfl : v' = v :=
      eq_of_endpoint balanced.distinct hv (by simp [lined.active]) hsame.symm
    obtain ⟨held', hlined⟩ := lined.without balanced here stage
    have hset := set_of_split (balanced.without here stage unmarked).distinct next hlined.active
      { v' with stage := .granted }
    refine ⟨held' ++ [{ v' with stage := .granted }], rest, spawned,
      ⟨hset.trans (by simp), ?_, (List.forall_mem_cons.mp lined.waits).2, lined.unasked, hline⟩,
      inOrder_given (q := p.without i) rfl (fun x hx => List.mem_of_mem_eraseIdx hx)
        lined.next_turn⟩
    exact List.forall_mem_append.mpr ⟨hlined.holds, List.forall_mem_singleton.mpr rfl⟩

theorem Happens.lined_after (happens : p.Happens event p') (balanced : p.Balanced)
    (busy : p.line ≠ [] → p.free = 0) (lined : p.Lined held waiting spawned)
    (order : Turn.InOrder p.asks p'.asks) : ∃ held' waiting' spawned',
      p'.Lined held' waiting' spawned' ∧ Turn.InOrder p.turns p'.turns := by
  cases happens with
  | nothing | closed | rejected | marked =>
    exact ⟨held, waiting, spawned, ⟨lined.active, lined.holds, lined.waits, lined.unasked,
      lined.inLine⟩, inOrder_of_subset fun t ht _ => ht⟩
  | @claimed e a accepting new claim =>
    refine ⟨held, waiting, spawned ++ [⟨e, false, .spawned⟩], ⟨by simp [lined.active], lined.holds,
      lined.waits, ?_, lined.inLine⟩, inOrder_of_subset fun t ht served => ?_⟩
    · exact List.forall_mem_append.mpr ⟨lined.unasked, List.forall_mem_singleton.mpr rfl⟩
    · rw [turns, List.map_append, List.mem_append] at ht
      rcases ht with ht | ht
      · exact ht
      · obtain rfl := List.mem_singleton.mp ht
        cases served
  | worked step => exact step.lined_after balanced busy lined order

end Pool

namespace Crew

variable {c : Crew} {moves : List Move}

def asks (c : Crew) : List Turn :=
  c.hands.map fun h => ⟨h.endpoint, h.stage != .spawned⟩

/-- Whether workers ask for their slots in the order in which their endpoints were claimed. -/
def AsksInOrder : List Move → Crew → Prop
  | [], _ => True
  | m :: moves, c => Turn.InOrder c.asks (c.step m).2.asks ∧ AsksInOrder moves (c.step m).2

theorem asks_eq (known : c.Known) : c.asks = c.pool.asks := by
  rw [asks, known, List.map_map]
  rfl

theorem grantsInOrder_of_lined {held waiting spawned : List Worker} (sound : c.Sound)
    (lined : c.pool.Lined held waiting spawned) (order : AsksInOrder moves c) :
    GrantsInOrder moves c := by
  -- on the moves, with the three parts of the line as they stand before each
  induction moves generalizing c held waiting spawned with
  | nil => trivial
  | cons m moves ih =>
    have sound' := sound.step m
    obtain ⟨hfirst, hrest⟩ := order
    rw [asks_eq sound.known, asks_eq sound'.known] at hfirst
    obtain ⟨held', waiting', spawned', hlined, hgrants⟩ :=
      (sound.happens m).1.lined_after sound.balanced sound.busy lined hfirst
    rw [← turns_eq sound.known, ← turns_eq sound'.known] at hgrants
    exact ⟨hgrants, ih sound' hlined hrest⟩

/-- The line is first come, first served: slots are given in the order of the claims if they are
asked for in that order. -/
theorem grantsInOrder_of_asksInOrder (size : Nat) (order : AsksInOrder moves (ofSize size)) :
    GrantsInOrder moves (ofSize size) := by
  have lined : (ofSize size).pool.Lined [] [] [] := ⟨rfl, nofun, nofun, nofun, rfl⟩
  exact grantsInOrder_of_lined (ofSize_sound size) lined order

end Crew

end FleetDispatch
