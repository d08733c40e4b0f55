import FleetDispatch.Proofs.Dispatch.Abreast

namespace FleetDispatch

/-- What can happen while a cycle is on its way: it makes its next step at some time, or something
else happens beside it. -/
inductive Stroke where
  | own (wall : Instant)
  | aside (m : Move)

/-- A world with one more cycle on its way over its store, the channel of this cycle, and the
ledgers before and after each of its steps. -/
structure Weave (σ χ : Type) where
  world : World σ
  cycle : Cycle
  channel : χ
  trace : List (Ledger × Ledger)

/-- Whether a move leaves an endpoint alone: it creates no action for it, and is no transaction of
a cycle on it. -/
def Move.isAside {σ : Type} (e : EndpointId) (w : World σ) : Move → Bool
  | .create _ request => !request.endpoints.contains e
  | .transact i _ _ => (w.cycles[i]?).all (·.endpoint != e)
  | _ => true

namespace Weave

variable {σ χ : Type} [ActionRows σ] [Legible σ]

def run (w : Weave σ χ) : Cycle.Run σ χ :=
  ⟨w.cycle, w.world.store, w.channel⟩

/-- A step of the cycle that fails, and a move that does not leave the endpoint of the cycle alone,
are no strokes. -/
def stroke (policy : Policy) (channel : Cycle.Channel χ) (w : Weave σ χ) :
    Stroke → Option (Weave σ χ)
  | .own wall =>
    match Cycle.step policy wall channel w.run with
    | (.ok (), r) => some
      { world := { w.world with store := r.store }
        cycle := r.cycle
        channel := r.channel
        trace := w.trace ++ [(w.world.ledger, Legible.ledger r.store.rows)] }
    | (.error _, _) => none
  | .aside m =>
    if m.isAside w.cycle.endpoint w.world then some { w with world := w.world.step m } else none

def weave (policy : Policy) (channel : Cycle.Channel χ) (e : EndpointId) (now : Instant)
    (w : World σ) (memory : χ) (strokes : List Stroke) : Option (Weave σ χ) :=
  strokes.foldlM (stroke policy channel) ⟨w, Cycle.start e now, memory, []⟩

variable {policy : Policy} {channel : Cycle.Channel χ} {w w' : Weave σ χ} {wall : Instant}
  {m : Move} {strokes : List Stroke}

theorem stroke_own (h : w.stroke policy channel (.own wall) = some w') :
    Cycle.step policy wall channel w.run = (.ok (), w'.run) ∧ w'.world.cycles = w.world.cycles ∧
      w'.trace = w.trace ++ [(w.world.ledger, w'.world.ledger)] := by
  simp only [stroke] at h
  split at h
  · next r hstep =>
    cases h
    exact ⟨hstep, rfl, rfl⟩
  · cases h

theorem stroke_aside (h : w.stroke policy channel (.aside m) = some w') :
    m.isAside w.cycle.endpoint w.world = true ∧ w' = { w with world := w.world.step m } := by
  simp only [stroke] at h
  split at h
  · next haside => exact ⟨haside, (Option.some.inj h).symm⟩
  · cases h

theorem strokes_keep {P : Weave σ χ → Prop}
    (keep : ∀ {w w' : Weave σ χ} {x : Stroke}, x ∈ strokes → P w →
      w.stroke policy channel x = some w' → P w')
    (hP : P w) (h : strokes.foldlM (stroke policy channel) w = some w') : P w' := by
  -- on the strokes, of which each is one of the list at first
  induction strokes generalizing w with
  | nil =>
    cases h
    exact hP
  | cons x strokes ih =>
    rw [List.foldlM_cons] at h
    obtain ⟨w₁, hstroke, hrest⟩ := Option.bind_eq_some_iff.mp h
    exact ih (fun hx => keep (List.mem_cons_of_mem x hx)) (keep List.mem_cons_self hP hstroke) hrest

end Weave

theorem Move.within_of_isAside {σ : Type} {e : EndpointId} {w : World σ} {m : Move}
    (h : m.isAside e w = true) : m.Within (· ≠ e) w := by
  cases m with
  | create wall request =>
    intro x hx heq
    subst heq
    simp [isAside, hx] at h
  | transact i policy wall =>
    intro c hc heq
    simp [isAside, hc, heq] at h
  | start | call | ping | abandon | disturb => trivial

/-- What a cycle on one endpoint leaves as it is: the records and the rows of all other endpoints,
and every action. It adds its checkpoint at most, and that to its own endpoint only. -/
structure Ledger.SparesOthers (e : EndpointId) (checkpoint : Option ActionId) (l l' : Ledger) :
    Prop where
  records : ∀ x ≠ e, ∀ id, l'.record? id x = l.record? id x
  endpoints : ∀ x ≠ e, l'.endpoint? x = l.endpoint? x
  actions : ∀ id a, l.action? id = some a → l'.action? id = some a
  added : ∀ id, l.action? id = none → (l'.action? id).isSome → checkpoint = some id
  targeted : ∀ id, l.action? id = none → ∀ x ≠ e, l'.record? id x = none

theorem Ledger.SparesOthers.later {e : EndpointId} {l l' : Ledger} (h : SparesOthers e none l l')
    (o : Option ActionId) : SparesOthers e o l l' :=
  ⟨h.records, h.endpoints, h.actions, fun id hnone hsome => (nomatch h.added id hnone hsome),
    h.targeted⟩

namespace Cycle

section pace

variable {k : Keeping} {policy : Policy} {wall : Instant} {c c' : Cycle} {l l' : Ledger}

def Untaken (c : Cycle) : Prop :=
  c.stage = .refreshing → c.report.checkpoint = none

theorem Pace.untaken (pace : Pace k policy wall c l c' l') : c'.Untaken := by
  intro hstage
  cases pace.visit with
  | loaded => exact checkpoint_advance.trans (checkpoint_of_refreshing hstage)
  | settled => exact checkpoint_advance.trans (checkpoint_of_refreshing hstage)
  | rested rests => exact absurd hstage rests.stage
  | spent | replied | checkpointed => cases hstage

theorem Pace.checkpoint_eq (pace : Pace k policy wall c l c' l') (hstage : c.stage ≠ .refreshing) :
    c'.report.checkpoint = c.report.checkpoint := by
  cases pace.visit with
  | loaded => exact checkpoint_advance
  | settled => exact checkpoint_settle
  | rested rests => exact rests.checkpoint
  | spent | replied => rfl
  | checkpointed stage => exact absurd stage hstage

theorem Pace.added (pace : Pace k policy wall c l c' l') {id : ActionId}
    (hnone : l.action? id = none) (hsome : (l'.action? id).isSome) :
    c'.report.checkpoint = some id := by
  have hsame : ∀ {l'' : Ledger}, l''.actions = l.actions → ¬ (l''.action? id).isSome := by
    intro l'' hactions
    rw [Ledger.action?, hactions]
    rw [Ledger.action?] at hnone
    simp [hnone]
  cases pace.visit with
  | loaded | replied => exact absurd hsome (hsame rfl)
  | spent => exact absurd hsome (hsame rfl)
  | settled current others actions => exact absurd hsome (hsame actions)
  | rested rests => exact absurd hsome (hsame rests.actions)
  | checkpointed =>
    rw [Ledger.action?_putEndpoint, Ledger.action?_issue] at hsome
    split at hsome
    · next hid => exact congrArg some hid
    · exact absurd hsome (hsame rfl)

end pace

section step

variable {σ χ : Type} [ActionRows σ] [Legible σ] [Transcribed σ] {policy : Policy} {wall : Instant}
  {channel : Channel χ} {r r' : Run σ χ}

theorem setBeside_step {x : EndpointId} {l : Ledger} (hs : Legible.Sound r.store.rows)
    (hx : x ≠ r.cycle.endpoint) (h : SetBeside x l r.store.rows)
    (hstep : step policy wall channel r = (.ok (), r')) : SetBeside x l r'.store.rows := by
  unfold step at hstep
  split at hstep
  · next work hw =>
    have hkept := Store.transact_keeps (serves_work? (X := (· ≠ x)) hx.symm hw)
      (withstands_beside x l) hs h
    split at hstep
    · cases hstep
    · next ht =>
      cases hstep
      rwa [ht] at hkept
  · split at hstep <;> cases hstep <;> exact h

theorem sparesOthers_step (hs : Legible.Sound r.store.rows)
    (hstep : step policy wall channel r = (.ok (), r')) :
    Ledger.SparesOthers r.cycle.endpoint r'.cycle.report.checkpoint
      (Legible.ledger r.store.rows) (Legible.ledger r'.store.rows) := by
  obtain ⟨-, pace⟩ := pace_of_step hs hstep
  have hl := Legible.wellFormed hs
  have hbeside : ∀ x ≠ r.cycle.endpoint,
      (Legible.ledger r.store.rows).Beside x (Legible.ledger r'.store.rows) := by
    intro x hx
    obtain ⟨l, hl⟩ := Transcribed.exists_transcript hs
    obtain ⟨l', hl', hbeside⟩ := setBeside_step hs hx ⟨l, hl, .refl x l⟩ hstep
    rw [← hl, ← hl', Transcribed.ledger_transcript, Transcribed.ledger_transcript]
    exact hbeside.kept
  refine ⟨fun x hx => (hbeside x hx).record, fun x hx => (hbeside x hx).endpoint,
    fun id a => pace.action_kept hl, fun id => pace.added, fun id hnone x hx => ?_⟩
  rw [(hbeside x hx).record id]
  by_contra hsome
  obtain ⟨found, hfound⟩ := Option.ne_none_iff_exists'.mp hsome
  have hthere := hl.record_action hfound
  rw [hnone] at hthere
  cases hthere

end step

end Cycle

namespace Weave

variable {σ χ : Type} [ActionRows σ] [Legible σ] [Transcribed σ] {policy : Policy}
  {channel : Cycle.Channel χ} {w w' : Weave σ χ} {e : EndpointId} {strokes : List Stroke}

structure Spares (e : EndpointId) (w : Weave σ χ) : Prop where
  sound : w.world.Sound
  here : w.cycle.endpoint = e
  untaken : w.cycle.Untaken
  trace : ∀ x ∈ w.trace, Ledger.SparesOthers e w.cycle.report.checkpoint x.1 x.2

theorem Spares.stroke {x : Stroke} (h : w.Spares e)
    (hstroke : w.stroke policy channel x = some w') : w'.Spares e := by
  obtain ⟨hs, rfl, untaken, trace⟩ := h
  cases x with
  | own wall =>
    obtain ⟨hstep, -, htrace⟩ := stroke_own hstroke
    obtain ⟨hs', pace⟩ := Cycle.pace_of_step hs hstep
    refine ⟨hs', pace.unmoved.1, pace.untaken, fun x hx => ?_⟩
    rw [htrace] at hx
    rcases List.mem_append.mp hx with hold | hnew
    · -- only this step takes a checkpoint, and before it none was added
      by_cases hstage : w.cycle.stage = .refreshing
      · have hspares := trace x hold
        rw [untaken hstage] at hspares
        exact hspares.later _
      · have hsame : w'.cycle.report.checkpoint = w.cycle.report.checkpoint :=
          pace.checkpoint_eq hstage
        rw [hsame]
        exact trace x hold
    · obtain rfl := List.mem_singleton.mp hnew
      exact Cycle.sparesOthers_step hs hstep
  | aside m =>
    obtain ⟨-, rfl⟩ := stroke_aside hstroke
    exact ⟨World.sound_step hs m, rfl, untaken, trace⟩

theorem spares_weave {now : Instant} {w₀ : World σ} {memory : χ} (hs : w₀.Sound)
    (h : weave policy channel e now w₀ memory strokes = some w) : w.Spares e :=
  strokes_keep (P := Spares e) (fun _ hw hstroke => hw.stroke hstroke)
    ⟨hs, rfl, fun hstage => Stage.noConfusion hstage, fun _ hx => absurd hx List.not_mem_nil⟩ h

end Weave

/-- An instant that stands for another one: the same, or what a clock shows for one of some other
times, both as they are shown or both as a store keeps them. -/
inductive Instant.StandsFor (k : Keeping) (times : Instant → Prop) (clock : Nat → Instant) :
    Instant → Instant → Prop
  | same (t : Instant) : StandsFor k times clock t t
  | shown {t : Instant} (ht : times t) (i : Nat) : StandsFor k times clock t (clock i)
  | kept {t : Instant} (ht : times t) (i : Nat) :
    StandsFor k times clock (k.time t) (k.time (clock i))

section alone

variable {σ χ : Type} [ActionRows σ] [Legible σ] [Transcribed σ] {policy : Policy}
  {channel : Cycle.Channel χ} {w w' : Weave σ χ} {e : EndpointId} {strokes : List Stroke}
  {L : Instant → Instant → Prop} {times : Instant → Prop} {clock : Nat → Instant} {now : Instant}
  {w₀ : World σ} {memory : χ}

theorem Instant.interchange_standsFor (dated : ∀ i, (clock i).IsDated) :
    Interchange (Legible.keeping σ) (StandsFor (Legible.keeping σ) times clock) where
  refl t := .same t
  restamps h := by
    cases h with
    | same => exact .inl rfl
    | shown _ i => exact .inr (dated i)
    | kept _ i => exact .inr (Transcribed.dated_time (dated i))
  kept h := by
    cases h with
    | same => exact .same _
    | shown ht i => exact .kept ht i
    | kept ht i =>
      rw [Transcribed.time_time, Transcribed.time_time]
      exact .kept ht i

/-- How far a cycle has come alone that has made as many steps as one among strokes of others. -/
inductive Weave.Alone (L : Instant → Instant → Prop) (policy : Policy) (channel : Cycle.Channel χ)
    (clock : Nat → Instant) (e : EndpointId) (now : Instant) (w₀ : World σ) (memory : χ)
    (w : Weave σ χ) : Prop
  | waiting (start : w.cycle = Cycle.start e now) (still : w.channel = memory)
    (parted : Cycle.Parted e w₀.ledger.lastId w.world.store.rows w₀.store.rows)
  | going {n : Nat} {o : Option ActionId} {q : Cycle.Run σ χ} (here : w.cycle.endpoint = e)
    (made : Cycle.driveAt policy channel n clock ⟨Cycle.start e now, w₀.store, memory⟩ =
      (.ok (), q))
    (abreast : Cycle.Abreast L w₀.ledger.lastId o w.run q)

namespace Weave

theorem Alone.own {wall : Instant} (hL : Instant.Interchange (Legible.keeping σ) L)
    (hwall : ∀ i, L wall (clock i)) (dated : ∀ i, (clock i).IsDated) (calm : w₀.store.Calm)
    (h : w.Alone L policy channel clock e now w₀ memory)
    (hstroke : w.stroke policy channel (.own wall) = some w') :
    w'.Alone L policy channel clock e now w₀ memory := by
  obtain ⟨hstep, -, -⟩ := stroke_own hstroke
  cases h with
  | waiting start still parted =>
    -- what others did before the load is all that the two runs do not share
    rw [run, start, still] at hstep
    obtain ⟨o, q, hfirst, abreast⟩ := Cycle.abreast_loaded hL (clock 0) parted calm hstep
    have hs := parted.1
    obtain ⟨-, pace⟩ := Cycle.pace_of_step hs hstep
    exact .going pace.unmoved.1 (Cycle.driveAt_succ_ok.mpr ⟨_, rfl, hfirst⟩) abreast
  | @going n o q here made abreast =>
    obtain ⟨o', q', hnext, abreast'⟩ := abreast.step hL (hwall n) (dated n) hstep
    obtain ⟨-, pace⟩ := Cycle.pace_of_step abreast.near.sound hstep
    exact .going (pace.unmoved.1.trans here) (Cycle.driveAt_succ_ok.mpr ⟨q, made, hnext⟩) abreast'

theorem Alone.aside {m : Move} (h : w.Alone L policy channel clock e now w₀ memory)
    (hstroke : w.stroke policy channel (.aside m) = some w') :
    w'.Alone L policy channel clock e now w₀ memory := by
  obtain ⟨haside, rfl⟩ := stroke_aside hstroke
  have hwithin := Move.within_of_isAside haside
  cases h with
  | waiting start still parted =>
    rw [start] at hwithin
    obtain ⟨hs, ht, l, hl, hlast, beside⟩ := parted
    have hkept := World.step_keeps (withstands_beside e l) hs beside hwithin
    exact .waiting start still ⟨World.sound_step hs m, ht, l, hl, hlast, hkept⟩
  | going here made abreast =>
    have hs := abreast.near.sound
    obtain ⟨l, hl⟩ := Transcribed.exists_transcript hs
    -- the move is seen from each ledger that the rows are a transcript of
    have hset (l : Ledger) (hl : Transcribed.transcript l = w.world.store.rows) :=
      World.step_keeps (withstands_beside w.cycle.endpoint l) hs ⟨l, hl, .refl _ l⟩ hwithin
    refine .going here made ⟨abreast.cycle, abreast.near.aside (World.sound_step hs m) hset,
      fun a ha => ?_, abreast.calm, abreast.channel⟩
    have hrecord := (hset l hl).record? a.id
    rw [hl] at hrecord
    obtain ⟨r, hr, queued⟩ := abreast.busy a ha
    exact ⟨r, hrecord.trans hr, queued⟩

theorem Alone.closed (hL : Instant.Interchange (Legible.keeping σ) L) (hs : w₀.Sound)
    (h : w.Alone L policy channel clock e now w₀ memory) (closed : w.cycle.stage = .closed) :
    ∃ s', Cycle.runAt policy channel clock e now w₀.store memory =
        (.ok (w.cycle.report.renumber
          (Ledger.standIn w₀.ledger.lastId w.cycle.report.checkpoint)), s', w.channel) ∧
      Ledger.SameFor L e w₀.ledger.lastId w.cycle.report.checkpoint w.world.ledger
        (Legible.ledger s'.rows) := by
  cases h with
  | waiting start =>
    rw [start] at closed
    cases closed
  -- the two runs have come equally far, so the lone one is closed as well
  | @going n o q here made abreast =>
    have htaken : w.cycle.report.checkpoint = o := abreast.cycle.report.taken
    obtain ⟨l, m, hl, hm, same⟩ := abreast.near.same
    have hclosed : q.cycle.stage = .closed := by
      have hstage := abreast.cycle.stage
      rw [run, closed] at hstage
      generalize q.cycle.stage = stage at hstage ⊢
      cases hstage
      rfl
    have hreport := abreast.cycle.report.eq_renumber fun new hnew => (same.own new hnew).1
    refine ⟨q.store, ?_, ?_⟩
    · rw [Cycle.runAt_of_closed hs made hclosed, hreport, abreast.channel, htaken]
      rfl
    · have hkept := same.kept (k := Legible.keeping σ) fun _ _ htu => hL.kept htu
      rw [← Transcribed.ledger_transcript, ← Transcribed.ledger_transcript, hl, hm] at hkept
      rw [htaken, ← here]
      exact hkept

end Weave

namespace World

theorem alone_weave (hL : Instant.Interchange (Legible.keeping σ) L)
    (hown : ∀ t i, Stroke.own t ∈ strokes → L t (clock i)) (dated : ∀ i, (clock i).IsDated)
    (hs : w₀.Sound) (calm : w₀.store.Calm)
    (h : Weave.weave policy channel e now w₀ memory strokes = some w) :
    w.Alone L policy channel clock e now w₀ memory := by
  refine Weave.strokes_keep (P := Weave.Alone L policy channel clock e now w₀ memory)
    (fun {w w' x} hx halone hstroke => ?_) ?_ h
  · cases x with
    | own wall => exact halone.own hL (fun i => hown wall i hx) dated calm hstroke
    | aside m => exact halone.aside hstroke
  · obtain ⟨l, hl⟩ := Transcribed.exists_transcript hs
    refine .waiting rfl rfl ⟨hs, hs, l, hl, ?_, l, hl, .refl e l⟩
    rw [ledger, ← hl, Transcribed.ledger_transcript]
    rfl

/-- Endpoints do not interfere. In any state that can come to be, a cycle on one endpoint makes its
steps among any moves that leave this endpoint alone: cycles on other endpoints, and actions that
are created for others. Each of its steps leaves the records and rows of all others as they are,
and every action; the cycle adds its checkpoint at most, for its endpoint only. If nothing is to
fail, a cycle alone from the same state makes the same calls, comes to the same report, and leaves
the endpoint with the same records and the same row, up to the id of the checkpoint and to what
the clocks show. -/
theorem cycle_undisturbed (events : List Event) (policy : Policy) (channel : Cycle.Channel χ)
    (e : EndpointId) (now : Instant) (memory : χ) (strokes : List Stroke) {w : Weave σ χ}
    (woven : Weave.weave policy channel e now (through events) memory strokes = some w) :
    (∀ x ∈ w.trace, Ledger.SparesOthers e w.cycle.report.checkpoint x.1 x.2) ∧
    ((through events : World σ).store.Calm → w.cycle.stage = .closed →
      ∀ clock : Nat → Instant, (∀ i, (clock i).IsDated) →
        ∃ s', Cycle.runAt policy channel clock e now (through events : World σ).store memory =
            (.ok (w.cycle.report.renumber (Ledger.standIn (through events : World σ).ledger.lastId
              w.cycle.report.checkpoint)), s', w.channel) ∧
          Ledger.SameFor
            (Instant.StandsFor (Legible.keeping σ) (fun t => Stroke.own t ∈ strokes) clock) e
            (through events : World σ).ledger.lastId w.cycle.report.checkpoint w.world.ledger
            (Legible.ledger s'.rows)) := by
  have hs : (through events : World σ).Sound := sound_through events
  refine ⟨(Weave.spares_weave hs woven).trace, fun calm closed clock dated => ?_⟩
  have hL : Instant.Interchange (Legible.keeping σ) (Instant.StandsFor (Legible.keeping σ)
      (fun t => Stroke.own t ∈ strokes) clock) := Instant.interchange_standsFor dated
  have halone := alone_weave hL (fun t i ht => .shown ht i) dated hs calm woven
  exact halone.closed hL hs closed

end World

end alone

namespace World

def oneInstall : List Event :=
  [.move (.create ⟨0, 0⟩ ⟨"install", ⟨0, 0⟩, none, ⟨"pkg.install", [.str "vim"], []⟩, ["m1"], 2⟩)]

def obliging : Cycle.Channel Unit :=
  ⟨fun _ _ => pure (.ok (some (.succeeded (.bool true)))), fun _ => pure (.ok (some true))⟩

def beside : List Stroke :=
  let policy : Policy := ⟨.standard, 5⟩
  [.own ⟨1, 0⟩,
    .aside (.create ⟨1, 0⟩ ⟨"ping", ⟨0, 0⟩, none, ⟨"test.ping", [], []⟩, ["m2"], 1⟩),
    .aside (.start "m2" ⟨1, 0⟩), .own ⟨2, 0⟩, .aside (.transact 0 policy ⟨2, 0⟩), .own ⟨2, 0⟩,
    .aside (.transact 0 policy ⟨2, 0⟩), .own ⟨3, 0⟩, .aside (.call 0 none), .own ⟨4, 0⟩,
    .own ⟨4, 0⟩, .own ⟨4, 0⟩, .own ⟨5, 0⟩]

theorem oneInstall_undisturbed : ∃ (w : Weave Ledger Unit) (s' : Store Ledger),
    Weave.weave ⟨.standard, 5⟩ obliging "m1" ⟨1, 0⟩ (through oneInstall) () beside = some w ∧
    w.cycle.report.checkpoint = some 3 ∧
    Cycle.runAt ⟨.standard, 5⟩ obliging (fun _ => ⟨7, 0⟩) "m1" ⟨1, 0⟩
        (through oneInstall : World Ledger).store () =
      (.ok (w.cycle.report.renumber (Ledger.standIn 1 (some 3))), s', ()) ∧
    Ledger.SameFor (Instant.StandsFor .exact (fun t => Stroke.own t ∈ beside) fun _ => ⟨7, 0⟩) "m1"
      1 (some 3) w.world.ledger (Legible.ledger s'.rows) := by
  have shown : (Weave.weave ⟨.standard, 5⟩ obliging "m1" ⟨1, 0⟩ (through oneInstall : World Ledger)
      () beside).any (fun w => w.cycle.stage matches .closed &&
        w.cycle.report.checkpoint == some 3) = true := by
    decide +kernel
  obtain ⟨w, woven, hw⟩ := (Option.any_eq_true _ _).mp shown
  obtain ⟨hstage, hcheckpoint⟩ := (Bool.and_eq_true _ _).mp hw
  have closed : w.cycle.stage = .closed := by
    cases h : w.cycle.stage <;> simp [h] at hstage
    rfl
  have calm : (through oneInstall : World Ledger).store.Calm :=
    ⟨by decide +kernel, by decide +kernel⟩
  have last : (through oneInstall : World Ledger).ledger.lastId = 1 := by decide +kernel
  obtain ⟨-, halone⟩ := cycle_undisturbed oneInstall ⟨.standard, 5⟩ obliging "m1" ⟨1, 0⟩ () beside
    woven
  obtain ⟨s', hran, same⟩ := halone calm closed (fun _ => ⟨7, 0⟩) fun _ => by decide
  rw [last, beq_iff_eq.mp hcheckpoint] at hran same
  exact ⟨w, s', woven, beq_iff_eq.mp hcheckpoint, hran, same⟩

end World

end FleetDispatch
