import FleetDispatch.Proofs.Dispatch.Service
import FleetDispatch.Program.Commands
import FleetDispatch.Proofs.Json.Depth
import FleetDispatch.Proofs.Json.Parsed
import FleetDispatch.Proofs.Store.Reading
import FleetDispatch.Proofs.Store.Twin

namespace FleetDispatch

namespace Tables

variable {t t' : Tables} {id : ActionId} {wall : Instant} {n : NewAction} {a : Action}

theorem actions_enlist {i : ActionId} {tries : Nat} {es : List EndpointId} {u : Unit}
    (h : enlist i tries es t = .ok u t') : t'.actions = t.actions := by
  induction es generalizing t with
  | nil =>
    cases h
    rfl
  | cons e es ih =>
    unfold enlist at h
    simp only [ensureEndpoint] at h
    split at h
    · cases h
    · have hrest := ih h
      exact hrest

theorem find?_insertAction (id : ActionId) (h : insertAction wall n t = .ok a t') :
    a.id = t.lastId + 1 ∧ Rows.find? id t'.actions =
      if a.id = id then some (ActionRow.encode a.id wall n) else Rows.find? id t.actions := by
  obtain ⟨-, hcreated, henlist⟩ := of_insertAction_eq_ok h
  have hid : a.id = t.lastId + 1 := by
    obtain ⟨s, -, h₁⟩ := of_bind_eq_ok hcreated
    obtain ⟨c, -, h₂⟩ := of_bind_eq_ok h₁
    rw [← Except.ok.inj h₂]
  rw [actions_enlist henlist, Rows.find?_put, hid]
  exact ⟨rfl, rfl⟩

theorem withstands_action (row : ActionRow) :
    Withstands (fun _ => True) fun t : Tables => Rows.find? id t.actions = some row where
  save _ hrow _ h := by
    obtain ⟨rfl, -⟩ := save_ok h
    exact hrow
  saveEndpoint _ hrow _ h := by
    cases h
    exact hrow
  recordCheckin _ hrow _ h := by
    cases h
    exact hrow
  insertAction {t t' wall n a} hs hrow _ h := by
    obtain ⟨hid, hfind⟩ := find?_insertAction id h
    have hthere : (t.reading.action? id).isSome := by
      rw [action?_reading, hrow]
      rfl
    have hle : id ≤ t.lastId := ((hs.wellFormed.action_iff id).mp hthere).2
    have hne : a.id ≠ id := by
      rw [hid]
      exact (Int.ne_of_lt (Int.lt_add_one_of_le hle)).symm
    rw [hfind, if_neg hne, hrow]

theorem decode_encode_created (h : created id wall n = .ok a) :
    (ActionRow.encode id wall n).decode =
      ((Procedure.ofText n.procedure.toText).mapError fun m => .invalidData (.procedure m)).map
        fun p => { a with procedure := p } := by
  obtain ⟨s, hs, h₁⟩ := of_bind_eq_ok h
  obtain ⟨c, hc, h₂⟩ := of_bind_eq_ok h₁
  obtain rfl := Except.ok.inj h₂
  simp only [ActionRow.decode, ActionRow.encode, Column.int, Column.optionalInt_ofOption, bind,
    Except.bind]
  cases Procedure.ofText n.procedure.toText with
  | error m => rfl
  | ok p =>
    simp only [Except.mapError, hs, hc]
    rfl

end Tables

variable {wall : Instant} {n : NewAction} {a : Action}

namespace World

theorem find?_accepted (events later : List Event)
    (accepted : ((through events : World Tables).store.createAction wall n).1 = .ok a) :
    Tables.created a.id wall n = .ok a ∧ Rows.find? a.id
      (through (events ++ .move (.create wall n) :: later) : World Tables).store.rows.actions =
        some (ActionRow.encode a.id wall n) := by
  have hs := sound_through (σ := Tables) events
  have hnext := sound_meet hs (.move (.create wall n))
  cases hcreate : (through events : World Tables).store.createAction wall n with
  | mk answer s' =>
    rw [hcreate] at accepted
    obtain rfl : answer = .ok a := accepted
    have hinserted := Store.perform_ok hcreate
    obtain ⟨-, hcreated, -⟩ := Tables.of_insertAction_eq_ok hinserted
    obtain ⟨hid, hfind⟩ := Tables.find?_insertAction a.id hinserted
    have hstore : ((through events : World Tables).meet (.move (.create wall n))).store = s' :=
      congrArg Prod.snd hcreate
    have hthere : Rows.find? a.id
        ((through events : World Tables).meet (.move (.create wall n))).store.rows.actions =
        some (ActionRow.encode a.id wall n) := by
      rw [hstore, hfind, if_pos rfl]
    refine ⟨hid ▸ hcreated, ?_⟩
    unfold through
    rw [List.foldl_append, List.foldl_cons]
    exact foldl_meet_keeps (Tables.withstands_action _) hnext hthere later

/-- What is read of an action that was accepted depends on the text of its procedure alone. -/
theorem loadAction_eq (events later : List Event)
    (accepted : ((through events : World Tables).store.createAction wall n).1 = .ok a)
    {w : World Tables} (after : w = through (events ++ .move (.create wall n) :: later)) :
    a.procedure = n.procedure ∧ ActionRows.loadAction a.id w.store.rows = Tables.look (fun _ =>
      ((Procedure.ofText n.procedure.toText).mapError fun m => .invalidData (.procedure m)).map
        fun p => { a with procedure := p }) w.store.rows := by
  obtain ⟨hcreated, hfind⟩ := find?_accepted events later accepted
  rw [← after] at hfind
  constructor
  · obtain ⟨s, -, h₁⟩ := of_bind_eq_ok hcreated
    obtain ⟨c, -, h₂⟩ := of_bind_eq_ok h₁
    rw [← Except.ok.inj h₂]
  · rw [← Tables.decode_encode_created hcreated]
    change Tables.look (Tables.action a.id) w.store.rows = _
    unfold Tables.look Tables.action
    rw [hfind]

end World

namespace Program

theorem isPlain_argument {raw : String} (hwhole : (argument raw).isWhole = true) :
    (argument raw).isPlain = true := by
  unfold argument at hwhole ⊢
  cases hparse : Json.parse raw with
  | error m => rfl
  | ok v =>
    rw [hparse] at hwhole
    exact Json.isPlain_parse hparse hwhole

theorem isPlain_arguments (function : String) {raws : List String}
    (hwhole : ∀ raw ∈ raws, (argument raw).isWhole = true) :
    (Procedure.toJson ⟨function, raws.map argument, []⟩).isPlain = true := by
  have hargs : Json.arePlain (raws.map argument) = true := by
    induction raws with
    | nil => rfl
    | cons raw raws ih =>
      rw [List.map_cons, Json.arePlain, Bool.and_eq_true]
      exact ⟨isPlain_argument (hwhole raw List.mem_cons_self),
        ih fun r hr => hwhole r (List.mem_cons_of_mem _ hr)⟩
  have hascending : [("args", Json.arr (raws.map argument)), ("function", .str function),
      ("kwargs", .obj [])].Pairwise (fun f g => f.1 < g.1) := by
    have horder : "args" < "function" ∧ "args" < "kwargs" ∧ "function" < "kwargs" := by decide
    simp only [List.pairwise_cons, List.mem_cons, List.not_mem_nil, or_false, forall_eq_or_imp,
      forall_eq, horder, and_self, false_imp_iff, implies_true, List.Pairwise.nil]
  rw [Procedure.toJson, Json.isPlain, Bool.and_eq_true, decide_eq_true_eq]
  exact ⟨hascending, by simp [Json.havePlain, Json.isPlain, hargs]⟩

theorem argument_compact {v : Json} (hplain : v.isPlain = true)
    (hdepth : v.depth ≤ Json.depthLimit) : argument (Json.compact v) = v := by
  unfold argument
  rw [Json.parse_compact hplain hdepth]
  rfl

end Program

def Json.nest : Nat → Json
  | 0 => .arr []
  | n + 1 => .arr [nest n]

theorem Json.depth_nest (n : Nat) : (nest n).depth = n + 1 := by
  induction n with
  | zero => rfl
  | succ n ih => simp [nest, depth, depthOfItems, ih]

theorem Json.isPlain_nest (n : Nat) : (nest n).isPlain = true := by
  induction n with
  | zero => rfl
  | succ n ih => simp [nest, isPlain, arePlain, ih]

theorem Json.isWhole_nest (n : Nat) : (nest n).isWhole = true := by
  induction n with
  | zero => rfl
  | succ n ih => simpa [nest, isWhole, all, allItems, notFraction] using ih

namespace World

theorem createAction_initial {e : EndpointId} (hprerequisite : n.prerequisite = none)
    (hendpoints : n.endpoints = [e]) (h : Tables.created 1 wall n = .ok a) :
    ((through [] : World Tables).store.createAction wall n).1 = .ok a := by
  have hinsert : ∃ t', Tables.insertAction wall n .empty = .ok a t' := by
    unfold Tables.insertAction
    rw [hprerequisite, hendpoints]
    change ∃ t', Tables.look (fun _ => Tables.created 1 wall n) _ = _
    rw [h]
    exact ⟨_, rfl⟩
  obtain ⟨t', hinsert⟩ := hinsert
  have hcalm : (Store.empty : Store Tables).Calm := ⟨rfl, rfl⟩
  exact congrArg Prod.fst (hcalm.perform hinsert)

def typed (raw : String) : NewAction :=
  ⟨"echo", ⟨0, 0⟩, none, ⟨"test.echo", [Program.argument raw], []⟩, ["web-1"], 3⟩

def answer (n : NewAction) : Action :=
  ⟨1, n.name, n.scheduledAt, n.prerequisite, n.procedure, ⟨0, 0⟩⟩

theorem accepted_typed (raw : String) :
    ((through [] : World Tables).store.createAction ⟨0, 0⟩ (typed raw)).1 =
      .ok (answer (typed raw)) := by
  have htime : timeOf (Instant.toMillis ⟨0, 0⟩) = .ok ⟨0, 0⟩ :=
    Instant.timeOf_toMillis (Instant.IsWhole.floorMillis? (by decide))
  refine createAction_initial rfl rfl ?_
  simp only [Tables.created, typed, htime]
  rfl

/-- Lists are typed with as many brackets, and stored two deeper. -/
theorem typed_nest {k : Nat} (hk : k < Json.depthLimit) :
    (typed (Json.compact (.nest k))).procedure.toJson.isPlain = true ∧
      (typed (Json.compact (.nest k))).procedure.toJson.depth = k + 3 := by
  have hraw : Program.argument (Json.compact (.nest k)) = .nest k :=
    Program.argument_compact (Json.isPlain_nest k) (by rw [Json.depth_nest]; exact hk)
  constructor
  · have hwhole : ∀ raw ∈ [Json.compact (.nest k)], (Program.argument raw).isWhole = true := by
      intro raw hmem
      rw [List.mem_singleton.mp hmem, hraw]
      exact Json.isWhole_nest k
    exact Program.isPlain_arguments "test.echo" hwhole
  · rw [Procedure.depth_toJson, typed, hraw]
    simp [Json.depthOfItems, Json.depthOfFields, Json.depth_nest]

/-- An action that was accepted is read back as it was answered, whatever happens in between, as
long as the text of its procedure is not deeper than the reader goes. A deeper one is accepted as
well, and can never be read. -/
theorem loadAction_accepted (events later : List Event)
    (accepted : ((through events : World Tables).store.createAction wall n).1 = .ok a)
    (plain : n.procedure.toJson.isPlain = true) {w : World Tables}
    (after : w = through (events ++ .move (.create wall n) :: later)) :
    (n.procedure.toJson.depth ≤ Json.depthLimit →
      ActionRows.loadAction a.id w.store.rows = .ok a w.store.rows) ∧
    (Json.depthLimit < n.procedure.toJson.depth → ∃ m,
      ActionRows.loadAction a.id w.store.rows =
        .error (.invalidData (.procedure (some m))) w.store.rows) := by
  obtain ⟨hprocedure, hload⟩ := loadAction_eq events later accepted after
  rw [hload]
  constructor
  · intro hdepth
    have hstorable : n.procedure.isStorable = true := by
      rw [Procedure.isStorable, plain, Bool.true_and]
      exact decide_eq_true hdepth
    rw [Procedure.ofText_toText hstorable, ← hprocedure]
    rfl
  · intro hdepth
    obtain ⟨m, hm⟩ := Procedure.ofText_toText_deep plain hdepth
    rw [hm]
    exact ⟨m, rfl⟩

def asked (k : Nat) : World Tables :=
  through [.move (.create ⟨0, 0⟩ (typed (Json.compact (.nest k))))]

theorem loadAction_asked :
    ActionRows.loadAction 1 (asked 124).store.rows =
      .ok (answer (typed (Json.compact (.nest 124)))) (asked 124).store.rows ∧
    ∃ m, ActionRows.loadAction 1 (asked 125).store.rows =
      .error (.invalidData (.procedure (some m))) (asked 125).store.rows := by
  obtain ⟨hplain, hdepth⟩ := typed_nest (k := 124) (by decide)
  obtain ⟨hplain', hdepth'⟩ := typed_nest (k := 125) (by decide)
  constructor
  · refine (loadAction_accepted [] [] (accepted_typed _) hplain rfl).1 ?_
    rw [hdepth]
    decide
  · refine (loadAction_accepted [] [] (accepted_typed _) hplain' rfl).2 ?_
    rw [hdepth']
    decide

theorem accepted_unreadable : ∃ (raw : String) (a : Action),
    (typed raw).procedure.toJson.isPlain = true ∧
    ((through [] : World Tables).store.createAction ⟨0, 0⟩ (typed raw)).1 = .ok a ∧
    ∀ b rows, ActionRows.loadAction a.id
      (through [.move (.create ⟨0, 0⟩ (typed raw))] : World Tables).store.rows ≠ .ok b rows := by
  obtain ⟨hplain, hdepth⟩ := typed_nest (k := 125) (by decide)
  refine ⟨_, _, hplain, accepted_typed _, fun b rows => ?_⟩
  obtain ⟨-, hload⟩ := loadAction_eq [] [] (accepted_typed (Json.compact (.nest 125))) rfl
  obtain ⟨m, hm⟩ := Procedure.ofText_toText_deep hplain (by rw [hdepth]; decide)
  rw [hm] at hload
  intro h
  cases hload.symm.trans h

end World

end FleetDispatch
