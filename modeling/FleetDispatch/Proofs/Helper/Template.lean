import FleetDispatch.Helper.Template
import FleetDispatch.Proofs.Json.Stored
import FleetDispatch.Proofs.Text.Substitute

namespace FleetDispatch.Template

open Text

variable {endpoint function entry : String} {mark rest cs u w : List Char} {c : Char}

theorem endpointMark_ne_nil : endpointMark.toList ≠ [] := by decide

theorem functionMark_ne_nil : functionMark.toList ≠ [] := by decide

theorem endpointMark_clear : Clear endpointMark.toList functionMark.toList := by decide

theorem functionMark_clear : Clear functionMark.toList endpointMark.toList := by decide

theorem endpointMark_apart : Clear endpointMark.toList endpointMark.toList.tail := by decide

theorem functionMark_apart : Clear functionMark.toList functionMark.toList.tail := by decide

inductive Piece where
  | text (c : Char)
  | endpoint
  | function
  deriving DecidableEq

def Piece.value (endpoint function : String) : Piece → List Char
  | .text c => [c]
  | .endpoint => endpoint.toList
  | .function => function.toList

/-- The pieces of an entry, read once from the left. -/
def pieces (cs : List Char) : List Piece :=
  match cs with
  | [] => []
  | c :: cs' =>
    match _h : dropMark endpointMark.toList (c :: cs') with
    | some rest => .endpoint :: pieces rest
    | none =>
      match _h' : dropMark functionMark.toList (c :: cs') with
      | some rest => .function :: pieces rest
      | none => .text c :: pieces cs'
termination_by cs.length
decreasing_by
  · exact length_lt_of_dropMark endpointMark_ne_nil _h
  · exact length_lt_of_dropMark functionMark_ne_nil _h'
  · simp

/-- An entry with each mark that is written in it replaced, and with nothing else changed. -/
def literal (endpoint function entry : String) : String :=
  String.ofList ((pieces entry.toList).flatMap (Piece.value endpoint function))

theorem pieces_of_endpoint (h : dropMark endpointMark.toList cs = some rest) :
    pieces cs = .endpoint :: pieces rest := by
  cases cs with
  | nil => cases h
  | cons c cs =>
    rw [pieces]
    split
    · next h' => rw [Option.some.inj (h'.symm.trans h)]
    · next h' => cases h'.symm.trans h

theorem pieces_of_function (none : dropMark endpointMark.toList cs = none)
    (h : dropMark functionMark.toList cs = some rest) : pieces cs = .function :: pieces rest := by
  cases cs with
  | nil => cases h
  | cons c cs =>
    rw [pieces]
    split
    · next h' => cases none.symm.trans h'
    · split
      · next h' => rw [Option.some.inj (h'.symm.trans h)]
      · next h' => cases h'.symm.trans h

theorem pieces_text (h : ¬ endpointMark.toList <+: c :: cs)
    (h' : ¬ functionMark.toList <+: c :: cs) : pieces (c :: cs) = .text c :: pieces cs := by
  rw [pieces]
  split
  · next hsome => cases (dropMark_eq_none.mpr h).symm.trans hsome
  · split
    · next hsome => cases (dropMark_eq_none.mpr h').symm.trans hsome
    · rfl

theorem pieces_endpoint (rest : List Char) :
    pieces (endpointMark.toList ++ rest) = .endpoint :: pieces rest :=
  pieces_of_endpoint (dropMark_append _ rest)

theorem pieces_function (rest : List Char) :
    pieces (functionMark.toList ++ rest) = .function :: pieces rest :=
  pieces_of_function (dropMark_eq_none.mpr (endpointMark_clear.head rest)) (dropMark_append _ rest)

@[elab_as_elim]
theorem reading {P : List Char → Prop} (nil : P [])
    (endpoint : ∀ rest, P rest → P (endpointMark.toList ++ rest))
    (function : ∀ rest, P rest → P (functionMark.toList ++ rest))
    (text : ∀ c cs, ¬ endpointMark.toList <+: c :: cs → ¬ functionMark.toList <+: c :: cs →
      P cs → P (c :: cs)) (cs : List Char) : P cs := by
  fun_induction pieces cs with
  | case1 => exact nil
  | case2 c cs rest h ih => exact dropMark_eq_some h ▸ endpoint rest ih
  | case3 c cs h rest h' ih => exact dropMark_eq_some h' ▸ function rest ih
  | case4 c cs h h' ih =>
    exact text c cs (dropMark_eq_none.mp h) (dropMark_eq_none.mp h') ih

/-- The first of the two substitutions leaves the marks of the function where they are. -/
theorem substitute_endpoint (endpoint : String) (cs : List Char) :
    substitute endpointMark.toList endpoint.toList cs =
      (pieces cs).flatMap (Piece.value endpoint functionMark) := by
  induction cs using reading with
  | nil => rw [substitute, pieces, List.flatMap_nil]
  | endpoint rest ih =>
    rw [substitute_mark endpointMark_ne_nil, ih, pieces_endpoint, List.flatMap_cons, Piece.value]
  | function rest ih =>
    rw [endpointMark_clear.substitute_over, ih, pieces_function, List.flatMap_cons, Piece.value]
  | text c cs h h' ih =>
    rw [substitute_char h, ih, pieces_text h h', List.flatMap_cons, Piece.value,
      List.singleton_append]

theorem pieces_around {p : Piece} (hp : pieces (mark ++ w) = p :: pieces w)
    (he : Clear mark endpointMark.toList.tail) (hf : Clear mark functionMark.toList.tail) :
    pieces (u ++ (mark ++ w)) = pieces u ++ p :: pieces w := by
  induction u using reading with
  | nil => rw [List.nil_append, hp, pieces, List.nil_append]
  | endpoint rest ih =>
    rw [List.append_assoc, pieces_endpoint, ih, pieces_endpoint, List.cons_append]
  | function rest ih =>
    rw [List.append_assoc, pieces_function, ih, pieces_function, List.cons_append]
  | text c cs h h' ih =>
    -- a mark that began here would run into the one that is written further on
    rw [List.cons_append, pieces_text ((he.prefix_iff c cs w).not.mpr h)
      ((hf.prefix_iff c cs w).not.mpr h'), ih, pieces_text h h', List.cons_append]

/-- Each mark that is written in an entry is filled, and all else is left as it is. -/
structure Literally (endpoint function : String) (filled : String → String) : Prop where
  endpoint_filled : ∀ before after,
    filled (before ++ endpointMark ++ after) = filled before ++ endpoint ++ filled after
  function_filled : ∀ before after,
    filled (before ++ functionMark ++ after) = filled before ++ function ++ filled after
  unmarked : ∀ entry, ¬ endpointMark.toList <:+: entry.toList →
    ¬ functionMark.toList <:+: entry.toList → filled entry = entry

theorem values_unmarked (h : ¬ endpointMark.toList <:+: cs) (h' : ¬ functionMark.toList <:+: cs) :
    (pieces cs).flatMap (Piece.value endpoint function) = cs := by
  induction cs using reading with
  | nil => rw [pieces, List.flatMap_nil]
  | endpoint rest => exact absurd (List.prefix_append _ rest).isInfix h
  | function rest => exact absurd (List.prefix_append _ rest).isInfix h'
  | text c cs begins begins' ih =>
    have rest := (List.suffix_cons c cs).isInfix
    rw [pieces_text begins begins', List.flatMap_cons, Piece.value,
      ih (fun found => h (found.trans rest)) (fun found => h' (found.trans rest)),
      List.singleton_append]

theorem literally_literal (endpoint function : String) :
    Literally endpoint function (literal endpoint function) where
  endpoint_filled before after := by
    simp only [literal, String.toList_append,
      pieces_around (pieces_endpoint _) endpointMark_apart endpointMark_clear.tail,
      List.flatMap_append, List.flatMap_cons, Piece.value, String.ofList_append,
      String.ofList_toList, String.append_assoc]
  function_filled before after := by
    simp only [literal, String.toList_append,
      pieces_around (pieces_function _) functionMark_clear.tail functionMark_apart,
      List.flatMap_append, List.flatMap_cons, Piece.value, String.ofList_append,
      String.ofList_toList, String.append_assoc]
  unmarked entry h h' := by rw [literal, values_unmarked h h', String.ofList_toList]

theorem Literally.unique {filled other : String → String} (h : Literally endpoint function filled)
    (h' : Literally endpoint function other) : filled = other := by
  funext entry
  induction long : entry.toList.length using Nat.strong_induction_on generalizing entry with
  | _ n ih =>
    -- a mark parts an entry into two shorter ones
    have parted {mark : String} (ne : mark.toList ≠ []) (found : mark.toList <:+: entry.toList) :
        ∃ before after, entry = before ++ mark ++ after ∧ filled before = other before ∧
          filled after = other after := by
      obtain ⟨before, after, hentry⟩ := found
      have parts : entry = String.ofList before ++ mark ++ String.ofList after := by
        rw [← String.toList_inj, ← hentry]
        simp
      have some := List.length_pos_iff.mpr ne
      have sum := congrArg List.length hentry
      rw [List.length_append, List.length_append, long] at sum
      exact ⟨_, _, parts, ih before.length (by omega) _ (by simp),
        ih after.length (by omega) _ (by simp)⟩
    by_cases found : endpointMark.toList <:+: entry.toList
    · obtain ⟨before, after, rfl, hbefore, hafter⟩ := parted endpointMark_ne_nil found
      rw [h.endpoint_filled, h'.endpoint_filled, hbefore, hafter]
    by_cases found' : functionMark.toList <:+: entry.toList
    · obtain ⟨before, after, rfl, hbefore, hafter⟩ := parted functionMark_ne_nil found'
      rw [h.function_filled, h'.function_filled, hbefore, hafter]
    rw [h.unmarked entry found found', h'.unmarked entry found found']

section strays

variable {p : Piece} {ps : List Piece}

/-- Goes through the pieces of an entry with the text since the last mark of the function. -/
@[elab_as_elim]
theorem between (endpoint : String) {P : List Char → List Piece → Prop} (nil : ∀ u, P u [])
    (kept : ∀ u p ps, p ≠ .function → P (u ++ p.value endpoint functionMark) ps → P u (p :: ps))
    (function : ∀ u ps, P [] ps → P u (.function :: ps)) (u : List Char) (ps : List Piece) :
    P u ps := by
  induction ps generalizing u with
  | nil => exact nil u
  | cons p ps ih =>
    by_cases h : p = .function
    · exact h ▸ function u ps (ih [])
    · exact kept u p ps h (ih _)

theorem values_kept (h : p ≠ .function) :
    u ++ (p :: ps).flatMap (Piece.value endpoint function) =
      u ++ p.value endpoint functionMark ++ ps.flatMap (Piece.value endpoint function) := by
  rw [List.flatMap_cons, List.append_assoc]
  cases p with
  | text | endpoint => rfl
  | function => exact absurd rfl h

theorem places_function :
    places functionMark.toList
        (u ++ (.function :: ps).flatMap (Piece.value endpoint functionMark)) =
      places functionMark.toList u + 1 +
        places functionMark.toList (ps.flatMap (Piece.value endpoint functionMark)) :=
  places_around functionMark_ne_nil functionMark_apart

theorem substitute_function :
    substitute functionMark.toList function.toList
        (u ++ (.function :: ps).flatMap (Piece.value endpoint functionMark)) =
      substitute functionMark.toList function.toList u ++ (function.toList ++
        substitute functionMark.toList function.toList
          (ps.flatMap (Piece.value endpoint functionMark))) :=
  substitute_around functionMark_ne_nil functionMark_apart

theorem count_le_places (endpoint : String) (u : List Char) (ps : List Piece) :
    ps.count .function ≤
      places functionMark.toList (u ++ ps.flatMap (Piece.value endpoint functionMark)) := by
  induction u, ps using between endpoint with
  | nil u => exact Nat.zero_le _
  | kept u p ps h ih => rwa [values_kept h, List.count_cons_of_ne h]
  | function u ps ih =>
    rw [List.nil_append] at ih
    rw [places_function, List.count_cons_self]
    omega

theorem length_values (endpoint function : String) (ps : List Piece) :
    (ps.flatMap (Piece.value endpoint function)).length +
        ps.count .function * functionMark.toList.length =
      (ps.flatMap (Piece.value endpoint functionMark)).length +
        ps.count .function * function.toList.length := by
  induction ps with
  | nil => simp
  | cons p ps ih =>
    have one : (p.value endpoint function).length +
          [p].count .function * functionMark.toList.length =
        (p.value endpoint functionMark).length + [p].count .function * function.toList.length := by
      cases p with
      | text | endpoint => simp [Piece.value]
      | function => simp [Piece.value, Nat.add_comm]
    rw [← List.singleton_append, List.count_append, List.flatMap_append, List.flatMap_append]
    simp only [List.length_append, List.flatMap_singleton, Nat.add_mul]
    omega

/-- Where no mark comes in with the endpoint, the two substitutions are one. -/
theorem substitute_of_places_le
    (h : places functionMark.toList (u ++ ps.flatMap (Piece.value endpoint functionMark)) ≤
      ps.count .function) :
    substitute functionMark.toList function.toList
        (u ++ ps.flatMap (Piece.value endpoint functionMark)) =
      u ++ ps.flatMap (Piece.value endpoint function) := by
  induction u, ps using between endpoint with
  | nil u =>
    rw [List.flatMap_nil, List.append_nil] at h ⊢
    exact (substitute_of_places functionMark_ne_nil functionMark_apart (Nat.le_zero.mp h)).trans
      (List.append_nil u).symm
  | kept u p ps hp ih =>
    rw [values_kept hp] at h ⊢
    rw [values_kept hp]
    exact ih (by rwa [List.count_cons_of_ne hp] at h)
  | function u ps ih =>
    rw [places_function, List.count_cons_self] at h
    -- every piece `function` writes one mark, so within the bound no mark is left over in `u` or
    -- across the seam with what follows
    have written := count_le_places endpoint [] ps
    rw [List.nil_append] at written ih
    rw [substitute_function, ih (by omega),
      substitute_of_places functionMark_ne_nil functionMark_apart (by omega)]
    rfl

theorem places_of_substitute (long : function.toList.length = functionMark.toList.length)
    (h : substitute functionMark.toList function.toList
        (u ++ ps.flatMap (Piece.value endpoint functionMark)) =
      u ++ ps.flatMap (Piece.value endpoint function)) :
    function.toList = functionMark.toList ∨
      places functionMark.toList (u ++ ps.flatMap (Piece.value endpoint functionMark)) =
        ps.count .function := by
  induction u, ps using between endpoint with
  | nil u =>
    rw [List.flatMap_nil, List.flatMap_nil, List.append_nil] at h
    rw [List.flatMap_nil, List.append_nil]
    exact substitute_eq_self functionMark_ne_nil long h
  | kept u p ps hp ih =>
    rw [values_kept hp, values_kept hp] at h
    rw [values_kept hp, List.count_cons_of_ne hp]
    exact ih h
  | function u ps ih =>
    -- the text before the mark keeps its length, so the equation comes apart there
    have same := length_substitute functionMark_ne_nil functionMark_apart function.toList u
    rw [long] at same
    rw [substitute_function, List.flatMap_cons, Piece.value] at h
    obtain ⟨before, h⟩ := List.append_inj h (by omega)
    rcases substitute_eq_self functionMark_ne_nil long before with hf | none
    · exact .inl hf
    · rcases ih (List.append_cancel_left h) with hf | rest
      · exact .inl hf
      · rw [List.nil_append] at rest
        rw [places_function, none, rest, List.count_cons_self]
        exact .inr (by omega)

/-- A character of the mark that is nowhere around it keeps other marks away. -/
theorem places_le_of_missing {b : Char} (mark : b ∈ functionMark.toList)
    (absent : b ∉ endpoint.toList) (before : b ∉ u) (unwritten : .text b ∉ ps) :
    places functionMark.toList (u ++ ps.flatMap (Piece.value endpoint functionMark)) ≤
      ps.count .function := by
  have none {u : List Char} (before : b ∉ u) : places functionMark.toList u = 0 :=
    places_eq_zero.mpr fun h => before (h.subset mark)
  induction u, ps using between endpoint with
  | nil u => rw [List.flatMap_nil, List.append_nil, none before]; exact Nat.zero_le _
  | kept u p ps hp ih =>
    rw [List.mem_cons, not_or] at unwritten
    rw [values_kept hp, List.count_cons_of_ne hp]
    refine ih (fun h => ?_) unwritten.2
    -- `b` is in no piece but the function itself, which splits the text
    rcases List.mem_append.mp h with h | h
    · exact before h
    · cases p with
      | text c => exact unwritten.1 (by rw [List.mem_singleton.mp h])
      | endpoint => exact absent h
      | function => exact hp rfl
  | function u ps ih =>
    have rest := ih List.not_mem_nil fun h => unwritten (List.mem_cons_of_mem _ h)
    rw [List.nil_append] at rest
    rw [places_function, none before, List.count_cons_self]
    omega

end strays

/-- Whether a mark of the function comes into an entry with the endpoint. -/
def Strays (endpoint entry : String) : Prop :=
  (pieces entry.toList).count .function <
    places functionMark.toList (substitute endpointMark.toList endpoint.toList entry.toList)

instance (endpoint entry : String) : Decidable (Strays endpoint entry) :=
  inferInstanceAs (Decidable (_ < _))

theorem not_strays_of_missing {b : Char} (mark : b ∈ functionMark.toList)
    (absent : b ∉ endpoint.toList) (unwritten : .text b ∉ pieces entry.toList) :
    ¬ Strays endpoint entry := by
  rw [Strays, not_lt, substitute_endpoint]
  exact places_le_of_missing (u := []) mark absent List.not_mem_nil unwritten

-- an endpoint without a brace makes a mark with what is written around it
example : Strays "tion" "\x7bfunc\x7bendpoint\x7d\x7d" := by decide +kernel

/-- The marks of an entry are filled in literally, unless one of the function comes in with the
endpoint; it would go unnoticed only where the function is called by that very text. -/
theorem fill_eq_literal_iff : fill endpoint function entry = literal endpoint function entry ↔
    function = functionMark ∨ ¬ Strays endpoint entry := by
  rw [Strays, not_lt, fill, literal, substitute_endpoint, String.ofList_inj]
  constructor
  · intro h
    have filled := length_substitute functionMark_ne_nil functionMark_apart function.toList
      ((pieces entry.toList).flatMap (Piece.value endpoint functionMark))
    have values := length_values endpoint function (pieces entry.toList)
    have written := count_le_places endpoint [] (pieces entry.toList)
    rw [List.nil_append] at written
    -- each of the `d` further marks makes the text longer by what the function has over its mark
    obtain ⟨d, hd⟩ := Nat.exists_eq_add_of_le written
    rcases Nat.eq_zero_or_pos d with rfl | some
    · exact .inr hd.le
    · rw [h, hd, Nat.add_mul, Nat.add_mul] at filled
      have long : function.toList.length = functionMark.toList.length :=
        Nat.eq_of_mul_eq_mul_left some (by omega)
      rcases places_of_substitute (u := []) long h with hf | none
      · exact .inl (String.toList_inj.mp hf)
      · exact .inr none.le
  · rintro (rfl | h)
    · exact substitute_self functionMark_ne_nil _
    · exact substitute_of_places_le (u := []) h

theorem fill_unmarked (h : ¬ endpointMark.toList <:+: entry.toList)
    (h' : ¬ functionMark.toList <:+: entry.toList) : fill endpoint function entry = entry := by
  rw [fill, substitute_of_places endpointMark_ne_nil endpointMark_apart (places_eq_zero.mpr h),
    substitute_of_places functionMark_ne_nil functionMark_apart (places_eq_zero.mpr h'),
    String.ofList_toList]

theorem fill_functionMark : fill endpoint function functionMark = function := by
  have written : pieces functionMark.toList = [.function] := by decide +kernel
  have alone : ¬ Strays endpoint functionMark := by
    rw [Strays, substitute_endpoint, written, List.flatMap_singleton, Piece.value]
    decide
  rw [fill_eq_literal_iff.mpr (.inr alone), literal, written, List.flatMap_singleton, Piece.value,
    String.ofList_toList]

theorem fill_endpointMark : fill endpoint function endpointMark = endpoint ↔
    function = functionMark ∨ ¬ functionMark.toList <:+: endpoint.toList := by
  have written : pieces endpointMark.toList = [.endpoint] := by decide +kernel
  have own : literal endpoint function endpointMark = endpoint := by
    rw [literal, written, List.flatMap_singleton, Piece.value, String.ofList_toList]
  have strays : Strays endpoint endpointMark ↔ functionMark.toList <:+: endpoint.toList := by
    rw [Strays, substitute_endpoint, written, List.flatMap_singleton, Piece.value,
      List.count_singleton, if_neg (by decide), Nat.pos_iff_ne_zero, ne_eq, places_eq_zero, not_not]
  rw [← strays, ← fill_eq_literal_iff, own]

theorem render_standard_iff (endpoint : String) (p : Procedure) :
    standard.render endpoint p = ["--out=json", "--static", endpoint, p.function] ++
        (p.args.map Json.render ++ p.kwargs.map fun f => f.1 ++ "=" ++ f.2.render) ↔
      p.function = functionMark ∨ ¬ functionMark.toList <:+: endpoint.toList := by
  have out : fill endpoint p.function "--out=json" = "--out=json" :=
    fill_unmarked (by decide) (by decide)
  have static : fill endpoint p.function "--static" = "--static" :=
    fill_unmarked (by decide) (by decide)
  have rendered : standard.render endpoint p =
      ["--out=json", "--static", fill endpoint p.function endpointMark, p.function] ++
        (p.args.map Json.render ++ p.kwargs.map fun f => f.1 ++ "=" ++ f.2.render) := by
    have other {entry : String} (h : entry ≠ argsMark) (h' : entry ≠ kwargsMark) :
        expand endpoint p entry = [fill endpoint p.function entry] := by
      rw [expand, if_neg h, if_neg h']
    have args : expand endpoint p argsMark = p.args.map Json.render := if_pos rfl
    have kwargs : expand endpoint p kwargsMark = p.kwargs.map fun f => f.1 ++ "=" ++ f.2.render :=
      (if_neg (by decide)).trans (if_pos rfl)
    simp only [render, standard, List.flatMap_cons, List.flatMap_nil, args, kwargs, List.append_nil]
    rw [other (by decide) (by decide), other (by decide) (by decide), other (by decide) (by decide),
      other (by decide) (by decide), out, static, fill_functionMark]
    rfl
  rw [rendered, ← fill_endpointMark]
  simp

/-- The strings that an entry stands for, when marks are filled in some way: one for each argument,
one for each named argument in the order of the names, or one. -/
def strings (filled : String → String) (p : Procedure) (entry : String) : List String :=
  if entry = argsMark then p.args.map Json.render
  else if entry = kwargsMark then (Json.sortFields p.kwargs).map fun f => f.1 ++ "=" ++ f.2.render
  else [filled entry]

theorem render_eq {p : Procedure} (named : p.kwargs.Pairwise fun f g => f.1 < g.1) (t : Template) :
    t.render endpoint p = t.flatMap (strings (fill endpoint p.function) p) := by
  unfold render strings
  rw [Json.sortFields_of_ascending named]
  rfl

theorem flatMap_strings_inj {f g : String → String} {p : Procedure} {t : Template} :
    t.flatMap (strings f p) = t.flatMap (strings g p) ↔
      ∀ entry ∈ t, entry ≠ argsMark → entry ≠ kwargsMark → f entry = g entry := by
  -- equal lengths let the two concatenations be compared piece by piece
  have long (entry : String) : (strings f p entry).length = (strings g p entry).length := by
    unfold strings
    split_ifs <;> rfl
  have each (entry : String) : strings f p entry = strings g p entry ↔
      (entry ≠ argsMark → entry ≠ kwargsMark → f entry = g entry) := by
    unfold strings
    split_ifs with args kwargs <;> simp [*]
  induction t with
  | nil => simp
  | cons entry t ih =>
    rw [List.flatMap_cons, List.flatMap_cons, List.forall_mem_cons, ← each]
    exact ⟨fun h => (List.append_inj h (long entry)).imp id ih.mp,
      fun ⟨h, rest⟩ => congrArg₂ (· ++ ·) h (ih.mpr rest)⟩

/-- A template is filled in literally, from what is written in it: all arguments as they are and in
their order, and so each other entry, except where a mark of the function comes in with the
endpoint. -/
theorem render_literal_iff (endpoint : String) (p : Procedure) (t : Template)
    (named : p.kwargs.Pairwise fun f g => f.1 < g.1) :
    (∀ filled, Literally endpoint p.function filled ↔ filled = literal endpoint p.function) ∧
    t.render endpoint p = t.flatMap (strings (fill endpoint p.function) p) ∧
    (t.render endpoint p = t.flatMap (strings (literal endpoint p.function) p) ↔
      p.function = functionMark ∨
        ∀ entry ∈ t, entry ≠ argsMark → entry ≠ kwargsMark → ¬ Strays endpoint entry) := by
  have only := literally_literal endpoint p.function
  refine ⟨fun filled => ⟨fun h => h.unique only, fun h => h ▸ only⟩, render_eq named t, ?_⟩
  rw [render_eq named, flatMap_strings_inj]
  simp only [fill_eq_literal_iff]
  by_cases own : p.function = functionMark <;> simp [own]

def refreshing : Procedure :=
  ⟨"pkg.install", [.str "vim", .arr [.str "a", .str "b"]],
    [("refresh", .bool true), ("version", .null)]⟩

def refreshingJson : Json :=
  .obj [("function", .str "pkg.install"), ("args", .arr [.str "vim", .arr [.str "a", .str "b"]]),
    ("kwargs", .obj [("version", .null), ("refresh", .bool true)])]

theorem refreshing_rendered :
    (refreshing.kwargs.Pairwise fun f g => f.1 < g.1) ∧
    standard.render "web-1" refreshing =
      ["--out=json", "--static", "web-1", "pkg.install", "vim", "[\"a\",\"b\"]", "refresh=true",
        "version=null"] := by
  have named : refreshing.kwargs.Pairwise fun f g => f.1 < g.1 :=
    Procedure.ascending_kwargs (v := refreshingJson) (by rfl)
  refine ⟨named, ?_⟩
  rw [(render_literal_iff "web-1" refreshing standard named).2.2.mpr (.inr (by decide +kernel))]
  decide +kernel

theorem functionMark_rewritten :
    render functionMark ⟨"test.ping", [], []⟩ [endpointMark] = ["test.ping"] ∧
    [endpointMark].flatMap (strings (literal functionMark "test.ping") ⟨"test.ping", [], []⟩) =
      [functionMark] := by
  decide +kernel

end FleetDispatch.Template
