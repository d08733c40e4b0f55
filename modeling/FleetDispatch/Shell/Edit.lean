import FleetDispatch.Shell.Job
import FleetDispatch.Shell.Regex

namespace FleetDispatch.Shell

inductive Address where
  | line (n : Nat)
  | last
  | fitting (r : Regex)

inductive Substitute where
  | text (cs : Octets)
  | group (number : Nat)
  deriving DecidableEq

inductive EditAction where
  | replace (r : Regex) (by_ : List Substitute) (nth : Nat) (all print fold : Bool)
  | print
  | delete
  | quit (status : Nat) (print : Bool)
  | translate (from_ to_ : Octets)
  | number
  | append (text : Octets)
  | insert (text : Octets)
  | change (text : Octets)

/-- An edit with the lines that it is for: all of them, one kind, or those from one to another. -/
structure Edit where
  first : Option Address
  last : Option Address
  others : Bool
  action : EditAction

/-- What is wrong with the text of an edit, and behind how many characters. -/
structure EditFault where
  message : String
  place : Nat
  deriving DecidableEq

namespace Edit

def fail {α : Type} (total : Nat) (rest : Octets) (message : String) : Except EditFault α :=
  .error ⟨message, total - rest.length⟩

def blanks (cs : Octets) : Octets :=
  cs.dropWhile isBlankChar

/-- Takes a text up to a delimiter. The delimiter can stand in it behind a backslash, and in an
expression within brackets. -/
def takeDelimited (d : Char) (expression : Bool) : Bool → Octets → Option (Octets × Octets)
  | _, [] => none
  | inSet, '\\' :: c :: cs =>
    if c = d then (takeDelimited d expression inSet cs).map fun (t, r) => (c :: t, r)
    else if c = 'n' && expression then
      (takeDelimited d expression inSet cs).map fun (t, r) => ('\n' :: t, r)
    else (takeDelimited d expression inSet cs).map fun (t, r) => ('\\' :: c :: t, r)
  | inSet, c :: cs =>
    if c = d && !inSet then some ([], cs)
    else
      let inSet := if !expression then false
        else if c = '[' then true else if c = ']' then false else inSet
      (takeDelimited d expression inSet cs).map fun (t, r) => (c :: t, r)

def substitutes : Octets → List Substitute
  | [] => []
  | '\\' :: c :: cs =>
    if '0' ≤ c && c ≤ '9' then .group (c.toNat - 48) :: substitutes cs
    else if c = 'n' then .text ['\n'] :: substitutes cs
    else if c = 't' then .text ['\t'] :: substitutes cs
    else .text [c] :: substitutes cs
  | '&' :: cs => .group 0 :: substitutes cs
  | c :: cs => .text [c] :: substitutes cs

def expression (total : Nat) (extended : Bool) (rest cs : Octets) : Except EditFault Regex :=
  match Regex.ofOctets? extended cs with
  | some r => .ok r
  | none => fail total rest "Unmatched ( or \\("

def addressOf (total : Nat) (extended : Bool) (cs : Octets) :
    Except EditFault (Option Address × Octets) :=
  match cs with
  | '$' :: cs => .ok (some .last, cs)
  | '/' :: cs =>
    match takeDelimited '/' true false cs with
    | some (t, rest) => (expression total extended rest t).map fun r => (some (.fitting r), rest)
    | none => fail total [] "unterminated address regex"
  | cs =>
    let ds := cs.takeWhile Char.isDigit
    if ds.isEmpty then .ok (none, cs)
    else .ok (some (.line (Decimal.ofDigits 0 ds)), cs.drop ds.length)

structure Manner where
  nth : Nat
  all : Bool
  print : Bool
  fold : Bool

def manner (total : Nat) : Manner → Octets → Except EditFault (Manner × Octets)
  | m, 'g' :: cs => manner total { m with all := true } cs
  | m, 'p' :: cs => manner total { m with print := true } cs
  | m, 'i' :: cs => manner total { m with fold := true } cs
  | m, 'I' :: cs => manner total { m with fold := true } cs
  | m, c :: cs =>
    if c.isDigit then
      manner total { m with nth := (if m.nth = 1 then 0 else m.nth) * 10 + (c.toNat - 48) } cs
    else if c = ';' || c = '\n' || c = ' ' || c = '\x7d' then .ok (m, c :: cs)
    else fail total cs "unknown option to \x60s'"
  | m, [] => .ok (m, [])

def bodyOf (cs : Octets) : Octets × Octets :=
  let cs := blanks cs
  let cs := match cs with
    | '\\' :: '\n' :: cs => cs
    | '\\' :: cs => blanks cs
    | cs => cs
  let line := cs.takeWhile (· != '\n')
  (line ++ ['\n'], cs.drop (line.length + 1))

def actionOf (total : Nat) (extended : Bool) (cs : Octets) :
    Except EditFault (EditAction × Octets) :=
  match cs with
  | [] => fail total [] "missing command"
  | 'p' :: cs => .ok (.print, cs)
  | 'd' :: cs => .ok (.delete, cs)
  | '=' :: cs => .ok (.number, cs)
  | 'q' :: cs =>
    let cs := blanks cs
    let ds := cs.takeWhile Char.isDigit
    .ok (.quit (Decimal.ofDigits 0 ds % 256) true, cs.drop ds.length)
  | 'Q' :: cs =>
    let cs := blanks cs
    let ds := cs.takeWhile Char.isDigit
    .ok (.quit (Decimal.ofDigits 0 ds % 256) false, cs.drop ds.length)
  | 'a' :: cs => let (t, rest) := bodyOf cs; .ok (.append t, rest)
  | 'i' :: cs => let (t, rest) := bodyOf cs; .ok (.insert t, rest)
  | 'c' :: cs => let (t, rest) := bodyOf cs; .ok (.change t, rest)
  | 's' :: d :: cs =>
    match takeDelimited d true false cs with
    | none => fail total [] "unterminated \x60s' command"
    | some (e, rest) =>
      match takeDelimited d false false rest with
      | none => fail total [] "unterminated \x60s' command"
      | some (t, rest) => do
        let (m, rest) ← manner total ⟨1, false, false, false⟩ rest
        let r ← expression total extended rest e
        return (.replace r (substitutes t) m.nth m.all m.print m.fold, rest)
  | 'y' :: d :: cs =>
    match takeDelimited d false false cs with
    | none => fail total [] "unterminated \x60y' command"
    | some (a, rest) =>
      match takeDelimited d false false rest with
      | none => fail total [] "unterminated \x60y' command"
      | some (b, rest) =>
        if a.length = b.length then .ok (.translate a b, rest)
        else fail total rest "strings for \x60y' command are different lengths"
  | 's' :: [] => fail total [] "unterminated \x60s' command"
  | 'y' :: [] => fail total [] "unterminated \x60y' command"
  | c :: cs => fail total cs ("unknown command: \x60" ++ String.ofList [c] ++ "\x27")

def edits (total : Nat) (extended : Bool) : Nat → Octets → Except EditFault (List Edit)
  | 0, _ => .ok []
  | n + 1, cs =>
    match cs.dropWhile fun c => isSpaceChar c || c == ';' with
    | [] => .ok []
    | cs => do
      let (first, rest) ← addressOf total extended cs
      let rest := blanks rest
      let (last, rest) ← match rest with
        | ',' :: rest => do
          let (last, after) ← addressOf total extended (blanks rest)
          if last.isNone || first.isNone then fail total (rest.drop 1) "unexpected \x60,'"
          pure (last, blanks after)
        | rest => pure (none, rest)
      let (others, rest) := match rest with
        | '!' :: rest => (true, blanks rest)
        | rest => (false, rest)
      let (a, rest) ← actionOf total extended rest
      let more ← edits total extended n rest
      return ⟨first, last, others, a⟩ :: more

def ofOctets (extended : Bool) (cs : Octets) : Except EditFault (List Edit) :=
  edits cs.length extended (cs.length + 1) cs

end Edit

/-- A line that is being edited: what it has become, its number, whether it is the last one, what
is written before it and behind it, and whether it is dropped or the last one to be edited. -/
structure Editing where
  line : Octets
  number : Nat
  isLast : Bool
  written : List Octets
  after : Octets
  dropped : Bool
  stopped : Option Nat

namespace Editing

def reaches (e : Editing) : Address → Bool
  | .line n => e.number == n
  | .last => e.isLast
  | .fitting r => (r.search false e.line).isSome

def substituteFor (by_ : List Substitute) (found : Octets) (groups : List (Nat × Octets)) :
    Octets :=
  by_.flatMap fun
    | .text cs => cs
    | .group 0 => found
    | .group n => (groups.lookup n).getD []

def replaceIn (r : Regex) (by_ : List Substitute) (fold all : Bool) :
    Nat → Nat → Octets → Octets → Octets × Bool
  | 0, _, _, cs => (cs, false)
  | n + 1, nth, seen, cs =>
    match r.find? fold [] ⟨seen.isEmpty, cs, []⟩ with
    | none => (cs, false)
    | some (before, found, spot) =>
      let new := if nth ≤ 1 then substituteFor by_ found spot.groups else found
      let here := before ++ new
      if nth ≤ 1 && !all then (here ++ spot.rest, true)
      else
        let (front, rest) := if found.isEmpty then (spot.rest.take 1, spot.rest.drop 1)
          else ([], spot.rest)
        if found.isEmpty && front.isEmpty then (here, nth ≤ 1)
        else
          let (after, changed) :=
            replaceIn r by_ fold all n (nth - 1) (seen ++ before ++ found ++ front) rest
          (here ++ front ++ after, changed || nth ≤ 1)

def print (e : Editing) : Editing :=
  { e with written := e.written ++ [e.line ++ ['\n']] }

def act (e : Editing) : EditAction → Editing
  | .replace r by_ nth all print fold =>
    let (line, changed) := replaceIn r by_ fold all (e.line.length + 2) nth [] e.line
    let e := { e with line }
    if changed && print then e.print else e
  | .print => e.print
  | .delete => { e with dropped := true }
  | .quit status print => { e with stopped := some status, dropped := !print }
  | .translate a b =>
    { e with line := e.line.map fun c => ((a.zip b).lookup c).getD c }
  | .number => { e with written := e.written ++ [Decimal.digits e.number ++ ['\n']] }
  | .append t => { e with after := e.after ++ t }
  | .insert t => { e with written := e.written ++ [t] }
  | .change t => { e with written := e.written ++ [t], dropped := true }

/-- Whether an edit is for a line, given whether it was for the line before it and goes on. -/
def concerns (e : Editing) (edit : Edit) (going : Bool) : Bool × Bool :=
  match edit.first, edit.last with
  | none, _ => (true, false)
  | some a, none => (e.reaches a, false)
  | some a, some b =>
    if going then
      match b with
      | .line n => if e.number ≤ n then (true, e.number < n) else (e.reaches a, false)
      | b => (true, !e.reaches b)
    else if e.reaches a then
      match b with
      | .line n => (true, e.number < n)
      | .last => (true, !e.isLast)
      | .fitting _ => (true, true)
    else (false, false)

def run : List (Edit × Bool) → Editing → Editing × List Bool
  | [], e => (e, [])
  | (edit, going) :: rest, e =>
    if e.dropped || e.stopped.isSome then (e, going :: rest.map (·.2))
    else
      let (concerned, going) := e.concerns edit going
      let lasting := match edit.action with
        | .change _ => going && concerned
        | _ => false
      let e := if concerned != edit.others then
          (if lasting then { e with dropped := true } else e.act edit.action)
        else e
      let (e, goings) := run rest e
      (e, going :: goings)

/-- Edits lines one by one. A text that ends without a break does so afterwards. -/
def lines (silent : Bool) (edits : List Edit) : Nat → List Bool → List Line → Octets × Nat
  | _, _, [] => ([], 0)
  | number, goings, l :: rest =>
    let (e, goings) := run (edits.zip goings) ⟨l.text, number, rest.isEmpty, [], [], false, none⟩
    let shown := if silent || e.dropped then [] else e.line ++ (if l.ended then ['\n'] else [])
    let text := e.written.flatten ++ shown ++ e.after
    match e.stopped with
    | some status => (text, status)
    | none =>
      let (more, status) := lines silent edits (number + 1) goings rest
      (text ++ more, status)

end Editing

namespace Edit

def sed (j : Job) : Effect :=
  match j.optionsOf ['n', 'E', 'r', 's', 'u'] ['e'] with
  | .error c => j.invalidOption c 1
  | .ok (os, words) =>
    let given := (os.filter (·.1 == 'e')).map (·.2)
    match if given.isEmpty then words.head?.map fun w => (w, words.drop 1)
      else some (['\n'].intercalate given, words) with
    | none => j.misused "missing script" 1
    | some (script, paths) =>
      match ofOctets (os.any fun o => o.1 == 'E' || o.1 == 'r') script with
      | .error f => j.fails (s!"-e expression #1, char {f.place}: {f.message}").toList 1
      | .ok edits =>
        j.onFiles paths (fun p f => "can't read ".toList ++ Job.plainFault p f) 2 fun files =>
          let ls := files.flatMap fun f => Line.ofOctets f.2
          let (text, status) :=
            Editing.lines (os.any (·.1 == 'n')) edits 1 (edits.map fun _ => false) ls
          ⟨text, [], status, false⟩

end Edit

end FleetDispatch.Shell
