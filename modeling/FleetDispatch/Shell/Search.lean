import FleetDispatch.Shell.Job
import FleetDispatch.Shell.Regex

namespace FleetDispatch.Shell.Search

/-- What lines are searched for: expressions, and whether case counts, whether the whole line must
fit, or whole words. -/
structure Query where
  expressions : List Regex
  fold : Bool
  whole : Bool
  word : Bool

def isWordChar (c : Char) : Bool :=
  c.isAlphanum || c == '_'

def standsAlone (before after : Octets) : Bool :=
  !(before.getLast?.map isWordChar).getD false && !(after.head?.map isWordChar).getD false

/-- The first place behind some characters that an expression fits as a query asks for: what
stands before it, and what it fits. -/
def findFrom (q : Query) (r : Regex) : Nat → Octets → Octets → Option (Octets × Octets)
  | 0, _, _ => none
  | n + 1, seen, cs =>
    match r.find? q.fold seen.reverse ⟨seen.isEmpty, cs, []⟩ with
    | none => none
    | some (before, found, spot) =>
      let fine := (!q.word || standsAlone before spot.rest) &&
        (!q.whole || (before.isEmpty && spot.rest.isEmpty))
      if fine then some (before, found)
      else
        match cs.drop (before.length - seen.length) with
        | [] => none
        | c :: rest => findFrom q r n (before ++ [c]) rest

/-- The place in a line that fits first, and there the longest. -/
def Query.find (q : Query) (seen cs : Octets) : Option (Octets × Octets) :=
  (q.expressions.filterMap fun r => findFrom q r (cs.length + 1) seen cs).foldl (fun best m =>
    match best with
    | none => some m
    | some b =>
      if m.1.length < b.1.length || (m.1.length = b.1.length && b.2.length < m.2.length) then some m
      else best) none

def Query.findAll (q : Query) : Nat → Octets → Octets → List Octets
  | 0, _, _ => []
  | n + 1, seen, cs =>
    match q.find seen cs with
    | none => []
    | some (before, found) =>
      let next := before ++ found
      let rest := cs.drop (next.length - seen.length)
      if found.isEmpty then
        match rest with
        | [] => []
        | c :: rest => findAll q n (next ++ [c]) rest
      else found :: findAll q n next rest

def Query.fits (q : Query) (l : Octets) : Bool :=
  (q.find [] l).isSome

def usage (j : Job) : Octets :=
  "Usage: ".toList ++ j.name ++ " [OPTION]... PATTERNS [FILE]...\nTry '".toList ++ j.name ++
    " --help' for more information.\n".toList

def patternLines (cs : Octets) : List Octets :=
  (cs.foldr (fun c (l, ls) => if c = '\n' then ([], l :: ls) else (c :: l, ls)) ([], [])) |>
    fun (l, ls) => l :: ls

def badExpression (cs : Octets) : String :=
  if cs.getLast? == some '\\' then "Trailing backslash"
  else if cs.contains '[' then "Invalid regular expression"
  else "Unmatched ( or \\("

def searchFile (q : Query) (inverted : Bool) (cs : Octets) : List (Nat × Octets) :=
  (((Line.ofOctets cs).map (·.text)).zipIdx 1).filterMap fun (l, n) =>
    if q.fits l != inverted then some (n, l) else none

def grep (j : Job) : Effect :=
  match j.optionsOf ['q', 'v', 'i', 'y', 'c', 'n', 'o', 'x', 'F', 'E', 'G', 's', 'h', 'H', 'l', 'L',
      'w', 'a'] ['e', 'm'] with
  | .error c => ⟨[], j.say s!"invalid option -- '{c}'".toList ++ usage j, 2, false⟩
  | .ok (os, words) =>
    let has := fun c => os.any (·.1 == c)
    let given := (os.filter (·.1 == 'e')).map (·.2)
    match if given.isEmpty then words.head?.map fun w => ([w], words.drop 1)
      else some (given, words) with
    | none => ⟨[], usage j, 2, false⟩
    | some (patterns, paths) =>
      let patterns := patterns.flatMap patternLines
      let readOne := fun p => if has 'F' then some (Regex.ofLiteral p)
        else Regex.ofOctets? (has 'E') p
      match patterns.mapM readOne with
      | none =>
        let bad := (patterns.find? fun p => (readOne p).isNone).getD []
        j.fails (badExpression bad).toList 2
      | some rs =>
        let q : Query := ⟨rs, has 'i' || has 'y', has 'x', has 'w'⟩
        let headed := has 'H' || (2 ≤ paths.length && !has 'h')
        let found := fun (cs : Octets) =>
          let lines := searchFile q (has 'v') cs
          match (os.find? (·.1 == 'm')).map fun o => Decimal.ofDigits 0 o.2 with
          | some n => lines.take n
          | none => lines
        let label := fun (p : Octets) => if Job.isInput p then "(standard input)".toList else p
        let start := fun (p : Octets) => if headed then label p ++ [':'] else []
        let show_ := fun (p cs : Octets) =>
          let lines := found cs
          if has 'q' then []
          else if has 'l' then (if lines.isEmpty then [] else label p ++ ['\n'])
          else if has 'L' then (if lines.isEmpty then label p ++ ['\n'] else [])
          else if has 'c' then start p ++ Decimal.digits lines.length ++ ['\n']
          else lines.flatMap fun (n, l) =>
            let front := start p ++ (if has 'n' then Decimal.digits n ++ [':'] else [])
            if has 'o' then
              (q.findAll (l.length + 1) [] l).flatMap fun m => front ++ m ++ ['\n']
            else front ++ l ++ ['\n']
        let e := j.onFiles paths Job.plainFault 2 fun files =>
          let any := files.any fun f => !(found f.2).isEmpty
          ⟨files.flatMap fun (p, cs) => show_ p cs, [], if any then 0 else 1, false⟩
        let matched := (if paths.isEmpty then [['-']] else paths).any fun p =>
          ((j.openPath p).toOption.map fun cs => !(found cs).isEmpty).getD false
        { e with
          errors := if has 's' then [] else e.errors
          status := if has 'q' && matched then 0 else e.status }

end FleetDispatch.Shell.Search
