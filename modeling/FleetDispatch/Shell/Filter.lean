import FleetDispatch.Shell.Arithmetic
import FleetDispatch.Shell.Escape
import FleetDispatch.Shell.Job

namespace FleetDispatch.Shell.Filter

open Decimal

def headed (j : Job) (paths : List Octets) (fault : Octets → PathFault → Octets)
    (work : Octets → Octets) : Effect :=
  j.onFiles paths fault 1 fun files =>
    let shown := files.map fun (p, cs) =>
      if paths.length < 2 then work cs
      else "==> ".toList ++ (if Job.isInput p then "standard input".toList else p) ++
        " <==\n".toList ++ work cs
    .writes (if paths.length < 2 then shown.flatten else ['\n'].intercalate shown)

def cannotOpen (path : Octets) (f : PathFault) : Octets :=
  "cannot open ".toList ++ inQuotes path ++ " for reading: ".toList ++ (faultText f).toList

/-- Numbers lines, which go on from file to file. -/
def numbered (ls : List Line) : Octets :=
  (ls.zipIdx 1).flatMap fun (l, n) =>
    let ds := digits n
    List.replicate (6 - ds.length) ' ' ++ ds ++ ['\t'] ++ l.octets

def cat (j : Job) : Effect :=
  match j.optionsOf ['n', 'u', 'E', 'e'] [] with
  | .error c => j.invalidOption c 1
  | .ok (os, paths) =>
    j.onFiles paths Job.namedFault 1 fun files =>
      let text := files.flatMap (·.2)
      .writes (if os.any (·.1 == 'n') then numbered (Line.ofOctets text) else text)

/-- The first lines or octets; with a minus sign, all but the last ones. -/
def firstOf (lines all : Bool) (n : Nat) (cs : Octets) : Octets :=
  if lines then
    let ls := Line.ofOctets cs
    Line.join (ls.take (if all then ls.length - n else n))
  else cs.take (if all then cs.length - n else n)

/-- The last lines or octets; with a plus sign, those from one on. -/
def lastOf (lines from_ : Bool) (n : Nat) (cs : Octets) : Octets :=
  if lines then
    let ls := Line.ofOctets cs
    Line.join (ls.drop (if from_ then n - 1 else ls.length - n))
  else cs.drop (if from_ then n - 1 else cs.length - n)

/-- Writes an option that is a bare number in full, where it is not the value of another one. -/
def withCount : List Octets → List Octets
  | ['-', 'n'] :: v :: rest => ['-', 'n'] :: v :: withCount rest
  | ['-', 'c'] :: v :: rest => ['-', 'c'] :: v :: withCount rest
  | ('-' :: c :: cs) :: rest =>
    (if c.isDigit then [['-', 'n'], c :: cs] else ['-' :: c :: cs]) ++ withCount rest
  | a :: rest => a :: withCount rest
  | [] => []

def countOf (cs : Octets) : Option Nat :=
  if cs.isEmpty || !cs.all isDigit then none else some (ofDigits 0 cs)

def signedCount (sign : Char) (cs : Octets) : Bool × Option Nat :=
  match cs with
  | c :: rest => if c == sign then (true, countOf rest) else (false, countOf cs)
  | [] => (false, none)

def portion (j : Job) (sign : Char) (work : Bool → Bool → Nat → Octets → Octets) : Effect :=
  match { j with args := withCount j.args }.optionsOf ['q', 'v'] ['n', 'c'] with
  | .error c => j.invalidOption c 1
  | .ok (os, paths) =>
    let (letter, value) := (os.filter fun o => o.1 == 'n' || o.1 == 'c').getLast?.getD
      ('n', ['1', '0'])
    let lines := letter == 'n'
    match signedCount sign value with
    | (marked, some n) => headed j paths cannotOpen (work lines marked n)
    | (_, none) =>
      j.fails ("invalid number of ".toList ++ (if lines then "lines" else "bytes").toList ++
        ": ".toList ++ inMarks value) 1

def head (j : Job) : Effect :=
  portion j '-' firstOf

/-- A minus sign before a count of last lines changes nothing. -/
def tail (j : Job) : Effect :=
  let plain := j.args.map fun a => match a with
    | '-' :: 'n' :: '-' :: cs => '-' :: 'n' :: cs
    | a => a
  portion { j with args := plain } '+' lastOf

def wordCount (cs : Octets) : Nat :=
  (cs.foldl (fun (n, inside) c =>
    if isSpaceChar c then (n, false) else (if inside then n else n + 1, true)) (0, false)).1

def wc (j : Job) : Effect :=
  match j.optionsOf ['l', 'w', 'c', 'm'] [] with
  | .error c => j.invalidOption c 1
  | .ok (os, paths) =>
    j.onFiles paths Job.namedFault 1 fun files =>
      let all := os.isEmpty
      let wanted := fun c => all || os.any (·.1 == c)
      let counts := fun (cs : Octets) =>
        (if wanted 'l' then [cs.count '\n'] else []) ++
        (if wanted 'w' then [wordCount cs] else []) ++
        (if !all && wanted 'm' then
          [(cs.filter fun c => c.toNat < 0x80 || 0xC0 ≤ c.toNat).length] else []) ++
        (if wanted 'c' then [cs.length] else [])
      let rows := files.map fun (p, cs) => (p, counts cs)
      let total := files.flatMap (·.2)
      let rows := if 2 ≤ paths.length then rows ++ [("total".toList, counts total)] else rows
      let single := rows.length = 1 && (rows.all fun r => r.2.length ≤ 1)
      let width := if single then 1
        else if paths.isEmpty || paths.any Job.isInput then 7
        else (digits total.length).length
      .writes (rows.flatMap fun (p, ns) =>
        let cells := ns.map fun n => List.replicate (width - (digits n).length) ' ' ++ digits n
        [' '].intercalate cells ++ (if paths.isEmpty then [] else ' ' :: p) ++ ['\n'])

def rev (j : Job) : Effect :=
  j.onFiles j.args (fun p f => "cannot open ".toList ++ p ++ ": ".toList ++ (faultText f).toList) 1
    fun files => .writes (files.flatMap fun (_, cs) =>
      Line.join ((Line.ofOctets cs).map fun l => { l with text := l.text.reverse }))

def tac (j : Job) : Effect :=
  j.onFiles j.args (fun p f => "failed to open ".toList ++ inQuotes p ++ " for reading: ".toList ++
      (faultText f).toList) 1
    fun files => .writes (files.flatMap fun (_, cs) => Line.join (Line.ofOctets cs).reverse)

def ranges? (cs : Octets) : Option (List (Nat × Option Nat)) :=
  let items := (String.ofList cs).splitOn ","
  items.mapM fun item =>
    match item.splitOn "-" with
    | [a] => a.toNat?.map fun n => (n, some n)
    | [a, b] =>
      match a.isEmpty, b.isEmpty with
      | true, true => none
      | true, false => b.toNat?.map fun n => (1, some n)
      | false, true => a.toNat?.map fun n => (n, none)
      | false, false => do some (← a.toNat?, some (← b.toNat?))
    | _ => none

def isWanted (rs : List (Nat × Option Nat)) (n : Nat) : Bool :=
  rs.any fun r => r.1 ≤ n && (r.2.map fun m => decide (n ≤ m)).getD true

def splitAt (c : Char) (cs : Octets) : List Octets :=
  (cs.foldr (fun d (f, fs) => if d = c then ([], f :: fs) else (d :: f, fs)) ([], [])) |>
    fun (f, fs) => f :: fs

def cut (j : Job) : Effect :=
  match j.optionsOf ['s', 'n'] ['d', 'f', 'c', 'b'] with
  | .error c => j.invalidOption c 1
  | .ok (os, paths) =>
    match os.find? fun o => o.1 == 'f' || o.1 == 'c' || o.1 == 'b' with
    | none => j.misused "you must specify a list of bytes, characters, or fields" 1
    | some (letter, list) =>
      match ranges? list with
      | none => j.misused s!"invalid field value '{Octets.text list}'" 1
      | some rs =>
        let d := ((os.find? (·.1 == 'd')).bind fun o => o.2.head?).getD '\t'
        let pick := fun {α : Type} (xs : List α) =>
          (xs.zipIdx 1).filterMap fun (x, n) => if isWanted rs n then some x else none
        let work := fun (l : Line) =>
          if letter != 'f' then some { l with text := pick l.text, ended := true }
          else if l.text.contains d then
            some { l with text := [d].intercalate (pick (splitAt d l.text)), ended := true }
          else if os.any (·.1 == 's') then none
          else some { l with ended := true }
        j.onFiles paths Job.namedFault 1 fun files =>
          .writes (Line.join ((files.flatMap fun (_, cs) => Line.ofOctets cs).filterMap work))

def leadingNumber (cs : Octets) : Int :=
  let cs := cs.dropWhile isBlankChar
  match cs with
  | '-' :: ds => -(ofDigits 0 (ds.takeWhile isDigit) : Nat)
  | ds => (ofDigits 0 (ds.takeWhile isDigit) : Nat)

def keyOf (separator : Option Char) (key : Option Nat) (cs : Octets) : Octets :=
  match key with
  | none => cs
  | some n =>
    match separator with
    | some d => [d].intercalate ((splitAt d cs).drop (n - 1))
    | none =>
      let skip := fun (cs : Octets) =>
        (cs.dropWhile isBlankChar).dropWhile (fun c => !isBlankChar c)
      (List.range (n - 1)).foldl (fun cs _ => skip cs) cs

def sort (j : Job) : Effect :=
  match j.optionsOf ['n', 'r', 'u', 'f', 'b', 's'] ['k', 't'] with
  | .error c => j.invalidOption c 2
  | .ok (os, paths) =>
    let has := fun c => os.any (·.1 == c)
    let separator := (os.find? (·.1 == 't')).bind fun o => o.2.head?
    let key := (os.find? (·.1 == 'k')).map fun o => ofDigits 0 (o.2.takeWhile isDigit)
    let numeric := has 'n' || (os.any fun o => o.1 == 'k' && o.2.contains 'n')
    let reversed := has 'r' || (os.any fun o => o.1 == 'k' && o.2.contains 'r')
    let part := fun (cs : Octets) =>
      let k := keyOf separator key cs
      if has 'f' then k.map Char.toUpper else k
    let same := fun (a b : Octets) =>
      if numeric then leadingNumber (part a) == leadingNumber (part b) else part a == part b
    let le := fun (a b : Octets) =>
      if same a b then Octets.le a b
      else if numeric then leadingNumber (part a) ≤ leadingNumber (part b)
      else Octets.le (part a) (part b)
    let before := fun (a b : Octets) => if reversed then le b a else le a b
    j.onFiles paths (fun p f => "cannot read: ".toList ++ Job.namedFault p f) 2 fun files =>
      let ls := (files.flatMap fun (_, cs) => Line.ofOctets cs).map (·.text)
      let sorted := ls.mergeSort before
      let kept := if has 'u' then
          sorted.foldr (fun l rest => match rest with
            | m :: more => if same l m then l :: more else l :: m :: more
            | [] => [l]) []
        else sorted
      .writes (kept.flatMap fun l => l ++ ['\n'])

def runs : List Octets → List (Octets × Nat)
  | [] => []
  | l :: ls =>
    match runs ls with
    | (m, n) :: rest => if l = m then (l, n + 1) :: rest else (l, 1) :: (m, n) :: rest
    | [] => [(l, 1)]

def uniq (j : Job) : Effect :=
  match j.optionsOf ['c', 'd', 'u', 'i'] [] with
  | .error c => j.invalidOption c 1
  | .ok (os, paths) =>
    let has := fun c => os.any (·.1 == c)
    j.onFiles (paths.take 1) Job.namedFault 1 fun files =>
      let rs := runs ((files.flatMap fun (_, cs) => Line.ofOctets cs).map (·.text))
      let rs := rs.filter fun r =>
        (!has 'd' || 1 < r.2) && (!has 'u' || r.2 = 1)
      .writes (rs.flatMap fun (l, n) =>
        (if has 'c' then
          List.replicate (7 - (digits n).length) ' ' ++ digits n ++ [' '] else []) ++ l ++ ['\n'])

def setOf : Nat → Octets → List Char
  | 0, _ => []
  | _ + 1, [] => []
  | n + 1, '[' :: ':' :: cs =>
    let name := cs.takeWhile Char.isAlpha
    match cs.drop name.length with
    | ':' :: ']' :: rest =>
      ((List.range 256).map Char.ofNat).filter (isOfKind name) ++ setOf n rest
    | _ => '[' :: setOf n (':' :: cs)
  | n + 1, cs =>
    let take := fun (cs : Octets) => match cs with
      | '\\' :: rest =>
        match Escape.ofOctets .shellFormat rest with
        | .octet c rest => (c, rest)
        | _ => (rest.headD '\\', rest.drop 1)
      | cs => (cs.headD ' ', cs.drop 1)
    let (c, rest) := take cs
    match rest with
    | '-' :: d :: more =>
      let (last, more) := take (d :: more)
      ((List.range (last.toNat + 1)).drop c.toNat).map Char.ofNat ++ setOf n more
    | rest => c :: setOf n rest

def squeeze (p : Char → Bool) : Octets → Octets
  | c :: d :: cs => if c = d && p c then squeeze p (d :: cs) else c :: squeeze p (d :: cs)
  | cs => cs

def tr (j : Job) : Effect :=
  match j.optionsOf ['d', 's', 'c', 'C', 't'] [] with
  | .error c => j.invalidOption c 1
  | .ok (os, sets) =>
    let has := fun c => os.any (·.1 == c)
    let complement := has 'c' || has 'C'
    match sets with
    | [] => j.misused "missing operand" 1
    | first :: rest =>
      let set1 := setOf (first.length + 1) first
      let isIn := fun c => set1.contains c != complement
      let effect := fun (cs : Octets) => ({ Effect.writes cs with used := true } : Effect)
      match rest with
      | [] =>
        if has 'd' then effect (j.input.filter fun c => !isIn c)
        else if has 's' then effect (squeeze isIn j.input)
        else
          ⟨[], j.say ("missing operand after '".toList ++ first ++ ['\x27']) ++
            "Two strings must be given when translating.\n".toList ++
            "Try 'tr --help' for more information.\n".toList, 1, false⟩
      | [second] =>
        let set2 := setOf (second.length + 1) second
        if has 'd' then
          let kept := j.input.filter fun c => !isIn c
          effect (if has 's' then squeeze set2.contains kept else kept)
        else
          let last := set2.getLast?.getD ' '
          let move := fun c =>
            if complement then if isIn c then last else c
            else match set1.idxOf? c with
              | some i => set2.getD i last
              | none => c
          let moved := j.input.map move
          effect (if has 's' then squeeze set2.contains moved else moved)
      | _ :: third :: _ => j.misused s!"extra operand '{Octets.text third}'" 1

def count (first step last : Int) : Nat → List Int
  | 0 => []
  | n + 1 =>
    if (0 < step && first ≤ last) || (step < 0 && last ≤ first) then
      first :: count (first + step) step last n
    else []

def seq (j : Job) : Effect :=
  match Job.options [] ['s'] (j.args.length + 1)
      (j.args.map fun a => match a with
        | '-' :: c :: cs => if c.isDigit then '\x00' :: '-' :: c :: cs else '-' :: c :: cs
        | a => a) with
  | .error c => j.invalidOption c 1
  | .ok (os, args) =>
    let between := ((os.find? (·.1 == 's')).map (·.2)).getD ['\n']
    let numbers := args.mapM fun a =>
      (String.ofList (a.filter (· != '\x00'))).toInt?
    let write := fun (first step last : Int) =>
      let ns := count first step last ((last - first).natAbs + 1)
      Effect.writes (if ns.isEmpty then [] else
        between.intercalate (ns.map fun n => (toString n).toList) ++ ['\n'])
    match numbers with
    | none =>
      let bad := (args.find? fun a => (String.ofList a).toInt?.isNone).getD []
      j.misused s!"invalid floating point argument: '{Octets.text bad}'" 1
    | some [last] => write 1 1 last
    | some [first, last] => write first 1 last
    | some [first, step, last] =>
      if step = 0 then j.misused "invalid Zero increment value: '0'" 1 else write first step last
    | some _ => j.misused "missing operand" 1

def baseName (path ending : Octets) : Octets :=
  let trimmed := (path.reverse.dropWhile (· == '/')).reverse
  let name := if trimmed.isEmpty then path.take 1
    else (trimmed.reverse.takeWhile (· != '/')).reverse
  if !ending.isEmpty && ending.isSuffixOf name && ending != name then
    name.take (name.length - ending.length)
  else name

def dirName (path : Octets) : Octets :=
  let trimmed := path.reverse.dropWhile (· == '/')
  let rest := trimmed.dropWhile (· != '/')
  let kept := rest.dropWhile (· == '/')
  if path.isEmpty then ['.']
  else if rest.isEmpty then (if trimmed.isEmpty then ['/'] else ['.'])
  else if kept.isEmpty then ['/']
  else kept.reverse

def basename (j : Job) : Effect :=
  match j.args with
  | [] => j.misused "missing operand" 1
  | [p] => .writes (baseName p [] ++ ['\n'])
  | [p, e] => .writes (baseName p e ++ ['\n'])
  | _ :: _ :: third :: _ => j.misused s!"extra operand '{Octets.text third}'" 1

def dirname (j : Job) : Effect :=
  match j.args with
  | [] => j.misused "missing operand" 1
  | ps => .writes (ps.flatMap fun p => dirName p ++ ['\n'])

end FleetDispatch.Shell.Filter
