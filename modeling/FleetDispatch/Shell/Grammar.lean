import FleetDispatch.Shell.Source

namespace FleetDispatch.Shell

open Reader

inductive Context where
  | bare
  | quoted
  | operand (quoted : Bool)
  | sum (depth : Nat)
  | document
  deriving DecidableEq

namespace Context

def isQuoted : Context → Bool
  | bare => false
  | operand q => q
  | _ => true

def escapable : Context → List Char
  | document => ['$', '\x60', '\\']
  | operand _ => ['$', '\x60', '"', '\\', '\x7d']
  | _ => ['$', '\x60', '"', '\\']

def unfinished? : Context → Option String
  | bare => none
  | document => none
  | quoted => some "Unterminated quoted string"
  | operand true => some "Unterminated quoted string"
  | operand false => some "Missing '\x7d'"
  | sum _ => some "Missing '))'"

end Context

/-- How long a list of commands goes on: to the end of its line, or to a word or mark that closes
it, before which there may have to be a command. -/
inductive Extent where
  | line
  | block
  | nested
  deriving DecidableEq

def fixedNames : List String :=
  [".", ":", "break", "continue", "eval", "exec", "exit", "export", "readonly", "return", "set",
    "shift", "times", "trap", "unset"]

def Command.andThen (first second : Command) : Command :=
  match first with
  | .nothing => second
  | first => .sequence first second

/-- Takes the text up to the next backquote. A backslash takes the meaning from a few characters. -/
def takeBackquoted (quoted : Bool) : Nat → Octets → Option (Octets × Octets)
  | 0, _ => none
  | _ + 1, [] => none
  | _ + 1, '\x60' :: cs => some ([], cs)
  | n + 1, '\\' :: c :: cs => do
    let (text, rest) ← takeBackquoted quoted n cs
    if c = '\n' then some (text, rest)
    else if ['\x60', '$', '\\'].contains c || (c == '"' && quoted) then some (c :: text, rest)
    else some ('\\' :: c :: text, rest)
  | n + 1, c :: cs => do
    let (text, rest) ← takeBackquoted quoted n cs
    some (c :: text, rest)

mutual

def pieces : Nat → Context → List Piece → Reader Word
  | 0, _, _ => fail "word unexpected"
  | n + 1, ctx, acc => do
    match ← peek with
    | none =>
      match ctx.unfinished? with
      | some message => fail message
      | none => return wordOf acc
    | some c =>
      let q := ctx.isQuoted
      match ctx, c with
      | .quoted, '"' =>
        skip
        return wordOf acc
      | .operand _, '\x7d' =>
        skip
        return wordOf acc
      | .sum d, '(' =>
        skip
        pieces n (.sum (d + 1)) (.text true ['('] :: acc)
      | .sum (d + 1), ')' =>
        skip
        pieces n (.sum d) (.text true [')'] :: acc)
      | .sum 0, ')' =>
        skip
        if ← accept ')' then return wordOf acc
        pieces n ctx (.text true [')'] :: acc)
      | _, '\\' =>
        skip
        let next := (← get).rest.head?
        match next with
        | none => pieces n ctx (.text true ['\\'] :: acc)
        | some d =>
          if !q || ctx.escapable.contains d then
            skip
            pieces n ctx (.text true [d] :: acc)
          else pieces n ctx (.text true ['\\'] :: acc)
      | _, '$' =>
        skip
        let p ← dollar n q
        pieces n ctx (p :: acc)
      | _, '\x60' =>
        skip
        let p ← backquoted n q
        pieces n ctx (p :: acc)
      | _, '\x27' =>
        skip
        if q then pieces n ctx (.text true ['\x27'] :: acc)
        else
          let cs ← takeQuoted
          pieces n ctx (.text true cs :: acc)
      | .document, '"' =>
        skip
        pieces n ctx (.text true ['"'] :: acc)
      | .sum _, '"' =>
        skip
        pieces n ctx (.text true ['"'] :: acc)
      | _, '"' =>
        skip
        if q then pieces n ctx acc
        else
          let w ← pieces n .quoted []
          pieces n ctx ((if w.isEmpty then [.text true []] else w.reverse) ++ acc)
      | ctx, c =>
        if ctx = .bare && endsWord c then return wordOf acc
        skip
        pieces n ctx (.text q [c] :: acc)

def dollar : Nat → Bool → Reader Piece
  | 0, _ => fail "word unexpected"
  | n + 1, q => do
    match ← peek with
    | some '(' =>
      skip
      if ← accept '(' then
        let w ← pieces n (.sum 0) []
        return .sum q w
      let c ← substitution n
      return .output q c
    | some '\x7b' =>
      skip
      braced n q
    | some c =>
      if isNameStart c then
        let name ← takeWhile isNameChar
        return .param q name .value
      else if c.isDigit || isSign c then
        skip
        return .param q [c] .value
      else return .text q ['$']
    | none => return .text q ['$']

def substitution : Nat → Reader Command
  | 0 => fail "word unexpected"
  | n + 1 => do
    let pending := (← get).pending
    modify fun s => { s with pending := [] }
    let c ← list n .nested .nothing false
    match ← token n with
    | .mark .closing =>
      modify fun s => { s with pending }
      return c
    | t => unexpected t (some Mark.closing.describe)

/-- Reads a script between backquotes, of which the lines are counted anew. -/
def backquoted : Nat → Bool → Reader Piece
  | 0, _ => fail "word unexpected"
  | n + 1, q => do
    let s ← get
    match takeBackquoted q (s.rest.length + 1) s.rest with
    | none =>
      modify fun s => { s with rest := [], line := s.line + s.rest.count '\n' }
      fail "EOF in backquote substitution"
    | some (text, rest) =>
      set { s with rest := text, line := 1, pending := [] }
      let c ← list n .nested .nothing false
      let line := s.line + (s.rest.take (s.rest.length - rest.length)).count '\n'
      modify fun inner => { inner with rest, line, ahead := none, pending := s.pending }
      return .output q c

def braced : Nat → Bool → Reader Piece
  | 0, _ => fail "word unexpected"
  | n + 1, q => do
    match ← peek with
    | none => return .param q [] (← senseless n q)
    | some c =>
      if isNameStart c then
        let name ← takeWhile isNameChar
        return .param q name (← use n q)
      else if c.isDigit then
        let name ← takeWhile Char.isDigit
        return .param q name (← use n q)
      else if c = '#' then
        skip
        match (← get).rest with
        | d :: rest =>
          if isNameChar d then
            let name ← takeWhile (if d.isDigit then Char.isDigit else isNameChar)
            if ← accept '\x7d' then return .param q name .length
            return .param q name (← senseless n q)
          else if d != '\x7d' && rest.head? == some '\x7d' && isSign d then
            skip
            skip
            return .param q [d] .length
          else return .param q ['#'] (← use n q)
        | [] => return .param q [] (← senseless n q)
      else if isSign c then
        skip
        return .param q [c] (← use n q)
      else return .param q [] (← senseless n q)

/-- Passes over what makes no sense in braces. -/
def senseless : Nat → Bool → Reader Use
  | 0, _ => fail "word unexpected"
  | n + 1, q => do
    let _ ← pieces n (.operand q) []
    return .senseless

def use : Nat → Bool → Reader Use
  | 0, _ => fail "word unexpected"
  | n + 1, q => do
    let orEmpty ← accept ':'
    match ← peek with
    | some '\x7d' =>
      skip
      if orEmpty then senseless n q else return .value
    | some '-' =>
      skip
      return .otherwise orEmpty (← pieces n (.operand q) [])
    | some '=' =>
      skip
      return .assign orEmpty (← pieces n (.operand q) [])
    | some '?' =>
      skip
      return .demand orEmpty (← pieces n (.operand q) [])
    | some '+' =>
      skip
      return .instead orEmpty (← pieces n (.operand q) [])
    | some c =>
      if !orEmpty && (c == '%' || c == '#') then
        skip
        let longest ← accept c
        return .cut (c == '#') longest (← pieces n (.operand false) [])
      senseless n q
    | none => senseless n q

def documents : Nat → List PendingDocument → Reader Unit
  | 0, _ => fail "word unexpected"
  | _ + 1, [] => return
  | n + 1, d :: ds => do
    let s ← get
    let (body, rest) := splitDocument d (s.rest.length + 1) false s.rest
    let line := s.line + breaksOf d (s.rest.take (s.rest.length - rest.length))
    set { s with rest := body, pending := [] }
    let w ← if d.literal then pure [.text true body] else pieces n .document []
    modify fun s => { s with rest, line, documents := (d.number, w) :: s.documents }
    documents n ds

def freshToken : Nat → Reader Token
  | 0 => fail "word unexpected"
  | n + 1 => do
    skipBlanks
    match ← peek with
    | none => return .mark .finish
    | some '\n' =>
      skip
      documents n (← get).pending
      return .mark .newline
    | some '&' =>
      skip
      return .mark (if ← accept '&' then .both else .background)
    | some '|' =>
      skip
      return .mark (if ← accept '|' then .either else .pipe)
    | some ';' =>
      skip
      return .mark (if ← accept ';' then .endArm else .semicolon)
    | some '(' =>
      skip
      return .mark .opening
    | some ')' =>
      skip
      return .mark .closing
    | some _ =>
      let w ← pieces n .bare []
      let fd? := match w with
        | [] => some none
        | [.text false [d]] => if d.isDigit then some (some (d.toNat - 48)) else none
        | _ => none
      match fd?, ← peek with
      | some fd, some '>' =>
        skip
        let fd := fd.getD 1
        if ← accept '>' then return .arrow fd (.file .append)
        if ← accept '&' then return .arrow fd .copy
        let _ ← accept '|'
        return .arrow fd (.file .write)
      | some fd, some '<' =>
        skip
        let fd := fd.getD 0
        if ← accept '<' then return .arrow fd (.document (← accept '-'))
        if ← accept '&' then return .arrow fd .copy
        if ← accept '>' then return .arrow fd (.file .both)
        return .arrow fd (.file .read)
      | _, _ => return .word w

def token : Nat → Reader Token
  | 0 => fail "word unexpected"
  | n + 1 => do
    match (← get).ahead with
    | some t =>
      modify fun s => { s with ahead := none }
      return t
    | none => freshToken n

def tokenPastBreaks : Nat → Reader Token
  | 0 => fail "word unexpected"
  | n + 1 => do
    match ← token n with
    | .mark .newline => tokenPastBreaks n
    | t => return t

def list : Nat → Extent → Command → Bool → Reader Command
  | 0, _, _, _ => fail "word unexpected"
  | n + 1, extent, acc, started => do
    let t ← if extent = .line then token n else tokenPastBreaks n
    match t with
    | .mark .newline => return acc
    | .mark .finish =>
      putBack t
      return acc
    | t =>
      putBack t
      let closes := match t with
        | .mark m => m == .closing || m == .endArm
        | t => (t.keyword?.map Keyword.endsList).getD false
      if closes && extent != .line && (started || extent == .nested) then return acc
      let c ← chain n
      match ← token n with
      | .mark .background => list n extent (acc.andThen (.background c)) true
      | .mark .semicolon => list n extent (acc.andThen c) true
      | .mark .newline =>
        putBack (.mark .newline)
        list n extent (acc.andThen c) true
      | .mark .finish =>
        putBack (.mark .finish)
        return acc.andThen c
      | t =>
        if extent = .line then unexpected t none
        putBack t
        return acc.andThen c

def chain : Nat → Reader Command
  | 0 => fail "word unexpected"
  | n + 1 => do
    let c ← pipeline n
    links n c

def links : Nat → Command → Reader Command
  | 0, _ => fail "word unexpected"
  | n + 1, c => do
    match ← token n with
    | .mark .both =>
      putBack (← tokenPastBreaks n)
      let d ← pipeline n
      links n (.both c d)
    | .mark .either =>
      putBack (← tokenPastBreaks n)
      let d ← pipeline n
      links n (.either c d)
    | t =>
      putBack t
      return c

def pipeline : Nat → Reader Command
  | 0 => fail "word unexpected"
  | n + 1 => do
    let t ← token n
    let negated := t.keyword? == some .not
    unless negated do putBack t
    let first ← command n
    let rest ← pipes n
    let c := if rest.isEmpty then first else .pipeline (first :: rest)
    return if negated then .negate c else c

def pipes : Nat → Reader (List Command)
  | 0 => fail "word unexpected"
  | n + 1 => do
    match ← token n with
    | .mark .pipe =>
      putBack (← tokenPastBreaks n)
      let c ← command n
      let rest ← pipes n
      return c :: rest
    | t =>
      putBack t
      return []

def expect : Nat → Keyword → Reader Unit
  | 0, _ => fail "word unexpected"
  | n + 1, k => do
    let t ← token n
    unless t.keyword? == some k do unexpected t (some k.describe)

def command : Nat → Reader Command
  | 0 => fail "word unexpected"
  | n + 1 => do
    let t ← token n
    let line := (← get).line
    match t with
    | .mark .opening =>
      let c ← list n .block .nothing false
      match ← token n with
      | .mark .closing =>
        let rs ← redirects n
        return .subshell line c rs
      | t => unexpected t (some Mark.closing.describe)
    | .mark m => unexpected (.mark m) none
    | t =>
      let compound ← match t.keyword? with
        | some .if_ =>
          let c ← branches n
          pure (some c)
        | some .while_ =>
          let c ← loopRest n false
          pure (some c)
        | some .until_ =>
          let c ← loopRest n true
          pure (some c)
        | some .for_ =>
          let c ← eachRest n line
          pure (some c)
        | some .case_ =>
          let c ← selectRest n line
          pure (some c)
        | some .begin_ =>
          let c ← list n .block .nothing false
          expect n .end_
          pure (some c)
        | some k => unexpected (.word [.text false k.text.toList]) none
        | none => pure none
      match compound with
      | some c =>
        let rs ← redirects n
        return if rs.isEmpty then c else .redirected line c rs
      | none =>
        putBack t
        simple n line [] [] []

def branches : Nat → Reader Command
  | 0 => fail "word unexpected"
  | n + 1 => do
    let condition ← list n .block .nothing false
    expect n .then_
    let yes ← list n .block .nothing false
    let t ← token n
    match t.keyword? with
    | some .elif =>
      let no ← branches n
      return .branch condition yes no
    | some .else_ =>
      let no ← list n .block .nothing false
      expect n .fi
      return .branch condition yes no
    | some .fi => return .branch condition yes .nothing
    | _ => unexpected t (some Keyword.fi.describe)

def loopRest : Nat → Bool → Reader Command
  | 0, _ => fail "word unexpected"
  | n + 1, until_ => do
    let condition ← list n .block .nothing false
    expect n .do_
    let body ← list n .block .nothing false
    expect n .done
    return .loop until_ condition body

def eachRest : Nat → Nat → Reader Command
  | 0, _ => fail "word unexpected"
  | n + 1, line => do
    match ← token n with
    | .word w =>
      match plain? w with
      | none => fail "Bad for loop variable"
      | some name =>
        unless isName name do fail "Bad for loop variable"
        let t ← tokenPastBreaks n
        let words ←
          if t.keyword? == some .in_ then
            let ws ← words n
            let t ← token n
            match t with
            | .mark .newline => pure ()
            | .mark .semicolon => pure ()
            | t => unexpected t none
            pure (some ws)
          else
            match t with
            | .mark .semicolon => pure ()
            | t => putBack t
            pure none
        let t ← tokenPastBreaks n
        unless t.keyword? == some .do_ do unexpected t (some Keyword.do_.describe)
        let body ← list n .block .nothing false
        expect n .done
        return .each line name words body
    | _ => fail "Bad for loop variable"

def words : Nat → Reader (List Word)
  | 0 => fail "word unexpected"
  | n + 1 => do
    match ← token n with
    | .word w =>
      let ws ← words n
      return w :: ws
    | t =>
      putBack t
      return []

def selectRest : Nat → Nat → Reader Command
  | 0, _ => fail "word unexpected"
  | n + 1, line => do
    match ← token n with
    | .word w =>
      let t ← tokenPastBreaks n
      unless t.keyword? == some .in_ do unexpected t (some Keyword.in_.describe)
      let arms ← arms n
      return .select line w arms
    | t => unexpected t (some "word")

def arms : Nat → Reader (List (List Word × Command))
  | 0 => fail "word unexpected"
  | n + 1 => do
    let t ← tokenPastBreaks n
    if t.keyword? == some .esac then return []
    match t with
    | .mark .opening => pure ()
    | t => putBack t
    let patterns ← patterns n
    let body ← list n .nested .nothing false
    let arm := (patterns, body)
    let t ← tokenPastBreaks n
    match t with
    | .mark .endArm =>
      let rest ← arms n
      return arm :: rest
    | t =>
      if t.keyword? == some .esac then return [arm]
      unexpected t (some Mark.endArm.describe)

/-- Reads patterns up to the bracket behind them. Anything can stand in the place of one. -/
def patterns : Nat → Reader (List Word)
  | 0 => fail "word unexpected"
  | n + 1 => do
    let w := match ← token n with
      | .word w => w
      | _ => []
    match ← token n with
    | .mark .pipe =>
      let ws ← patterns n
      return w :: ws
    | .mark .closing => return [w]
    | .word _ => fail ("word unexpected (expecting " ++ Mark.closing.describe ++ ")")
    | t => unexpected t (some Mark.closing.describe)

def redirects : Nat → Reader (List Redirect)
  | 0 => fail "word unexpected"
  | n + 1 => do
    match ← token n with
    | .arrow fd a =>
      let r ← redirect n fd a
      let rs ← redirects n
      return r :: rs
    | t =>
      putBack t
      return []

def redirect : Nat → Nat → Arrow → Reader Redirect
  | 0, _, _ => fail "word unexpected"
  | n + 1, fd, arrow => do
    match ← token n with
    | .word w =>
      match arrow with
      | .file access => return .file fd access w
      | .copy => return .copy fd w
      | .document stripTabs =>
        let number := (← get).nextDocument
        let d : PendingDocument := ⟨number, delimiterOf w, isQuoted w, stripTabs⟩
        modify fun s => { s with nextDocument := number + 1, pending := s.pending ++ [d] }
        return .document fd number
    | t => unexpected t none

def simple : Nat → Nat → List (Octets × Word) → List Word → List Redirect → Reader Command
  | 0, _, _, _, _ => fail "word unexpected"
  | n + 1, line, as, ws, rs => do
    match ← token n with
    | .word w =>
      match if ws.isEmpty then assignment? w else none with
      | some a => simple n line (as ++ [a]) ws rs
      | none => simple n line as (ws ++ [w]) rs
    | .arrow fd a =>
      let r ← redirect n fd a
      simple n line as ws (rs ++ [r])
    | .mark .opening =>
      match as, ws, rs with
      | [], [w], [] =>
        match ← token n with
        | .mark .closing =>
          match plain? w with
          | none => fail "Bad function name"
          | some name =>
            if !isName name || (fixedNames.map String.toList).contains name then
              fail "Bad function name"
            putBack (← tokenPastBreaks n)
            let body ← command n
            return .define name body
        | .word _ => fail ("word unexpected (expecting " ++ Mark.closing.describe ++ ")")
        | t => unexpected t (some Mark.closing.describe)
      | _, _, _ =>
        putBack (.mark .opening)
        return .simple line as ws rs
    | t =>
      putBack t
      return .simple line as ws rs

end

def nextLine : Reader (Option Command) := do
  let fuel := 16 * (← get).rest.length + 64
  match ← token fuel with
  | .mark .finish => return none
  | .mark .newline => return some .nothing
  | t =>
    putBack t
    let c ← list fuel .line .nothing false
    return some c

end FleetDispatch.Shell
