import FleetDispatch.Text.Octets

namespace FleetDispatch.Shell

inductive Access where
  | read
  | write
  | append
  | both
  deriving DecidableEq

mutual

/-- A part of a word. What is quoted is neither split nor taken for a pattern. -/
inductive Piece where
  | text (quoted : Bool) (cs : Octets)
  | param (quoted : Bool) (name : Octets) (use : Use)
  /-- What a script writes. -/
  | output (quoted : Bool) (script : Command)
  /-- The value of an arithmetic expression. -/
  | sum (quoted : Bool) (expr : List Piece)

/-- What is made of a parameter. Where a word stands in for one that has no value, it does so for
an empty value as well if `orEmpty`. -/
inductive Use where
  | value
  | length
  | otherwise (orEmpty : Bool) (word : List Piece)
  | assign (orEmpty : Bool) (word : List Piece)
  | demand (orEmpty : Bool) (word : List Piece)
  | instead (orEmpty : Bool) (word : List Piece)
  | cut (front longest : Bool) (pattern : List Piece)
  | senseless

/-- A change of the streams of a command. Documents that stand in the script have numbers. -/
inductive Redirect where
  | file (fd : Nat) (access : Access) (name : List Piece)
  | copy (fd : Nat) (source : List Piece)
  | document (fd : Nat) (number : Nat)

/-- A command of a script, where it can fail by itself with its line. -/
inductive Command where
  | nothing
  | simple (line : Nat) (assignments : List (Octets × List Piece)) (words : List (List Piece))
      (redirects : List Redirect)
  | pipeline (commands : List Command)
  | background (command : Command)
  | sequence (first second : Command)
  | both (first second : Command)
  | either (first second : Command)
  | negate (command : Command)
  | redirected (line : Nat) (command : Command) (redirects : List Redirect)
  /-- Commands that leave nothing behind but what they wrote. -/
  | subshell (line : Nat) (command : Command) (redirects : List Redirect)
  | branch (condition yes no : Command)
  | loop (until_ : Bool) (condition body : Command)
  /-- Without words, the arguments are gone through. -/
  | each (line : Nat) (name : Octets) (words : Option (List (List Piece))) (body : Command)
  | select (line : Nat) (word : List Piece) (arms : List (List (List Piece) × Command))
  | define (name : Octets) (body : Command)

end

abbrev Word := List Piece

inductive Mark where
  | finish
  | newline
  | semicolon
  | background
  | both
  | either
  | pipe
  | opening
  | closing
  | endArm
  deriving DecidableEq

inductive Arrow where
  | file (access : Access)
  | copy
  | document (stripTabs : Bool)
  deriving DecidableEq

inductive Token where
  | word (w : Word)
  | arrow (fd : Nat) (arrow : Arrow)
  | mark (m : Mark)

inductive Keyword where
  | not
  | case_
  | do_
  | done
  | elif
  | else_
  | esac
  | fi
  | for_
  | if_
  | in_
  | then_
  | until_
  | while_
  | begin_
  | end_
  deriving DecidableEq

namespace Keyword

def text : Keyword → String
  | not => "!"
  | case_ => "case"
  | do_ => "do"
  | done => "done"
  | elif => "elif"
  | else_ => "else"
  | esac => "esac"
  | fi => "fi"
  | for_ => "for"
  | if_ => "if"
  | in_ => "in"
  | then_ => "then"
  | until_ => "until"
  | while_ => "while"
  | begin_ => "\x7b"
  | end_ => "\x7d"

def all : List Keyword :=
  [not, case_, do_, done, elif, else_, esac, fi, for_, if_, in_, then_, until_, while_, begin_,
    end_]

def ofOctets? (cs : Octets) : Option Keyword :=
  all.find? fun k => k.text.toList == cs

def endsList (k : Keyword) : Bool :=
  [do_, done, elif, else_, esac, fi, then_, end_].contains k

end Keyword

def Mark.describe : Mark → String
  | finish => "end of file"
  | newline => "newline"
  | semicolon => "\";\""
  | background => "\"&\""
  | both => "\"&&\""
  | either => "\"||\""
  | pipe => "\"|\""
  | opening => "\"(\""
  | closing => "\")\""
  | endArm => "\";;\""

def Keyword.describe (k : Keyword) : String :=
  "\"" ++ k.text ++ "\""

def plain? : Word → Option Octets
  | [.text false cs] => some cs
  | _ => none

/-- Puts a piece before a word; text that is quoted alike is joined. -/
def Piece.consTo (p : Piece) (w : Word) : Word :=
  match p, w with
  | .text q cs, .text q' cs' :: w =>
    if q = q' then .text q (cs ++ cs') :: w else p :: .text q' cs' :: w
  | p, w => p :: w

def wordOf (pieces : List Piece) : Word :=
  pieces.foldl (fun w p => p.consTo w) []

def isNameStart (c : Char) : Bool :=
  c.isAlpha || c == '_'

def isNameChar (c : Char) : Bool :=
  c.isAlphanum || c == '_'

def isName (cs : Octets) : Bool :=
  match cs with
  | [] => false
  | c :: cs => isNameStart c && cs.all isNameChar

def assignment? : Word → Option (Octets × Word)
  | .text false cs :: w =>
    let name := cs.takeWhile isNameChar
    match cs.drop name.length with
    | '=' :: value =>
      if isName name then some (name, if value.isEmpty then w else .text false value :: w)
      else none
    | _ => none
  | _ => none

end FleetDispatch.Shell
