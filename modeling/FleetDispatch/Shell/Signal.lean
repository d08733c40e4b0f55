import FleetDispatch.Decimal.Digits
import FleetDispatch.Text.Octets

namespace FleetDispatch.Shell

inductive Reaction where
  | ends
  | ignores
  | halts
  deriving DecidableEq

structure Signal where
  number : Nat
  name : String
  /-- How the end of a process by this signal is described. -/
  text : String
  reaction : Reaction
  deriving DecidableEq

namespace Signal

def all : List Signal :=
  [⟨1, "HUP", "Hangup", .ends⟩, ⟨2, "INT", "", .ends⟩, ⟨3, "QUIT", "Quit", .ends⟩,
    ⟨4, "ILL", "Illegal instruction", .ends⟩, ⟨5, "TRAP", "Trace/breakpoint trap", .ends⟩,
    ⟨6, "ABRT", "Aborted", .ends⟩, ⟨7, "BUS", "Bus error", .ends⟩,
    ⟨8, "FPE", "Floating point exception", .ends⟩, ⟨9, "KILL", "Killed", .ends⟩,
    ⟨10, "USR1", "User defined signal 1", .ends⟩, ⟨11, "SEGV", "Segmentation fault", .ends⟩,
    ⟨12, "USR2", "User defined signal 2", .ends⟩, ⟨13, "PIPE", "", .ends⟩,
    ⟨14, "ALRM", "Alarm clock", .ends⟩, ⟨15, "TERM", "Terminated", .ends⟩,
    ⟨16, "STKFLT", "Stack fault", .ends⟩, ⟨17, "CHLD", "", .ignores⟩, ⟨18, "CONT", "", .ignores⟩,
    ⟨19, "STOP", "", .halts⟩, ⟨20, "TSTP", "", .halts⟩, ⟨21, "TTIN", "", .halts⟩,
    ⟨22, "TTOU", "", .halts⟩, ⟨23, "URG", "", .ignores⟩,
    ⟨24, "XCPU", "CPU time limit exceeded", .ends⟩, ⟨25, "XFSZ", "File size limit exceeded", .ends⟩,
    ⟨26, "VTALRM", "Virtual timer expired", .ends⟩, ⟨27, "PROF", "Profiling timer expired", .ends⟩,
    ⟨28, "WINCH", "", .ignores⟩, ⟨29, "IO", "I/O possible", .ends⟩,
    ⟨30, "PWR", "Power failure", .ends⟩, ⟨31, "SYS", "Bad system call", .ends⟩]

def ofNumber? (n : Nat) : Option Signal :=
  all.find? (·.number == n)

/-- The number of a signal by its number or its name, where case does not count. Zero stands for
none of them. -/
def number? (cs : Octets) : Option Nat :=
  if !cs.isEmpty && cs.all Char.isDigit then
    let n := Decimal.ofDigits 0 cs
    if n ≤ 64 then some n else none
  else
    let name := String.ofList (cs.map Char.toUpper)
    if name = "EXIT" then some 0 else (all.find? (·.name == name)).map (·.number)

def nameOf (n : Nat) : Octets :=
  if n = 0 then "EXIT".toList
  else match ofNumber? n with
    | some s => s.name.toList
    | none => Decimal.digits n

/-- A process that a signal ends has this added to its number for its status. -/
def base : Nat := 128

end Signal

end FleetDispatch.Shell
