import HostSteward.Numeral

/-!
# Signals to processes

Signals have numbers and names. What a signal does to a process that does not care about it
depends on the signal.
-/

namespace HostSteward.Shell.Signal

/-- The names in the order of the numbers, which start with one. -/
def names : List String :=
  ["HUP", "INT", "QUIT", "ILL", "TRAP", "ABRT", "BUS", "FPE", "KILL", "USR1", "SEGV", "USR2",
    "PIPE", "ALRM", "TERM", "STKFLT", "CHLD", "CONT", "STOP", "TSTP", "TTIN", "TTOU", "URG",
    "XCPU", "XFSZ", "VTALRM", "PROF", "WINCH", "IO", "PWR", "SYS"]

def last : Nat := 64

def ofText? (text : String) : Option Nat :=
  match Numeral.read? text.toList with
  | some n => if n ≤ last then some n else none
  | none => (names.findIdx? (·.toList = text.toList.map Char.toUpper)).map (· + 1)

/-- What a trap is for: a signal, or the end of a shell, which is zero. -/
def ofOccasion? (text : String) : Option Nat :=
  if text.toList.map Char.toUpper = "EXIT".toList then some 0 else ofText? text

def kill : Nat := 9

/-- A process ended that one has started. -/
def childEnded : Nat := 17

def stop : Nat := 19

def isHarmless (n : Nat) : Bool := n = 0 || [17, 18, 20, 21, 22, 23, 28].contains n

/-- Signals that cannot be caught. -/
def isFinal (n : Nat) : Bool := n = kill || n = stop

/-- Signals that programs in the background do not care about. -/
def isFromTerminal (n : Nat) : Bool := n = 2 || n = 3

end HostSteward.Shell.Signal
