/-
# Signals

Signals have numbers and names.  One that a process has a trap for runs the trap; most of the others
end the process, and what started it tells so.  The number zero is no signal but the end of a shell.
-/
import ScriptWeave.Shell.Bytes

namespace ScriptWeave.Shell.Signal

/-- The names of the signals from one on. -/
def names : List String :=
  ["HUP", "INT", "QUIT", "ILL", "TRAP", "ABRT", "BUS", "FPE", "KILL", "USR1", "SEGV", "USR2",
    "PIPE", "ALRM", "TERM", "STKFLT", "CHLD", "CONT", "STOP", "TSTP", "TTIN", "TTOU", "URG", "XCPU",
    "XFSZ", "VTALRM", "PROF", "WINCH", "IO", "PWR", "SYS", "32", "33", "RTMIN", "RTMIN+1",
    "RTMIN+2", "RTMIN+3", "RTMIN+4", "RTMIN+5", "RTMIN+6", "RTMIN+7", "RTMIN+8", "RTMIN+9",
    "RTMIN+10", "RTMIN+11", "RTMIN+12", "RTMIN+13", "RTMIN+14", "RTMIN+15", "RTMAX-14", "RTMAX-13",
    "RTMAX-12", "RTMAX-11", "RTMAX-10", "RTMAX-9", "RTMAX-8", "RTMAX-7", "RTMAX-6", "RTMAX-5",
    "RTMAX-4", "RTMAX-3", "RTMAX-2", "RTMAX-1", "RTMAX"]

/-- The name of a signal. -/
def nameOf (signal : Nat) : String :=
  match signal with
  | 0 => "EXIT"
  | n + 1 => (names[n]?).getD ""

/-- The signal of a name or a number. -/
def number? (s : Bytes) : Option Nat :=
  match Shell.number? s with
  | some n => if n ≤ names.length then some n else none
  | none =>
    let known := (List.range (names.length + 1)).map fun n => (n, lowered (utf8 (nameOf n)))
    (known.find? fun k => k.2 = lowered s).map (·.1)

/-- The signals that do nothing to a process that has no trap for them. -/
def harmless : List Nat := [0, 17, 18, 23, 28]

/-- What is told of a process that a signal has ended; nothing about some. -/
def told (signal : Nat) : String :=
  match nameOf signal with
  | "HUP" => "Hangup"
  | "QUIT" => "Quit"
  | "ILL" => "Illegal instruction"
  | "TRAP" => "Trace/breakpoint trap"
  | "ABRT" => "Aborted"
  | "BUS" => "Bus error"
  | "FPE" => "Floating point exception"
  | "KILL" => "Killed"
  | "USR1" => "User defined signal 1"
  | "SEGV" => "Segmentation fault"
  | "USR2" => "User defined signal 2"
  | "ALRM" => "Alarm clock"
  | "TERM" => "Terminated"
  | "STKFLT" => "Stack fault"
  | "XCPU" => "CPU time limit exceeded"
  | "XFSZ" => "File size limit exceeded"
  | "VTALRM" => "Virtual timer expired"
  | "PROF" => "Profiling timer expired"
  | "IO" => "I/O possible"
  | "PWR" => "Power failure"
  | "SYS" => "Bad system call"
  | _ => ""

end ScriptWeave.Shell.Signal
