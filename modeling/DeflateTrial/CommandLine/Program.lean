/-
Programs — what becomes of those that can be told from their command line

A program that was given some time to listen may have come to its end by then.
For a few programs the arguments alone say when and how: those that wait, those
that end at once, and a shell whose script is made of them.  Every other
program is taken not to exist.
-/
import DeflateTrial.Text.Decimal
import DeflateTrial.Text.Split

namespace DeflateTrial.CommandLine

/-- How a program comes to its end. -/
inductive Ending where
  | status (code : Nat)
  | signal (number : Nat)
deriving DecidableEq, Repr

/-- The names of the signals, by their numbers. -/
def signalNames : List (Nat × String) := [
  (1, "SIGHUP"), (2, "SIGINT"), (3, "SIGQUIT"), (4, "SIGILL"), (5, "SIGTRAP"), (6, "SIGABRT"),
  (7, "SIGBUS"), (8, "SIGFPE"), (9, "SIGKILL"), (10, "SIGUSR1"), (11, "SIGSEGV"),
  (12, "SIGUSR2"), (13, "SIGPIPE"), (14, "SIGALRM"), (15, "SIGTERM"), (16, "SIGSTKFLT"),
  (17, "SIGCHLD"), (18, "SIGCONT"), (19, "SIGSTOP"), (20, "SIGTSTP"), (21, "SIGTTIN"),
  (22, "SIGTTOU"), (23, "SIGURG"), (24, "SIGXCPU"), (25, "SIGXFSZ"), (26, "SIGVTALRM"),
  (27, "SIGPROF"), (28, "SIGWINCH"), (29, "SIGIO"), (30, "SIGPWR"), (31, "SIGSYS")]

def Ending.text : Ending → String
  | status code => s!"exit status: {Text.Decimal.write code}"
  | signal number =>
    let numbered := s!"signal: {Text.Decimal.write number}"
    match signalNames.lookup number with
    | some name => s!"{numbered} ({name})"
    | none => numbered

/-- What a program does that is left alone. -/
inductive Course where
  | endless
  /-- It ends after some milliseconds. -/
  | ends (duration : Nat) (ending : Ending)
deriving DecidableEq, Repr

namespace Course

/-- A course that begins some milliseconds later. -/
def delay (duration : Nat) : Course → Course
  | endless => endless
  | ends rest ending => ends (duration + rest) ending

/-- How the course has ended within a time, if it has. -/
def endedWithin (time : Nat) : Course → Option Ending
  | endless => none
  | ends duration ending => if duration < time then some ending else none

end Course

/-- The milliseconds in a number of seconds, which may have a fraction. -/
def milliseconds? (seconds : String) : Option Nat :=
  let cs := seconds.toList
  let (whole, fraction) := (Text.cutFirst '.' cs).getD (cs, [])
  match Text.Decimal.readUnsigned? whole, Text.Decimal.readDigits 0 fraction with
  | some s, some _ =>
    (Text.Decimal.readDigits 0 (fraction ++ ['0', '0', '0'] |>.take 3)).map (1000 * s + ·)
  | _, _ => none

/-- The course of a program that waits. -/
def waiting : List String → Course
  | ["infinity"] => .endless
  | words =>
    match words.mapM milliseconds? with
    | some (time :: times) => .ends (times.foldl (· + ·) time) (.status 0)
    | _ => .ends 0 (.status 1)

/-- The course of a program that does one thing, if it is one that is known. -/
def simpleCourse? (words : List String) : Option Course :=
  match words with
  | "sleep" :: times => some (waiting times)
  | "true" :: _ => some (.ends 0 (.status 0))
  | "false" :: _ => some (.ends 0 (.status 1))
  | ["cat"] => some (.ends 0 (.status 0))
  | _ => none

/-! ## The shell -/

/-- The number of a signal, from its number or its name. -/
def signalOf? (word : String) : Option Nat :=
  match Text.Decimal.readUnsigned? word.toList with
  | some number => some number
  | none =>
    (signalNames.find? fun (_, name) => name = word ∨ name = "SIG" ++ word).map Prod.fst

/-- The signal that a command of the shell sends to the shell itself. -/
def ownSignal? : List String → Option Nat
  | ["kill", "$$"] => some 15
  | ["kill", "-s", name, "$$"] => signalOf? name
  | ["kill", option, "$$"] => (Text.dropStart? ['-'] option.toList).bind (signalOf? ∘ String.ofList)
  | _ => none

/-- Signals that let a program go on. -/
def harmless : List Nat := [0, 17, 18, 23, 28]

/-- Signals that stop a program, but do not end it. -/
def halting : List Nat := [19, 20, 21, 22]

/-- The status of a shell that finds no program of a name. -/
def notFound : Nat := 127

/-- The course of a shell through commands, after one that had an ending. -/
def shellCourse (last : Ending) : (commands : List (List String)) → Course
  | [] => .ends 0 last
  | words :: commands =>
    match words, ownSignal? words with
    | [], _ => shellCourse last commands
    | _, some number =>
      if number ∈ harmless then shellCourse (.status 0) commands
      else if number ∈ halting then .endless
      else .ends 0 (.signal number)
    | ["exit"], _ => .ends 0 last
    | ["exit", code], _ =>
      .ends 0 (.status (((Text.Decimal.readUnsigned? code.toList).map (· % 256)).getD 2))
    | "exec" :: program, _ => (simpleCourse? program).getD (.ends 0 (.status notFound))
    | program, none =>
      match (simpleCourse? program).getD (.ends 0 (.status notFound)) with
      | .endless => .endless
      | .ends duration ending => (shellCourse ending commands).delay duration

/-- The commands of a script, and the words of each. -/
def commandsOf (script : String) : List (List String) :=
  (script.toList.splitOnP fun c => c = ';' || c = '\n').map fun command =>
    ((command.splitOn ' ').filter (· ≠ [])).map String.ofList

/-! ## Starting programs -/

/-- Directories and data, which are there but cannot be started. -/
def lifeless : List String :=
  ["", ".", "..", "/bin", "/dev", "/dev/null", "/etc", "/etc/hosts", "/etc/passwd", "/home",
    "/lib", "/proc", "/root", "/sys", "/tmp", "/usr", "/usr/bin", "/var"]

/-- The name of a program, without the directory that programs are in. -/
def programName (program : String) : String :=
  let cs := program.toList
  let found := (Text.dropStart? "/usr/bin/".toList cs).orElse fun _ =>
    Text.dropStart? "/bin/".toList cs
  (found.map String.ofList).getD program

/-- A path without the slashes at its end. -/
def withoutLastSlashes (path : String) : String :=
  String.ofList (path.toList.reverse.dropWhile (· == '/')).reverse

/-- What a program does with its arguments, or why it cannot be started. -/
def courseOf (program : String) (arguments : List String) : Except String Course :=
  let missing := "No such file or directory (os error 2)"
  if program.isEmpty then .error missing
  else if withoutLastSlashes program ∈ lifeless then
    .error "Permission denied (os error 13)"
  else
    match programName program, arguments with
    | "sh", ["-c", script] | "bash", ["-c", script] =>
      .ok (shellCourse (.status 0) (commandsOf script))
    | name, arguments =>
      match simpleCourse? (name :: arguments) with
      | some course => .ok course
      | none => .error missing

end DeflateTrial.CommandLine
