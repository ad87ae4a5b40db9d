/-
Options — what the words of a command line ask for

The words are read from left to right, and the first one that does not fit
decides.  A value follows its option as the next word, or after an equals sign
in the same word.  The command that starts a server takes every word that is
left, whatever it looks like.
-/
import DeflateTrial.Text.Decimal
import DeflateTrial.Text.Split
import DeflateTrial.Trial.Basic

namespace DeflateTrial.CommandLine

/-- What a run is asked to do. -/
structure RunOptions where
  address : String := "ws://127.0.0.1:9100/"
  maxExponent : Nat := Trial.usualExponent
  /-- The program that starts the server, and its arguments. -/
  serverCommand : List String := []
  /-- How long the program may take to listen, in milliseconds. -/
  startupDelay : Nat := 1000
  /-- After how many seconds the run is given up. -/
  timeout : Option Nat := none
deriving DecidableEq, Repr

/-- What is asked for. -/
inductive Wish where
  | help
  | run (options : RunOptions)
  /-- Serve the reference endpoints at an address. -/
  | serve (listen : String)
deriving DecidableEq, Repr

/-- What is wrong with the words. -/
inductive Misuse where
  | noCommand
  | unknownCommand (word : String)
  | unexpected (word : String)
  | valueMissing (option : String)
  | valueUnneeded (option : String)
  | repeated (option : String)
  | badValue (option value : String)
deriving DecidableEq, Repr

def Misuse.message : Misuse → String
  | noCommand => "a command is needed: run, serve or help"
  | unknownCommand word => s!"unrecognized command {word}"
  | unexpected word => s!"unexpected argument {word}"
  | valueMissing option => s!"a value is required for {option}"
  | valueUnneeded option => s!"{option} takes no value"
  | repeated option => s!"{option} cannot be used more than once"
  | badValue option value => s!"invalid value {value} for {option}"

/-- What one word is. -/
inductive Word where
  /-- Two hyphens: no option follows. -/
  | rest
  /-- A long option, without its hyphens, and the value in the same word. -/
  | long (name : String) (value : Option String)
  /-- Short options, without their hyphen. -/
  | short (letters : List Char)
  | plain
deriving DecidableEq, Repr

def Word.of (word : String) : Word :=
  match word.toList with
  | ['-', '-'] => rest
  | '-' :: '-' :: body =>
    match Text.cutFirst '=' body with
    | some (name, value) => long (String.ofList name) (some (String.ofList value))
    | none => long (String.ofList body) none
  | '-' :: c :: cs => short (c :: cs)
  | _ => plain

/-- The value of an option: in the same word, or else the next word, if that
does not look like an option. -/
def valueOf (option : String) (attached : Option String) (words : List String) :
    Except Misuse (String × List String) :=
  match attached, words with
  | some value, _ => .ok (value, words)
  | none, value :: words =>
    if Word.of value = .plain then .ok (value, words) else .error (.valueMissing option)
  | none, [] => .error (.valueMissing option)

def numberIn (option value : String) (number : Option Nat) : Except Misuse Nat :=
  match number with
  | some n => .ok n
  | none => .error (.badValue option value)

/-- A number of four bytes; a sign may stand in front. -/
def word32 (value : String) : Option Nat :=
  let signed := Text.Decimal.readSigned? (1 <<< 63) value.toList
  (signed.filter fun n => 0 ≤ n ∧ n < ((1 <<< 32 : Nat) : Int)).map Int.toNat

/-- A number of eight bytes; a plus sign may stand in front. -/
def word64 (value : String) : Option Nat :=
  Text.Decimal.readBelow? (1 <<< 64) value.toList

/-- The options of a run so far, and the single ones among them that were given. -/
structure RunDraft where
  options : RunOptions := {}
  given : List String := []

/-- Sets a single option, once. -/
def RunDraft.set (draft : RunDraft) (option value : String) : Except Misuse RunDraft := do
  if option ∈ draft.given then throw (.repeated option)
  let given := option :: draft.given
  let options := draft.options
  match option with
  | "address" => return { options := { options with address := value }, given }
  | "max-bits" =>
    let n ← numberIn option value (word32 value)
    return { options := { options with maxExponent := n }, given }
  | "startup-delay-ms" =>
    let n ← numberIn option value (word64 value)
    return { options := { options with startupDelay := n }, given }
  | "timeout-secs" =>
    let n ← numberIn option value (word64 value)
    return { options := { options with timeout := some n }, given }
  | _ => throw (.unexpected option)

/-- Adds words to the command that starts the server. -/
def RunDraft.addCommand (draft : RunDraft) (words : List String) : RunDraft :=
  { draft with
    options := { draft.options with serverCommand := draft.options.serverCommand ++ words } }

def helpOption : String := "help"

/-- The option whose values are the command that starts the server. -/
def serverOption : String := "server-cmd"

/-- The options of a run that take one value. -/
def singleOptions : List String :=
  ["address", "max-bits", "startup-delay-ms", "timeout-secs"]

theorem length_valueOf {option value : String} {attached : Option String}
    {words rest : List String} (h : valueOf option attached words = .ok (value, rest)) :
    rest.length ≤ words.length := by
  unfold valueOf at h
  split at h
  · cases h
    exact Nat.le_refl _
  · split at h
    · cases h
      exact Nat.le_succ _
    · cases h
  · cases h

/-- Short options: help is the only one. -/
def ofShort : List Char → Except Misuse Wish
  | 'h' :: _ => .ok .help
  | letters => .error (.unexpected (String.ofList ('-' :: letters)))

/-- Nothing but the end may follow two hyphens where no plain word has a meaning. -/
def ended (wish : Wish) : List String → Except Misuse Wish
  | [] => .ok wish
  | word :: _ => .error (.unexpected word)

def runWords (draft : RunDraft) (words : List String) : Except Misuse Wish :=
  match words with
  | [] => .ok (.run draft.options)
  | word :: words =>
    match Word.of word with
    | .rest => ended (.run draft.options) words
    | .plain => .error (.unexpected word)
    | .short letters => ofShort letters
    | .long name attached =>
      if name = helpOption then
        if attached.isSome then .error (.valueUnneeded name) else .ok .help
      else if name = serverOption then
        match attached, words with
        | some value, words => runWords (draft.addCommand [value]) words
        | none, [] => .error (.valueMissing name)
        | none, words => .ok (.run (draft.addCommand words).options)
      else if name ∉ singleOptions then .error (.unexpected word)
      else
        match _h : valueOf name attached words with
        | .error misuse => .error misuse
        | .ok (value, rest) =>
          match draft.set name value with
          | .error misuse => .error misuse
          | .ok draft => runWords draft rest
termination_by words.length
decreasing_by
  · simp
  · have := length_valueOf _h
    simp only [List.length_cons]
    omega

/-- The address that `serve` listens at unless told otherwise. -/
def usualListen : String := "127.0.0.1:9100"

def serveWords (listen : Option String) (words : List String) : Except Misuse Wish :=
  let wish := Wish.serve (listen.getD usualListen)
  match words with
  | [] => .ok wish
  | word :: words =>
    match Word.of word with
    | .rest => ended wish words
    | .plain => .error (.unexpected word)
    | .short letters => ofShort letters
    | .long name attached =>
      if name = helpOption then
        if attached.isSome then .error (.valueUnneeded name) else .ok .help
      else if name ≠ "listen" then .error (.unexpected word)
      else
        match _h : valueOf name attached words with
        | .error misuse => .error misuse
        | .ok (value, rest) =>
          if listen.isSome then .error (.repeated name) else serveWords (some value) rest
termination_by words.length
decreasing_by
  have := length_valueOf _h
  simp only [List.length_cons]
  omega

/-- The words after `help`: at most the name of one command. -/
def helpWords : List String → Except Misuse Wish
  | [] => .ok .help
  | word :: words =>
    if word ∈ ["run", "serve", "help"] then
      match words with
      | [] => .ok .help
      | next :: _ => .error (.unknownCommand next)
    else .error (.unknownCommand word)

/-- What a command line asks for; the words do not include the program's name. -/
def read (words : List String) : Except Misuse Wish :=
  match words with
  | [] => .error .noCommand
  | "run" :: words => runWords {} words
  | "serve" :: words => serveWords none words
  | "help" :: words => helpWords words
  | word :: words =>
    match Word.of word with
    | .rest => match words with
      | [] => .error .noCommand
      | word :: _ => .error (.unexpected word)
    | .plain => .error (.unknownCommand word)
    | .short letters => ofShort letters
    | .long name attached =>
      if name ≠ helpOption then .error (.unexpected word)
      else if attached.isSome then .error (.valueUnneeded name)
      else .ok .help

def usage : String := String.intercalate "\n" [
  "Tries WebSocket servers for the permessage-deflate extension",
  "",
  "Usage: run [OPTIONS]      Run every scenario under every configuration against a server",
  "       serve [OPTIONS]    Serve the md5 and echo endpoints",
  "       help [COMMAND]     Show this text",
  "",
  "Options of run:",
  "  --address <ADDRESS>         Base URL of the server under trial",
  "  --max-bits <N>              The largest payload has two to the power of N bytes",
  "  --server-cmd <CMD>...       Command that starts the server, killed when the run ends",
  "  --startup-delay-ms <N>      Time given to the command to start listening",
  "  --timeout-secs <N>          Give the run up after this many seconds",
  "",
  "Options of serve:",
  "  --listen <ADDRESS>          Address to listen at",
  ""]

end DeflateTrial.CommandLine
