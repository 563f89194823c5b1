import Backflow.Command.Options

namespace Backflow

/-- Why the words of a command line start no tool. -/
inductive Usage where
  | help
  | version
  | unknownArgument (word : String)
  | unknownCommand (word : String)
  | repeated (o : Opt)
  | valueOfFlag (o : Opt)
  | missingValue (o : Opt)
  | badValue (o : Opt) (value : String)
  | badNumber (o : Opt) (value : String)
  | missingOption (o : Opt)
deriving DecidableEq, Repr

namespace Usage

def exit : Usage → Nat
  | help | version => 0
  | _ => 2

def message : Usage → String
  | help => "commands: " ++ ", ".intercalate (Tool.all.map Tool.name)
  | version => "1.0"
  | unknownArgument word => s!"unexpected argument `{word}`"
  | unknownCommand word => s!"unrecognized subcommand `{word}`"
  | repeated o => s!"`--{o.long}` cannot be used multiple times"
  | valueOfFlag o => s!"`--{o.long}` takes no value"
  | missingValue o => s!"`--{o.long}` needs a value"
  | badValue o value | badNumber o value => s!"invalid value `{value}` for `--{o.long}`"
  | missingOption o => s!"`--{o.long}` is required"

end Usage

/-- The largest number of registers that can be written. -/
def maxRegisters : Nat := 0xffffffffffffffff

/-- A decimal number in ASCII digits, with or without a plus sign. -/
def registers? (text : String) : Option Nat :=
  let digits := match text.toList with
    | '+' :: rest => rest
    | cs => cs
  if digits ≠ [] ∧ digits.all Char.isDigit then
    let n := digits.foldl (fun n c => 10 * n + (c.toNat - '0'.toNat)) 0
    if n ≤ maxRegisters then some n else none
  else none

/-- Takes over an option with its value, or a flag. -/
def Settings.set (s : Settings) (o : Opt) (value : String) : Except Usage Settings :=
  match o with
  | .debug => .ok { s with debug := true }
  | .verbose => .ok { s with verbose := true }
  | .ecslog => .ok { s with ecslog := true }
  | .input => .ok { s with input := value }
  | .output => .ok { s with output := value }
  | .filterClass => .ok { s with filterClass := value }
  | .filterMethod => .ok { s with filterMethod := value }
  | .order =>
    match Order.ofName? value with
    | some order => .ok { s with order }
    | none => .error (.badValue o value)
  | .stats => .ok { s with stats := true }
  | .json => .ok { s with json := true }
  | .noColor => .ok { s with color := false }
  | .registers =>
    match registers? value with
    | some k => .ok { s with registers := k }
    | none => .error (.badNumber o value)
  | .shell =>
    match Shell.ofName? value with
    | some shell => .ok { s with shell }
    | none => .error (.badValue o value)
  | .help => .error .help
  | .version => .error .version

/-- The options read so far. -/
structure Reading where
  settings : Settings := {}
  given : List Opt := []
  /-- The last option, if its value is a word of its own: that word is looked at only once the next
  option is known. -/
  pending : Option (Opt × Option String) := none

namespace Reading

def accept (r : Reading) (o : Opt) (value : String) : Except Usage Reading := do
  if o ∈ r.given then throw (.repeated o)
  let settings ← r.settings.set o value
  return { r with settings, given := o :: r.given }

/-- Takes over the option that is pending. -/
def settle (r : Reading) : Except Usage Reading :=
  match r.pending with
  | none => .ok r
  | some (o, none) => .error (.missingValue o)
  | some (o, some value) => accept { r with pending := none } o value

def take (r : Reading) (o : Opt) (value : String) : Except Usage Reading := do
  let r ← r.settle
  r.accept o value

def await (r : Reading) (o : Opt) : Except Usage Reading := do
  let r ← r.settle
  return { r with pending := some (o, none) }

/-- A word that is no option: the value that the last option waits for. -/
def bare (r : Reading) (word : String) : Except Usage Reading :=
  match r.pending with
  | some (o, none) => .ok { r with pending := some (o, some word) }
  | _ => .error (.unknownArgument word)

/-- An option by its long name, with a value after an equals sign or without. -/
def long (opts : List Opt) (r : Reading) (text : List Char) : Except Usage Reading :=
  let name := String.ofList (text.takeWhile (· ≠ '='))
  match opts.find? (·.long = name), text.dropWhile (· ≠ '=') with
  | none, _ => .error (.unknownArgument ("--" ++ String.ofList text))
  | some o, _ :: value =>
    if o.takesValue then r.take o (String.ofList value) else .error (.valueOfFlag o)
  | some o, [] => if o.takesValue then r.await o else r.take o ""

/-- Options by their letters: flags up to the first option with a value, which is what follows its
letter, after an equals sign or directly. -/
def letters (opts : List Opt) (r : Reading) : List Char → Except Usage Reading
  | [] => .ok r
  | c :: rest =>
    match opts.find? (·.short? = some c) with
    | none => .error (.unknownArgument ("-" ++ c.toString))
    | some o =>
      if o.takesValue then
        match rest with
        | [] => r.await o
        | '=' :: value => r.take o (String.ofList value)
        | value => r.take o (String.ofList value)
      else do
        let r ← r.take o ""
        letters opts r rest

def word (opts : List Opt) (r : Reading) (word : String) : Except Usage Reading :=
  match word.toList with
  | '-' :: '-' :: text => r.long opts text
  | '-' :: c :: text => r.letters opts (c :: text)
  | _ => r.bare word

/-- All words of a tool; after a word of two dashes there is room for none. -/
def words (opts : List Opt) (r : Reading) : List String → Except Usage Reading
  | [] | ["--"] => r.settle
  | "--" :: text :: _ => .error (.unknownArgument text)
  | text :: rest => do
    let r ← r.word opts text
    words opts r rest

end Reading

/-- The settings that the words after a tool's name ask for. -/
def Tool.settings (t : Tool) (words : List String) : Except Usage Settings := do
  let r ← Reading.words t.opts {} words
  if t = .completions ∧ r.settings.shell.isNone then throw (.missingOption .shell)
  return r.settings

/-- What a command line asks for. -/
structure Request where
  tool : Tool
  settings : Settings

namespace Request

def isCommand (word : String) : Bool := word = "help" || (Tool.ofName? word).isSome

/-- The request of a command line that starts with the name of a tool, if there is any word. -/
def ofWords : List String → Except Usage (Option Request)
  | [] | ["--"] => .ok none
  | "--" :: word :: _ =>
    .error (if isCommand word then .unknownArgument word else .unknownCommand word)
  | ["help"] => .error .help
  | "help" :: word :: rest =>
    .error (if isCommand word && rest.isEmpty then .help else .unknownCommand word)
  | word :: rest =>
    match Tool.ofName? word, word.toList with
    | some t, _ => return some ⟨t, ← t.settings rest⟩
    | none, '-' :: _ :: _ => do
      let _ ← Reading.word [.help, .version] {} word
      ofWords rest
    | none, _ => .error (.unknownCommand word)

end Request

end Backflow
