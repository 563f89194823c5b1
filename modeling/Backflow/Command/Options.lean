import Backflow.Dataflow.Order

namespace Backflow

/-- What a command line can be asked to do. -/
inductive Tool where
  | graphs
  | deadStores
  | liveness
  | completions
deriving DecidableEq, Repr

inductive Shell where
  | bash
  | elvish
  | fish
  | powershell
  | zsh
deriving DecidableEq, Repr

/-- The options of all tools. -/
inductive Opt where
  | debug
  | verbose
  | ecslog
  | input
  | output
  | filterClass
  | filterMethod
  | order
  | stats
  | json
  | noColor
  | registers
  | shell
  | help
  | version
deriving DecidableEq, Repr

namespace Tool

def all : List Tool := [graphs, deadStores, liveness, completions]

def name : Tool → String
  | graphs => "cfg"
  | deadStores => "deadstores"
  | liveness => "liveness"
  | completions => "gen-completions"

def ofName? (name : String) : Option Tool := all.find? (·.name = name)

def analysisOpts : List Opt :=
  [.debug, .verbose, .ecslog, .input, .filterClass, .filterMethod, .help, .version]

def opts : Tool → List Opt
  | graphs => analysisOpts ++ [.output, .order, .stats]
  | deadStores => analysisOpts ++ [.json]
  | liveness => analysisOpts ++ [.output, .order, .json, .noColor, .registers]
  | completions => [.shell, .help]

end Tool

namespace Shell

def all : List Shell := [bash, elvish, fish, powershell, zsh]

def name : Shell → String
  | bash => "bash"
  | elvish => "elvish"
  | fish => "fish"
  | powershell => "powershell"
  | zsh => "zsh"

def ofName? (name : String) : Option Shell := all.find? (·.name = name)

end Shell

namespace Opt

def long : Opt → String
  | debug => "debug"
  | verbose => "verbose"
  | ecslog => "ecslog"
  | input => "input"
  | output => "output"
  | filterClass => "filter-class"
  | filterMethod => "filter-method"
  | order => "order"
  | stats => "stats"
  | json => "json"
  | noColor => "no-color"
  | registers => "registers"
  | shell => "shell"
  | help => "help"
  | version => "version"

def short? : Opt → Option Char
  | debug => some 'd'
  | verbose => some 'v'
  | ecslog => some 'e'
  | input => some 'i'
  | output => some 'o'
  | stats => some 's'
  | json => some 'j'
  | registers => some 'r'
  | shell => some 's'
  | help => some 'h'
  | version => some 'V'
  | filterClass | filterMethod | order | noColor => none

def takesValue : Opt → Bool
  | input | output | filterClass | filterMethod | order | registers | shell => true
  | debug | verbose | ecslog | stats | json | noColor | help | version => false

end Opt

/-- What the options of a command line come to. -/
structure Settings where
  debug : Bool := false
  verbose : Bool := false
  ecslog : Bool := false
  input : Option String := none
  output : Option String := none
  filterClass : Option String := none
  filterMethod : Option String := none
  order : Order := .postorder
  stats : Bool := false
  json : Bool := false
  color : Bool := true
  registers : Option Nat := none
  shell : Option Shell := none

end Backflow
