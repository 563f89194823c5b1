import Backflow.Command.Options

namespace Backflow

/-- How much a message matters, the gravest first. -/
inductive Level where
  | error
  | warn
  | info
  | debug
  | trace
deriving DecidableEq, Repr

namespace Level

def all : List Level := [error, warn, info, debug, trace]

def rank : Level → Nat
  | error => 1
  | warn => 2
  | info => 3
  | debug => 4
  | trace => 5

def name : Level → String
  | error => "error"
  | warn => "warn"
  | info => "info"
  | debug => "debug"
  | trace => "trace"

def ofName? (name : String) : Option Level := all.find? (·.name = name)

end Level

/-- What part of the work a message is about. -/
inductive Topic where
  | tokens
  | grammar
  | graph
  | liveness
  | solver
  | registers
  | source
  | tool (t : Tool)
deriving DecidableEq, Repr

structure Message where
  level : Level
  topic : Topic
  text : String
deriving DecidableEq, Repr

/-- Whether a message is kept under a limit; without a limit none is. -/
def Message.kept (limit : Option Level) (m : Message) : Bool :=
  limit.any fun l => decide (m.level.rank ≤ l.rank)

/-- The limit under which a tool runs: its options go before the limit from outside. -/
def Settings.limit (s : Settings) (outside : Option Level) : Option Level :=
  if s.verbose then some .trace
  else if s.debug then some .debug
  else outside

end Backflow
