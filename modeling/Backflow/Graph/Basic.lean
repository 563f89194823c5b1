import Backflow.Syntax.Basic
import Backflow.Syntax.Printer

namespace Backflow

/-- Why control passes along an edge. -/
inductive Branch where
  | sequence
  | ifTrue
  | ifFalse
  | back
  | ret
  | brk
  | cont
deriving DecidableEq, Repr

def Branch.text : Branch → String
  | sequence => "<seq>"
  | ifTrue => "<true>"
  | ifFalse => "<false>"
  | back => "<back>"
  | ret => "<ret>"
  | brk => "<break>"
  | cont => "<continue>"

inductive BlockKind where
  | entry
  | exit
  | basic
  /-- Joins several ends of a loop's body into one edge back to its head. -/
  | latch
deriving DecidableEq, Repr

structure Block where
  kind : BlockKind
  stmts : List Stmt := []
  /-- No path leads here from the entry. -/
  dead : Bool := false

structure Edge where
  source : Nat
  target : Nat
  branch : Branch
deriving DecidableEq, Repr

/-- Blocks by index, and edges with the newest first. -/
structure Graph where
  blocks : Array Block
  edges : List Edge

namespace Graph

def entry : Nat := 0

def exit : Nat := 1

def size (g : Graph) : Nat := g.blocks.size

def indices (g : Graph) : List Nat := List.range g.size

def block (g : Graph) (i : Nat) : Block := g.blocks.getD i { kind := .latch }

def stmts (g : Graph) (i : Nat) : List Stmt := (g.block i).stmts

/-- The edges out of a block, newest first. -/
def outgoing (g : Graph) (i : Nat) : List Edge := g.edges.filter (·.source = i)

/-- The edges into a block, newest first. -/
def incoming (g : Graph) (i : Nat) : List Edge := g.edges.filter (·.target = i)

def successors (g : Graph) (i : Nat) : List Nat := (g.outgoing i).map (·.target)

def predecessors (g : Graph) (i : Nat) : List Nat := (g.incoming i).map (·.source)

/-- All statements, by the index of their block and then in its order. -/
def statements (g : Graph) : List Stmt := g.blocks.toList.flatMap (·.stmts)

/-- The block that holds a statement, found by the statement's number. -/
def blockOf? (g : Graph) (id : Nat) : Option Nat :=
  g.indices.find? fun i => (g.stmts i).any (·.id = id)

/-- Blocks of a list in increasing order, each once. -/
def inOrder (g : Graph) (l : List Nat) : List Nat := g.indices.filter (· ∈ l)

end Graph

namespace Block

/-- The number of a statement, with blanks before it up to a width of five. -/
def idColumn (s : Stmt) : String :=
  let text := idText s.id
  String.ofList (List.replicate (5 - text.length) ' ') ++ text

def text (b : Block) : String :=
  match b.kind with
  | .entry => "<ENTRY>"
  | .exit => "<EXIT>"
  | .latch => "<LATCH>"
  | .basic => String.join (b.stmts.map fun s => idColumn s ++ ": " ++ s.header ++ "\n")

end Block

end Backflow
