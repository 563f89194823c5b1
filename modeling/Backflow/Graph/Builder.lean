import Backflow.Graph.Search
import Backflow.Graph.Error

namespace Backflow

/-- An edge whose target is not known yet. -/
structure Jump where
  source : Nat
  branch : Branch
deriving DecidableEq, Repr

/-- Where the next statement goes: into an open block, or into a new block that the jumps enter.
Without jumps the new block is out of reach. -/
inductive Front where
  | inBlock (i : Nat)
  | after (jumps : List Jump)
deriving DecidableEq, Repr

def Front.jumps : Front → List Jump
  | inBlock i => [⟨i, .sequence⟩]
  | after jumps => jumps

/-- The jumps that leave a loop's body early. -/
structure LoopJumps where
  breaks : List Jump := []
  continues : List Jump := []
deriving DecidableEq, Repr

structure Builder where
  blocks : Array Block
  edges : List Edge
  front : Front
  /-- The jumps of the innermost loop, if there is one around the next statement. -/
  inLoop : Option LoopJumps

namespace Builder

def start : Builder where
  blocks := #[{ kind := .entry }, { kind := .exit }]
  edges := []
  front := .after [⟨Graph.entry, .sequence⟩]
  inLoop := none

def addEdge (b : Builder) (j : Jump) (target : Nat) : Builder :=
  { b with edges := ⟨j.source, target, j.branch⟩ :: b.edges }

def addEdges (b : Builder) (jumps : List Jump) (target : Nat) : Builder :=
  jumps.foldl (·.addEdge · target) b

/-- A new block that the jumps enter. -/
def addBlock (b : Builder) (block : Block) (jumps : List Jump) : Builder :=
  addEdges { b with blocks := b.blocks.push block } jumps b.blocks.size

/-- Appends a statement to the open block, or opens a block for it. -/
def push (b : Builder) (s : Stmt) : Builder :=
  match b.front with
  | .inBlock i =>
    { b with blocks := b.blocks.modify i fun block => { block with stmts := block.stmts ++ [s] } }
  | .after jumps =>
    { b.addBlock { kind := .basic, stmts := [s] } jumps with front := .inBlock b.blocks.size }

/-- The block that the next statement goes into. -/
def nextBlock (b : Builder) : Nat :=
  match b.front with
  | .inBlock i => i
  | .after _ => b.blocks.size

/-- Appends a statement after which control goes elsewhere. -/
def pushLast (b : Builder) (s : Stmt) (next : List Jump) : Builder :=
  { b.push s with front := .after next }

/-- Joins the ends of a loop's body and returns to its head: one end goes there itself, more than
one meet in a latch. -/
def closeLoop (b : Builder) (ends : List Jump) (head : Nat) : Builder :=
  match ends with
  | [] => b
  | [j] => b.addEdge (if j.branch = .sequence then { j with branch := .back } else j) head
  | _ =>
    let latch := b.blocks.size
    (b.addBlock { kind := .latch } ends).addEdge ⟨latch, .back⟩ head

mutual

def stmt (b : Builder) : Stmt → Except AnalysisError Builder
  | .block _ body => b.stmts body
  | .ifThen t c yes => do
    let test := b.nextBlock
    let b ← (b.pushLast (.ifThen t c yes) [⟨test, .ifTrue⟩]).stmt yes
    return { b with front := .after (b.front.jumps ++ [⟨test, .ifFalse⟩]) }
  | .ifElse t c yes no => do
    let test := b.nextBlock
    let b ← (b.pushLast (.ifElse t c yes no) [⟨test, .ifTrue⟩]).stmt yes
    let join := b.front.jumps
    let b ← { b with front := .after [⟨test, .ifFalse⟩] }.stmt no
    return { b with front := .after (join ++ b.front.jumps) }
  | .loop t c body => do
    let head := b.blocks.size
    let opened := b.addBlock { kind := .basic, stmts := [.loop t c body] } b.front.jumps
    let inner ←
      { opened with front := .after [⟨head, .ifTrue⟩], inLoop := some {} }.stmt body
    let jumps := inner.inLoop.getD {}
    let closed := inner.closeLoop (inner.front.jumps ++ jumps.continues) head
    return { closed with
      front := .after (⟨head, .ifFalse⟩ :: jumps.breaks), inLoop := b.inLoop }
  | .ret t value =>
    return (b.pushLast (.ret t value) []).addEdge ⟨b.nextBlock, .ret⟩ Graph.exit
  | .brk t =>
    match b.inLoop with
    | none => .error (.outsideLoop .kwBreak t.loc)
    | some jumps =>
      let jumps := { jumps with breaks := jumps.breaks ++ [⟨b.nextBlock, .brk⟩] }
      return { b.pushLast (.brk t) [] with inLoop := some jumps }
  | .cont t =>
    match b.inLoop with
    | none => .error (.outsideLoop .kwContinue t.loc)
    | some jumps =>
      let jumps := { jumps with continues := jumps.continues ++ [⟨b.nextBlock, .cont⟩] }
      return { b.pushLast (.cont t) [] with inLoop := some jumps }
  | s => return b.push s

def stmts (b : Builder) : List Stmt → Except AnalysisError Builder
  | [] => return b
  | s :: rest => do
    let b ← b.stmt s
    b.stmts rest

end

/-- Marks the blocks that cannot be reached; the exit never counts as one. -/
def finish (b : Builder) : Graph :=
  let b := b.addEdges b.front.jumps Graph.exit
  let g : Graph := ⟨b.blocks, b.edges⟩
  let reached := g.postorder
  { g with blocks := g.blocks.mapIdx fun i block =>
      { block with dead := i != Graph.exit && !(reached.contains i) } }

end Builder

/-- The flow graph of a method. -/
def Graph.build (m : Method) : Except AnalysisError Graph := do
  let b ← Builder.start.stmts m.body
  return b.finish

end Backflow
