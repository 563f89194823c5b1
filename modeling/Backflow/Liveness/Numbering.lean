import Backflow.Syntax.Names

namespace Backflow

/-- The variables of a method, numbered by their places in a list without repetition. -/
structure Numbering where
  names : List String
  nodup : names.Nodup := by simp

namespace Numbering

def size (n : Numbering) : Nat := n.names.length

def add (n : Numbering) (name : String) : Numbering :=
  if h : name ∈ n.names then n
  else ⟨n.names ++ [name], List.nodup_append.2 ⟨n.nodup, by simp, fun x hx y hy => by
    rw [List.mem_singleton.1 hy]
    exact fun he => h (he ▸ hx)⟩⟩

def empty : Numbering := { names := [] }

/-- Parameters come first, then declared locals, then the names that occur in the statements: those
that a statement reads, in increasing order, before the one that it writes. -/
def ofMethod (m : Method) : Numbering :=
  let declared := (m.params ++ m.locals).map (·.name)
  let occurring := m.statements.flatMap fun s => s.uses.toList ++ s.defs.toList
  (declared ++ occurring).foldl add empty

def index? (n : Numbering) (name : String) : Option (Fin n.size) := n.names.finIdxOf? name

def name? (n : Numbering) (i : Nat) : Option String := n.names[i]?

end Numbering

/-- A set of variables of a numbering of size `n`. -/
structure VarSet (n : Nat) where
  bits : BitVec n
deriving DecidableEq

namespace VarSet

variable {n : Nat}

def empty : VarSet n := ⟨0#n⟩

def contains (s : VarSet n) (i : Nat) : Bool := s.bits.getLsbD i

protected def insert (s : VarSet n) (i : Fin n) : VarSet n := ⟨s.bits ||| BitVec.twoPow n i⟩

def erase (s : VarSet n) (i : Fin n) : VarSet n := ⟨s.bits &&& ~~~BitVec.twoPow n i⟩

def union (s t : VarSet n) : VarSet n := ⟨s.bits ||| t.bits⟩

/-- Whether every variable of `t` is one of `s`. -/
def includes (s t : VarSet n) : Bool := s.bits ||| t.bits == s.bits

/-- The variables of a set, in increasing order. -/
def toList (s : VarSet n) : List Nat := (List.range n).filter s.contains

def isEmpty (s : VarSet n) : Bool := s.bits == 0#n

/-- The same variables in a numbering of another size, as far as it goes. -/
def resize (s : VarSet n) (m : Nat) : VarSet m := ⟨s.bits.setWidth m⟩

def text (s : VarSet n) : String :=
  "\x7b" ++ ", ".intercalate (s.toList.map fun i => s!"v{i}") ++ "\x7d"

end VarSet

/-- The names of the variables of a set. -/
def Numbering.namesOf (n : Numbering) (s : VarSet n.size) : NameSet :=
  .ofList (s.toList.filterMap n.name?)

end Backflow
