import Backflow.Json
import Backflow.Registers.Interference

namespace Backflow

/-- Where a variable is kept. -/
inductive Place where
  | register (n : Nat)
  | spilled
deriving DecidableEq, Repr

namespace Place

def ofColor : Option Nat → Place
  | some n => register n
  | none => spilled

def text : Place → String
  | register n => s!"r{n}"
  | spilled => "spilled"

def json : Place → Json
  | register n => .obj [("register", .num n)]
  | spilled => .str "spilled"

end Place

/-- The places of the variables of a method, by increasing names. -/
structure Assignment where
  places : List (String × Place)

namespace Interference

/-- The least of `k` registers that no neighbour has among those given out already. -/
def color (g : Interference) (k : Nat) (given : List (Option Nat)) (i : Nat) : Option Nat :=
  let taken := (g.row i).toList.filterMap fun j => (given[j]?).join
  (List.range k).find? (· ∉ taken)

/-- Registers for the variables in the order of their numbers. -/
def colors (g : Interference) (k : Nat) : List (Option Nat) :=
  (List.range g.vars.size).foldl (fun given i => given ++ [g.color k given i]) []

def assign (g : Interference) (k : Nat) : Assignment :=
  let places := g.vars.names.zip ((g.colors k).map Place.ofColor)
  ⟨places.mergeSort fun a b => a.1 ≤ b.1⟩

end Interference

namespace Assignment

def get? (a : Assignment) (name : String) : Option Place := a.places.lookup name

def spilledCount (a : Assignment) : Nat := a.places.countP (·.2 = .spilled)

/-- The number of different registers in use. -/
def registerCount (a : Assignment) : Nat :=
  (a.places.map (·.2)).eraseDups.countP (· ≠ .spilled)

def text (a : Assignment) : String :=
  ", ".intercalate (a.places.map fun (name, place) => name ++ ": " ++ place.text)

def json (a : Assignment) : Json := .obj (a.places.map fun (name, place) => (name, place.json))

end Assignment

end Backflow
