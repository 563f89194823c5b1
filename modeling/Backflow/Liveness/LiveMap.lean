import Backflow.NameSet
import Backflow.Graph.Error

namespace Backflow

/-- Sets of names by statement number, listed by increasing numbers. -/
structure LiveMap where
  toList : List (Nat × NameSet)
  sorted : toList.Pairwise (·.1 < ·.1) := by simp
deriving DecidableEq

namespace LiveMap

def empty : LiveMap := { toList := [] }

def size (m : LiveMap) : Nat := m.toList.length

def get? (m : LiveMap) (id : Nat) : Option NameSet := m.toList.lookup id

def isLive (m : LiveMap) (id : Nat) (name : String) : Bool :=
  match m.get? id with
  | some names => decide (name ∈ names)
  | none => false

/-- Puts a set at its number, in place of the one that stood there. -/
def insertInto (id : Nat) (names : NameSet) : List (Nat × NameSet) → List (Nat × NameSet)
  | [] => [(id, names)]
  | p :: rest =>
    if id < p.1 then (id, names) :: p :: rest
    else if id = p.1 then (id, names) :: rest
    else p :: insertInto id names rest

theorem fst_mem_insertInto {id : Nat} {names : NameSet} {l : List (Nat × NameSet)}
    {q : Nat × NameSet} (h : q ∈ insertInto id names l) : q.1 = id ∨ q ∈ l := by
  induction l with
  | nil => simp_all [insertInto]
  | cons p rest ih =>
      simp only [insertInto] at h
      split at h
      · rcases List.mem_cons.1 h with rfl | h
        · exact Or.inl rfl
        · exact Or.inr h
      · split at h
        · rcases List.mem_cons.1 h with rfl | h
          · exact Or.inl rfl
          · exact Or.inr (List.mem_cons_of_mem _ h)
        · rcases List.mem_cons.1 h with rfl | h
          · exact Or.inr List.mem_cons_self
          · exact (ih h).imp_right (List.mem_cons_of_mem _)

theorem pairwise_insertInto {id : Nat} {names : NameSet} {l : List (Nat × NameSet)}
    (h : l.Pairwise (·.1 < ·.1)) : (insertInto id names l).Pairwise (·.1 < ·.1) := by
  induction l with
  | nil => simp [insertInto]
  | cons p rest ih =>
      rw [List.pairwise_cons] at h
      simp only [insertInto]
      split
      · rename_i hlt
        refine List.pairwise_cons.2 ⟨fun q hq => ?_, List.pairwise_cons.2 h⟩
        rcases List.mem_cons.1 hq with rfl | hq
        · exact hlt
        · exact Nat.lt_trans hlt (h.1 q hq)
      · split
        · rename_i heq
          exact List.pairwise_cons.2 ⟨fun q hq => heq ▸ h.1 q hq, h.2⟩
        · refine List.pairwise_cons.2 ⟨fun q hq => ?_, ih h.2⟩
          rcases fst_mem_insertInto hq with hq | hq
          · omega
          · exact h.1 q hq

protected def insert (m : LiveMap) (id : Nat) (names : NameSet) : LiveMap :=
  ⟨insertInto id names m.toList, pairwise_insertInto m.sorted⟩

def ofList (l : List (Nat × NameSet)) : LiveMap := l.foldl (fun m p => m.insert p.1 p.2) empty

/-- Adds the entries of a list, none of which may be there already. -/
def addAll (m : LiveMap) : List (Nat × NameSet) → Except AnalysisError LiveMap
  | [] => .ok m
  | (id, names) :: rest =>
    if (m.get? id).isSome then .error (.internal (.analyzedTwice id))
    else (m.insert id names).addAll rest

/-- The union of two maps of different statements. -/
def merge (m other : LiveMap) : Except AnalysisError LiveMap := m.addAll other.toList

end LiveMap

end Backflow
