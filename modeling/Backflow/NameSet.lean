namespace Backflow

/-- A finite set of names, listed in increasing order. -/
structure NameSet where
  toList : List String
  sorted : toList.Pairwise (· < ·) := by simp
deriving DecidableEq

namespace NameSet

instance : EmptyCollection NameSet := ⟨{ toList := [] }⟩

instance : Membership String NameSet := ⟨fun s x => x ∈ s.toList⟩

instance (x : String) (s : NameSet) : Decidable (x ∈ s) :=
  inferInstanceAs (Decidable (x ∈ s.toList))

/-- Puts a name into an increasing list, at its place. -/
def insertInto (x : String) : List String → List String
  | [] => [x]
  | y :: ys => if x < y then x :: y :: ys else if x = y then y :: ys else y :: insertInto x ys

theorem mem_insertInto {x y : String} {l : List String} :
    y ∈ insertInto x l ↔ y = x ∨ y ∈ l := by
  induction l with
  | nil => simp [insertInto]
  | cons z zs ih =>
      simp only [insertInto]
      split
      · simp
      · split
        · simp_all
        · simp only [List.mem_cons, ih]
          exact or_left_comm

theorem pairwise_insertInto {x : String} {l : List String} (h : l.Pairwise (· < ·)) :
    (insertInto x l).Pairwise (· < ·) := by
  induction l with
  | nil => simp [insertInto]
  | cons z zs ih =>
      rw [List.pairwise_cons] at h
      simp only [insertInto]
      split
      · rename_i hlt
        refine List.pairwise_cons.2 ⟨fun y hy => ?_, List.pairwise_cons.2 h⟩
        rcases List.mem_cons.1 hy with rfl | hy
        · exact hlt
        · exact String.lt_trans hlt (h.1 y hy)
      · split
        · exact List.pairwise_cons.2 h
        · rename_i hlt hne
          refine List.pairwise_cons.2 ⟨fun y hy => ?_, ih h.2⟩
          rcases mem_insertInto.1 hy with rfl | hy
          · exact Std.lt_of_le_of_ne (Std.not_lt.1 hlt) (Ne.symm hne)
          · exact h.1 y hy

protected def insert (x : String) (s : NameSet) : NameSet :=
  ⟨insertInto x s.toList, pairwise_insertInto s.sorted⟩

def ofList (l : List String) : NameSet := l.foldr NameSet.insert ∅

def isEmpty (s : NameSet) : Bool := s.toList.isEmpty

theorem mem_def {x : String} {s : NameSet} : x ∈ s ↔ x ∈ s.toList := Iff.rfl

@[simp] theorem not_mem_empty (x : String) : x ∉ (∅ : NameSet) := List.not_mem_nil

@[simp] theorem mem_insert {x y : String} {s : NameSet} : y ∈ s.insert x ↔ y = x ∨ y ∈ s :=
  mem_insertInto

@[simp] theorem mem_ofList {x : String} {l : List String} : x ∈ ofList l ↔ x ∈ l := by
  induction l with
  | nil => simp [ofList]
  | cons y ys ih =>
      simp only [ofList, List.foldr_cons, List.mem_cons] at ih ⊢
      exact mem_insertInto.trans (or_congr_right ih)

end NameSet

end Backflow
