import Backflow.Liveness.Basic
import Backflow.Proofs.Solving
import Mathlib.Data.Finset.Card

namespace Backflow.VarSet

variable {n : Nat}

@[simp] theorem contains_empty (i : Nat) : (empty : VarSet n).contains i = false := by
  simp [contains, empty]

@[simp] theorem contains_insert (s : VarSet n) (i : Fin n) (j : Nat) :
    (s.insert i).contains j = (s.contains j || decide (i.val = j)) := by
  simp [contains, VarSet.insert, BitVec.getLsbD_twoPow]

@[simp] theorem contains_erase (s : VarSet n) (i : Fin n) (j : Nat) :
    (s.erase i).contains j = (s.contains j && !decide (i.val = j)) := by
  simp only [contains, erase, BitVec.getLsbD_and, BitVec.getLsbD_not, BitVec.getLsbD_twoPow]
  by_cases hj : j < n
  · simp [hj]
  · simp [BitVec.getLsbD_of_ge s.bits j (Nat.le_of_not_lt hj)]

@[simp] theorem contains_union (s t : VarSet n) (i : Nat) :
    (s.union t).contains i = (s.contains i || t.contains i) := by
  simp [contains, union]

theorem lt_of_contains {s : VarSet n} {i : Nat} (h : s.contains i = true) : i < n := by
  by_contra hi
  rw [contains, BitVec.getLsbD_of_ge s.bits i (Nat.le_of_not_lt hi)] at h
  cases h

theorem mem_toList {s : VarSet n} {i : Nat} : i ∈ s.toList ↔ s.contains i = true := by
  rw [toList, List.mem_filter, List.mem_range]
  exact ⟨fun h => h.2, fun h => ⟨lt_of_contains h, h⟩⟩

theorem ext_contains {s t : VarSet n} (h : ∀ i, s.contains i = t.contains i) : s = t := by
  cases s with
  | mk a =>
      cases t with
      | mk b =>
          congr 1
          exact BitVec.eq_of_getLsbD_eq fun i _ => h i

instance : SemilatticeSup (VarSet n) where
  le s t := ∀ i, s.contains i = true → t.contains i = true
  le_refl s i h := h
  le_trans s t u hst htu i h := htu i (hst i h)
  le_antisymm s t hst hts := ext_contains fun i => Bool.eq_iff_iff.2 ⟨hst i, hts i⟩
  sup := union
  le_sup_left s t i h := by simp [h]
  le_sup_right s t i h := by simp [h]
  sup_le s t u hs ht i h := by
    rw [contains_union, Bool.or_eq_true] at h
    exact h.elim (hs i) (ht i)

instance : OrderBot (VarSet n) where
  bot := empty
  bot_le s i h := by simp at h

theorem includes_iff (s t : VarSet n) : s.includes t = true ↔ t ≤ s := by
  have hsup : s.includes t = true ↔ s ⊔ t = s := by
    rw [includes, beq_iff_eq]
    constructor
    · exact fun h => congrArg VarSet.mk h
    · exact fun h => congrArg VarSet.bits h
  rw [hsup, sup_eq_left]

def rank (s : VarSet n) : Nat := ((Finset.range n).filter fun i => s.contains i = true).card

theorem ranked : Solver.Ranked (rank : VarSet n → Nat) n where
  lt {a b} h := by
    apply Finset.card_lt_card
    rw [Finset.ssubset_iff_subset_ne]
    constructor
    · intro i hi
      rw [Finset.mem_filter] at hi ⊢
      exact ⟨hi.1, h.le i hi.2⟩
    · intro heq
      refine h.ne (ext_contains fun i => ?_)
      by_cases hi : i < n
      · have hmem := Finset.ext_iff.1 heq i
        simp only [Finset.mem_filter, Finset.mem_range, hi, true_and] at hmem
        exact Bool.eq_iff_iff.2 hmem
      · rw [contains, contains, BitVec.getLsbD_of_ge a.bits i (Nat.le_of_not_lt hi),
          BitVec.getLsbD_of_ge b.bits i (Nat.le_of_not_lt hi)]
  le a := by
    have h := Finset.card_filter_le (Finset.range n) fun i => a.contains i = true
    rwa [Finset.card_range] at h

theorem contains_foldl_insert (l : List (Fin n)) (s : VarSet n) (j : Nat) :
    (l.foldl VarSet.insert s).contains j = true ↔ s.contains j = true ∨ ∃ i ∈ l, i.val = j := by
  induction l generalizing s with
  | nil => simp
  | cons i l ih => simp [ih, or_assoc]

theorem contains_foldl_erase (l : List (Fin n)) (s : VarSet n) (j : Nat) :
    (l.foldl VarSet.erase s).contains j = true ↔ s.contains j = true ∧ ¬ ∃ i ∈ l, i.val = j := by
  induction l generalizing s with
  | nil => simp
  | cons i l ih => simp [ih, and_assoc]

end Backflow.VarSet
