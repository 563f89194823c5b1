import Backflow.Proofs.LiveTables
import Backflow.Registers.Assignment

namespace Backflow

@[simp] theorem Place.ofColor_eq_register {c : Option Nat} {r : Nat} : ofColor c = register r ↔ c = some r := by
  cases c <;> simp [ofColor]

@[simp] theorem Place.ofColor_eq_spilled {c : Option Nat} : ofColor c = spilled ↔ c = none := by
  cases c <;> simp [ofColor]

namespace Interference

variable {g : Interference} {k i j : Nat} {x : String}

def given (g : Interference) (k n : Nat) : List (Option Nat) :=
  (List.range n).foldl (fun given i => given ++ [g.color k given i]) []

def chosen (g : Interference) (k i : Nat) : Option Nat := g.color k (g.given k i) i

theorem given_eq_map (n : Nat) : g.given k n = (List.range n).map (g.chosen k) := by
  induction n with
  | zero => rfl
  | succ n ih =>
      rw [List.range_succ, List.map_append, ← ih, given, List.range_succ, List.foldl_append]
      rfl

theorem colors_eq_map : g.colors k = (List.range g.vars.size).map (g.chosen k) := given_eq_map g.vars.size

def Blocked (g : Interference) (k i r : Nat) : Prop :=
  ∃ j < i, (g.row i).contains j = true ∧ g.chosen k j = some r

theorem mem_taken {r : Nat} :
    r ∈ (g.row i).toList.filterMap (fun j => ((g.given k i)[j]?).join) ↔ g.Blocked k i r := by
  simp only [List.mem_filterMap, VarSet.mem_toList, given_eq_map, List.getElem?_map, Option.join_eq_some_iff,
    Option.map_eq_some_iff, List.getElem?_eq_some_iff, List.getElem_range, List.length_range]
  constructor
  · rintro ⟨j, hj, _, ⟨hlt, rfl⟩, hr⟩
    exact ⟨j, hlt, hj, hr⟩
  · rintro ⟨j, hlt, hj, hr⟩
    exact ⟨j, hj, j, ⟨hlt, rfl⟩, hr⟩

theorem chosen_eq_some_iff {r : Nat} :
    g.chosen k i = some r ↔ r < k ∧ ¬ g.Blocked k i r ∧ ∀ c < r, g.Blocked k i c := by
  rw [chosen, color, List.find?_range_eq_some, List.mem_range]
  simp only [decide_eq_true_iff, Bool.not_eq_true', decide_eq_false_iff_not, not_not, mem_taken]
  exact and_left_comm

theorem chosen_eq_none_iff : g.chosen k i = none ↔ ∀ r < k, g.Blocked k i r := by
  rw [chosen, color, List.find?_range_eq_none]
  simp only [Bool.not_eq_true', decide_eq_false_iff_not, not_not, mem_taken]

theorem chosen_ne {r : Nat} (hij : (g.row i).contains j = true) (hji : (g.row j).contains i = true) (hne : i ≠ j)
    (hi : g.chosen k i = some r) : g.chosen k j ≠ some r := by
  intro hj
  rcases Nat.lt_or_gt_of_ne hne with h | h
  · exact (chosen_eq_some_iff.1 hj).2.1 ⟨i, h, hji, hi⟩
  · exact (chosen_eq_some_iff.1 hi).2.1 ⟨j, h, hij, hj⟩

theorem interferes_iff {a b : String} : g.interferes a b = true ↔
    ∃ i j, g.vars.index? a = some i ∧ g.vars.index? b = some j ∧ (g.row i).contains j = true := by
  rw [interferes]
  cases g.vars.index? a with
  | none => simp
  | some i =>
      cases g.vars.index? b with
      | none => simp
      | some j => simp

theorem nodup_keys_assign (g : Interference) (k : Nat) : ((g.assign k).places.map (·.1)).Nodup := by
  refine ((List.mergeSort_perm _ _).map _).nodup_iff.2 ?_
  rw [List.map_fst_zip (by simp [colors_eq_map, Numbering.size])]
  exact g.vars.nodup

theorem get?_assign {i : Fin g.vars.size} (hx : g.vars.index? x = some i) :
    (g.assign k).get? x = some (.ofColor (g.chosen k i)) := by
  have hmem : (x, Place.ofColor (g.chosen k i)) ∈ (g.assign k).places := by
    refine (List.mergeSort_perm _ _).mem_iff.2 (List.mem_of_getElem? (i := i.val) ?_)
    rw [List.getElem?_zip_eq_some]
    exact ⟨Numbering.index?_eq_some_iff.1 hx, by simp [colors_eq_map]⟩
  obtain ⟨before, after, hplaces⟩ := List.append_of_mem hmem
  rw [Assignment.get?, List.lookup_eq_some_iff]
  refine ⟨before, after, hplaces, fun p hp => bne_iff_ne.2 fun he => ?_⟩
  have hkeys := g.nodup_keys_assign k
  rw [hplaces, List.map_append, List.nodup_append] at hkeys
  exact hkeys.2.2 p.1 (List.mem_map_of_mem hp) x List.mem_cons_self he.symm

theorem mem_names_of_get? {place : Place} (h : (g.assign k).get? x = some place) : x ∈ g.vars.names := by
  rw [Assignment.get?, List.lookup_eq_some_iff] at h
  obtain ⟨before, after, hplaces, _⟩ := h
  have hmem : (x, place) ∈ (g.assign k).places := by simp [hplaces]
  exact (List.of_mem_zip ((List.mergeSort_perm _ _).mem_iff.1 hmem)).1

theorem get?_assign_eq_some_iff {place : Place} :
    (g.assign k).get? x = some place ↔ ∃ i, g.vars.index? x = some i ∧ .ofColor (g.chosen k i) = place := by
  constructor
  · intro h
    obtain ⟨i, hi⟩ := Numbering.index?_isSome (mem_names_of_get? h)
    rw [get?_assign hi, Option.some_inj] at h
    exact ⟨i, hi, h⟩
  · rintro ⟨i, hi, rfl⟩
    exact get?_assign hi

theorem exists_place_iff : (∃ place, (g.assign k).get? x = some place) ↔ x ∈ g.vars.names := by
  constructor
  · rintro ⟨place, hx⟩
    exact mem_names_of_get? hx
  · intro hx
    obtain ⟨i, hi⟩ := Numbering.index?_isSome hx
    exact ⟨_, get?_assign hi⟩

theorem register_lt {r : Nat} (h : (g.assign k).get? x = some (.register r)) : r < k := by
  obtain ⟨i, _, hi⟩ := get?_assign_eq_some_iff.1 h
  exact (chosen_eq_some_iff.1 (Place.ofColor_eq_register.1 hi)).1

end Interference

namespace Liveness

variable {l : Liveness} {i j : Fin l.vars.size}

theorem contains_foldl_union {n : Nat} (sets : List (VarSet n)) (i j : Nat) (r : VarSet n) :
    (sets.foldl (fun r s => if s.contains i then r.union s else r) r).contains j = true ↔
      r.contains j = true ∨ ∃ s ∈ sets, s.contains i = true ∧ s.contains j = true := by
  induction sets generalizing r with
  | nil => simp
  | cons s sets ih =>
      rw [List.foldl_cons, ih]
      by_cases hs : s.contains i = true
      · simp [hs, or_assoc]
      · simp [hs]

theorem contains_foldl_writes {n : Nat} (writes : List (Fin n × VarSet n)) {i j : Fin n} (hij : j ≠ i)
    (r : VarSet n) :
    (writes.foldl (fun r (w : Fin n × VarSet n) =>
      if w.1 = i then r.union w.2 else if w.2.contains i then r.insert w.1 else r) r).contains j = true ↔
      r.contains j = true ∨
        ∃ w ∈ writes, (w.1 = i ∧ w.2.contains j = true) ∨ (w.1 = j ∧ w.2.contains i = true) := by
  induction writes generalizing r with
  | nil => simp
  | cons w writes ih =>
      rw [List.foldl_cons, ih]
      by_cases hw : w.1 = i
      · simp [hw, Ne.symm hij, or_assoc]
      · by_cases hlive : w.2.contains i = true
        · have hval : (w.1 : Nat) = j ↔ w.1 = j := Fin.ext_iff.symm
          simp [hw, hlive, hval, or_assoc]
        · simp [hw, hlive]

/-- Two variables conflict if they are live together, or one is live after a write of the other. -/
theorem contains_conflicts (hij : j ≠ i) : (l.conflicts i).contains j = true ↔
    (∃ s ∈ l.liveSets, s.contains i = true ∧ s.contains j = true) ∨
      ∃ w ∈ l.writes, (w.1 = i ∧ w.2.contains j = true) ∨ (w.1 = j ∧ w.2.contains i = true) := by
  have hne : (i : Nat) ≠ j := Fin.val_ne_of_ne (Ne.symm hij)
  have hwritten := contains_foldl_writes l.writes hij
    (l.liveSets.foldl (fun r s => if s.contains i then r.union s else r) VarSet.empty)
  rw [contains_foldl_union, VarSet.contains_empty, Bool.false_eq_true, false_or] at hwritten
  rw [← hwritten, conflicts, VarSet.contains_erase]
  simp [hne]

theorem conflicts_symm (h : (l.conflicts i).contains j = true) : (l.conflicts j).contains i = true := by
  by_cases hij : j = i
  · subst hij
    exact h
  · rw [contains_conflicts (Ne.symm hij)]
    refine ((contains_conflicts hij).1 h).imp ?_ ?_
    · rintro ⟨s, hs, hi, hj⟩
      exact ⟨s, hs, hj, hi⟩
    · rintro ⟨w, hw, hwrite⟩
      exact ⟨w, hw, hwrite.symm⟩

theorem row_interference (i : Fin l.vars.size) : l.interference.row i = l.conflicts i := by
  simp [interference, Interference.row]

variable {a b : String}

theorem interferes_iff_conflicts : l.interference.interferes a b = true ↔
    ∃ i j, l.vars.index? a = some i ∧ l.vars.index? b = some j ∧ (l.conflicts i).contains j = true := by
  rw [Interference.interferes_iff]
  constructor
  · rintro ⟨i, j, hi, hj, hij⟩
    exact ⟨i, j, hi, hj, l.row_interference i ▸ hij⟩
  · rintro ⟨i, j, hi, hj, hij⟩
    exact ⟨i, j, hi, hj, l.row_interference i ▸ hij⟩

theorem interferes_symm (h : l.interference.interferes a b = true) : l.interference.interferes b a = true := by
  obtain ⟨i, j, ha, hb, hij⟩ := interferes_iff_conflicts.1 h
  exact interferes_iff_conflicts.2 ⟨j, i, hb, ha, conflicts_symm hij⟩

theorem not_interferes_self (a : String) : l.interference.interferes a a = false := by
  rw [← Bool.not_eq_true, interferes_iff_conflicts]
  rintro ⟨i, j, hi, hj, hij⟩
  rw [hi, Option.some_inj] at hj
  simp [← hj, conflicts] at hij

theorem mem_writes {w : Fin l.vars.size × VarSet l.vars.size} : w ∈ l.writes ↔
    ∃ p ∈ l.flow.points, p.after = w.2 ∧ ∃ x ∈ p.stmt.defs, l.vars.index? x = some w.1 := by
  cases w
  simp [writes, NameSet.mem_def, and_comm]

theorem mem_liveSets (h : l.flow.Settled l.vars.carry l.graph) {s : VarSet l.vars.size} : s ∈ l.liveSets ↔
    (∃ p ∈ l.flow.points, p.before = s) ∨ ∃ i < l.graph.size, l.flow.entry i = s := by
  rw [liveSets, List.mem_append, List.mem_map, Array.mem_toList_iff, Array.mem_iff_getElem]
  refine or_congr_right (exists_congr fun i => ?_)
  rw [← h.entries_size, ← exists_prop]
  refine exists_congr fun hi => ?_
  rw [Solution.entry, Array.getD_eq_getD_getElem?, Array.getElem?_eq_getElem hi, Option.getD_some]

theorem interferes_of_together {s : VarSet l.vars.size} (hs : s ∈ l.liveSets) (hne : a ≠ b)
    (ha : a ∈ l.vars.namesOf s) (hb : b ∈ l.vars.namesOf s) : l.interference.interferes a b = true := by
  obtain ⟨i, hi, has⟩ := Numbering.mem_namesOf.1 ha
  obtain ⟨j, hj, hbs⟩ := Numbering.mem_namesOf.1 hb
  have hij : j ≠ i := fun he => hne (Numbering.index?_inj hi (he ▸ hj))
  exact interferes_iff_conflicts.2 ⟨i, j, hi, hj, (contains_conflicts hij).2 (Or.inl ⟨s, hs, has, hbs⟩)⟩

theorem interferes_of_write {p : Point (VarSet l.vars.size)} (hp : p ∈ l.flow.points) (hcovers : l.vars.Covers p.stmt)
    (hne : a ≠ b) (ha : a ∈ p.stmt.defs) (hb : b ∈ l.vars.namesOf p.after) :
    l.interference.interferes a b = true := by
  obtain ⟨i, hi⟩ := Numbering.index?_isSome (hcovers a (Or.inr ha))
  obtain ⟨j, hj, hbs⟩ := Numbering.mem_namesOf.1 hb
  have hij : j ≠ i := fun he => hne (Numbering.index?_inj hi (he ▸ hj))
  have hw : (i, p.after) ∈ l.writes := mem_writes.2 ⟨p, hp, rfl, a, ha, hi⟩
  refine interferes_iff_conflicts.2 ⟨i, j, hi, hj, (contains_conflicts hij).2 (Or.inr ?_)⟩
  exact ⟨_, hw, Or.inl ⟨rfl, hbs⟩⟩

theorem register_ne {k r : Nat} (h : l.interference.interferes a b = true)
    (ha : (l.interference.assign k).get? a = some (.register r)) :
    (l.interference.assign k).get? b ≠ some (.register r) := by
  intro hb
  obtain ⟨i, j, hi, hj, hij⟩ := interferes_iff_conflicts.1 h
  obtain ⟨i', hi', hchosen⟩ := Interference.get?_assign_eq_some_iff.1 ha
  obtain ⟨j', hj', hchosen'⟩ := Interference.get?_assign_eq_some_iff.1 hb
  rw [Place.ofColor_eq_register] at hchosen hchosen'
  obtain rfl : i = i' := Option.some_inj.1 (hi.symm.trans hi')
  obtain rfl : j = j' := Option.some_inj.1 (hj.symm.trans hj')
  have hval : (i : Nat) ≠ j := by
    intro he
    rw [Numbering.index?_inj hi (Fin.ext he ▸ hj), not_interferes_self] at h
    cases h
  have hrow := l.row_interference i ▸ hij
  have hrow' := l.row_interference j ▸ conflicts_symm hij
  exact Interference.chosen_ne hrow hrow' hval hchosen hchosen'

end Liveness

end Backflow
