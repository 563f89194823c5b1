import Backflow.Liveness.Basic
import Backflow.Proofs.VariableSets

namespace Backflow

namespace Numbering

variable {n : Numbering}

theorem index?_eq_some_iff {x : String} {i : Fin n.size} : n.index? x = some i ↔ n.name? i = some x := by
  refine List.finIdxOf?_eq_some_iff.trans (Iff.trans ?_ List.getElem?_eq_some_iff.symm)
  constructor
  · exact fun h => ⟨i.isLt, h.1⟩
  · rintro ⟨hi, rfl⟩
    refine ⟨rfl, fun j hj heq => ?_⟩
    have hij := (List.Nodup.getElem_inj_iff n.nodup).1 heq
    omega

theorem index?_inj {x y : String} {i : Fin n.size} (hx : n.index? x = some i) (hy : n.index? y = some i) :
    x = y := by
  rw [index?_eq_some_iff] at hx hy
  exact Option.some_inj.1 (hx.symm.trans hy)

theorem index?_isSome {x : String} (h : x ∈ n.names) : ∃ i, n.index? x = some i := by
  cases hi : n.index? x with
  | some i => exact ⟨i, rfl⟩
  | none => exact absurd h (List.finIdxOf?_eq_none_iff.1 hi)

theorem mem_names_of_index? {x : String} {i : Fin n.size} (h : n.index? x = some i) : x ∈ n.names :=
  List.mem_of_getElem? (index?_eq_some_iff.1 h)

theorem mem_namesOf {x : String} {s : VarSet n.size} :
    x ∈ n.namesOf s ↔ ∃ i, n.index? x = some i ∧ s.contains i = true := by
  simp only [namesOf, NameSet.mem_ofList, List.mem_filterMap, VarSet.toList, List.mem_filter, List.mem_range]
  constructor
  · rintro ⟨i, ⟨hi, hs⟩, hx⟩
    exact ⟨⟨i, hi⟩, index?_eq_some_iff.2 hx, hs⟩
  · rintro ⟨i, hi, hs⟩
    exact ⟨i, ⟨i.isLt, hs⟩, index?_eq_some_iff.1 hi⟩

theorem le_iff_namesOf {s t : VarSet n.size} : s ≤ t ↔ ∀ x ∈ n.namesOf s, x ∈ n.namesOf t := by
  constructor
  · intro h x hx
    obtain ⟨i, hi, hs⟩ := mem_namesOf.1 hx
    exact mem_namesOf.2 ⟨i, hi, h i hs⟩
  · intro h i hs
    have hi := VarSet.lt_of_contains hs
    have hname : n.index? (n.names.get ⟨i, hi⟩) = some ⟨i, hi⟩ :=
      index?_eq_some_iff.2 (List.getElem?_eq_getElem hi)
    obtain ⟨j, hj, ht⟩ := mem_namesOf.1 (h _ (mem_namesOf.2 ⟨⟨i, hi⟩, hname, hs⟩))
    rw [hname, Option.some.injEq] at hj
    rwa [← hj] at ht

@[simp] theorem not_mem_namesOf_bot (x : String) : x ∉ n.namesOf ⊥ := by
  rw [mem_namesOf]
  rintro ⟨i, _, h⟩
  exact absurd h (by simp [Bot.bot])

theorem mem_namesOf_sup {x : String} {s t : VarSet n.size} :
    x ∈ n.namesOf (s ⊔ t) ↔ x ∈ n.namesOf s ∨ x ∈ n.namesOf t := by
  simp only [mem_namesOf]
  change (∃ i, n.index? x = some i ∧ (s.union t).contains i = true) ↔ _
  simp only [VarSet.contains_union, Bool.or_eq_true, and_or_left, exists_or]

def Covers (n : Numbering) (s : Stmt) : Prop := ∀ x, x ∈ s.uses ∨ x ∈ s.defs → x ∈ n.names

def carry (n : Numbering) (s : Stmt) (after : VarSet n.size) : VarSet n.size :=
  (s.uses.toList.filterMap n.index?).foldl VarSet.insert
    ((s.defs.toList.filterMap n.index?).foldl VarSet.erase after)

theorem foldlM_lookup {s : Stmt} {l : List String} (hl : ∀ x ∈ l, x ∈ n.names)
    (op : VarSet n.size → Fin n.size → VarSet n.size) (v : VarSet n.size) :
    l.foldlM (fun v x => return op v (← n.lookup s x)) v = Except.ok ((l.filterMap n.index?).foldl op v) := by
  induction l generalizing v with
  | nil => rfl
  | cons x l ih =>
      obtain ⟨i, hi⟩ := index?_isSome (hl x List.mem_cons_self)
      have hlookup : n.lookup s x = .ok i := by rw [lookup, hi]
      rw [List.foldlM_cons, hlookup, List.filterMap_cons, hi]
      exact ih (fun y hy => hl y (List.mem_cons_of_mem x hy)) (op v i)

theorem transfer_eq {s : Stmt} (h : n.Covers s) (after : VarSet n.size) :
    n.transfer s after = .ok (n.carry s after) := by
  unfold transfer
  rw [foldlM_lookup fun x hx => h x (Or.inr hx)]
  exact foldlM_lookup (fun x hx => h x (Or.inl hx)) _ _

theorem contains_carry {s : Stmt} {after : VarSet n.size} {j : Nat} :
    (n.carry s after).contains j = true ↔
      (after.contains j = true ∧ ¬ ∃ x ∈ s.defs, ∃ i, n.index? x = some i ∧ i.val = j) ∨
        ∃ x ∈ s.uses, ∃ i, n.index? x = some i ∧ i.val = j := by
  have hmem (l : List String) : (∃ i ∈ l.filterMap n.index?, i.val = j) ↔
      ∃ x ∈ l, ∃ i, n.index? x = some i ∧ i.val = j := by
    simp only [List.mem_filterMap]
    constructor
    · rintro ⟨i, ⟨x, hx, hi⟩, hj⟩
      exact ⟨x, hx, i, hi, hj⟩
    · rintro ⟨x, hx, i, hi, hj⟩
      exact ⟨i, ⟨x, hx, hi⟩, hj⟩
  rw [carry, VarSet.contains_foldl_insert, VarSet.contains_foldl_erase, hmem, hmem]
  rfl

theorem carry_mono (n : Numbering) (s : Stmt) : Monotone (n.carry s) := by
  intro a b hab j hj
  rw [contains_carry] at hj ⊢
  exact hj.imp_left fun h => ⟨hab j h.1, h.2⟩

theorem mem_namesOf_carry {s : Stmt} (h : n.Covers s) {after : VarSet n.size} {x : String} :
    x ∈ n.namesOf (n.carry s after) ↔ x ∈ s.uses ∨ x ∈ n.namesOf after ∧ x ∉ s.defs := by
  have hsame {y : String} {i : Fin n.size} (hi : n.index? x = some i) :
      (∃ k, n.index? y = some k ∧ k.val = i.val) ↔ y = x := by
    constructor
    · rintro ⟨k, hk, hki⟩
      have hy := index?_eq_some_iff.1 hk
      rw [hki, index?_eq_some_iff.1 hi, Option.some.injEq] at hy
      exact hy.symm
    · rintro rfl
      exact ⟨i, hi, rfl⟩
  constructor
  · intro hx
    obtain ⟨i, hi, hc⟩ := mem_namesOf.1 hx
    rw [contains_carry] at hc
    simp only [hsame hi, exists_eq_right] at hc
    exact hc.symm.imp_right fun h => ⟨mem_namesOf.2 ⟨i, hi, h.1⟩, h.2⟩
  · intro hx
    have hnumbered : x ∈ n.names := by
      rcases hx with hx | hx
      · exact h x (Or.inl hx)
      · obtain ⟨i, hi, _⟩ := mem_namesOf.1 hx.1
        exact mem_names_of_index? hi
    obtain ⟨i, hi⟩ := index?_isSome hnumbered
    refine mem_namesOf.2 ⟨i, hi, contains_carry.2 ?_⟩
    simp only [hsame hi, exists_eq_right]
    refine hx.symm.imp_left fun hx => ⟨?_, hx.2⟩
    obtain ⟨k, hk, hc⟩ := mem_namesOf.1 hx.1
    rw [hi, Option.some.injEq] at hk
    exact hk ▸ hc

theorem lawful_problem {g : Graph} (h : ∀ s ∈ g.statements, n.Covers s) : n.problem.Lawful n.carry g where
  bottom := rfl
  join _ _ := rfl
  transfer hs a := by
    change Problem.lift (n.transfer _ a) = _
    rw [transfer_eq (h _ hs)]
    rfl
  monotone _ := carry_mono n _
  includes := VarSet.includes_iff

theorem mem_names_add {x y : String} : x ∈ (n.add y).names ↔ x ∈ n.names ∨ x = y := by
  unfold add
  split
  · rename_i hy
    exact ⟨Or.inl, fun hx => hx.elim id fun he => he ▸ hy⟩
  · simp

theorem mem_names_foldl_add {x : String} {l : List String} :
    x ∈ (l.foldl add n).names ↔ x ∈ n.names ∨ x ∈ l := by
  induction l generalizing n with
  | nil => simp
  | cons y l ih => rw [List.foldl_cons, ih, mem_names_add, List.mem_cons, or_assoc]

theorem covers_ofMethod {m : Method} {s : Stmt} (hs : s ∈ m.statements) : (ofMethod m).Covers s := by
  intro x hx
  refine mem_names_foldl_add.2 (Or.inr (List.mem_append_right _ (List.mem_flatMap.2 ⟨s, hs, ?_⟩)))
  exact List.mem_append.2 hx

open Classical in
noncomputable def collect (n : Numbering) (P : String → Prop) : VarSet n.size :=
  ((List.finRange n.size).filter fun i => P (n.names.get i)).foldl VarSet.insert ⊥

theorem mem_namesOf_collect {P : String → Prop} {x : String} :
    x ∈ n.namesOf (n.collect P) ↔ x ∈ n.names ∧ P x := by
  classical
  have hcontains (j : Fin n.size) : (n.collect P).contains j = true ↔ P (n.names.get j) := by
    refine (VarSet.contains_foldl_insert _ _ _).trans ⟨?_, fun h => Or.inr ⟨j, ?_, rfl⟩⟩
    · rintro (h | ⟨i, hi, hij⟩)
      · exact absurd h (by simp [Bot.bot])
      · exact Fin.ext hij ▸ of_decide_eq_true (List.mem_filter.1 hi).2
    · exact List.mem_filter.2 ⟨List.mem_finRange j, decide_eq_true h⟩
  have hname {i : Fin n.size} (hi : n.index? x = some i) : n.names.get i = x := by
    have h := index?_eq_some_iff.1 hi
    rw [name?, List.getElem?_eq_getElem i.isLt, Option.some.injEq] at h
    exact h
  rw [mem_namesOf]
  constructor
  · rintro ⟨i, hi, hc⟩
    exact ⟨mem_names_of_index? hi, hname hi ▸ (hcontains i).1 hc⟩
  · rintro ⟨hx, hP⟩
    obtain ⟨i, hi⟩ := index?_isSome hx
    exact ⟨i, hi, (hcontains i).2 ((hname hi).symm ▸ hP)⟩

end Numbering

namespace Graph

variable {n : Numbering} {g : Graph}

theorem mem_namesOf_exitOf {entry : Nat → VarSet n.size} {i : Nat} {x : String} :
    x ∈ n.namesOf (g.exitOf entry i) ↔ ∃ j ∈ g.successors i, x ∈ n.namesOf (entry j) := by
  have hfold (l : List (VarSet n.size)) (a : VarSet n.size) :
      x ∈ n.namesOf (l.foldl (· ⊔ ·) a) ↔ x ∈ n.namesOf a ∨ ∃ s ∈ l, x ∈ n.namesOf s := by
    induction l generalizing a with
    | nil => simp
    | cons s l ih => simp [ih, Numbering.mem_namesOf_sup, or_assoc]
  rw [exitOf, hfold]
  simp

end Graph

end Backflow
