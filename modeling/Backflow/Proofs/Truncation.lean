import Backflow.Proofs.Coloring

namespace Backflow

theorem NameSet.length_ofList {l : List String} (h : l.Nodup) : (ofList l).toList.length = l.length := by
  have hnodup : (ofList l).toList.Nodup := by
    apply (ofList l).sorted.imp
    rintro x _ hlt rfl
    exact String.lt_irrefl x hlt
  exact ((List.perm_ext_iff_of_nodup hnodup h).2 fun _ => mem_ofList).length_eq

theorem Numbering.index?_getElem (n : Numbering) {i : Nat} (hi : i < n.size) : n.index? n.names[i] = some ⟨i, hi⟩ :=
  index?_eq_some_iff.2 (List.getElem?_eq_getElem hi)

theorem Numbering.length_namesOf (n : Numbering) (s : VarSet n.size) :
    (n.namesOf s).toList.length = s.toList.length := by
  have hlt {i : Nat} (hi : i ∈ s.toList) : i < n.names.length := VarSet.lt_of_contains (VarSet.mem_toList.1 hi)
  have hnodup : (s.toList.filterMap n.name?).Nodup := by
    refine (List.nodup_range.filter _).filterMap fun i j x hi hj => ?_
    obtain ⟨hi', _⟩ := List.getElem?_eq_some_iff.1 hi
    exact (List.getElem?_inj hi' n.nodup).1 (hi.trans hj.symm)
  rw [namesOf, NameSet.length_ofList hnodup, List.filterMap_length_eq_length]
  intro i hi
  simpa [name?] using hlt hi

theorem nodup_eraseDups {α : Type} [BEq α] [LawfulBEq α] (l : List α) : l.eraseDups.Nodup := by
  induction hn : l.length using Nat.strong_induction_on generalizing l with
  | _ n ih =>
      cases l with
      | nil => exact List.nodup_nil
      | cons a l =>
          have hlen := List.length_filter_le (fun b => !b == a) l
          rw [List.eraseDups_cons, List.nodup_cons, List.mem_eraseDups, List.mem_filter]
          refine ⟨by simp, ih _ ?_ _ rfl⟩
          rw [← hn, List.length_cons]
          omega

namespace Interference

variable {g : Interference} {k k' i r : Nat} {x : String}

/-- With more registers no variable moves from one register to another. -/
theorem chosen_truncates (hk : k ≤ k') (i r : Nat) : g.chosen k i = some r ↔ g.chosen k' i = some r ∧ r < k := by
  induction i using Nat.strong_induction_on generalizing r with
  | _ i ih =>
      -- A neighbour that is spilled with `k` registers would have had none of them with `k'`.
      have hblocked {c : Nat} (hc : c < k) : g.Blocked k i c ↔ g.Blocked k' i c := by
        constructor
        · rintro ⟨j, hlt, hj, hr⟩
          exact ⟨j, hlt, hj, ((ih j hlt c).1 hr).1⟩
        · rintro ⟨j, hlt, hj, hr⟩
          exact ⟨j, hlt, hj, (ih j hlt c).2 ⟨hr, hc⟩⟩
      rw [chosen_eq_some_iff, chosen_eq_some_iff]
      constructor
      · rintro ⟨hr, hfree, hleast⟩
        refine ⟨⟨hr.trans_le hk, fun h => hfree ((hblocked hr).2 h), fun c hc => ?_⟩, hr⟩
        exact (hblocked (hc.trans hr)).1 (hleast c hc)
      · rintro ⟨⟨_, hfree, hleast⟩, hr⟩
        refine ⟨hr, fun h => hfree ((hblocked hr).1 h), fun c hc => ?_⟩
        exact (hblocked (hc.trans hr)).2 (hleast c hc)

/-- Only as many registers as there are neighbours can be blocked. -/
theorem chosen_ne_none (h : (g.row i).toList.length < k) : g.chosen k i ≠ none := by
  intro hnone
  have htaken : List.range k ⊆ (g.row i).toList.filterMap (g.chosen k) := by
    intro r hr
    obtain ⟨j, _, hj, hc⟩ := chosen_eq_none_iff.1 hnone r (List.mem_range.1 hr)
    exact List.mem_filterMap.2 ⟨j, VarSet.mem_toList.2 hj, hc⟩
  have hle := (List.nodup_range.subperm htaken).length_le
  have hlen := List.length_filterMap_le (g.chosen k) (g.row i).toList
  rw [List.length_range] at hle
  omega

theorem register_assign_iff (hk : k ≤ k') :
    (g.assign k).get? x = some (.register r) ↔ (g.assign k').get? x = some (.register r) ∧ r < k := by
  simp only [get?_assign_eq_some_iff, Place.ofColor_eq_register, chosen_truncates hk, ← and_assoc, exists_and_right]

theorem spilled_assign_iff (hk : k ≤ k') : (g.assign k).get? x = some .spilled ↔
    x ∈ g.vars.names ∧ ∀ r < k, (g.assign k').get? x ≠ some (.register r) := by
  constructor
  · intro h
    refine ⟨mem_names_of_get? h, fun r hr hr' => ?_⟩
    rw [(register_assign_iff hk).2 ⟨hr', hr⟩] at h
    cases h
  · rintro ⟨hx, hfree⟩
    obtain ⟨i, hi⟩ := Numbering.index?_isSome hx
    cases hc : g.chosen k i with
    | none => exact get?_assign_eq_some_iff.2 ⟨i, hi, Place.ofColor_eq_spilled.2 hc⟩
    | some r =>
        have hr := get?_assign_eq_some_iff.2 ⟨i, hi, Place.ofColor_eq_register.2 hc⟩
        obtain ⟨hr', hlt⟩ := (register_assign_iff hk).1 hr
        exact absurd hr' (hfree r hlt)

theorem perm_places (g : Interference) (k : Nat) : ((g.assign k).places.map (·.2)).Perm
    ((List.range g.vars.size).map fun i => .ofColor (g.chosen k i)) := by
  refine ((List.mergeSort_perm _ _).map _).trans ?_
  rw [List.map_snd_zip (by simp [colors_eq_map, Numbering.size]), colors_eq_map, List.map_map]
  rfl

theorem spilledCount_assign : (g.assign k).spilledCount = (List.range g.vars.size).countP (g.chosen k · = none) := by
  have hcount := (g.perm_places k).countP_eq (· = .spilled)
  rw [List.countP_map, List.countP_map] at hcount
  simpa [Assignment.spilledCount, Function.comp_def] using hcount

theorem spilledCount_le (hk : k ≤ k') : (g.assign k').spilledCount ≤ (g.assign k).spilledCount := by
  rw [spilledCount_assign, spilledCount_assign]
  apply List.countP_mono_left
  intro i _ hnone
  rw [decide_eq_true_iff] at hnone ⊢
  by_contra hsome
  obtain ⟨r, hr⟩ := Option.ne_none_iff_exists'.1 hsome
  rw [((chosen_truncates hk i r).1 hr).1] at hnone
  cases hnone

theorem spilledCount_eq_zero (h : ∀ x ∈ g.vars.names, (g.neighbors x).toList.length < k) :
    (g.assign k).spilledCount = 0 := by
  rw [spilledCount_assign, List.countP_eq_zero]
  intro i hi
  have hname := g.vars.index?_getElem (List.mem_range.1 hi)
  have hlen := h _ (Numbering.mem_names_of_index? hname)
  rw [neighbors, hname, Numbering.length_namesOf] at hlen
  rw [decide_eq_true_iff]
  exact chosen_ne_none hlen

/-- The registers in use come without a gap, since each variable has the least that it can have. -/
theorem exists_bound (g : Interference) (k : Nat) :
    ∃ n, ∀ r, (∃ i < g.vars.size, g.chosen k i = some r) ↔ r < n := by
  have hfree : ∃ r, ¬ ∃ i < g.vars.size, g.chosen k i = some r := by
    refine ⟨k, ?_⟩
    rintro ⟨i, _, h⟩
    exact Nat.lt_irrefl k (chosen_eq_some_iff.1 h).1
  refine ⟨Nat.find hfree, fun r => ⟨?_, fun hr => not_not.1 (Nat.find_min hfree hr)⟩⟩
  rintro ⟨i, hi, hr⟩
  by_contra hle
  apply Nat.find_spec hfree
  rcases Nat.eq_or_lt_of_le (Nat.le_of_not_lt hle) with heq | hlt
  · exact ⟨i, hi, heq ▸ hr⟩
  · obtain ⟨j, hj, _, hc⟩ := (chosen_eq_some_iff.1 hr).2.2 _ hlt
    exact ⟨j, hj.trans hi, hc⟩

theorem lt_registerCount_iff : r < (g.assign k).registerCount ↔ ∃ i < g.vars.size, g.chosen k i = some r := by
  obtain ⟨n, hn⟩ := g.exists_bound k
  have hused : ((((g.assign k).places.map (·.2)).eraseDups).filter (· ≠ .spilled)).Perm
      ((List.range n).map Place.register) := by
    have hregister : Function.Injective Place.register := fun _ _ he => Place.register.inj he
    refine (List.perm_ext_iff_of_nodup ((nodup_eraseDups _).filter _) (List.nodup_range.map hregister)).2 fun p => ?_
    rw [List.mem_filter, List.mem_eraseDups, (g.perm_places k).mem_iff]
    cases p with
    | spilled => simp
    | register r => simp [← hn]
  have hlen := hused.length_eq
  rw [← List.countP_eq_length_filter, List.length_map, List.length_range] at hlen
  rw [Assignment.registerCount, hlen, hn]

theorem exists_register_iff :
    (∃ x, (g.assign k).get? x = some (.register r)) ↔ r < (g.assign k).registerCount := by
  rw [lt_registerCount_iff]
  constructor
  · rintro ⟨x, hx⟩
    obtain ⟨i, _, hi⟩ := get?_assign_eq_some_iff.1 hx
    exact ⟨i, i.isLt, Place.ofColor_eq_register.1 hi⟩
  · rintro ⟨i, hi, hr⟩
    exact ⟨_, get?_assign_eq_some_iff.2 ⟨_, g.vars.index?_getElem hi, Place.ofColor_eq_register.2 hr⟩⟩

end Interference

/-- The number of registers does no more than to cut the colouring off. A variable keeps its register as long as there
is one of that number, and is spilled otherwise; the registers in use have no gap; and nothing is spilled if there are
more registers than a variable has neighbours. -/
theorem Interference.assign_truncates (g : Interference) {k k' : Nat} (hk : k ≤ k') :
    (∀ x r, (g.assign k).get? x = some (.register r) ↔ (g.assign k').get? x = some (.register r) ∧ r < k) ∧
    (∀ x, (g.assign k).get? x = some .spilled ↔
      x ∈ g.vars.names ∧ ∀ r < k, (g.assign k').get? x ≠ some (.register r)) ∧
    (g.assign k').spilledCount ≤ (g.assign k).spilledCount ∧
    (∀ r, (∃ x, (g.assign k).get? x = some (.register r)) ↔ r < (g.assign k).registerCount) ∧
    ((∀ x ∈ g.vars.names, (g.neighbors x).toList.length < k) → (g.assign k).spilledCount = 0) :=
  ⟨fun _ _ => register_assign_iff hk, fun _ => spilled_assign_iff hk, spilledCount_le hk, fun _ => exists_register_iff,
    spilledCount_eq_zero⟩

def clasped : Interference where
  vars := { names := ["a", "b", "c", "d"] }
  rows := [⟨0b0110#4⟩, ⟨0b0101#4⟩, ⟨0b1011#4⟩, ⟨0b0100#4⟩]

theorem assign_truncates_clasped :
    (clasped.assign 3).get? "c" = some (.register 2) ∧ (clasped.assign 2).get? "c" = some .spilled ∧
    (clasped.assign 3).get? "d" = some (.register 0) ∧ (clasped.assign 2).get? "d" = some (.register 0) ∧
    (clasped.assign 3).spilledCount ≤ (clasped.assign 2).spilledCount ∧ (clasped.assign 4).spilledCount = 0 := by
  have hindex : clasped.vars.index? "c" = some ⟨2, by decide⟩ ∧ clasped.vars.index? "d" = some ⟨3, by decide⟩ := by
    decide
  have hchosen : clasped.chosen 3 2 = some 2 ∧ clasped.chosen 3 3 = some 0 := by decide +kernel
  have hc : (clasped.assign 3).get? "c" = some (.register 2) := by
    rw [Interference.get?_assign hindex.1, hchosen.1]
    rfl
  have hd : (clasped.assign 3).get? "d" = some (.register 0) := by
    rw [Interference.get?_assign hindex.2, hchosen.2]
    rfl
  obtain ⟨hregister, hspilled, hcount, _, _⟩ := clasped.assign_truncates (show 2 ≤ 3 by decide)
  refine ⟨hc, (hspilled "c").2 ⟨by decide, fun r hr hr' => ?_⟩, hd, (hregister "d" 0).2 ⟨hd, by decide⟩, hcount, ?_⟩
  · rw [hc, Option.some_inj] at hr'
    cases hr'
    omega
  · exact (clasped.assign_truncates (Nat.le_refl 4)).2.2.2.2 (by decide +kernel)

end Backflow
