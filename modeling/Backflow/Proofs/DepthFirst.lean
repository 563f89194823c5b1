import Backflow.Proofs.Regions

namespace Backflow

namespace Search

variable {succ : Nat → List Nat} {size exit i j : Nat} {unseen rest : List Nat} {above : List (Nat × List Nat)}

/-- The edges that lead back to a node on the path of a depth-first search. -/
def backArcs (succ : Nat → List Nat) (unseen : List Nat) (path : List (Nat × List Nat)) : List (Nat × Nat) :=
  match path with
  | [] => []
  | (_, []) :: above => backArcs succ unseen above
  | (i, j :: rest) :: above =>
    if j ∈ unseen then
      backArcs succ (unseen.erase j) ((j, succ j) :: (i, rest) :: above)
    else if j = i ∨ j ∈ above.map (·.1) then
      (i, j) :: backArcs succ unseen ((i, rest) :: above)
    else
      backArcs succ unseen ((i, rest) :: above)
termination_by (unseen.length, toTry path)
decreasing_by
  · exact Prod.Lex.right _ (by simp [toTry])
  · rename_i h
    exact Prod.Lex.left _ _ (length_erase_lt h)
  · exact Prod.Lex.right _ (by simp [toTry])
  · exact Prod.Lex.right _ (by simp [toTry])

theorem length_backArcs (succ : Nat → List Nat) (unseen : List Nat) (path : List (Nat × List Nat)) :
    (backArcs succ unseen path).length = backEdges succ unseen path := by
  fun_induction backArcs succ unseen path with
  | case1 => rw [backEdges, List.length_nil]
  | case2 unseen i above ih => rw [backEdges, ih]
  | case3 unseen i j rest above hj ih => rw [backEdges, if_pos hj, ih]
  | case4 unseen i j rest above hj hon ih => rw [backEdges, if_neg hj, if_pos hon, List.length_cons, ih]
  | case5 unseen i j rest above hj hoff ih => rw [backEdges, if_neg hj, if_neg hoff, ih]

/-- An edge goes back to a node before its source only if that node encloses its source, edges to the exit apart. -/
structure Reducible (succ : Nat → List Nat) (size exit : Nat) : Prop where
  bounded : ∀ i, ∀ j ∈ succ i, i < size ∧ j < size
  exit_lt : exit < size
  exit_eq : succ exit = []
  enclosed : ∀ i, ∀ j ∈ succ i, j ≤ i → j ≠ exit → ∃ n, Encloses succ j n

/-- The edge from `i` to `j` goes to its source or before it, and a path leads from there to the source. -/
def Returns (succ : Nat → List Nat) (i j : Nat) : Prop :=
  j ≤ i ∧ Relation.ReflTransGen (fun i j => j ∈ succ i) j i

def children (succ : Nat → List Nat) (size i : Nat) : List Nat := if i = size then List.range size else succ i

theorem children_root (succ : Nat → List Nat) (size : Nat) : children succ size size = List.range size :=
  if_pos rfl

theorem children_of_lt (hi : i < size) : children succ size i = succ i := if_neg (Nat.ne_of_lt hi)

theorem Reducible.not_reaches_root (h : Reducible succ size exit) (hi : i < size) :
    ¬ Relation.ReflTransGen (fun i j => j ∈ succ i) i size := by
  intro hr
  rcases hr.cases_tail with heq | ⟨k, _, hk⟩
  · exact Nat.ne_of_gt hi heq
  · exact Nat.lt_irrefl size (h.bounded k size hk).2

theorem Reducible.eq_of_reaches_exit (h : Reducible succ size exit)
    (hr : Relation.ReflTransGen (fun i j => j ∈ succ i) exit i) : i = exit := by
  rcases hr.cases_head with heq | ⟨k, hk, _⟩
  · exact heq.symm
  · rw [h.exit_eq] at hk
    cases hk

theorem Reducible.child_lt (h : Reducible succ size exit) (hj : j ∈ children succ size i) : j < size := by
  unfold children at hj
  split at hj
  · exact List.mem_range.1 hj
  · exact (h.bounded i j hj).2

theorem Reducible.parent_ne_exit (h : Reducible succ size exit) (hj : j ∈ children succ size i) : i ≠ exit := by
  rintro rfl
  rw [children_of_lt h.exit_lt, h.exit_eq] at hj
  cases hj

/-- On the path of a search `l` stands before `u`: `l` is the root, or a path leads from `l` on to `u`. -/
def Before (succ : Nat → List Nat) (size exit u l : Nat) : Prop :=
  l = size ∨ l ≠ exit ∧ Relation.ReflTransGen (fun i j => j ∈ succ i) l u ∧ (u = exit ∨ l < u)

/-- What holds throughout a search from every node in turn. -/
structure Descends (succ : Nat → List Nat) (size exit : Nat) (unseen : List Nat) (path : List (Nat × List Nat)) :
    Prop where
  nodup : unseen.Nodup
  unseen_lt : ∀ i ∈ unseen, i < size
  onPath : ∀ p ∈ path, p.1 ∉ unseen ∧ p.2 <:+ children succ size p.1
  tried : ∀ p ∈ path, ∀ j ∈ children succ size p.1, j ∈ p.2 ∨ j ∉ unseen
  rooted : unseen = [] ∨ size ∈ path.map (·.1)
  before : (path.map (·.1)).Pairwise (Before succ size exit)
  left : ∀ i < size, i ∉ unseen → i ∉ path.map (·.1) → ∀ j ∈ succ i, j ∉ unseen
  /-- A node is seen before the nodes that it encloses. -/
  first : ∀ h n, Encloses succ h n → ∀ k, h ≤ k → k < n → k < size → k ∉ unseen → h ∉ unseen
  /-- When a node is left, so are the nodes beyond it. -/
  beyond : ∀ h < size, h ≠ exit → h ∉ unseen → h ∉ path.map (·.1) →
    ∀ k, Beyond succ h k → k ∉ unseen ∧ k ∉ path.map (·.1)

theorem descends_start (succ : Nat → List Nat) (size exit : Nat) :
    Descends succ size exit (List.range size) [(size, List.range size)] where
  nodup := List.nodup_range
  unseen_lt _ hi := List.mem_range.1 hi
  onPath p hp := by
    rw [List.mem_singleton.1 hp, children_root]
    exact ⟨by simp, List.suffix_rfl⟩
  tried p hp j hj := by
    rw [List.mem_singleton.1 hp, children_root] at *
    exact Or.inl hj
  rooted := Or.inr List.mem_cons_self
  before := List.pairwise_singleton _ _
  left i hi hseen := absurd (List.mem_range.2 hi) hseen
  first _ _ _ k _ _ hk hseen := absurd (List.mem_range.2 hk) hseen
  beyond h hh _ hseen := absurd (List.mem_range.2 hh) hseen

namespace Descends

theorem seen (h : Descends succ size exit unseen ((i, rest) :: above)) : i ∉ unseen :=
  (h.onPath _ List.mem_cons_self).1

theorem child (h : Descends succ size exit unseen ((i, j :: rest) :: above)) : j ∈ children succ size i :=
  (h.onPath _ List.mem_cons_self).2.subset List.mem_cons_self

theorem forward (h : Descends succ size exit unseen ((i, j :: rest) :: above)) (hred : Reducible succ size exit)
    (hj : j ∈ unseen) : i = size ∨ j ∈ succ i ∧ (j = exit ∨ i < j) := by
  have hchild := h.child
  unfold children at hchild
  split at hchild
  case isTrue hroot => exact Or.inl hroot
  case isFalse =>
    refine Or.inr ⟨hchild, Classical.or_iff_not_imp_left.2 fun hne => Nat.lt_of_not_le fun hle => ?_⟩
    obtain ⟨n, henc⟩ := hred.enclosed i j hchild hle hne
    exact h.first j n henc i hle (henc.back i hchild hle) (hred.bounded i j hchild).1 h.seen hj

theorem not_returns (h : Descends succ size exit unseen ((i, j :: rest) :: above)) (hred : Reducible succ size exit)
    (hj : j ∈ unseen) : ¬ Returns succ i j := by
  rintro ⟨hle, hr⟩
  rcases h.forward hred hj with rfl | ⟨hsucc, rfl | hlt⟩
  · exact hred.not_reaches_root (h.unseen_lt j hj) hr
  · rw [hred.eq_of_reaches_exit hr, hred.exit_eq] at hsucc
    cases hsucc
  · exact Nat.not_lt.2 hle hlt

theorem mem_path_iff (h : Descends succ size exit unseen ((i, j :: rest) :: above))
    (hred : Reducible succ size exit) (hj : j ∉ unseen) : j = i ∨ j ∈ above.map (·.1) ↔ Returns succ i j := by
  have hlt := hred.child_lt h.child
  constructor
  · rintro (rfl | hmem)
    · exact ⟨Nat.le_refl _, .refl⟩
    · rcases (List.pairwise_cons.1 h.before).1 j hmem with rfl | ⟨_, hr, hafter⟩
      · exact absurd hlt (Nat.lt_irrefl _)
      · exact ⟨Nat.le_of_lt (hafter.resolve_left (hred.parent_ne_exit h.child)), hr⟩
  · rintro ⟨hle, hr⟩
    have hchild := h.child
    have hroot : i ≠ size := fun heq => hred.not_reaches_root hlt (heq ▸ hr)
    rw [children, if_neg hroot] at hchild
    have hne : j ≠ exit := by
      rintro rfl
      rw [hred.eq_of_reaches_exit hr, hred.exit_eq] at hchild
      cases hchild
    obtain ⟨n, henc⟩ := hred.enclosed i j hchild hle hne
    by_contra hoff
    have hpath := henc.beyond hr hle (henc.back i hchild hle)
    exact (h.beyond j hlt hne hj (fun hmem => hoff (List.mem_cons.1 hmem)) i hpath).2 List.mem_cons_self

theorem onPath_rest (h : Descends succ size exit unseen ((i, j :: rest) :: above)) :
    ∀ p ∈ (i, rest) :: above, p.1 ∉ unseen ∧ p.2 <:+ children succ size p.1 := by
  intro p hp
  rcases List.mem_cons.1 hp with rfl | hp
  · exact ⟨h.seen, (List.suffix_cons j rest).trans (h.onPath _ List.mem_cons_self).2⟩
  · exact h.onPath p (List.mem_cons_of_mem _ hp)

theorem tried_rest (h : Descends succ size exit unseen ((i, j :: rest) :: above)) {unseen' : List Nat}
    (hsub : unseen' ⊆ unseen) (hj : j ∉ unseen') :
    ∀ p ∈ (i, rest) :: above, ∀ k ∈ children succ size p.1, k ∈ p.2 ∨ k ∉ unseen' := by
  intro p hp k hk
  rcases List.mem_cons.1 hp with rfl | hp
  · rcases h.tried _ List.mem_cons_self k hk with hmem | hseen
    · rcases List.mem_cons.1 hmem with rfl | hmem
      · exact Or.inr hj
      · exact Or.inl hmem
    · exact Or.inr fun hk => hseen (hsub hk)
  · exact (h.tried p (List.mem_cons_of_mem _ hp) k hk).imp_right fun hseen hk => hseen (hsub hk)

theorem skip (h : Descends succ size exit unseen ((i, j :: rest) :: above)) (hj : j ∉ unseen) :
    Descends succ size exit unseen ((i, rest) :: above) :=
  { h with onPath := h.onPath_rest, tried := h.tried_rest (List.Subset.refl _) hj }

theorem before_push (h : Descends succ size exit unseen ((i, j :: rest) :: above)) (hred : Reducible succ size exit)
    (hj : j ∈ unseen) : ∀ l ∈ i :: above.map (·.1), Before succ size exit j l := by
  have hexit := hred.parent_ne_exit h.child
  rcases h.forward hred hj with rfl | ⟨hsucc, hafter⟩
  · intro l hl
    rcases List.mem_cons.1 hl with rfl | hl
    · exact Or.inl rfl
    · refine ((List.pairwise_cons.1 h.before).1 l hl).imp_right fun ⟨_, hr, hlt⟩ => ?_
      exact absurd hr (hred.not_reaches_root (hlt.resolve_left hexit))
  · intro l hl
    rcases List.mem_cons.1 hl with rfl | hl
    · exact Or.inr ⟨hexit, .single hsucc, hafter⟩
    · refine ((List.pairwise_cons.1 h.before).1 l hl).imp_right fun ⟨hne, hr, hlt⟩ => ⟨hne, hr.tail hsucc, ?_⟩
      exact hafter.imp_right (Nat.lt_trans (hlt.resolve_left hexit))

theorem seen_of_lt (h : Descends succ size exit unseen ((size, j :: rest) :: above)) {k : Nat} (hk : k < j) :
    k ∉ unseen := by
  have hsuffix := (h.onPath _ List.mem_cons_self).2
  have htried := h.tried _ List.mem_cons_self k
  rw [children_root] at hsuffix htried
  have hsorted := List.pairwise_cons.1 (List.pairwise_lt_range.sublist hsuffix.sublist)
  have hlt := List.mem_range.1 (hsuffix.subset List.mem_cons_self)
  refine (htried (List.mem_range.2 (Nat.lt_trans hk hlt))).resolve_left fun hmem => ?_
  rcases List.mem_cons.1 hmem with rfl | hmem
  · exact Nat.lt_irrefl k hk
  · exact Nat.lt_asymm hk (hsorted.1 k hmem)

theorem first_push (h : Descends succ size exit unseen ((i, j :: rest) :: above)) (hred : Reducible succ size exit)
    (hj : j ∈ unseen) {k n : Nat} (henc : Encloses succ k n) (hk : k < j) (hn : j < n) : k ∉ unseen := by
  rcases h.forward hred hj with rfl | ⟨hsucc, _⟩
  · exact h.seen_of_lt hk
  · obtain ⟨hle, hlt⟩ := henc.inside i j hsucc hk hn
    exact h.first k n henc i hle hlt (hred.bounded i j hsucc).1 h.seen

theorem push (h : Descends succ size exit unseen ((i, j :: rest) :: above)) (hred : Reducible succ size exit)
    (hj : j ∈ unseen) : Descends succ size exit (unseen.erase j) ((j, succ j) :: (i, rest) :: above) := by
  have hsub : unseen.erase j ⊆ unseen := List.erase_subset
  have hself : j ∉ unseen.erase j := h.nodup.not_mem_erase
  have hold {k : Nat} (hne : k ≠ j) (hseen : k ∉ unseen.erase j) : k ∉ unseen :=
    fun hk => hseen ((List.mem_erase_of_ne hne).2 hk)
  have hchildren : children succ size j = succ j := children_of_lt (h.unseen_lt j hj)
  refine ⟨h.nodup.erase j, fun k hk => h.unseen_lt k (hsub hk), fun p hp => ?_, fun p hp k hk => ?_, ?_,
    List.pairwise_cons.2 ⟨h.before_push hred hj, h.before⟩, fun k hk hseen hoff c hc hmem => ?_,
    fun k n henc c hle hlt hc hseen hmem => ?_, fun k hk hne hseen hoff c hpath => ?_⟩
  · rcases List.mem_cons.1 hp with rfl | hp
    · exact ⟨hself, hchildren ▸ List.suffix_rfl⟩
    · exact (h.onPath_rest p hp).imp_left fun hseen hk => hseen (hsub hk)
  · rcases List.mem_cons.1 hp with rfl | hp
    · exact Or.inl (hchildren ▸ hk)
    · exact h.tried_rest hsub hself p hp k hk
  · exact Or.inr (List.mem_cons_of_mem j (h.rooted.resolve_left (List.ne_nil_of_mem hj)))
  · have hseen := hold (fun heq => hoff (heq ▸ List.mem_cons_self)) hseen
    exact h.left k hk hseen (fun hmem => hoff (List.mem_cons_of_mem j hmem)) c hc (hsub hmem)
  · rcases eq_or_ne c j with rfl | hne
    · rcases Nat.eq_or_lt_of_le hle with rfl | hk
      · exact hself hmem
      · exact h.first_push hred hj henc hk hlt (hsub hmem)
    · exact h.first k n henc c hle hlt hc (hold hne hseen) (hsub hmem)
  · have hseen := hold (fun heq => hoff (heq ▸ List.mem_cons_self)) hseen
    obtain ⟨hc, hcoff⟩ := h.beyond k hk hne hseen (fun hmem => hoff (List.mem_cons_of_mem j hmem)) c hpath
    refine ⟨fun hmem => hc (hsub hmem), fun hmem => ?_⟩
    rcases List.mem_cons.1 hmem with rfl | hmem
    · exact hc hj
    · exact hcoff hmem

theorem children_seen (h : Descends succ size exit unseen ((i, []) :: above)) :
    ∀ j ∈ children succ size i, j ∉ unseen :=
  fun j hj => (h.tried _ List.mem_cons_self j hj).resolve_left List.not_mem_nil

theorem not_mem_above (h : Descends succ size exit unseen ((i, rest) :: above)) (hne : i ≠ exit) {k : Nat}
    (hk : i ≤ k) (hlt : k < size) : k ∉ above.map (·.1) := by
  intro hmem
  rcases (List.pairwise_cons.1 h.before).1 k hmem with rfl | ⟨_, _, rfl | hki⟩
  · exact Nat.lt_irrefl _ hlt
  · exact hne rfl
  · exact Nat.not_lt.2 hk hki

theorem beyond_pop (h : Descends succ size exit unseen ((i, []) :: above)) (hred : Reducible succ size exit)
    (hi : i < size) (hne : i ≠ exit) {k : Nat} (hpath : Beyond succ i k) :
    k ∉ unseen ∧ k ∉ above.map (·.1) := by
  induction hpath with
  | refl => exact ⟨h.seen, h.not_mem_above hne (Nat.le_refl i) hi⟩
  | @tail a k _ hstep ih =>
      obtain ⟨ha, hk⟩ := hred.bounded a k hstep.2
      refine ⟨?_, h.not_mem_above hne (Nat.le_of_lt hstep.1) hk⟩
      rcases eq_or_ne a i with rfl | hai
      · exact h.children_seen k (children_of_lt hi ▸ hstep.2)
      · exact h.left a ha ih.1 (fun hmem => ih.2 (List.mem_of_ne_of_mem hai hmem)) k hstep.2

theorem pop (h : Descends succ size exit unseen ((i, []) :: above)) (hred : Reducible succ size exit) :
    Descends succ size exit unseen above := by
  refine ⟨h.nodup, h.unseen_lt, fun p hp => h.onPath p (List.mem_cons_of_mem _ hp),
    fun p hp => h.tried p (List.mem_cons_of_mem _ hp), ?_, (List.pairwise_cons.1 h.before).2,
    fun k hk hseen hoff c hc => ?_, h.first, fun k hk hne hseen hoff c hpath => ?_⟩
  · rcases eq_or_ne i size with rfl | hroot
    · refine Or.inl (List.eq_nil_iff_forall_not_mem.2 fun k hk => h.children_seen k ?_ hk)
      rw [children_root]
      exact List.mem_range.2 (h.unseen_lt k hk)
    · exact h.rooted.imp_right fun hmem => List.mem_of_ne_of_mem hroot.symm hmem
  · rcases eq_or_ne k i with rfl | hki
    · exact h.children_seen c (children_of_lt hk ▸ hc)
    · exact h.left k hk hseen (fun hmem => hoff (List.mem_of_ne_of_mem hki hmem)) c hc
  · rcases eq_or_ne k i with rfl | hki
    · exact h.beyond_pop hred hk hne hpath
    · have hc := h.beyond k hk hne hseen (fun hmem => hoff (List.mem_of_ne_of_mem hki hmem)) c hpath
      exact hc.imp_right fun hcoff hmem => hcoff (List.mem_cons_of_mem i hmem)

end Descends

def pending (succ : Nat → List Nat) (unseen : List Nat) (path : List (Nat × List Nat)) : List (Nat × Nat) :=
  (path.flatMap fun p => p.2.map (p.1, ·)) ++ unseen.flatMap fun i => (succ i).map (i, ·)

theorem pending_cons (succ : Nat → List Nat) (unseen : List Nat) (i j : Nat) (rest : List Nat)
    (above : List (Nat × List Nat)) :
    pending succ unseen ((i, j :: rest) :: above) = (i, j) :: pending succ unseen ((i, rest) :: above) := rfl

theorem pending_push (succ : Nat → List Nat) (path : List (Nat × List Nat)) (hj : j ∈ unseen) :
    (pending succ (unseen.erase j) ((j, succ j) :: path)).Perm (pending succ unseen path) := by
  have hunseen := (List.perm_cons_erase hj).flatMap_right fun i => (succ i).map (i, ·)
  unfold pending
  rw [List.flatMap_cons, List.append_assoc]
  refine List.perm_append_comm_assoc _ _ _ |>.trans (List.Perm.append_left _ ?_)
  exact hunseen.symm

open Classical in
/-- The search finds an edge to lead back just if it returns. -/
theorem Descends.perm_backArcs {path : List (Nat × List Nat)} (h : Descends succ size exit unseen path)
    (hred : Reducible succ size exit) :
    (backArcs succ unseen path).Perm ((pending succ unseen path).filter fun a => Returns succ a.1 a.2) := by
  fun_induction backArcs succ unseen path with
  | case1 unseen =>
      rw [h.rooted.resolve_right List.not_mem_nil]
      exact List.Perm.nil
  | case2 unseen i above ih => exact ih (h.pop hred)
  | case3 unseen i j rest above hj ih =>
      rw [pending_cons, List.filter_cons_of_neg (by simpa using h.not_returns hred hj)]
      exact (ih (h.push hred hj)).trans ((pending_push succ _ hj).filter _)
  | case4 unseen i j rest above hj hon ih =>
      rw [pending_cons, List.filter_cons_of_pos (by simpa using (h.mem_path_iff hred hj).1 hon)]
      exact (ih (h.skip hj)).cons _
  | case5 unseen i j rest above hj hoff ih =>
      rw [pending_cons, List.filter_cons_of_neg (by simpa using mt (h.mem_path_iff hred hj).2 hoff)]
      exact ih (h.skip hj)

end Search

end Backflow
