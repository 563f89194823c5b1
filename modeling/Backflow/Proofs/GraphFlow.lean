import Backflow.Proofs.BuiltGraph
import Backflow.Proofs.StructuredFlow

namespace Backflow

def Branch.outcome : Branch → Option Bool
  | ifTrue => some true
  | ifFalse => some false
  | _ => none

namespace Graph

/-- Control leaves the block after this statement, or as the method's entry. -/
def Ends (g : Graph) (i : Nat) : Option Stmt → Prop
  | none => i = entry
  | some s => (g.stmts i).getLast? = some s

/-- Control that enters the block comes to this statement or to the method's end, at once or through
latches. -/
inductive Arrives (g : Graph) : Nat → Option Stmt → Prop
  | exit : Arrives g Graph.exit none
  | first {i s} (h : (g.stmts i).head? = some s) : Arrives g i (some s)
  | latch {e t} (he : e ∈ g.edges) (hk : (g.block e.source).kind = .latch) (h : Arrives g e.target t) :
      Arrives g e.source t

inductive Passes (g : Graph) : Transition → Prop
  | inside {i s u} (h : [s, u] <:+: g.stmts i) : Passes g ⟨some s, none, some u⟩
  | along {e x t} (he : e ∈ g.edges) (hx : g.Ends e.source x) (ht : g.Arrives e.target t) :
      Passes g ⟨x, e.branch.outcome, t⟩

def Leaves (g : Graph) (jumps : List Jump) (t : Option Stmt) (tr : Transition) : Prop :=
  ∃ j ∈ jumps, ∃ x, g.Ends j.source x ∧ tr = ⟨x, j.branch.outcome, t⟩

variable {g g' : Graph} {i : Nat} {s : Stmt} {t u : Option Stmt} {tr : Transition} {j : Jump}
  {jumps : List Jump}

@[simp] theorem leaves_nil : ¬ g.Leaves [] t tr := nofun

@[simp] theorem leaves_append {jumps' : List Jump} :
    g.Leaves (jumps ++ jumps') t tr ↔ g.Leaves jumps t tr ∨ g.Leaves jumps' t tr := by
  simp only [Leaves, List.mem_append, or_and_right, exists_or]

theorem leaves_cons : g.Leaves (j :: jumps) t tr ↔ g.Leaves [j] t tr ∨ g.Leaves jumps t tr :=
  show g.Leaves ([j] ++ jumps) t tr ↔ _ from leaves_append

theorem ends_congr (h : g'.stmts i = g.stmts i) : g'.Ends i t ↔ g.Ends i t := by
  cases t with
  | none => exact Iff.rfl
  | some s => rw [Ends, Ends, h]

theorem leaves_congr (h : ∀ j ∈ jumps, g'.stmts j.source = g.stmts j.source) :
    g'.Leaves jumps t tr ↔ g.Leaves jumps t tr := by
  constructor
  · rintro ⟨j, hj, x, hx, htr⟩
    exact ⟨j, hj, x, (ends_congr (h j hj)).1 hx, htr⟩
  · rintro ⟨j, hj, x, hx, htr⟩
    exact ⟨j, hj, x, (ends_congr (h j hj)).2 hx, htr⟩

theorem leaves_singleton (hlast : (g.stmts j.source).getLast? = some s) (hne : j.source ≠ entry) :
    g.Leaves [j] t tr ↔ tr = ⟨some s, j.branch.outcome, t⟩ := by
  constructor
  · rintro ⟨k, hk, x, hx, rfl⟩
    cases List.mem_singleton.1 hk
    cases x with
    | none => exact absurd hx hne
    | some r => rw [Option.some.inj (hlast.symm.trans hx)]
  · rintro rfl
    exact ⟨j, List.mem_cons_self, some s, hlast, rfl⟩

/-- The second graph has the transitions of the first and those along the jumps. -/
def Connects (g g' : Graph) (jumps : List Jump) (t : Option Stmt) : Prop :=
  ∀ tr, g'.Passes tr ↔ g.Passes tr ∨ g.Leaves jumps t tr

/-- The second graph has new edges, none out of a latch of the first, and new blocks, none with more than
one statement. -/
structure Extends (g g' : Graph) (new : Edge → Prop) : Prop where
  stmts : ∀ i < g.size, g'.stmts i = g.stmts i
  kind : ∀ i < g.size, (g'.block i).kind = (g.block i).kind
  short : ∀ i, g.size ≤ i → (g'.stmts i).length ≤ 1
  edges : ∀ e, e ∈ g'.edges ↔ e ∈ g.edges ∨ new e
  source : ∀ e, new e → e.source < g.size → (g.block e.source).kind ≠ .latch

variable {new : Edge → Prop}

theorem Extends.arrives (h : g.Extends g' new) (hg : g.Closed) (hi : i < g.size) :
    g'.Arrives i t ↔ g.Arrives i t := by
  constructor
  · intro ha
    induction ha with
    | exit => exact .exit
    | first hfirst => exact .first (by rwa [← h.stmts _ hi])
    | latch he hk _ ih =>
        rw [h.kind _ hi] at hk
        rcases (h.edges _).1 he with he | he
        · exact .latch he hk (ih (hg _ he).2)
        · exact absurd hk (h.source _ he hi)
  · intro ha
    induction ha with
    | exit => exact .exit
    | first hfirst => exact .first (by rwa [h.stmts _ hi])
    | latch he hk _ ih => exact .latch ((h.edges _).2 (.inl he)) (by rwa [h.kind _ hi]) (ih (hg _ he).2)

theorem not_infix_of_short {l : List Stmt} {a b : Stmt} (h : l.length ≤ 1) : ¬ [a, b] <:+: l := by
  intro hin
  have := hin.length_le
  simp only [List.length_cons, List.length_nil] at this
  omega

theorem Extends.connects (h : g.Extends g' new) (hg : g.Closed) (target : Nat)
    (hnew : ∀ e x, new e → g'.Ends e.source x → ∃ j ∈ jumps, e = ⟨j.source, target, j.branch⟩)
    (hjumps : ∀ j ∈ jumps, j.source < g.size ∧ new ⟨j.source, target, j.branch⟩)
    (ht : ∀ u, g'.Arrives target u ↔ u = t) : g.Connects g' jumps t := by
  intro tr
  constructor
  · intro hp
    cases hp with
    | @inside i s u hin =>
        have hi : i < g.size := Nat.lt_of_not_le fun hle => not_infix_of_short (h.short i hle) hin
        rw [h.stmts i hi] at hin
        exact Or.inl (.inside hin)
    | along he hx ha =>
        rcases (h.edges _).1 he with he | he
        · rw [ends_congr (h.stmts _ (hg _ he).1)] at hx
          rw [h.arrives hg (hg _ he).2] at ha
          exact Or.inl (.along he hx ha)
        · obtain ⟨j, hj, rfl⟩ := hnew _ _ he hx
          rw [ends_congr (h.stmts _ (hjumps j hj).1)] at hx
          cases (ht _).1 ha
          exact Or.inr ⟨j, hj, _, hx, rfl⟩
  · rintro (hp | ⟨j, hj, x, hx, rfl⟩)
    · cases hp with
      | @inside i s u hin =>
          have hi : i < g.size := lt_size_of_mem_stmts (hin.subset List.mem_cons_self)
          rw [← h.stmts i hi] at hin
          exact .inside hin
      | along he hx ha =>
          refine .along ((h.edges _).2 (.inl he)) ?_ ?_
          · rwa [ends_congr (h.stmts _ (hg _ he).1)]
          · rwa [h.arrives hg (hg _ he).2]
    · obtain ⟨hlt, he⟩ := hjumps j hj
      rw [← ends_congr (h.stmts _ hlt)] at hx
      exact .along ((h.edges _).2 (.inr he)) hx ((ht t).2 rfl)

theorem WellFormed.stmts_exit (h : g.WellFormed) : g.stmts exit = [] := by
  have hfits := h.blocks exit h.exit_lt
  have hkind := hfits.exit_iff.2 rfl
  by_contra hne
  rw [hfits.basic_iff.2 hne] at hkind
  cases hkind

theorem WellFormed.arrives_exit (h : g.WellFormed) : g.Arrives exit u ↔ u = none := by
  constructor
  · intro ha
    generalize hi : exit = i at ha
    cases ha with
    | exit => rfl
    | first hs =>
        rw [← hi, h.stmts_exit] at hs
        cases hs
    | latch he _ _ => exact absurd hi.symm (h.edges _ he).source_ne
  · rintro rfl
    exact .exit

theorem WellFormed.arrives_first (h : g.WellFormed) (hi : i < g.size) (hs : (g.stmts i).head? = some s) :
    g.Arrives i u ↔ u = some s := by
  have hkind : (g.block i).kind = .basic := by
    refine (h.blocks i hi).basic_iff.2 fun hnil => ?_
    rw [stmts, hnil] at hs
    cases hs
  constructor
  · intro ha
    cases ha with
    | exit =>
        rw [h.stmts_exit] at hs
        cases hs
    | first hs' => exact hs'.symm.trans hs
    | latch _ hk _ =>
        rw [hkind] at hk
        cases hk
  · rintro rfl
    exact .first hs

end Graph

end Backflow
