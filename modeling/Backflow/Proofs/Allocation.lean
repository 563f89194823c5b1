import Backflow.Proofs.Coloring
import Backflow.Proofs.Execution

namespace Backflow

/-- A cell that can keep a value: a register, or a place in memory of a variable's own. -/
inductive Cell where
  | register (n : Nat)
  | own (name : String)
deriving DecidableEq

def Assignment.cell (a : Assignment) (x : String) : Cell :=
  match a.get? x with
  | some (.register n) => .register n
  | _ => .own x

/-- Each variable is kept where it is assigned. -/
def Storage.placed {V : Type} (a : Assignment) : Storage (Cell → V) V where
  read c x := c (a.cell x)
  write s v c z := if z ∈ s.defs.toList.map a.cell then v else c z

namespace Liveness

variable {H V O : Type} {l : Liveness} {k : Nat} {x y : String}

theorem cell_ne (h : l.interference.interferes x y = true) :
    (l.interference.assign k).cell x ≠ (l.interference.assign k).cell y := by
  intro he
  rw [Assignment.cell, Assignment.cell] at he
  split at he
  case h_1 n hx =>
      split at he
      case h_1 n' hy =>
          rw [← Cell.register.inj he] at hy
          exact register_ne h hx hy
      case h_2 => cases he
  case h_2 =>
      split at he
      case h_1 => cases he
      case h_2 =>
          rw [Cell.own.inj he, not_interferes_self] at h
          cases h

theorem injOn_cell {s : VarSet l.vars.size} (hs : s ∈ l.liveSets) :
    Set.InjOn (l.interference.assign k).cell {x | x ∈ l.vars.namesOf s} := by
  intro x hx y hy hcell
  by_contra hne
  exact cell_ne (interferes_of_together hs hne hx hy) hcell

theorem Solved.tracks_placed (h : l.Solved) :
    (Storage.placed (V := V) (l.interference.assign k)).Tracks .plain l.vars l.flow.points := by
  intro q hq v c c' hagree x hx
  simp only [Storage.plain, Storage.placed] at hagree ⊢
  by_cases hdefs : x ∈ q.stmt.defs
  · rw [if_pos hdefs, if_pos (List.mem_map_of_mem hdefs)]
  · rw [if_neg hdefs, if_neg, hagree x hx hdefs]
    intro hcell
    obtain ⟨y, hy, hcell⟩ := List.mem_map.1 hcell
    have hne : y ≠ x := fun he => hdefs (he ▸ hy)
    exact cell_ne (interferes_of_write hq (h.covers_stmt hq) hne hy hx) hcell

theorem Solved.exists_cells (h : l.Solved) (k : Nat) (ρ : String → V) :
    ∃ cells : Cell → V, ∀ x ∈ l.liveIn Graph.entry, cells ((l.interference.assign k).cell x) = ρ x := by
  have hentry : Graph.entry < l.graph.size := h.graph.size_pos
  have hmem : l.flow.entry Graph.entry ∈ l.liveSets := (mem_liveSets h.settled).2 (Or.inr ⟨_, hentry, rfl⟩)
  refine ⟨fun z => ρ (Function.invFunOn (l.interference.assign k).cell
    {x | x ∈ l.vars.namesOf (l.flow.entry Graph.entry)} z), fun x hx => ?_⟩
  rw [liveIn_eq h.settled hentry] at hx
  exact congrArg ρ ((injOn_cell hmem).leftInvOn_invFunOn hx)

/-- Keeping the variables where they are assigned does not show in the run of a method: whatever its statements
mean, the events are the same, and the variables that are live at the start can always be put in place. -/
theorem run_placed {m : Method} {g : Graph} (hg : Graph.build m = .ok g) (o : Options) (k : Nat)
    (meaning : Interpretation H V O) : ∃ l, compute m o = .ok l ∧ l.graph = g ∧
      (∀ ρ : String → V, ∃ cells : Cell → V, ∀ x ∈ l.liveIn Graph.entry,
        cells ((l.interference.assign k).cell x) = ρ x) ∧
      ∀ (heap : H) (ρ : String → V) (cells : Cell → V),
        (∀ x ∈ l.liveIn Graph.entry, cells ((l.interference.assign k).cell x) = ρ x) →
          ∀ steps, g.run meaning (.placed (l.interference.assign k)) steps (g.enter Graph.entry heap cells) =
            g.run meaning .plain steps (g.enter Graph.entry heap ρ) := by
  obtain ⟨sol, hcompute, hsol, _⟩ := compute_settles hg o
  have hl : Solved ⟨m, g, .ofMethod m, sol⟩ :=
    ⟨Graph.wellFormed_of_build hg, Graph.marked_of_build hg, Graph.covers_of_build hg, hsol⟩
  refine ⟨_, hcompute, rfl, hl.exists_cells k, fun heap ρ cells hcells steps => ?_⟩
  exact hl.run_eq hl.tracks_placed hcells meaning heap steps

end Liveness

def copying : Method where
  name := "copy"
  isStatic := false
  returns := .void
  params := []
  locals := []
  body := [.assign ⟨0, .start⟩ "i" (.int 0), .loop ⟨1, .start⟩ (.binary .lt (.var "i") (.var "n"))
    (.block ⟨2, .start⟩ [.assign ⟨3, .start⟩ "t" (.var "i"), .assign ⟨4, .start⟩ "i" (.var "t")]),
    .print ⟨5, .start⟩ (.var "i")]
  loc := .start

def summing : Interpretation Nat Nat Nat := fun _ heap values =>
  ⟨heap + values.sum, values.sum, values.sum + 1, values.sum < 7⟩

theorem run_placed_copying : ∃ g l cells, Graph.build copying = .ok g ∧
    Liveness.compute copying { order := .byIndex, check := false } = .ok l ∧
      l.interference.colors 2 = [some 0, some 1, some 0] ∧
        (g.run summing .plain 40 (g.enter Graph.entry 0 fun _ => 3)).map (·.stmt.id) =
          [0, 1, 3, 4, 1, 3, 4, 1, 5] ∧
        g.run summing (.placed (l.interference.assign 2)) 40 (g.enter Graph.entry 0 cells) =
          g.run summing .plain 40 (g.enter Graph.entry 0 fun _ => 3) := by
  have hcolors : (Liveness.compute copying { order := .byIndex, check := false }).toOption.any (fun l =>
      l.interference.colors 2 = [some 0, some 1, some 0]) = true := by decide +kernel
  have hids : (Graph.build copying).toOption.any (fun g =>
      (g.run summing .plain 40 (g.enter Graph.entry 0 fun _ => 3)).map (·.stmt.id) =
        [0, 1, 3, 4, 1, 3, 4, 1, 5]) = true := by decide +kernel
  obtain ⟨g, hg⟩ := Graph.build_of_no_strays (m := copying) rfl
  obtain ⟨l, hl, _, hcells, hrun⟩ := Liveness.run_placed hg { order := .byIndex, check := false } 2 summing
  obtain ⟨cells, hcells⟩ := hcells fun _ => 3
  rw [hg] at hids
  rw [hl] at hcolors
  exact ⟨g, l, cells, hg, hl, of_decide_eq_true hcolors, of_decide_eq_true hids, hrun 0 _ cells hcells 40⟩

end Backflow
