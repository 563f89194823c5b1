import Backflow.Proofs.Paths
import Backflow.Proofs.StrayJumps
import Backflow.Proofs.StructuredFlow
import Mathlib.Data.Set.Lattice
import Mathlib.Order.FixedPoints
import Mathlib.Order.CompletePartialOrder

namespace Backflow

namespace Stmt

/-- The variables that are live where control goes on: after a statement that completes, and at a break or
a continue inside it. -/
structure LiveTargets where
  next : Set String
  brk : Set String
  cont : Set String

/-- The variables that the statement reads, with those live after it that it does not write. -/
def liveThrough (s : Stmt) (after : Set String) : Set String :=
  {v | v ∈ s.uses} ∪ (after \ {v | v ∈ s.defs})

/-- The least set that meets a loop's equation: `exits` is live after the loop, and `body` tells what is
live before its body from what is live before its test. -/
def liveLoop (s : Stmt) (exits : Set String) (body : Set String → Set String) : Set String :=
  {v | ∀ X, X = {v | v ∈ s.uses} ∪ exits ∪ body X → v ∈ X}

mutual

/-- The variables that are live before a statement, computed without a graph. -/
def liveBefore (k : LiveTargets) : Stmt → Set String
  | .block _ body => liveBeforeList k body
  | .ifThen t c yes => {v | v ∈ (Stmt.ifThen t c yes).uses} ∪ (yes.liveBefore k ∪ k.next)
  | .ifElse t c yes no => {v | v ∈ (Stmt.ifElse t c yes no).uses} ∪ (yes.liveBefore k ∪ no.liveBefore k)
  | .loop t c body => liveLoop (.loop t c body) k.next fun X => body.liveBefore ⟨X, k.next, X⟩
  | .ret t value => {v | v ∈ (Stmt.ret t value).uses}
  | .brk _ => k.brk
  | .cont _ => k.cont
  | s => s.liveThrough k.next

def liveBeforeList (k : LiveTargets) : List Stmt → Set String
  | [] => k.next
  | s :: rest => s.liveBefore { k with next := liveBeforeList k rest }

end

mutual

def liveValues (k : LiveTargets) : Stmt → List (Stmt × Set String)
  | .block _ body => liveValuesList k body
  | .ifThen t c yes => (.ifThen t c yes, (Stmt.ifThen t c yes).liveBefore k) :: yes.liveValues k
  | .ifElse t c yes no =>
    (.ifElse t c yes no, (Stmt.ifElse t c yes no).liveBefore k) :: (yes.liveValues k ++ no.liveValues k)
  | .loop t c body =>
    let test := (Stmt.loop t c body).liveBefore k
    (.loop t c body, test) :: body.liveValues ⟨test, k.next, test⟩
  | s => [(s, s.liveBefore k)]

def liveValuesList (k : LiveTargets) : List Stmt → List (Stmt × Set String)
  | [] => []
  | s :: rest => s.liveValues { k with next := liveBeforeList k rest } ++ liveValuesList k rest

end

variable {s : Stmt} {k k' : LiveTargets} {exits X : Set String} {body : Set String → Set String}

theorem Plain.liveBefore_eq (h : s.Plain) (k : LiveTargets) : s.liveBefore k = s.liveThrough k.next := by
  apply h.cases (P := fun s => s.liveBefore k = s.liveThrough k.next) <;> intros <;> rfl

theorem Plain.liveValues_eq (h : s.Plain) (k : LiveTargets) :
    s.liveValues k = [(s, s.liveThrough k.next)] := by
  apply h.cases (P := fun s => s.liveValues k = [(s, s.liveThrough k.next)]) <;> intros <;> rfl

def loopHom (s : Stmt) (exits : Set String) (body : Set String → Set String) (h : Monotone body) :
    Set String →o Set String where
  toFun X := {v | v ∈ s.uses} ∪ exits ∪ body X
  monotone' _ _ hle := Set.union_subset_union_right _ (h hle)

theorem liveLoop_eq_lfp (h : Monotone body) : s.liveLoop exits body = (loopHom s exits body h).lfp := by
  apply Set.Subset.antisymm
  · exact fun v hv => hv _ (loopHom s exits body h).map_lfp.symm
  · exact fun v hv X hX => (loopHom s exits body h).lfp_le_fixed hX.symm hv

theorem liveLoop_eq (h : Monotone body) :
    s.liveLoop exits body = {v | v ∈ s.uses} ∪ exits ∪ body (s.liveLoop exits body) := by
  rw [liveLoop_eq_lfp h]
  exact (loopHom s exits body h).map_lfp.symm

theorem liveLoop_subset (h : Monotone body) (hX : {v | v ∈ s.uses} ∪ exits ∪ body X ⊆ X) :
    s.liveLoop exits body ⊆ X := by
  rw [liveLoop_eq_lfp h]
  exact (loopHom s exits body h).lfp_le hX

structure LiveTargets.Within (k k' : LiveTargets) : Prop where
  next : k.next ⊆ k'.next
  brk : k.brk ⊆ k'.brk
  cont : k.cont ⊆ k'.cont

theorem liveThrough_mono {after after' : Set String} (h : after ⊆ after') :
    s.liveThrough after ⊆ s.liveThrough after' :=
  Set.union_subset_union_right _ (Set.sdiff_subset_sdiff_left h)

theorem liveBefore_mono :
    (∀ s : Stmt, ∀ k k' : LiveTargets, k.Within k' → s.liveBefore k ⊆ s.liveBefore k') ∧
      ∀ l, ∀ k k' : LiveTargets, k.Within k' → liveBeforeList k l ⊆ liveBeforeList k' l := by
  apply Stmt.induction
  case plain =>
    intro s hs k k' h
    rw [hs.liveBefore_eq, hs.liveBefore_eq]
    exact liveThrough_mono h.next
  case block =>
    intro t body ih k k' h
    rw [liveBefore, liveBefore]
    exact ih k k' h
  case ifThen =>
    intro t c yes ih k k' h
    rw [liveBefore, liveBefore]
    exact Set.union_subset_union_right _ (Set.union_subset_union (ih k k' h) h.next)
  case ifElse =>
    intro t c yes no ihyes ihno k k' h
    rw [liveBefore, liveBefore]
    exact Set.union_subset_union_right _ (Set.union_subset_union (ihyes k k' h) (ihno k k' h))
  case loop =>
    intro t c body ih k k' h
    rw [liveBefore, liveBefore]
    have hmono (exits : Set String) : Monotone fun X => body.liveBefore ⟨X, exits, X⟩ :=
      fun X Y hle => ih _ _ ⟨hle, subset_rfl, hle⟩
    apply liveLoop_subset (hmono k.next)
    refine Set.Subset.trans ?_ (liveLoop_eq (hmono k'.next)).superset
    refine Set.union_subset_union (Set.union_subset_union_right _ h.next) ?_
    exact ih _ _ ⟨subset_rfl, h.next, subset_rfl⟩
  case ret => exact fun t value k k' h => subset_rfl
  case brk => exact fun t k k' h => h.brk
  case cont => exact fun t k k' h => h.cont
  case nil => exact fun k k' h => h.next
  case cons =>
    intro s rest ihs ihrest k k' h
    rw [liveBeforeList, liveBeforeList]
    exact ihs _ _ ⟨ihrest k k' h, h.brk, h.cont⟩

theorem monotone_loopBody (s : Stmt) (exits : Set String) :
    Monotone fun X => s.liveBefore ⟨X, exits, X⟩ :=
  fun _ _ hle => liveBefore_mono.1 s _ _ ⟨hle, subset_rfl, hle⟩

theorem liveBefore_loop (t : Tag) (c : Expr) (body : Stmt) (k : LiveTargets) :
    (Stmt.loop t c body).liveBefore k = {v | v ∈ (Stmt.loop t c body).uses} ∪ k.next ∪
      body.liveBefore ⟨(Stmt.loop t c body).liveBefore k, k.next, (Stmt.loop t c body).liveBefore k⟩ := by
  conv_lhs => rw [liveBefore]
  rw [liveLoop_eq (monotone_loopBody body k.next), liveBefore]

theorem map_fst_liveValues :
    (∀ s : Stmt, ∀ k, (s.liveValues k).map Prod.fst = s.actions) ∧
      ∀ l k, (liveValuesList k l).map Prod.fst = actionsList l := by
  apply Stmt.induction
  case plain => exact fun s hs k => by rw [hs.liveValues_eq, hs.actions_eq]; rfl
  case block => exact fun t body ih k => by rw [liveValues, ih, actions_block]
  case ifThen => exact fun t c yes ih k => by rw [liveValues, List.map_cons, ih, actions_ifThen]
  case ifElse =>
    intro t c yes no ihyes ihno k
    rw [liveValues, List.map_cons, List.map_append, ihyes, ihno, actions_ifElse]
  case loop => exact fun t c body ih k => by rw [liveValues, List.map_cons, ih, actions_loop]
  case ret => exact fun t value k => rfl
  case brk => exact fun t k => rfl
  case cont => exact fun t k => rfl
  case nil => exact fun k => rfl
  case cons =>
    intro s rest ihs ihrest k
    rw [liveValuesList, List.map_append, ihs, ihrest, actionsList_cons]

/-- Without stray jumps it does not matter what is live at a break or a continue. -/
theorem live_of_no_strays :
    (∀ s : Stmt, ∀ k k', s.strays = [] → k.next = k'.next →
      s.liveBefore k = s.liveBefore k' ∧ s.liveValues k = s.liveValues k') ∧
    ∀ l, ∀ k k' : LiveTargets, straysList l = [] → k.next = k'.next →
      liveBeforeList k l = liveBeforeList k' l ∧ liveValuesList k l = liveValuesList k' l := by
  apply Stmt.induction
  case plain =>
    intro s hs k k' _ h
    rw [hs.liveBefore_eq, hs.liveBefore_eq, hs.liveValues_eq, hs.liveValues_eq, h]
    exact ⟨rfl, rfl⟩
  case block =>
    intro t body ih k k' hs h
    rw [strays] at hs
    rw [liveBefore, liveBefore, liveValues, liveValues]
    exact ih k k' hs h
  case ifThen =>
    intro t c yes ih k k' hs h
    rw [strays] at hs
    obtain ⟨hbefore, hvalues⟩ := ih k k' hs h
    rw [liveValues, liveValues, liveBefore, liveBefore, hbefore, hvalues, h]
    exact ⟨rfl, rfl⟩
  case ifElse =>
    intro t c yes no ihyes ihno k k' hs h
    rw [strays] at hs
    obtain ⟨hyes, hno⟩ := List.append_eq_nil_iff.1 hs
    obtain ⟨hbefore, hvalues⟩ := ihyes k k' hyes h
    obtain ⟨hbefore', hvalues'⟩ := ihno k k' hno h
    rw [liveValues, liveValues, liveBefore, liveBefore, hbefore, hvalues, hbefore', hvalues']
    exact ⟨rfl, rfl⟩
  case loop =>
    intro t c body _ k k' _ h
    rw [liveValues, liveValues, liveBefore, liveBefore, h]
    exact ⟨rfl, rfl⟩
  case ret => exact fun t value k k' _ _ => ⟨rfl, rfl⟩
  case brk => exact fun t k k' hs _ => absurd hs (List.cons_ne_nil _ _)
  case cont => exact fun t k k' hs _ => absurd hs (List.cons_ne_nil _ _)
  case nil => exact fun k k' _ h => ⟨h, rfl⟩
  case cons =>
    intro s rest ihs ihrest k k' hs h
    rw [straysList] at hs
    obtain ⟨hs, hrest⟩ := List.append_eq_nil_iff.1 hs
    obtain ⟨hbefore, hvalues⟩ := ihrest k k' hrest h
    rw [liveBeforeList, liveBeforeList, liveValuesList, liveValuesList, hvalues]
    obtain ⟨hfirst, hinside⟩ := ihs { k with next := liveBeforeList k rest }
      { k' with next := liveBeforeList k' rest } hs hbefore
    exact ⟨hfirst, congrArg (· ++ _) hinside⟩

theorem uses_subset_liveValues :
    (∀ s : Stmt, ∀ k, ∀ x ∈ s.liveValues k, {v | v ∈ x.1.uses} ⊆ x.2) ∧
      ∀ l k, ∀ x ∈ liveValuesList k l, {v | v ∈ x.1.uses} ⊆ x.2 := by
  apply Stmt.induction
  case plain =>
    intro s hs k x hx
    rw [hs.liveValues_eq] at hx
    rw [List.mem_singleton.1 hx]
    exact Set.subset_union_left
  case block =>
    intro t body ih k x hx
    rw [liveValues] at hx
    exact ih k x hx
  case ifThen =>
    intro t c yes ih k x hx
    rw [liveValues] at hx
    rcases List.mem_cons.1 hx with rfl | hx
    · exact Set.subset_union_left
    · exact ih k x hx
  case ifElse =>
    intro t c yes no ihyes ihno k x hx
    rw [liveValues] at hx
    rcases List.mem_cons.1 hx with rfl | hx
    · exact Set.subset_union_left
    · exact (List.mem_append.1 hx).elim (ihyes k x) (ihno k x)
  case loop =>
    intro t c body ih k x hx
    rw [liveValues] at hx
    rcases List.mem_cons.1 hx with rfl | hx
    · change _ ⊆ (Stmt.loop t c body).liveBefore k
      rw [liveBefore_loop]
      exact Set.subset_union_left.trans Set.subset_union_left
    · exact ih _ x hx
  case ret =>
    intro t value k x hx
    rw [List.mem_singleton.1 hx]
    exact subset_rfl
  case brk => exact fun t k x hx => List.mem_singleton.1 hx ▸ fun v hv => absurd hv List.not_mem_nil
  case cont => exact fun t k x hx => List.mem_singleton.1 hx ▸ fun v hv => absurd hv List.not_mem_nil
  case nil => exact fun k x hx => absurd hx List.not_mem_nil
  case cons =>
    intro s rest ihs ihrest k x hx
    rw [liveValuesList] at hx
    exact (List.mem_append.1 hx).elim (ihs _ x) (ihrest k x)

end Stmt

end Backflow
