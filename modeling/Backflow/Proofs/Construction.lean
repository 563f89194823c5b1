import Backflow.Graph.Builder
import Backflow.Proofs.Sequencing
import Backflow.Proofs.Statements

namespace Backflow.Builder

def graph (b : Builder) : Graph := ⟨b.blocks, b.edges⟩

def enterLoop (b : Builder) (s : Stmt) : Builder :=
  { b.addBlock { kind := .basic, stmts := [s] } b.front.jumps with
    front := .after [⟨b.blocks.size, .ifTrue⟩], inLoop := some {} }

def leaveLoop (b inner : Builder) : Builder :=
  { inner.closeLoop (inner.front.jumps ++ (inner.inLoop.getD {}).continues) b.blocks.size with
    front := .after (⟨b.blocks.size, .ifFalse⟩ :: (inner.inLoop.getD {}).breaks), inLoop := b.inLoop }

theorem stmt_of_plain {s : Stmt} (h : s.Plain) (b : Builder) : b.stmt s = .ok (b.push s) := by
  apply h.cases (P := fun s => b.stmt s = .ok (b.push s)) <;> intros <;> rfl

/-- Induction over the successful runs of the builder, one case for each kind of statement. -/
theorem run_induction {P : Builder → Stmt → Builder → Prop} {Q : Builder → List Stmt → Builder → Prop}
    (plain : ∀ b s, s.Plain → P b s (b.push s))
    (block : ∀ b t body b', Q b body b' → P b (.block t body) b')
    (ifThen : ∀ b t c yes b',
      (b.pushLast (.ifThen t c yes) [⟨b.nextBlock, .ifTrue⟩]).stmt yes = .ok b' →
      P (b.pushLast (.ifThen t c yes) [⟨b.nextBlock, .ifTrue⟩]) yes b' →
      P b (.ifThen t c yes) { b' with front := .after (b'.front.jumps ++ [⟨b.nextBlock, .ifFalse⟩]) })
    (ifElse : ∀ b t c yes no b₁ b₂,
      (b.pushLast (.ifElse t c yes no) [⟨b.nextBlock, .ifTrue⟩]).stmt yes = .ok b₁ →
      P (b.pushLast (.ifElse t c yes no) [⟨b.nextBlock, .ifTrue⟩]) yes b₁ →
      { b₁ with front := .after [⟨b.nextBlock, .ifFalse⟩] }.stmt no = .ok b₂ →
      P { b₁ with front := .after [⟨b.nextBlock, .ifFalse⟩] } no b₂ →
      P b (.ifElse t c yes no) { b₂ with front := .after (b₁.front.jumps ++ b₂.front.jumps) })
    (loop : ∀ b t c body b', (b.enterLoop (.loop t c body)).stmt body = .ok b' →
      P (b.enterLoop (.loop t c body)) body b' → P b (.loop t c body) (b.leaveLoop b'))
    (ret : ∀ b t value, P b (.ret t value)
      ((b.pushLast (.ret t value) []).addEdge ⟨b.nextBlock, .ret⟩ Graph.exit))
    (brk : ∀ b t jumps, b.inLoop = some jumps → P b (.brk t) { b.pushLast (.brk t) [] with
      inLoop := some { jumps with breaks := jumps.breaks ++ [⟨b.nextBlock, .brk⟩] } })
    (cont : ∀ b t jumps, b.inLoop = some jumps → P b (.cont t) { b.pushLast (.cont t) [] with
      inLoop := some { jumps with continues := jumps.continues ++ [⟨b.nextBlock, .cont⟩] } })
    (nil : ∀ b, Q b [] b)
    (cons : ∀ b s rest b₁ b₂, b.stmt s = .ok b₁ → P b s b₁ → Q b₁ rest b₂ → Q b (s :: rest) b₂) :
    (∀ s b b', b.stmt s = .ok b' → P b s b') ∧ ∀ l b b', b.stmts l = .ok b' → Q b l b' := by
  apply Stmt.induction
  case plain =>
    intro s hs b b' h
    rw [stmt_of_plain hs] at h
    cases h
    exact plain b s hs
  case block =>
    intro t body ih b b' h
    rw [stmt] at h
    exact block b t body b' (ih b b' h)
  case ifThen =>
    intro t c yes ih b b' h
    rw [stmt] at h
    obtain ⟨b₁, h₁, h⟩ := bind_eq_ok h
    cases h
    exact ifThen b t c yes b₁ h₁ (ih _ b₁ h₁)
  case ifElse =>
    intro t c yes no ihyes ihno b b' h
    rw [stmt] at h
    obtain ⟨b₁, h₁, h⟩ := bind_eq_ok h
    obtain ⟨b₂, h₂, h⟩ := bind_eq_ok h
    cases h
    exact ifElse b t c yes no b₁ b₂ h₁ (ihyes _ b₁ h₁) h₂ (ihno _ b₂ h₂)
  case loop =>
    intro t c body ih b b' h
    rw [stmt] at h
    obtain ⟨b₁, h₁, h⟩ := bind_eq_ok h
    cases h
    exact loop b t c body b₁ h₁ (ih _ b₁ h₁)
  case ret =>
    intro t value b b' h
    rw [stmt] at h
    cases h
    exact ret b t value
  case brk =>
    intro t b b' h
    rw [stmt] at h
    cases hl : b.inLoop with
    | none => rw [hl] at h; cases h
    | some jumps =>
        rw [hl] at h
        cases h
        exact brk b t jumps hl
  case cont =>
    intro t b b' h
    rw [stmt] at h
    cases hl : b.inLoop with
    | none => rw [hl] at h; cases h
    | some jumps =>
        rw [hl] at h
        cases h
        exact cont b t jumps hl
  case nil =>
    intro b b' h
    rw [stmts] at h
    cases h
    exact nil b
  case cons =>
    intro s rest ihs ihrest b b' h
    rw [stmts] at h
    obtain ⟨b₁, h₁, h⟩ := bind_eq_ok h
    exact cons b s rest b₁ b' h₁ (ihs b b₁ h₁) (ihrest b₁ b' h)

end Backflow.Builder
