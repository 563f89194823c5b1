import Backflow.Proofs.Growth

namespace Backflow

namespace Stmt

mutual

/-- The breaks and continues inside a statement that no loop surrounds, in reading order. -/
def strays : Stmt → List Stmt
  | .block _ body => straysList body
  | .ifThen _ _ yes => yes.strays
  | .ifElse _ _ yes no => yes.strays ++ no.strays
  | .brk t => [.brk t]
  | .cont t => [.cont t]
  | _ => []

def straysList : List Stmt → List Stmt
  | [] => []
  | s :: rest => s.strays ++ straysList rest

end

def strayError (s : Stmt) : AnalysisError :=
  .outsideLoop (if s matches .brk _ then .kwBreak else .kwContinue) s.loc

theorem Plain.strays_eq {s : Stmt} (h : s.Plain) : s.strays = [] := by
  apply h.cases (P := fun s => s.strays = []) <;> intros <;> rfl

theorem strayError_of_mem_strays :
    (∀ s : Stmt, ∀ u ∈ s.strays, ∃ k, u.strayError = .outsideLoop k u.loc ∧ k.text = u.construct) ∧
      ∀ l, ∀ u ∈ straysList l, ∃ k, u.strayError = .outsideLoop k u.loc ∧ k.text = u.construct := by
  apply Stmt.induction
  case plain =>
    intro s hs u hu
    rw [hs.strays_eq] at hu
    exact absurd hu List.not_mem_nil
  case block => exact fun t body ih u hu => ih u (by rwa [strays] at hu)
  case ifThen => exact fun t c yes ih u hu => ih u (by rwa [strays] at hu)
  case ifElse =>
    intro t c yes no ihyes ihno u hu
    rw [strays] at hu
    rcases List.mem_append.1 hu with hu | hu
    · exact ihyes u hu
    · exact ihno u hu
  case loop => exact fun t c body _ u hu => absurd hu List.not_mem_nil
  case ret => exact fun t value u hu => absurd hu List.not_mem_nil
  case brk =>
    intro t u hu
    rw [List.mem_singleton.1 hu]
    exact ⟨.kwBreak, rfl, rfl⟩
  case cont =>
    intro t u hu
    rw [List.mem_singleton.1 hu]
    exact ⟨.kwContinue, rfl, rfl⟩
  case nil => exact fun u hu => absurd hu List.not_mem_nil
  case cons =>
    intro s rest ihs ihrest u hu
    rw [straysList] at hu
    rcases List.mem_append.1 hu with hu | hu
    · exact ihs u hu
    · exact ihrest u hu

end Stmt

namespace Builder

/-- The answer is the error of the stray jump, or without one a builder that is as much in a loop as
the builder before. -/
def Answers (looped : Bool) (stray : Option Stmt) (r : Except AnalysisError Builder) : Prop :=
  match stray with
  | some s => r = .error s.strayError
  | none => ∃ b, r = .ok b ∧ b.inLoop.isSome = looped

theorem Answers.bind {looped : Bool} {x y : Option Stmt} {r : Except AnalysisError Builder}
    {k : Builder → Except AnalysisError Builder} (hr : Answers looped x r)
    (hk : ∀ b, b.inLoop.isSome = looped → Answers looped y (k b)) : Answers looped (x.or y) (r >>= k) := by
  cases x with
  | some s =>
      cases hr
      rfl
  | none =>
      obtain ⟨b, rfl, hb⟩ := hr
      exact hk b hb

theorem Answers.map {looped : Bool} {x : Option Stmt} {r : Except AnalysisError Builder}
    {k : Builder → Except AnalysisError Builder} (hr : Answers looped x r)
    (hk : ∀ b, b.inLoop.isSome = looped → Answers looped none (k b)) : Answers looped x (r >>= k) := by
  have := hr.bind hk
  rwa [Option.or_none] at this

def firstStray (looped : Bool) (jumps : List Stmt) : Option Stmt := if looped then none else jumps.head?

theorem firstStray_append (looped : Bool) (l₁ l₂ : List Stmt) :
    firstStray looped (l₁ ++ l₂) = (firstStray looped l₁).or (firstStray looped l₂) := by
  cases looped with
  | true => rfl
  | false => exact List.head?_append

theorem answers_ok {b b' : Builder} (h : b'.inLoop = b.inLoop) :
    Answers b.inLoop.isSome (firstStray b.inLoop.isSome []) (.ok b') := by
  cases hl : b.inLoop with
  | none => exact ⟨b', rfl, by rw [h, hl]⟩
  | some jumps => exact ⟨b', rfl, by rw [h, hl]⟩

theorem pushLast_inLoop (b : Builder) (s : Stmt) (next : List Jump) :
    (b.pushLast s next).inLoop = b.inLoop := push_inLoop b s

theorem answers_run :
    (∀ s b, Answers b.inLoop.isSome (firstStray b.inLoop.isSome s.strays) (stmt b s)) ∧
      ∀ l b, Answers b.inLoop.isSome (firstStray b.inLoop.isSome (Stmt.straysList l)) (stmts b l) := by
  apply Stmt.induction
  case plain =>
    intro s hs b
    rw [hs.strays_eq, stmt_of_plain hs]
    exact answers_ok (push_inLoop b s)
  case block =>
    intro t body ih b
    rw [stmt, Stmt.strays]
    exact ih b
  case ifThen =>
    intro t c yes ih b
    rw [stmt, Stmt.strays]
    have hyes := ih (b.pushLast (.ifThen t c yes) [⟨b.nextBlock, .ifTrue⟩])
    rw [pushLast_inLoop] at hyes
    exact hyes.map fun b' hb' => ⟨_, rfl, hb'⟩
  case ifElse =>
    intro t c yes no ihyes ihno b
    rw [stmt, Stmt.strays, firstStray_append]
    have hyes := ihyes (b.pushLast (.ifElse t c yes no) [⟨b.nextBlock, .ifTrue⟩])
    rw [pushLast_inLoop] at hyes
    refine hyes.bind fun b₁ hb₁ => ?_
    have hno := ihno { b₁ with front := .after [⟨b.nextBlock, .ifFalse⟩] }
    rw [hb₁] at hno
    exact hno.map fun b₂ hb₂ => ⟨_, rfl, hb₂⟩
  case loop =>
    intro t c body ih b
    obtain ⟨b', hrun, _⟩ := ih (b.enterLoop (.loop t c body))
    have hstmt : stmt b (.loop t c body) = .ok (b.leaveLoop b') := by
      rw [stmt]
      exact congrArg (· >>= fun inner => .ok (b.leaveLoop inner)) hrun
    rw [hstmt]
    exact answers_ok rfl
  case ret => exact fun t value b => answers_ok (pushLast_inLoop b (.ret t value) [])
  case brk =>
    intro t b
    rw [stmt, Stmt.strays]
    cases b.inLoop with
    | none => rfl
    | some jumps => exact ⟨_, rfl, rfl⟩
  case cont =>
    intro t b
    rw [stmt, Stmt.strays]
    cases b.inLoop with
    | none => rfl
    | some jumps => exact ⟨_, rfl, rfl⟩
  case nil => exact fun b => answers_ok rfl
  case cons =>
    intro s rest ihs ihrest b
    rw [stmts, Stmt.straysList, firstStray_append]
    refine (ihs b).bind fun b₁ hb₁ => ?_
    rw [← hb₁]
    exact ihrest b₁

end Builder

theorem Graph.build_of_no_strays {m : Method} (h : Stmt.straysList m.body = []) :
    ∃ g, Graph.build m = .ok g := by
  have hrun := Builder.answers_run.2 m.body Builder.start
  rw [h] at hrun
  obtain ⟨b, hb, _⟩ := hrun
  refine ⟨b.finish, ?_⟩
  rw [Graph.build, hb]
  rfl

theorem Graph.build_of_stray {m : Method} {s : Stmt} {rest : List Stmt}
    (h : Stmt.straysList m.body = s :: rest) : Graph.build m = .error s.strayError := by
  have hrun : Builder.start.stmts m.body = .error s.strayError := by
    have := Builder.answers_run.2 m.body Builder.start
    rwa [h] at this
  rw [Graph.build, hrun]
  rfl

end Backflow
