import Backflow.Graph.Check
import Backflow.Syntax.Names

namespace Backflow.Stmt

def Plain (s : Stmt) : Prop := s.isBlock = false ∧ s.endsBlock = false

/-- Induction over statements and lists of statements at once. The plain statements share a case. -/
theorem induction {P : Stmt → Prop} {Q : List Stmt → Prop}
    (plain : ∀ s, s.Plain → P s)
    (block : ∀ t body, Q body → P (.block t body))
    (ifThen : ∀ t c yes, P yes → P (.ifThen t c yes))
    (ifElse : ∀ t c yes no, P yes → P no → P (.ifElse t c yes no))
    (loop : ∀ t c body, P body → P (.loop t c body))
    (ret : ∀ t value, P (.ret t value))
    (brk : ∀ t, P (.brk t))
    (cont : ∀ t, P (.cont t))
    (nil : Q [])
    (cons : ∀ s rest, P s → Q rest → Q (s :: rest)) :
    (∀ s, P s) ∧ ∀ l, Q l := by
  have hs : ∀ s, P s := by
    intro s
    apply @Stmt.rec P Q
    case assign | store | print | call => intros; exact plain _ ⟨rfl, rfl⟩
    case block => exact block
    case ifThen => exact ifThen
    case ifElse => exact ifElse
    case loop => exact loop
    case ret => exact ret
    case brk => exact brk
    case cont => exact cont
    case nil => exact nil
    case cons => exact cons
  refine ⟨hs, fun l => ?_⟩
  induction l with
  | nil => exact nil
  | cons s rest ih => exact cons s rest (hs s) ih

def actions (s : Stmt) : List Stmt := s.preorder.filter (!·.isBlock)

def actionsList (l : List Stmt) : List Stmt := (preorderList l).filter (!·.isBlock)

@[simp] theorem actionsList_nil : actionsList [] = [] := rfl

@[simp] theorem actionsList_cons (s : Stmt) (rest : List Stmt) :
    actionsList (s :: rest) = s.actions ++ actionsList rest := by
  simp [actionsList, actions, preorderList]

@[simp] theorem actions_block (t : Tag) (body : List Stmt) :
    (block t body).actions = actionsList body := by
  simp [actionsList, actions, preorder, isBlock]

@[simp] theorem actions_ifThen (t : Tag) (c : Expr) (yes : Stmt) :
    (ifThen t c yes).actions = ifThen t c yes :: yes.actions := by
  simp [actions, preorder, isBlock]

@[simp] theorem actions_ifElse (t : Tag) (c : Expr) (yes no : Stmt) :
    (ifElse t c yes no).actions = ifElse t c yes no :: (yes.actions ++ no.actions) := by
  simp [actions, preorder, isBlock]

@[simp] theorem actions_loop (t : Tag) (c : Expr) (body : Stmt) :
    (loop t c body).actions = loop t c body :: body.actions := by
  simp [actions, preorder, isBlock]

@[simp] theorem actions_ret (t : Tag) (value : Option Expr) : (ret t value).actions = [ret t value] := rfl

@[simp] theorem actions_brk (t : Tag) : (brk t).actions = [brk t] := rfl

@[simp] theorem actions_cont (t : Tag) : (cont t).actions = [cont t] := rfl

theorem Plain.cases {P : Stmt → Prop} {s : Stmt} (h : s.Plain) (assign : ∀ t x e, P (.assign t x e))
    (store : ∀ t x i e, P (.store t x i e)) (print : ∀ t e, P (.print t e))
    (call : ∀ t r f args, P (.call t r f args)) : P s := by
  cases s with
  | assign t x e => exact assign t x e
  | store t x i e => exact store t x i e
  | print t e => exact print t e
  | call t r f args => exact call t r f args
  | block => exact absurd h.1 (by simp [isBlock])
  | ifThen | ifElse | loop | ret | brk | cont => exact absurd h.2 (by simp [endsBlock])

theorem Plain.preorder_eq {s : Stmt} (h : s.Plain) : s.preorder = [s] := by
  apply h.cases (P := fun s => s.preorder = [s]) <;> intros <;> rfl

@[simp] theorem Plain.actions_eq {s : Stmt} (h : s.Plain) : s.actions = [s] := by
  simp [actions, h.preorder_eq, h.1]

theorem mem_actionsList {l : List Stmt} {s : Stmt} :
    s ∈ actionsList l ↔ s ∈ preorderList l ∧ s.isBlock = false := by
  simp [actionsList]

end Backflow.Stmt
