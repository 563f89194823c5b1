import Backflow.Proofs.Statements

namespace Backflow

/-- Control passes from one statement to the next. Without a source it comes from the method's entry,
and without a target it reaches the method's end. -/
structure Transition where
  source : Option Stmt
  /-- How the source's test turned out, if it has one. -/
  outcome : Option Bool
  target : Option Stmt

namespace Stmt

/-- Where control goes on: after a statement that completes, and at a break or a continue inside it. -/
structure Targets where
  next : Option Stmt
  brk : Option Stmt
  cont : Option Stmt

mutual

/-- The statement that control comes to first, if `next` is what follows. A block has no step of its own. -/
def first (next : Option Stmt) : Stmt → Option Stmt
  | .block _ body => firstList next body
  | s => some s

def firstList (next : Option Stmt) : List Stmt → Option Stmt
  | [] => next
  | s :: rest => s.first (firstList next rest)

end

mutual

/-- The transitions out of a statement and the statements inside it. -/
def flow (k : Targets) : Stmt → List Transition
  | .block _ body => flowList k body
  | .ifThen t c yes =>
    ⟨some (.ifThen t c yes), some true, yes.first k.next⟩ ::
      ⟨some (.ifThen t c yes), some false, k.next⟩ :: yes.flow k
  | .ifElse t c yes no =>
    ⟨some (.ifElse t c yes no), some true, yes.first k.next⟩ ::
      ⟨some (.ifElse t c yes no), some false, no.first k.next⟩ :: (yes.flow k ++ no.flow k)
  | .loop t c body =>
    let test := some (.loop t c body)
    ⟨test, some true, body.first test⟩ :: ⟨test, some false, k.next⟩ :: body.flow ⟨test, k.next, test⟩
  | .ret t value => [⟨some (.ret t value), none, none⟩]
  | .brk t => [⟨some (.brk t), none, k.brk⟩]
  | .cont t => [⟨some (.cont t), none, k.cont⟩]
  | s => [⟨some s, none, k.next⟩]

def flowList (k : Targets) : List Stmt → List Transition
  | [] => []
  | s :: rest => s.flow { k with next := firstList k.next rest } ++ flowList k rest

end

theorem first_eq_some {s : Stmt} (h : s.isBlock = false) (next : Option Stmt) : s.first next = some s := by
  cases s with
  | block => cases h
  | _ => rfl

theorem Plain.flow_eq {s : Stmt} (h : s.Plain) (k : Targets) : s.flow k = [⟨some s, none, k.next⟩] := by
  apply h.cases (P := fun s => s.flow k = [⟨some s, none, k.next⟩]) <;> intros <;> rfl

end Stmt

/-- The transitions of a method, as its statements say. -/
def Method.flow (m : Method) : List Transition :=
  ⟨none, none, Stmt.firstList none m.body⟩ :: Stmt.flowList ⟨none, none, none⟩ m.body

end Backflow
