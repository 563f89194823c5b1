import Backflow.NameSet
import Backflow.Syntax.Basic

namespace Backflow

namespace Expr

mutual

/-- The variables that an expression reads, in reading order. -/
def reads : Expr → List String
  | int _ | bool _ | self | newObject _ => []
  | var name => [name]
  | unary _ e | length e | newArray e => e.reads
  | binary _ e₁ e₂ | index e₁ e₂ => e₁.reads ++ e₂.reads
  | call receiver _ args => receiver.reads ++ readsList args

def readsList : List Expr → List String
  | [] => []
  | e :: es => e.reads ++ readsList es

end

def vars (e : Expr) : NameSet := .ofList e.reads

end Expr

namespace Stmt

/-- The variables that a statement itself reads: of a conditional or a loop, those of the condition.
A store into an array reads the array. -/
def reads : Stmt → List String
  | block _ _ | brk _ | cont _ | ret _ none => []
  | assign _ _ value => value.reads
  | store _ target position value => target :: (position.reads ++ value.reads)
  | ifThen _ cond _ | ifElse _ cond _ _ | loop _ cond _ => cond.reads
  | print _ value | ret _ (some value) => value.reads
  | call _ receiver _ args => receiver.reads ++ Expr.readsList args

/-- The variables that a statement writes; a store into an array writes none. -/
def writes : Stmt → List String
  | assign _ target _ => [target]
  | _ => []

def uses (s : Stmt) : NameSet := .ofList s.reads

def defs (s : Stmt) : NameSet := .ofList s.writes

end Stmt

end Backflow
