import Backflow.Token.Basic

namespace Backflow

inductive Ty where
  | int
  | intArray
  | boolean
  | void
  | stringArray
  | named (name : String)
deriving DecidableEq, Repr

inductive UnOp where
  | not
  | neg
deriving DecidableEq, Repr

def UnOp.punct : UnOp → Punct
  | not => .bang
  | neg => .minus

inductive BinOp where
  | or | and | eq | ne | lt | le | gt | ge | add | sub | mul | div | rem
deriving DecidableEq, Repr

namespace BinOp

def punct : BinOp → Punct
  | or => .orOr
  | and => .andAnd
  | eq => .eqEq
  | ne => .notEq
  | lt => .less
  | le => .lessEq
  | gt => .greater
  | ge => .greaterEq
  | add => .plus
  | sub => .minus
  | mul => .star
  | div => .slash
  | rem => .percent

/-- The operators of each level of precedence, the loosest level first. -/
def levels : List (List BinOp) :=
  [[or], [and], [eq, ne], [lt, le, gt, ge], [add, sub], [mul, div, rem]]

end BinOp

inductive Expr where
  | int (value : Int)
  | bool (value : Bool)
  | var (name : String)
  | self
  | unary (op : UnOp) (arg : Expr)
  | binary (op : BinOp) (left right : Expr)
  | index (array position : Expr)
  | length (array : Expr)
  | call (receiver : Expr) (method : String) (args : List Expr)
  | newArray (size : Expr)
  | newObject (name : String)

/-- The number of a statement in its program and the place where it begins. -/
structure Tag where
  id : Nat
  loc : Location
deriving DecidableEq, Repr

inductive Stmt where
  | block (tag : Tag) (body : List Stmt)
  | assign (tag : Tag) (target : String) (value : Expr)
  | store (tag : Tag) (target : String) (position value : Expr)
  | ifThen (tag : Tag) (cond : Expr) (yes : Stmt)
  | ifElse (tag : Tag) (cond : Expr) (yes no : Stmt)
  | loop (tag : Tag) (cond : Expr) (body : Stmt)
  | print (tag : Tag) (value : Expr)
  | call (tag : Tag) (receiver : Expr) (method : String) (args : List Expr)
  | ret (tag : Tag) (value : Option Expr)
  | brk (tag : Tag)
  | cont (tag : Tag)

namespace Stmt

def tag : Stmt → Tag
  | block t _ | assign t _ _ | store t _ _ _ | ifThen t _ _ | ifElse t _ _ _ | loop t _ _
  | print t _ | call t _ _ _ | ret t _ | brk t | cont t => t

def id (s : Stmt) : Nat := s.tag.id

def loc (s : Stmt) : Location := s.tag.loc

def isBlock : Stmt → Bool
  | block _ _ => true
  | _ => false

/-- The name of the construct. -/
def construct : Stmt → String
  | block _ _ => "block"
  | assign _ _ _ => "assignment"
  | store _ _ _ _ => "array assignment"
  | ifThen _ _ _ | ifElse _ _ _ _ => "if"
  | loop _ _ _ => "while"
  | print _ _ => "print"
  | call _ _ _ _ => "call"
  | ret _ _ => "return"
  | brk _ => "break"
  | cont _ => "continue"

mutual

/-- The statement, then the statements inside it, in reading order. -/
def preorder : Stmt → List Stmt
  | block t body => block t body :: preorderList body
  | ifThen t c yes => ifThen t c yes :: yes.preorder
  | ifElse t c yes no => ifElse t c yes no :: (yes.preorder ++ no.preorder)
  | loop t c body => loop t c body :: body.preorder
  | s => [s]

def preorderList : List Stmt → List Stmt
  | [] => []
  | s :: rest => s.preorder ++ preorderList rest

end

end Stmt

/-- A number of a statement as it is written in messages and reports. -/
def idText (id : Nat) : String := s!"#{id}"

structure VarDecl where
  type : Ty
  name : String
  loc : Location
deriving DecidableEq, Repr

structure Method where
  name : String
  isStatic : Bool
  returns : Ty
  params : List VarDecl
  locals : List VarDecl
  body : List Stmt
  loc : Location

/-- The statements of a method in reading order, nested ones and blocks included. -/
def Method.statements (m : Method) : List Stmt := Stmt.preorderList m.body

structure Class where
  name : String
  parent : Option String
  fields : List VarDecl
  methods : List Method
  loc : Location

structure Program where
  classes : List Class

/-- A method with the class that declares it. -/
structure Routine where
  owner : Class
  method : Method

namespace Program

def routines (p : Program) : List Routine :=
  p.classes.flatMap fun c => c.methods.map fun m => ⟨c, m⟩

end Program

/-- The method's name, qualified by that of its class. -/
def Routine.name (r : Routine) : String := s!"{r.owner.name}.{r.method.name}"

end Backflow
