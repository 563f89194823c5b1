import Backflow.Syntax.Parser.Expr

namespace Backflow.Parser

/-- The place of the next token, with a fresh statement number. -/
def tag : Parser Tag := fun s => .ok ⟨s.nextId, s.here⟩ { s with nextId := s.nextId + 1 }

/-- Reads the tokens `xs` if all of them come next, and tells whether they did. -/
def eatAll (xs : List Lexeme) : Parser Bool := fun s =>
  if (s.tokens.take xs.length).map (·.lexeme) = xs then
    .ok true { s with tokens := s.tokens.drop xs.length }
  else
    .ok false s

/-- Reads a name that is the target of an assignment, with the mark that shows it. -/
def target? : Parser (Option (String × Punct)) := fun s =>
  match s.tokens with
  | ⟨.ident name, _⟩ :: ⟨.punct p, _⟩ :: rest =>
    if p = .assign || p = .lbracket then .ok (some (name, p)) { s with tokens := rest }
    else .ok none s
  | _ => .ok none s

def condition (expr : Parser Expr) : Parser Expr := do
  expectPunct .lparen
  let e ← expr
  expectPunct .rparen
  return e

/-- What follows `System.out` in a print statement. -/
def printed (expr : Parser Expr) : Parser Expr := do
  expectPunct .dot
  let name ← identifier
  unless name = "println" do fail .println
  let e ← condition expr
  expectPunct .semi
  return e

def assignment (t : Tag) (expr : Parser Expr) (name : String) (mark : Punct) : Parser Stmt := do
  if mark = .lbracket then
    let position ← expr
    expectPunct .rbracket
    expectPunct .assign
    let value ← expr
    expectPunct .semi
    return .store t name position value
  else
    let value ← expr
    expectPunct .semi
    return .assign t name value

/-- An expression as a statement: only a call may stand alone. -/
def callStmt (t : Tag) (expr : Parser Expr) : Parser Stmt := do
  match ← expr with
  | .call receiver method args =>
    expectPunct .semi
    return .call t receiver method args
  | _ => throw (.notACall t.loc)

/-- A statement after its tag; `expr` and `stmt` read what is nested in it. -/
def stmtWith (t : Tag) (expr : Parser Expr) (stmt : Parser Stmt) : Parser Stmt := do
  if ← eatPunct .lbrace then
    let body ← block stmt
    return .block t body
  else if ← eatKeyword .kwIf then
    let cond ← condition expr
    let yes ← stmt
    if ← eatKeyword .kwElse then
      let no ← stmt
      return .ifElse t cond yes no
    else
      return .ifThen t cond yes
  else if ← eatKeyword .kwWhile then
    let cond ← condition expr
    let body ← stmt
    return .loop t cond body
  else if ← eatKeyword .kwReturn then
    if ← eatPunct .semi then
      return .ret t none
    let value ← expr
    expectPunct .semi
    return .ret t (some value)
  else if ← eatKeyword .kwBreak then
    expectPunct .semi
    return .brk t
  else if ← eatKeyword .kwContinue then
    expectPunct .semi
    return .cont t
  else if ← eatAll [.ident "System", .punct .dot, .ident "out"] then
    let value ← printed expr
    return .print t value
  else
    match ← target? with
    | some (name, mark) => assignment t expr name mark
    | none => callStmt t expr

/-- A statement where `room` more levels of nesting are allowed, its own included. -/
def stmt : Nat → Parser Stmt
  | 0 => do
    let _ ← tag
    tooDeep
  | room + 1 => do
    let t ← tag
    stmtWith t (expr room) (stmt room)

end Backflow.Parser
