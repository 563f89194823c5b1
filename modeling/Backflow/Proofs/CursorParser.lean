import Backflow.Syntax.Parser.Program

namespace Backflow

/-- A position in a list of tokens, with the depth of nesting there and the next free statement number. The trail
keeps the positions and depths so far, the last one first. -/
structure Cursor where
  tokens : List Token
  stop : Location
  pos : Nat := 0
  depth : Nat := 0
  nextId : Nat := 0
  trail : List (Nat × Nat) := []

namespace Cursor

def ofStream (s : TokenStream) : Cursor := { tokens := s.tokens, stop := s.stop }

def token? (c : Cursor) (n : Nat) : Option Token := c.tokens[c.pos + n]?

def peek (c : Cursor) (n : Nat) : Option Lexeme := (c.token? n).map (·.lexeme)

def here (c : Cursor) : Location := ((c.token? 0).map (·.loc)).getD c.stop

/-- The only way in which the position and the depth change. -/
def moved (c : Cursor) (pos depth : Nat) : Cursor := { c with pos, depth, trail := (c.pos, c.depth) :: c.trail }

def skip (c : Cursor) (n : Nat) : Cursor := c.moved (c.pos + n) c.depth

end Cursor

/-- A parser that moves a cursor and counts the depth itself. A run without a result is one that has not ended: the
number that a parser with loops or with calls of itself takes is only how deep these may go before it gives up. -/
abbrev CursorParser := ExceptT SyntaxError (StateT Cursor Option)

namespace CursorParser

variable {α : Type}

def unfinished : CursorParser α := fun _ => none

def here : CursorParser Location := fun c => some (.ok c.here, c)

def fail (e : Expected) : CursorParser α := fun c => some (.error (.unexpected c.here e (c.token? 0)), c)

def sees (x : Lexeme) : CursorParser Bool := fun c => some (.ok (c.peek 0 = some x), c)

def eat (x : Lexeme) : CursorParser Bool := fun c =>
  if c.peek 0 = some x then some (.ok true, c.skip 1) else some (.ok false, c)

def eatPunct (p : Punct) : CursorParser Bool := eat (.punct p)

def eatKeyword (k : Keyword) : CursorParser Bool := eat (.keyword k)

def expectPunct (p : Punct) : CursorParser Unit := do
  unless ← eatPunct p do fail (.punct p)

def expectKeyword (k : Keyword) : CursorParser Unit := do
  unless ← eatKeyword k do fail (.keyword k)

def identifier : CursorParser String := fun c =>
  match c.peek 0 with
  | some (.ident name) => some (.ok name, c.skip 1)
  | _ => fail .identifier c

def untilBrace (item : Nat → CursorParser α) : Nat → CursorParser (List α)
  | 0 => unfinished
  | n + 1 => do
    if ← eatPunct .rbrace then
      return []
    let x ← item n
    let xs ← untilBrace item n
    return x :: xs

def listed (item : Nat → CursorParser α) : Nat → CursorParser (List α)
  | 0 => unfinished
  | n + 1 => do
    let x ← item n
    if ← eatPunct .rparen then
      return [x]
    expectPunct .comma
    let xs ← listed item n
    return x :: xs

def parenthesized (item : Nat → CursorParser α) (n : Nat) : CursorParser (List α) := do
  if ← eatPunct .rparen then
    return []
  listed item n

def enter : CursorParser Unit := fun c =>
  if maxDepth ≤ c.depth then some (.error (.tooDeep c.here), c) else some (.ok (), c.moved c.pos (c.depth + 1))

/-- Back to the level above, whether there is a result or an error. -/
def leave (r : Except SyntaxError α) : StateT Cursor Option (Except SyntaxError α) := fun c =>
  some (r, c.moved c.pos (c.depth - 1))

def nested (m : CursorParser α) : CursorParser α := do
  enter
  (do leave (← m.run) : StateT Cursor Option (Except SyntaxError α))

def operator? (ops : List BinOp) : CursorParser (Option BinOp) := fun c =>
  match c.peek 0 with
  | some (.punct p) =>
    match ops.find? (·.punct = p) with
    | some op => some (.ok (some op), c.skip 1)
    | none => some (.ok none, c)
  | _ => some (.ok none, c)

def atom? : CursorParser (Option Expr) := fun c =>
  match c.token? 0 with
  | some ⟨.int digits, loc⟩ =>
    match Parser.integer? digits with
    | some n => some (.ok (some (.int n)), c.skip 1)
    | none => some (.error (.intOverflow loc digits), c.skip 1)
  | some ⟨.ident name, _⟩ => some (.ok (some (.var name)), c.skip 1)
  | some ⟨.keyword .kwTrue, _⟩ => some (.ok (some (.bool true)), c.skip 1)
  | some ⟨.keyword .kwFalse, _⟩ => some (.ok (some (.bool false)), c.skip 1)
  | some ⟨.keyword .kwThis, _⟩ => some (.ok (some .self), c.skip 1)
  | _ => some (.ok none, c)

mutual

def expr : Nat → CursorParser Expr
  | 0 => unfinished
  | n + 1 => nested (binary n BinOp.levels)

def binary : Nat → List (List BinOp) → CursorParser Expr
  | 0, _ => unfinished
  | n + 1, [] => unary n
  | n + 1, ops :: tighter => do
    let left ← binary n tighter
    chain n ops tighter left

def chain : Nat → List BinOp → List (List BinOp) → Expr → CursorParser Expr
  | 0, _, _, _ => unfinished
  | n + 1, ops, tighter, left => do
    match ← operator? ops with
    | some op =>
      let right ← binary n tighter
      chain n ops tighter (.binary op left right)
    | none => return left

def unary : Nat → CursorParser Expr
  | 0 => unfinished
  | n + 1 => do
    if ← eatPunct UnOp.not.punct then
      let e ← nested (unary n)
      return .unary .not e
    else if ← eatPunct UnOp.neg.punct then
      let e ← nested (unary n)
      return .unary .neg e
    else
      let e ← primary n
      suffixes n e

def primary : Nat → CursorParser Expr
  | 0 => unfinished
  | n + 1 => do
    match ← atom? with
    | some e => return e
    | none =>
      if ← eatKeyword .kwNew then
        creation n
      else if ← eatPunct .lparen then
        grouped n
      else
        fail .expression

def creation : Nat → CursorParser Expr
  | 0 => unfinished
  | n + 1 => do
    if ← eatKeyword .kwInt then
      expectPunct .lbracket
      let size ← expr n
      expectPunct .rbracket
      return .newArray size
    else
      let name ← identifier
      expectPunct .lparen
      expectPunct .rparen
      return .newObject name

def grouped : Nat → CursorParser Expr
  | 0 => unfinished
  | n + 1 => do
    let e ← expr n
    expectPunct .rparen
    return e

def suffixes : Nat → Expr → CursorParser Expr
  | 0, _ => unfinished
  | n + 1, e => do
    if ← eatPunct .lbracket then
      let position ← expr n
      expectPunct .rbracket
      suffixes n (.index e position)
    else if ← eatPunct .dot then
      let e ← member n e
      suffixes n e
    else
      return e

def member : Nat → Expr → CursorParser Expr
  | 0, _ => unfinished
  | n + 1, e => do
    let name ← identifier
    if name = "length" && !(← sees (.punct .lparen)) then
      return .length e
    expectPunct .lparen
    let args ← arguments n
    return .call e name args

def arguments : Nat → CursorParser (List Expr)
  | 0 => unfinished
  | n + 1 => do
    if ← eatPunct .rparen then
      return []
    moreArguments n

def moreArguments : Nat → CursorParser (List Expr)
  | 0 => unfinished
  | n + 1 => do
    let x ← expr n
    if ← eatPunct .rparen then
      return [x]
    expectPunct .comma
    let xs ← moreArguments n
    return x :: xs

end

def tag : CursorParser Tag := fun c => some (.ok ⟨c.nextId, c.here⟩, { c with nextId := c.nextId + 1 })

def seesOut : CursorParser Bool := fun c =>
  some (.ok (c.peek 0 = some (.ident "System") && c.peek 1 = some (.punct .dot) && c.peek 2 = some (.ident "out")), c)

def seesTarget : CursorParser Bool := fun c =>
  match c.peek 0 with
  | some (.ident _) => some (.ok (c.peek 1 = some (.punct .assign) || c.peek 1 = some (.punct .lbracket)), c)
  | _ => some (.ok false, c)

/-- A jump over tokens that have been looked at. -/
def jump (n : Nat) : CursorParser Unit := fun c => some (.ok (), c.skip n)

def condition (n : Nat) : CursorParser Expr := do
  expectPunct .lparen
  let e ← expr n
  expectPunct .rparen
  return e

def printed (n : Nat) : CursorParser Expr := do
  expectPunct .dot
  let name ← identifier
  unless name = "println" do fail .println
  let e ← condition n
  expectPunct .semi
  return e

def assigned (t : Tag) (name : String) (n : Nat) : CursorParser Stmt := do
  if ← eatPunct .lbracket then
    let position ← expr n
    expectPunct .rbracket
    expectPunct .assign
    let value ← expr n
    expectPunct .semi
    return .store t name position value
  else
    expectPunct .assign
    let value ← expr n
    expectPunct .semi
    return .assign t name value

def assignment (t : Tag) (n : Nat) : CursorParser Stmt := do
  let name ← identifier
  assigned t name n

def callStmt (t : Tag) (n : Nat) : CursorParser Stmt := do
  match ← expr n with
  | .call receiver method args =>
    expectPunct .semi
    return .call t receiver method args
  | _ => throw (.notACall t.loc)

mutual

def stmt : Nat → CursorParser Stmt
  | 0 => unfinished
  | n + 1 => do
    let t ← tag
    nested (stmtWith t n)

def stmtWith (t : Tag) : Nat → CursorParser Stmt
  | 0 => unfinished
  | n + 1 => do
    if ← eatPunct .lbrace then
      let body ← stmts n
      return .block t body
    else if ← eatKeyword .kwIf then
      let cond ← condition n
      let yes ← stmt n
      if ← eatKeyword .kwElse then
        let no ← stmt n
        return .ifElse t cond yes no
      else
        return .ifThen t cond yes
    else if ← eatKeyword .kwWhile then
      let cond ← condition n
      let body ← stmt n
      return .loop t cond body
    else if ← eatKeyword .kwReturn then
      if ← sees (.punct .semi) then
        expectPunct .semi
        return .ret t none
      else
        let value ← expr n
        expectPunct .semi
        return .ret t (some value)
    else if ← eatKeyword .kwBreak then
      expectPunct .semi
      return .brk t
    else if ← eatKeyword .kwContinue then
      expectPunct .semi
      return .cont t
    else if ← seesOut then
      jump 3
      let value ← printed n
      return .print t value
    else if ← seesTarget then
      assignment t n
    else
      callStmt t n

def stmts : Nat → CursorParser (List Stmt)
  | 0 => unfinished
  | n + 1 => do
    if ← eatPunct .rbrace then
      return []
    let x ← stmt n
    let xs ← stmts n
    return x :: xs

end

def type : CursorParser Ty := do
  if ← eatKeyword .kwInt then
    if ← eatPunct .lbracket then
      expectPunct .rbracket
      return .intArray
    else
      return .int
  else if ← eatKeyword .kwBoolean then
    return .boolean
  else if ← eatKeyword .kwVoid then
    return .void
  else if ← eatKeyword .kwString then
    expectPunct .lbracket
    expectPunct .rbracket
    return .stringArray
  else
    named
where
  named : CursorParser Ty := fun c =>
    match c.peek 0 with
    | some (.ident name) => some (.ok (.named name), c.skip 1)
    | _ => fail .type c

def decl : CursorParser VarDecl := do
  let loc ← here
  let type ← type
  let name ← identifier
  return ⟨type, name, loc⟩

def seesLocal : CursorParser Bool := fun c =>
  match c.peek 0, c.peek 1 with
  | some (.keyword k), _ => some (.ok (k = .kwInt || k = .kwBoolean || k = .kwString), c)
  | some (.ident _), some (.ident _) => some (.ok true, c)
  | _, _ => some (.ok false, c)

def bodyItem (n : Nat) : CursorParser (VarDecl ⊕ Stmt) := do
  if ← seesLocal then
    let d ← decl
    expectPunct .semi
    return .inl d
  else
    let s ← stmt n
    return .inr s

def modifiers : Nat → Bool → CursorParser Bool
  | 0, _ => unfinished
  | n + 1, isStatic => do
    if ← eatKeyword .kwStatic then
      modifiers n true
    else if ← eatKeyword .kwPublic then
      modifiers n isStatic
    else
      return isStatic

def classMember (n : Nat) : CursorParser (VarDecl ⊕ Method) := do
  let loc ← here
  let isStatic ← modifiers n false
  let type ← type
  let name ← identifier
  if ← eatPunct .semi then
    return .inl ⟨type, name, loc⟩
  expectPunct .lparen
  let params ← parenthesized (fun _ => decl) n
  expectPunct .lbrace
  let items ← untilBrace bodyItem n
  return .inr {
      name, isStatic, returns := type, params, loc
      locals := items.filterMap Sum.getLeft?
      body := items.filterMap Sum.getRight? }

def parent? : CursorParser (Option String) := do
  if ← eatKeyword .kwExtends then
    let name ← identifier
    return some name
  else
    return none

def classDecl (n : Nat) : CursorParser Class := do
  let loc ← here
  expectKeyword .kwClass
  let name ← identifier
  let parent ← parent?
  expectPunct .lbrace
  let members ← untilBrace classMember n
  return {
      name, parent, loc
      fields := members.filterMap Sum.getLeft?
      methods := members.filterMap Sum.getRight? }

def atEnd : CursorParser Bool := fun c => some (.ok (c.token? 0).isNone, c)

def classes : Nat → CursorParser (List Class)
  | 0 => unfinished
  | n + 1 => do
    if ← atEnd then
      return []
    let c ← classDecl n
    let cs ← classes n
    return c :: cs

def program (n : Nat) : CursorParser Program := do
  let cs ← classes n
  return ⟨cs⟩

/-- Expressions read one after the other, each from where the one before ended or failed. -/
def exprs (n : Nat) : Nat → StateT Cursor Option (List (Except SyntaxError Expr))
  | 0 => return []
  | count + 1 => do
    let r ← (expr n).run
    let rs ← exprs n count
    return r :: rs

end CursorParser

end Backflow
