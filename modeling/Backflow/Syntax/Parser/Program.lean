import Backflow.Syntax.Parser.Stmt
import Backflow.Token.Lexer

namespace Backflow.Parser

def type : Parser Ty := do
  if ← eatKeyword .kwInt then
    if ← eatPunct .lbracket then
      expectPunct .rbracket
      return .intArray
    else
      return .int
  else if ← eatKeyword .kwBoolean then
    return .boolean
  else if ← eatKeyword .kwVoid then
    return .void
  else if ← eatKeyword .kwString then
    expectPunct .lbracket
    expectPunct .rbracket
    return .stringArray
  else
    named
where
  named : Parser Ty := fun s =>
    match s.tokens with
    | ⟨.ident name, _⟩ :: rest => .ok (.named name) { s with tokens := rest }
    | _ => fail .type s

/-- A type and a name, placed where the type begins. -/
def decl : Parser VarDecl := do
  let loc ← here
  let type ← type
  let name ← identifier
  return ⟨type, name, loc⟩

/-- Whether a declaration of a local variable comes next. -/
def seesLocal : Parser Bool := fun s =>
  match s.tokens with
  | ⟨.keyword k, _⟩ :: _ => .ok (k = .kwInt || k = .kwBoolean || k = .kwString) s
  | ⟨.ident _, _⟩ :: ⟨.ident _, _⟩ :: _ => .ok true s
  | _ => .ok false s

/-- An item of a method's body. -/
def bodyItem : Parser (VarDecl ⊕ Stmt) := do
  if ← seesLocal then
    let d ← decl
    expectPunct .semi
    return .inl d
  else
    let s ← stmt maxDepth
    return .inr s

/-- The modifiers of a member; the answer tells whether one of them is `static`. -/
def modifiers (isStatic : Bool) : List Token → Parser Bool
  | [] => return isStatic
  | _ :: bound => do
    if ← eatKeyword .kwStatic then
      modifiers true bound
    else if ← eatKeyword .kwPublic then
      modifiers isStatic bound
    else
      return isStatic

/-- A field or a method of a class, placed where its modifiers begin. -/
def classMember : Parser (VarDecl ⊕ Method) := do
  let loc ← here
  let isStatic ← bounded (modifiers false)
  let type ← type
  let name ← identifier
  if ← eatPunct .semi then
    return .inl ⟨type, name, loc⟩
  expectPunct .lparen
  let params ← parenthesized decl
  expectPunct .lbrace
  let items ← block bodyItem
  return .inr {
      name, isStatic, returns := type, params, loc
      locals := items.filterMap Sum.getLeft?
      body := items.filterMap Sum.getRight? }

def classDecl : Parser Class := do
  let loc ← here
  expectKeyword .kwClass
  let name ← identifier
  let parent ← parent?
  expectPunct .lbrace
  let members ← block classMember
  return {
      name, parent, loc
      fields := members.filterMap Sum.getLeft?
      methods := members.filterMap Sum.getRight? }
where
  parent? : Parser (Option String) := do
    if ← eatKeyword .kwExtends then
      let name ← identifier
      return some name
    else
      return none

def atEnd : Parser Bool := fun s => .ok s.tokens.isEmpty s

/-- Classes up to the end of the text. -/
def classes : List Token → Parser (List Class)
  | [] => return []
  | _ :: bound => do
    if ← atEnd then
      return []
    let c ← classDecl
    let cs ← classes bound
    return c :: cs

def program : Parser Program := do
  let cs ← bounded classes
  return ⟨cs⟩

end Backflow.Parser

namespace Backflow.Program

/-- The program that the tokens spell. -/
def ofTokens (s : TokenStream) : Except SyntaxError Program :=
  match Parser.program (.ofStream s) with
  | .ok p _ => .ok p
  | .error e _ => .error e

/-- The program that a source text spells. -/
def parse (source : String) : Except SyntaxError Program := do
  let tokens ← Lexer.lex source
  ofTokens tokens

end Backflow.Program
