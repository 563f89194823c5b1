import Backflow.Syntax.Error
import Backflow.Syntax.Basic

namespace Backflow.Parser

/-- The tokens still to be read, the place where the text ends, and the next free statement number. -/
structure State where
  tokens : List Token
  stop : Location
  nextId : Nat := 0

def State.ofStream (s : TokenStream) : State := { tokens := s.tokens, stop := s.stop }

/-- The place of the next token. -/
def State.here (s : State) : Location :=
  match s.tokens with
  | t :: _ => t.loc
  | [] => s.stop

end Parser

/-- A parser keeps its state also when it fails, so that reading may go on from there. -/
abbrev Parser := EStateM SyntaxError Parser.State

namespace Parser

def here : Parser Location := fun s => .ok s.here s

def fail {α : Type} (e : Expected) : Parser α := fun s =>
  .error (.unexpected s.here e s.tokens.head?) s

def tooDeep {α : Type} : Parser α := fun s => .error (.tooDeep s.here) s

/-- Whether the next token is `x`. -/
def sees (x : Lexeme) : Parser Bool := fun s =>
  match s.tokens with
  | t :: _ => .ok (t.lexeme = x) s
  | [] => .ok false s

/-- Reads the next token if it is `x`, and tells whether it was. -/
def eat (x : Lexeme) : Parser Bool := fun s =>
  match s.tokens with
  | t :: rest => if t.lexeme = x then .ok true { s with tokens := rest } else .ok false s
  | [] => .ok false s

def eatPunct (p : Punct) : Parser Bool := eat (.punct p)

def eatKeyword (k : Keyword) : Parser Bool := eat (.keyword k)

def expectPunct (p : Punct) : Parser Unit := do
  unless ← eatPunct p do fail (.punct p)

def expectKeyword (k : Keyword) : Parser Unit := do
  unless ← eatKeyword k do fail (.keyword k)

def identifier : Parser String := fun s =>
  match s.tokens with
  | ⟨.ident name, _⟩ :: rest => .ok name { s with tokens := rest }
  | _ => fail .identifier s

/-- Items up to and with a closing brace. The list of tokens only bounds the rounds: each item
reads at least one token, and where no token is left the item reports the missing input. -/
def untilBrace {α : Type} (item : Parser α) : List Token → Parser (List α)
  | [] => do
    let x ← item
    return [x]
  | _ :: bound => do
    if ← eatPunct .rbrace then
      return []
    let x ← item
    let xs ← untilBrace item bound
    return x :: xs

/-- Items with commas between them, up to and with a closing parenthesis; at least one item. -/
def listed {α : Type} (item : Parser α) : List Token → Parser (List α)
  | [] => do
    let x ← item
    return [x]
  | _ :: bound => do
    let x ← item
    if ← eatPunct .rparen then
      return [x]
    expectPunct .comma
    let xs ← listed item bound
    return x :: xs

/-- Runs a loop that is bounded by the tokens left. -/
def bounded {α : Type} (loop : List Token → Parser α) : Parser α := fun s => loop s.tokens s

def block {α : Type} (item : Parser α) : Parser (List α) := bounded (untilBrace item)

/-- A list in parentheses, the opening one already read. -/
def parenthesized {α : Type} (item : Parser α) : Parser (List α) := do
  if ← eatPunct .rparen then
    return []
  bounded (listed item)

end Backflow.Parser
