import Backflow.Syntax.Parser.Basic

namespace Backflow.Parser

/-- The first number that is too large for a literal. -/
def intLimit : Int := 0x8000000000000000

/-- Puts a digit behind a number. -/
def shift? (n : Nat) (c : Char) : Option Nat :=
  if c.isDigit then some (10 * n + (c.toNat - '0'.toNat)) else none

def digits? (cs : List Char) : Option Nat :=
  if cs.isEmpty then none else cs.foldlM shift? 0

/-- The number that decimal digits say, with or without a sign before them. -/
def signed? : List Char → Option Int
  | '+' :: cs => (digits? cs).map fun n : Nat => (n : Int)
  | '-' :: cs => (digits? cs).map fun n : Nat => -(n : Int)
  | cs => (digits? cs).map fun n : Nat => (n : Int)

/-- The number that the text of a literal says, if it is one of 64 bits. -/
def integer? (text : String) : Option Int :=
  (signed? text.toList).filter fun n => -intLimit ≤ n ∧ n < intLimit

/-- Reads an operator of the list, if the next token is one. -/
def operator? (ops : List BinOp) : Parser (Option BinOp) := fun s =>
  match s.tokens with
  | ⟨.punct p, _⟩ :: rest =>
    match ops.find? (·.punct = p) with
    | some op => .ok (some op) { s with tokens := rest }
    | none => .ok none s
  | _ => .ok none s

/-- Operators of one level after a first operand, grouped to the left. -/
def chain (ops : List BinOp) (operand : Parser Expr) (left : Expr) : List Token → Parser Expr
  | [] => return left
  | _ :: bound => do
    match ← operator? ops with
    | some op =>
      let right ← operand
      chain ops operand (.binary op left right) bound
    | none => return left

/-- A tower of operator levels over an operand, the loosest level first. -/
def binary (operand : Parser Expr) : List (List BinOp) → Parser Expr
  | [] => operand
  | ops :: tighter => do
    let left ← binary operand tighter
    bounded (chain ops (binary operand tighter) left)

/-- An expression that no operator and no suffix splits. `inner` reads an expression one level
deeper. -/
def primary (inner : Parser Expr) : Parser Expr := fun s =>
  match s.tokens with
  | ⟨.int digits, loc⟩ :: rest =>
    match integer? digits with
    | some n => .ok (.int n) { s with tokens := rest }
    | none => .error (.intOverflow loc digits) { s with tokens := rest }
  | ⟨.ident name, _⟩ :: rest => .ok (.var name) { s with tokens := rest }
  | ⟨.keyword .kwTrue, _⟩ :: rest => .ok (.bool true) { s with tokens := rest }
  | ⟨.keyword .kwFalse, _⟩ :: rest => .ok (.bool false) { s with tokens := rest }
  | ⟨.keyword .kwThis, _⟩ :: rest => .ok .self { s with tokens := rest }
  | ⟨.keyword .kwNew, _⟩ :: rest => creation { s with tokens := rest }
  | ⟨.punct .lparen, _⟩ :: rest => grouped { s with tokens := rest }
  | _ => fail .expression s
where
  creation : Parser Expr := do
    if ← eatKeyword .kwInt then
      expectPunct .lbracket
      let size ← inner
      expectPunct .rbracket
      return .newArray size
    else
      let name ← identifier
      expectPunct .lparen
      expectPunct .rparen
      return .newObject name
  grouped : Parser Expr := do
    let e ← inner
    expectPunct .rparen
    return e

/-- What follows a dot: the length of an array, or a call. -/
def member (inner : Parser Expr) (e : Expr) : Parser Expr := do
  let name ← identifier
  if name = "length" && !(← sees (.punct .lparen)) then
    return .length e
  expectPunct .lparen
  let args ← parenthesized inner
  return .call e name args

def suffixes (inner : Parser Expr) (e : Expr) : List Token → Parser Expr
  | [] => return e
  | _ :: bound => do
    if ← eatPunct .lbracket then
      let position ← inner
      expectPunct .rbracket
      suffixes inner (.index e position) bound
    else if ← eatPunct .dot then
      let e ← member inner e
      suffixes inner e bound
    else
      return e

/-- A signed or suffixed operand: `unary` reads the operand of a sign, `inner` an expression, both
one level deeper. -/
def operandWith (unary inner : Parser Expr) : Parser Expr := do
  if ← eatPunct UnOp.not.punct then
    let e ← unary
    return .unary .not e
  else if ← eatPunct UnOp.neg.punct then
    let e ← unary
    return .unary .neg e
  else
    let e ← primary inner
    bounded (suffixes inner e)

/-- An operand with `room` more levels of nesting allowed inside it. -/
def operand : Nat → Parser Expr
  | 0 => operandWith tooDeep tooDeep
  | room + 1 => operandWith (operand room) (binary (operand room) BinOp.levels)

/-- An expression where `room` more levels of nesting are allowed, its own included. -/
def expr : Nat → Parser Expr
  | 0 => tooDeep
  | room + 1 => binary (operand room) BinOp.levels

end Backflow.Parser
