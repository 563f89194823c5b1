import Backflow.Pattern.Reader

namespace Backflow.Pattern

open Unicode (CharSet)

/-- The classes of characters that have a name between colons. -/
def namedClass? (name : String) : Option CharSet :=
  let table? := match name with
    | "alnum" => some "30-39 41-5A 61-7A"
    | "alpha" => some "41-5A 61-7A"
    | "ascii" => some "0-7F"
    | "blank" => some "9 20"
    | "cntrl" => some "0-1F 7F"
    | "digit" => some "30-39"
    | "graph" => some "21-7E"
    | "lower" => some "61-7A"
    | "print" => some "20-7E"
    | "punct" => some "21-2F 3A-40 5B-60 7B-7E"
    | "space" => some "9-D 20"
    | "upper" => some "41-5A"
    | "word" => some "30-39 41-5A 5F 61-7A"
    | "xdigit" => some "30-39 41-46 61-66"
    | _ => none
  table?.map fun line => Unicode.readTable [line]

/-- A named class such as `[:alpha:]` at the head of a text: its members, whether they are denied,
and what follows. -/
def namedClassAt? : List Char → Option (CharSet × Bool × List Char)
  | '[' :: ':' :: s =>
    let (negated, s) := match s with
      | '^' :: t => (true, t)
      | _ => (false, s)
    match s.dropWhile (· ≠ ':') with
    | ':' :: ']' :: rest =>
      (namedClass? (String.ofList (s.takeWhile (· ≠ ':')))).map fun set => (set, negated, rest)
    | _ => none
  | _ => none

/-- How two sets are combined. -/
inductive SetOp where
  | intersection
  | difference
  | symmetricDifference

def SetOp.apply : SetOp → CharSet → CharSet → CharSet
  | intersection => .inter
  | difference => .without
  | symmetricDifference => .symmetricDifference

/-- An operator between sets at the head of a text. -/
def setOpAt? : List Char → Option SetOp
  | '&' :: '&' :: _ => some .intersection
  | '-' :: '-' :: _ => some .difference
  | '~' :: '~' :: _ => some .symmetricDifference
  | _ => none

/-- An item of brackets that may begin or end a range, or is a class. -/
def setAtom (r : Reader) : Option (Escape × Reader) :=
  match r.rest with
  | [] => none
  | '\\' :: s => escape (r.seek s)
  | c :: s => some (.literal c false, r.seek s)

/-- A character as a member of brackets; sets of bytes hold ASCII only. -/
def memberChar? (f : Flags) (c : Char) : Option Char :=
  if !f.unicode && 0x7f < c.toNat then none else some c

/-- A character, a class or a range inside brackets. -/
def setItem (r : Reader) : Option (SetNode × Reader) := do
  let (first, r) ← setAtom r
  let r := r.blank
  let isRange ← match r.rest with
    | [] => none
    | '-' :: _ =>
      let following := r.next.rest.head?
      some (following ≠ some ']' && following ≠ some '-')
    | _ => some false
  if isRange then
    let r := r.next
    let (last, r) ← setAtom r
    match first, last with
    | .literal a _, .literal b _ =>
      let a ← memberChar? r.flags a
      let b ← memberChar? r.flags b
      guard (a ≤ b)
      return ({ set := .between a b }, r)
    | _, _ => none
  else
    match first with
    | .literal c _ =>
      let c ← memberChar? r.flags c
      return ({ set := .single c }, r)
    | .set s => return (s, r)
    | .look _ => none

/-- The items gathered since the last operator. -/
structure Union where
  set : CharSet := .empty
  count : Nat := 0
  depth : Nat := 0

namespace Union

def add (u : Union) (n : SetNode) : Union where
  set := u.set.union n.set
  count := u.count + 1
  depth := max u.depth n.depth

def node (u : Union) : SetNode where
  set := u.set
  depth := if u.count < 2 then u.depth else u.depth + 1

end Union

/-- What stands to the left of the items being gathered. -/
abbrev LeftSide := Option (SetOp × SetNode)

def combine (f : Flags) (left : LeftSide) (u : Union) : SetNode :=
  let right := u.node
  match left with
  | none => right
  | some (op, l) =>
    { set := op.apply (f.fold l.set) (f.fold right.set), depth := max l.depth right.depth + 1 }

/-- The hyphens at the head of brackets, which stand for themselves. -/
def leadingHyphens (bound : List Char) (r : Reader) (u : Union) : Union × Reader :=
  match bound, r.rest with
  | _ :: bound, '-' :: _ => leadingHyphens bound r.next (u.add { set := .single '-' })
  | _, _ => (u, r)

/-- The head of brackets, after the opening one: whether they are negated, and the hyphens or the
closing bracket that stand for themselves there. -/
def openBrackets (r : Reader) : Bool × Union × Reader :=
  let r := r.blank
  let (negated, r) := match r.rest with
    | '^' :: _ => (true, r.next)
    | _ => (false, r)
  let (u, r) := leadingHyphens r.rest r {}
  match r.rest with
  | ']' :: _ =>
    if u.count = 0 then (negated, u.add { set := .single ']' }, r.next) else (negated, u, r)
  | _ => (negated, u, r)

/-- A set in brackets, from its opening one or from further inside. -/
def brackets (fuel : Nat) (negated : Bool) (left : LeftSide) (u : Union) (r : Reader) :
    Option (SetNode × Reader) :=
  match fuel with
  | 0 => none
  | fuel + 1 =>
    let r := r.blank
    match setOpAt? r.rest with
    | some op => brackets fuel negated (some (op, combine r.flags left u)) {} (r.seek (r.rest.drop 2))
    | none =>
      match r.rest with
      | [] => none
      | ']' :: s => do
        let n := combine r.flags left u
        let set ← closeSet r.flags negated n.set
        return ({ set, depth := n.depth + 1 }, r.seek s)
      | '[' :: s =>
        match namedClassAt? r.rest with
        | some (members, denied, rest) => do
          let set ← closeSet r.flags denied members
          brackets fuel negated left (u.add { set }) (r.seek rest)
        | none => do
          let (innerNegated, innerUnion, inner) := openBrackets (r.seek s)
          let (n, r) ← brackets fuel innerNegated none innerUnion inner
          brackets fuel negated left (u.add n) r
      | _ => do
        let (n, r) ← setItem r
        brackets fuel negated left (u.add n) r

/-- A set in brackets, the opening one already read. -/
def bracketed (r : Reader) : Option (SetNode × Reader) :=
  let (negated, u, inner) := openBrackets r
  brackets (r.rest.length + 1) negated none u inner

end Backflow.Pattern
