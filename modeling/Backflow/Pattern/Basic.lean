import Backflow.Unicode.CharSet

namespace Backflow

open Unicode (CharSet)

namespace Pattern

/-- What a place has to do with the words around it. -/
inductive WordPlace where
  | boundary
  | notBoundary
  | start
  | finish
  | startHalf
  | finishHalf
deriving DecidableEq, Repr

/-- A condition on a place in a text. -/
inductive Look where
  | textStart
  | textEnd
  /-- Lines end with a line feed or, if `crlf` is set, also with a carriage return or both. -/
  | lineStart (crlf : Bool)
  | lineEnd (crlf : Bool)
  /-- Words consist of ASCII characters or of those of all scripts. -/
  | word (unicode : Bool) (place : WordPlace)
deriving DecidableEq, Repr

end Pattern

/-- A regular expression. -/
inductive Pattern where
  | empty
  | literal (text : List Char)
  | set (s : CharSet)
  | look (l : Pattern.Look)
  | group (index : Nat) (p : Pattern)
  /-- At least `min` times and, if there is a `max`, at most so often. -/
  | repeated (p : Pattern) (min : Nat) (max : Option Nat) (lazy : Bool)
  | sequence (ps : List Pattern)
  | choice (ps : List Pattern)

namespace Pattern

mutual

/-- Whether two patterns are the same. -/
def same : Pattern → Pattern → Bool
  | empty, empty => true
  | literal s, literal t => s = t
  | set s, set t => s = t
  | look k, look l => k = l
  | group i p, group j q => i = j && same p q
  | repeated p m n k, repeated q m' n' k' => m = m' && n = n' && k = k' && same p q
  | sequence ps, sequence qs => sameAll ps qs
  | choice ps, choice qs => sameAll ps qs
  | _, _ => false

def sameAll : List Pattern → List Pattern → Bool
  | [], [] => true
  | p :: ps, q :: qs => same p q && sameAll ps qs
  | _, _ => false

end

mutual

/-- Whether the pattern matches the empty text only. -/
def isZeroWidth : Pattern → Bool
  | empty | look _ => true
  | literal _ | set _ => false
  | group _ p => isZeroWidth p
  | repeated p _ _ _ => isZeroWidth p
  | sequence ps | choice ps => allZeroWidth ps

def allZeroWidth : List Pattern → Bool
  | [] => true
  | p :: ps => isZeroWidth p && allZeroWidth ps

end

/-!
Patterns are put together by the functions below, which keep them short: a sequence holds neither
sequences nor two literals in a row, a choice holds no choices, and a choice between characters is
a set.
-/

def ofSet (s : CharSet) : Pattern :=
  match s.only? with
  | some c => literal [c]
  | none => set s

/-- A repetition. The empty text matches as often as one likes if it matches once. -/
def repeating (p : Pattern) (min : Nat) (max : Option Nat) (lazy : Bool) : Pattern :=
  let (min, max) := if p.isZeroWidth then (min.min 1, some ((max.getD 1).min 1)) else (min, max)
  if max = some 0 then empty
  else if min = 1 && max = some 1 then p
  else repeated p min max lazy

/-- The parts of a sequence. -/
def parts : Pattern → List Pattern
  | empty => []
  | sequence ps => ps
  | p => [p]

/-- Puts a pattern before others, as one literal if two meet. -/
def attach (p : Pattern) (rest : List Pattern) : List Pattern :=
  match p, rest with
  | literal s, literal t :: rest => literal (s ++ t) :: rest
  | p, rest => p :: rest

def inOrder (ps : List Pattern) : Pattern :=
  match (ps.flatMap parts).foldr attach [] with
  | [] => empty
  | [p] => p
  | qs => sequence qs

/-- The branches of a choice. -/
def branches : Pattern → List Pattern
  | choice ps => ps
  | p => [p]

def singleChar? : Pattern → Option CharSet
  | literal [c] => some (.single c)
  | _ => none

def set? : Pattern → Option CharSet
  | set s => some s
  | _ => none

/-- The set that single characters, or sets only, amount to as branches of a choice. -/
def asSet? (ps : List Pattern) : Option CharSet :=
  (ps.mapM singleChar? <|> ps.mapM set?).map fun sets =>
    .ofRanges (sets.flatMap (·.ranges))

def commonPrefix : List Pattern → List Pattern → List Pattern
  | p :: ps, q :: qs => if p.same q then p :: commonPrefix ps qs else []
  | _, _ => []

def sequence? : Pattern → Option (List Pattern)
  | sequence ps => some ps
  | _ => none

/-- A choice. What all branches begin with is taken out to the front, at most `bound` times. -/
def oneOfWithin (bound : Nat) (ps : List Pattern) : Pattern :=
  match ps.flatMap branches with
  | [] => set .empty
  | [p] => p
  | qs =>
    match asSet? qs with
    | some s => ofSet s
    | none =>
      match bound, qs.mapM sequence? with
      | bound + 1, some (first :: others) =>
        let front := others.foldl commonPrefix first
        if front.isEmpty then choice qs
        else
          let backs := (first :: others).map fun items => inOrder (items.drop front.length)
          inOrder (front ++ [oneOfWithin bound backs])
      | _, _ => choice qs

/-- A choice between patterns. The first branch bounds how much can be taken out to the front. -/
def oneOf (ps : List Pattern) : Pattern :=
  oneOfWithin ((ps.flatMap branches).headD empty).parts.length ps

end Pattern

end Backflow
