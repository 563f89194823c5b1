import Backflow.Pattern.Basic
import Backflow.Unicode.Utf8
import Std.Data.HashMap

namespace Backflow.Pattern

open Unicode (CharSet Range)

/-!
A pattern is searched for by an automaton over bytes, once from the front and once from the back,
and it is refused if one of the two takes too much room. A state takes a fixed room, and more for
each of its links if it has a list of them. The functions below lay an automaton out state by state
without keeping it, and stop where the room ends.
-/

/-- An automaton so far: how many states it has, and the room for their links in bytes. -/
structure Layout where
  states : Nat := 0
  links : Nat := 0

/-- The room for one automaton in bytes. -/
def maxRoom : Nat := 10 * 0x100000

/-- The room of a state without links, of a link that is taken without reading, and of one that
reads a byte. -/
def stateRoom : Nat := 32

def linkRoom : Nat := 4

def readingLinkRoom : Nat := 8

/-- Laying out a part of an automaton, which fails if the room ends. -/
abbrev Laying := StateT Layout Option

/-- Takes up room for states, whose numbers begin with the one returned, and for their links. -/
def reserve (states links : Nat) : Laying Nat := fun l =>
  let next : Layout := ⟨l.states + states, l.links + links⟩
  if next.states * stateRoom + next.links ≤ maxRoom then some (l.states, next) else none

def state : Laying Nat := reserve 1 0

/-- A state with a list of links that read a byte. -/
def readingState (count : Nat) : Laying Nat := reserve 1 (count * readingLinkRoom)

def link : Laying Unit := do
  let _ ← reserve 0 linkRoom

/-- The last state of a part. A fork keeps a list of links; other states have one at most. -/
inductive Ending where
  | plain
  | fork
deriving DecidableEq

/-- Links the end of a part to what follows. -/
def Ending.join : Ending → Laying Unit
  | plain => pure ()
  | fork => link

/-- The direction in which an automaton reads. -/
inductive Direction where
  | forward
  | backward
deriving DecidableEq

def Direction.order {α : Type} (d : Direction) (items : List α) : List α :=
  match d with
  | forward => items
  | backward => items.reverse

/-! Sets. States of one set that read the same bytes and lead to the same states are shared, as far
as a table of a fixed size remembers them. -/

/-- States by what they are known for; a slot keeps the latest one only. -/
abbrev Shelf (κ : Type) := Std.HashMap Nat (κ × Nat)

/-- Mixes numbers into one. -/
def mix (numbers : List Nat) : UInt64 :=
  numbers.foldl (fun h n => (h ^^^ UInt64.ofNat n) * 1099511628211) 14695981039346656037

/-- The state on the shelf under a key, or a new one. -/
def shared {κ : Type} [DecidableEq κ] (slots : Nat) (numbers : List Nat) (key : κ)
    (fresh : Laying Nat) : StateT (Shelf κ) Laying Nat := do
  let slot := (mix numbers).toNat % slots
  let shelf ← get
  match shelf[slot]? with
  | some (k, id) =>
    if k = key then return id
    else
      let id ← fresh
      modify (·.insert slot (key, id))
      return id
  | none =>
    let id ← fresh
    modify (·.insert slot (key, id))
    return id

/-- A byte in a range leads to a state. -/
structure Arc where
  range : Range
  next : Nat
deriving DecidableEq

/-- Collects sequences with the same head that follow each other. -/
def byHead : List (List Range) → List (Range × List (List Range))
  | [] => []
  | [] :: rest => byHead rest
  | (r :: tail) :: rest =>
    match byHead rest with
    | (s, tails) :: others =>
      if r = s then (r, tail :: tails) :: others else (r, [tail]) :: (s, tails) :: others
    | [] => [(r, [tail])]

/-- The state that reads one of some sequences of bytes, at most `length` long, and then is in
`target`. -/
def readSequences (target : Nat) : Nat → List (List Range) → StateT (Shelf (List Arc)) Laying Nat
  | 0, _ => return target
  | length + 1, sequences => do
    match byHead sequences with
    | [] => return target
    | heads =>
      let arcs ← heads.mapM fun (r, tails) => do
        return Arc.mk r (← readSequences target length tails)
      shared 10000 (arcs.flatMap fun a => [a.range.first, a.range.last, a.next]) arcs
        (readingState arcs.length)

/-- The state that reads a sequence of bytes from its end, where `target` is in front of it. -/
def readBack (target : Nat) (sequence : List Range) :
    StateT (Shelf (Nat × Range)) Laying Nat :=
  sequence.foldlM (fun next r => shared 1000 [next, r.first, r.last] (next, r) state) target

def laySet (d : Direction) (s : CharSet) : Laying Ending := do
  if s.isAscii then
    let _ ← state
    let _ ← readingState s.ranges.length
  else
    match d with
    | .forward =>
      let target ← state
      let _ ← (readSequences target 4 s.byteRanges).run {}
    | .backward =>
      let _ ← state
      let target ← state
      let _ ← (s.byteRanges.forM fun sequence => do
        let _ ← readBack target sequence
        link).run {}
  return .plain

/-! Choices between words. Words with the same beginning share states; a word that ends inside of
another one divides the links of its last state. -/

/-- The words after the first byte, for each of the first bytes. -/
def byFirstByte (words : List (List Nat)) : List (List (List Nat)) :=
  let heads := (words.filterMap List.head?).eraseDups
  heads.map fun b => words.filterMap fun w => if w.head? = some b then some w.tail else none

/-- Divides words at those that end here. Ends without any other word between them count once. -/
def divide (words : List (List Nat)) : List (List (List Nat)) :=
  go [] [] words
where
  /-- The divisions before the current one and the words of that one, newest first. -/
  go (done : List (List (List Nat))) (current : List (List Nat)) :
      List (List Nat) → List (List (List Nat))
    | [] => (current.reverse :: done).reverse
    | [] :: rest =>
      if current.isEmpty && !done.isEmpty && done.all List.isEmpty then go done current rest
      else go (current.reverse :: done) [] rest
    | w :: rest => go done (w :: current) rest

/-- The states and the room for links that words take which are at most `length` long and do not
all end here. -/
def wordsLayout : Nat → List (List Nat) → Layout
  | 0, _ => {}
  | length + 1, words =>
    let divisions := (divide words).map byFirstByte
    let inner := divisions.flatten.filter (·.any (!·.isEmpty))
    let start : Layout := {
      states := 1 + (divisions.filter (!·.isEmpty)).length
      links := linkRoom * ((divisions.filter (!·.isEmpty)).length + (divisions.length - 1)) +
        (divisions.map fun v => if v.length < 2 then 0 else readingLinkRoom * v.length).foldl
          (· + ·) 0 }
    inner.foldl (fun l tails =>
      let m := wordsLayout length tails
      ⟨l.states + m.states, l.links + m.links⟩) start

def layWords (d : Direction) (words : List (List Nat)) : Laying Ending := do
  let words := words.map d.order
  let l := wordsLayout ((words.map List.length).foldl max 0) words
  let _ ← reserve (1 + l.states) l.links
  return .plain

/-! Parts. -/

/-- Parts one after the other, the first of which ends as told. -/
def layAfter (e : Ending) : List (Laying Ending) → Laying Ending
  | [] => return e
  | p :: ps => do
    let next ← p
    e.join
    layAfter next ps

def laySequence : List (Laying Ending) → Laying Ending
  | [] => do
    let _ ← state
    return .plain
  | p :: ps => do layAfter (← p) ps

/-- A part several times after what ends as told. -/
def layTimes (p : Laying Ending) : Nat → Ending → Laying Ending
  | 0, e => return e
  | n + 1, e => do
    let next ← p
    e.join
    layTimes p n next

def layExactly (p : Laying Ending) : Nat → Laying Ending
  | 0 => laySequence []
  | n + 1 => do layTimes p n (← p)

/-- A part as often as one likes; it is simpler if the part cannot be empty. -/
def layAnyTimes (p : Laying Ending) (simple : Bool) : Laying Ending :=
  if simple then do
    let _ ← state
    (← p).join
    link
    return .fork
  else do
    let e ← p
    let _ ← reserve 3 (4 * linkRoom)
    e.join
    return .plain

def layAtLeast (p : Laying Ending) (simple : Bool) : Nat → Laying Ending
  | 0 => layAnyTimes p simple
  | 1 => do
    let e ← p
    let _ ← reserve 1 linkRoom
    e.join
    return .fork
  | n + 2 => do
    let before ← layExactly p (n + 1)
    let e ← p
    let _ ← reserve 1 linkRoom
    before.join
    e.join
    return .fork

/-- A part that may be missing, several times after what ends as told. -/
def layOptional (p : Laying Ending) : Nat → Ending → Laying Ending
  | 0, e => return e
  | n + 1, e => do
    let _ ← reserve 1 (2 * linkRoom)
    let next ← p
    e.join
    layOptional p n next

def layBetween (p : Laying Ending) (min max : Nat) : Laying Ending := do
  if min = 0 && max = 1 then
    let _ ← state
    let e ← p
    let _ ← reserve 1 (2 * linkRoom)
    e.join
    return .plain
  else
    let e ← layExactly p min
    if min = max then return e
    else
      let _ ← state
      let e ← layOptional p (max - min) e
      e.join
      return .plain

/-- Branches that begin at a fork and meet again. -/
def layChoice : List (Laying Ending) → Laying Ending
  | [] => laySequence []
  | [p] => p
  | p :: q :: rest => do
    let d ← p
    let e ← q
    let _ ← reserve 2 (2 * linkRoom)
    d.join
    e.join
    rest.forM fun p => do
      (← p).join
      link
    return .plain

mutual

/-- Whether a set in the pattern has no members. -/
def hasVoid : Pattern → Bool
  | set s => s.ranges.isEmpty
  | empty | look _ | literal _ => false
  | group _ p => hasVoid p
  | repeated p _ _ _ => hasVoid p
  | sequence ps | choice ps => anyVoid ps

def anyVoid : List Pattern → Bool
  | [] => false
  | p :: ps => hasVoid p || anyVoid ps

end

mutual

/-- Whether the pattern may match the empty text. -/
def mayBeEmpty : Pattern → Bool
  | empty | look _ => true
  | literal _ | set _ => false
  | group _ p => mayBeEmpty p
  | repeated p min _ _ => min = 0 || mayBeEmpty p
  | sequence ps => allMayBeEmpty ps
  | choice ps => anyMayBeEmpty ps

def allMayBeEmpty : List Pattern → Bool
  | [] => true
  | p :: ps => mayBeEmpty p && allMayBeEmpty ps

def anyMayBeEmpty : List Pattern → Bool
  | [] => false
  | p :: ps => mayBeEmpty p || anyMayBeEmpty ps

end

def literal? : Pattern → Option (List Char)
  | literal text => some text
  | _ => none

def bytesOf (text : List Char) : List Nat := text.flatMap fun c => Unicode.encode c.toNat

/-- The words that a choice between literals offers. -/
def words? (ps : List Pattern) : Option (List (List Nat)) :=
  (ps.mapM literal?).map (·.map bytesOf)

mutual

def lay (d : Direction) : Pattern → Laying Ending
  | empty | look _ => laySequence []
  | literal text => do
    let _ ← reserve (bytesOf text).length 0
    return .plain
  | set s => laySet d s
  | group _ p =>
    match d with
    | .backward => lay d p
    | .forward => do
      let _ ← state
      let e ← lay d p
      let _ ← state
      e.join
      return .plain
  | repeated p min (some max) _ => layBetween (lay d p) min max
  | repeated p min none _ => layAtLeast (lay d p) (!p.hasVoid && !p.mayBeEmpty) min
  | sequence ps => laySequence (d.order (layAll d ps))
  | choice ps =>
    match words? ps with
    | some words => layWords d words
    | none => layChoice (layAll d ps)

def layAll (d : Direction) : List Pattern → List (Laying Ending)
  | [] => []
  | p :: ps => lay d p :: layAll d ps

end

mutual

/-- Whether every match begins or, for the other direction, ends at an end of the text. -/
def isAnchored (d : Direction) : Pattern → Bool
  | look l => l = match d with
    | .forward => .textStart
    | .backward => .textEnd
  | empty | literal _ | set _ => false
  | group _ p => isAnchored d p
  | repeated p min _ _ => min ≠ 0 && isAnchored d p
  | sequence ps => firstAnchored (d.order (anchors d ps))
  | choice ps => !ps.isEmpty && (anchors d ps).all (·.1)

/-- Which patterns are anchored, and which match the empty text only. -/
def anchors (d : Direction) : List Pattern → List (Bool × Bool)
  | [] => []
  | p :: ps => (isAnchored d p, isZeroWidth p) :: anchors d ps

/-- Whether an anchor stands before anything else. -/
def firstAnchored : List (Bool × Bool) → Bool
  | [] => false
  | (anchored, zeroWidth) :: rest => anchored || (zeroWidth && firstAnchored rest)

end

/-- The automaton of a pattern. One that is not anchored begins with a loop over any bytes, and one
that reads forward marks where the match begins and ends. -/
def layWhole (d : Direction) (p : Pattern) : Laying Unit := do
  let anchored := p.isAnchored d
  if anchored then
    let _ ← state
  else
    let _ ← reserve 3 (readingLinkRoom + 2 * linkRoom)
  match d with
  | .forward =>
    let _ ← state
    (← lay d p).join
    let _ ← reserve 2 0
  | .backward =>
    (← lay d p).join
    let _ ← state

/-- So many words to choose from are searched for in another way, which needs less room. -/
def manyWords : Nat := 3000

/-- Whether the room suffices for a pattern. -/
def fits (p : Pattern) : Bool :=
  let wordList := match p with
    | choice ps => manyWords ≤ ps.length && (words? ps).isSome
    | _ => false
  wordList || (layWhole .forward p {}).isSome && (layWhole .backward p {}).isSome

end Backflow.Pattern
