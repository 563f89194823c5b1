import Backflow.Pattern.Basic
import Backflow.Unicode.Property

namespace Backflow.Pattern

open Unicode (CharSet)

/-!
A set of places in a text is a number with the bits of these places. A pattern takes the places
where matches begin to those where they may end. The parts of a pattern are prepared for a text
from the inside out, each once, so repetitions inside of repetitions cost no more than others.
-/

/-- For each place, in order, the places where a match that begins there may end, none of which is
before it. -/
abbrev Rows := List Nat

namespace Rows

/-- The union of the rows that belong to the given places. -/
def gather (places : Nat) : Rows → Nat
  | [] => 0
  | row :: rows =>
    if places = 0 then 0
    else (if places % 2 = 1 then row else 0) ||| gather (places >>> 1) rows

/-- A match of one kind and then one of the other. -/
def comp (a b : Rows) : Rows := a.map fun row => b.gather row

def union (a b : Rows) : Rows := List.zipWith (· ||| ·) a b

/-- The rows of the empty match in a text of length `n`. -/
def identity (n : Nat) : Rows := (List.range (n + 1)).map (1 <<< ·)

/-- A match `k` times in a text of length `n`. -/
def power (a : Rows) (n k : Nat) : Rows :=
  match k with
  | 0 => identity n
  | 1 => a
  | k + 2 =>
    let half := power a n ((k + 2) / 2)
    if k % 2 = 0 then comp half half else comp (comp half half) a
termination_by k
decreasing_by omega

/-- A match as often as one likes, for the rows from place `i` on. -/
def star (i : Nat) : Rows → Rows
  | [] => []
  | row :: rows =>
    let later := star (i + 1) rows
    (1 <<< i ||| later.gather (row >>> (i + 1))) :: later

end Rows

/-- A pattern prepared for a text. -/
inductive Prepared where
  /-- Stays where it is, at the given places only. -/
  | stay (places : Nat)
  /-- Takes one character, at the given places only. -/
  | take (places : Nat)
  | jump (rows : Rows)
  | andThen (a b : Prepared)
  | orElse (a b : Prepared)

/-- The places where matches end that begin at the given ones. -/
def Prepared.ends : Prepared → Nat → Nat
  | stay allowed, places => places &&& allowed
  | take allowed, places => (places &&& allowed) <<< 1
  | jump rows, places => rows.gather places
  | andThen a b, places => b.ends (a.ends places)
  | orElse a b, places => a.ends places ||| b.ends places

/-- The rows of a prepared pattern in a text of length `n`. -/
def Prepared.rows (p : Prepared) (n : Nat) : Rows := (List.range (n + 1)).map fun i => p.ends (1 <<< i)

/-- A prepared pattern at least `min` times and at most `max` times in a text of length `n`. -/
def Prepared.times (p : Prepared) (n min : Nat) (max : Option Nat) : Prepared :=
  let once := p.rows n
  let further := match max with
    | some m => (Rows.union (.identity n) once).power n (m - min)
    | none => once.star 0
  if min = 0 then .jump further else .andThen (.jump (once.power n min)) (.jump further)

def wordSet : CharSet := Unicode.wordCharacter.members

def isWord (unicode : Bool) (c : Char) : Bool :=
  if c.toNat < 0x80 then c.isAlphanum || c = '_' else unicode && wordSet.contains c

/-- The character before a place. -/
def before? (s : Array Char) (i : Nat) : Option Char :=
  match i with
  | 0 => none
  | j + 1 => s[j]?

def WordPlace.holds (before after : Bool) : WordPlace → Bool
  | boundary => before != after
  | notBoundary => before == after
  | start => !before && after
  | finish => before && !after
  | startHalf => !before
  | finishHalf => !after

def Look.holds (s : Array Char) (i : Nat) : Look → Bool
  | textStart => i = 0
  | textEnd => i = s.size
  | lineStart false => (before? s i).all (· = '\n')
  | lineEnd false => (s[i]?).all (· = '\n')
  | lineStart true =>
    (before? s i).all fun c => c = '\n' || (c = '\r' && s[i]? ≠ some '\n')
  | lineEnd true =>
    (s[i]?).all fun c => c = '\r' || (c = '\n' && before? s i ≠ some '\r')
  | word unicode place =>
    place.holds ((before? s i).any (isWord unicode)) ((s[i]?).any (isWord unicode))

/-- The places of a text of length `n` where a condition holds. -/
def placesWhere (n : Nat) (holds : Nat → Bool) : Nat :=
  (List.range (n + 1)).foldl (fun places i => if holds i then places ||| 1 <<< i else places) 0

/-- Takes a character that passes a test. -/
def taking (text : Array Char) (test : Char → Bool) : Prepared :=
  .take (placesWhere text.size fun i => (text[i]?).any test)

def prepareLiteral (text : Array Char) : List Char → Prepared
  | [] => .stay (placesWhere text.size fun _ => true)
  | [c] => taking text (· = c)
  | c :: s => .andThen (taking text (· = c)) (prepareLiteral text s)

mutual

/-- Prepares a pattern for a text. -/
def prepare (text : Array Char) : Pattern → Prepared
  | empty => .stay (placesWhere text.size fun _ => true)
  | literal s => prepareLiteral text s
  | set s => taking text s.contains
  | look l => .stay (placesWhere text.size (l.holds text))
  | group _ p => prepare text p
  | repeated p min max _ => (prepare text p).times text.size min max
  | sequence ps => prepareSequence text ps
  | choice ps => prepareChoice text ps

def prepareSequence (text : Array Char) : List Pattern → Prepared
  | [] => .stay (placesWhere text.size fun _ => true)
  | [p] => prepare text p
  | p :: ps => .andThen (prepare text p) (prepareSequence text ps)

def prepareChoice (text : Array Char) : List Pattern → Prepared
  | [] => .stay 0
  | [p] => prepare text p
  | p :: ps => .orElse (prepare text p) (prepareChoice text ps)

end

/-- Whether the pattern matches some part of a text. -/
def isMatch (p : Pattern) (text : String) : Bool :=
  let s := text.toList.toArray
  (prepare s p).ends (placesWhere s.size fun _ => true) ≠ 0

end Backflow.Pattern
