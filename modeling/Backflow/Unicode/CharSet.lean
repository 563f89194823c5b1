namespace Backflow.Unicode

/-- The codes from `first` to `last`, both included. -/
structure Range where
  first : Nat
  last : Nat
deriving DecidableEq, Repr

/-- A set of characters: the ranges of their codes, in increasing order and with a gap between one
and the next. -/
structure CharSet where
  ranges : List Range
deriving DecidableEq, Repr

/-- The codes that are kept free of characters. -/
def surrogates : Range := ⟨0xd800, 0xdfff⟩

def maxCode : Nat := 0x10ffff

namespace CharSet

/-- Joins ranges that touch; they come in order of their first codes, `r` before the rest. -/
def join (r : Range) : List Range → List Range
  | [] => [r]
  | s :: rest =>
    if s.first ≤ r.last + 1 then join ⟨r.first, max r.last s.last⟩ rest else r :: join s rest

/-- The set of the characters in some ranges that come in order of their first codes. -/
def ofSorted : List Range → CharSet
  | [] => ⟨[]⟩
  | r :: rest => ⟨join r rest⟩

def ofRanges (ranges : List Range) : CharSet :=
  ofSorted (ranges.mergeSort fun r s => r.first ≤ s.first)

def empty : CharSet := ⟨[]⟩

def single (c : Char) : CharSet := ⟨[⟨c.toNat, c.toNat⟩]⟩

def union (a b : CharSet) : CharSet :=
  ofSorted (a.ranges.merge b.ranges fun r s => r.first ≤ s.first)

/-- The codes from `low` on that are outside of ranges in increasing order. -/
def gaps (low : Nat) : List Range → List Range
  | [] => if low ≤ maxCode then [⟨low, maxCode⟩] else []
  | r :: rest =>
    if low < r.first then ⟨low, r.first - 1⟩ :: gaps (r.last + 1) rest else gaps (r.last + 1) rest

def complement (a : CharSet) : CharSet := ⟨gaps 0 (a.union ⟨[surrogates]⟩).ranges⟩

/-- The characters of `a` that are not in `b`. -/
def without (a b : CharSet) : CharSet := (a.complement.union b).complement

def inter (a b : CharSet) : CharSet := a.without b.complement

/-- The characters in one of two sets only. -/
def symmetricDifference (a b : CharSet) : CharSet := (a.without b).union (b.without a)

def all : CharSet := empty.complement

/-- The characters between two, both included. -/
def between (a b : Char) : CharSet := all.inter ⟨[⟨a.toNat, b.toNat⟩]⟩

/-- Whether a code lies in ranges in increasing order. -/
def covers (n : Nat) : List Range → Bool
  | [] => false
  | r :: rest => if n < r.first then false else n ≤ r.last || covers n rest

def contains (a : CharSet) (c : Char) : Bool := covers c.toNat a.ranges

def isAscii (a : CharSet) : Bool := a.ranges.all (·.last < 0x80)

/-- The only member of a set that has no other. -/
def only? (a : CharSet) : Option Char :=
  match a.ranges with
  | [r] => if r.first = r.last then some (Char.ofNat r.first) else none
  | _ => none

end CharSet

end Backflow.Unicode
