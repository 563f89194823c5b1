import Backflow.Unicode.CharSet

namespace Backflow.Unicode

/-!
Ranges of characters as sequences of ranges of bytes: a sequence of byte ranges stands for the
characters whose encodings have their bytes, one by one, in these ranges.
-/

/-- The bytes that encode a character with the given code. -/
def encode (n : Nat) : List Nat :=
  if n < 0x80 then [n]
  else if n < 0x800 then [0xc0 + n / 0x40, 0x80 + n % 0x40]
  else if n < 0x10000 then [0xe0 + n / 0x1000, 0x80 + n / 0x40 % 0x40, 0x80 + n % 0x40]
  else [0xf0 + n / 0x40000, 0x80 + n / 0x1000 % 0x40, 0x80 + n / 0x40 % 0x40, 0x80 + n % 0x40]

/-- Cuts a range in front of a code. -/
def Range.cut (r : Range) (n : Nat) : List Range :=
  if r.first < n && n ≤ r.last then [⟨r.first, n - 1⟩, ⟨n, r.last⟩] else [r]

/-- Cuts a range into a part of a block, whole blocks, and a part of a block. -/
def Range.blocks (size : Nat) (r : Range) : List Range :=
  if r.first / size = r.last / size then [r]
  else
    let inner := (r.first + size - 1) / size * size
    let outer := (r.last + 1) / size * size
    [⟨r.first, inner - 1⟩, ⟨inner, outer - 1⟩, ⟨outer, r.last⟩].filter fun s => s.first < s.last + 1

/-- The sequences of byte ranges of a range of characters whose encodings are equally long. -/
def Range.byteRanges (r : Range) : List (List Range) :=
  if r.last < 0x80 then [[r]]
  else
    let pieces := ((r.blocks 0x40).flatMap (blocks 0x1000)).flatMap (blocks 0x40000)
    pieces.map fun s => List.zipWith Range.mk (encode s.first) (encode s.last)

/-- The sequences of byte ranges of a set of characters, in increasing order. -/
def CharSet.byteRanges (a : CharSet) : List (List Range) :=
  let pieces := a.ranges.flatMap fun r =>
    ((r.cut 0x80).flatMap (·.cut 0x800)).flatMap (·.cut 0x10000)
  pieces.flatMap Range.byteRanges

end Backflow.Unicode
