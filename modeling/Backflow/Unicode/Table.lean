import Backflow.Unicode.CharSet

namespace Backflow.Unicode

/-!
Tables of characters are written as text: codes and ranges of codes in hexadecimal, separated by
blanks. `100-10C/2` stands for every second code of a range. The tables follow version 16.0 of the
Unicode standard.
-/

/-- The codes from `first` to `last` at a distance of `step`, each as a range. -/
def everyNth (first last step : Nat) : List Range :=
  (List.range ((last - first) / step + 1)).map fun i => ⟨first + i * step, first + i * step⟩

/-- A place in the text of a table: the ranges before it, newest first, and the numbers of the
range at hand. -/
structure Cursor where
  done : List Range := []
  first : Option Nat := none
  last : Option Nat := none
  value : Nat := 0

namespace Cursor

/-- Ends the range at hand. -/
def close (c : Cursor) : List Range :=
  match c.first, c.last with
  | none, _ => ⟨c.value, c.value⟩ :: c.done
  | some first, none => ⟨first, c.value⟩ :: c.done
  | some first, some last => everyNth first last c.value ++ c.done

def digit (c : Char) : Nat :=
  if c ≤ '9' then c.toNat - '0'.toNat else c.toNat - 'A'.toNat + 10

def read (cur : Cursor) (c : Char) : Cursor :=
  match c with
  | '-' => { cur with first := some cur.value, value := 0 }
  | '/' => { cur with last := some cur.value, value := 0 }
  | ' ' => { done := cur.close }
  | _ => { cur with value := 16 * cur.value + digit c }

end Cursor

def readLine (line : String) : List Range := (line.foldl Cursor.read {}).close

/-- The characters that a table lists, line by line. -/
def readTable (lines : List String) : CharSet := .ofRanges (lines.flatMap readLine)

/-- A set of characters by a table or by other sets. It is worked out only where it is used. -/
inductive Definition where
  | table (lines : List String)
  | union (a b : Definition)
  | without (a b : Definition)

namespace Definition

instance : Union Definition := ⟨union⟩

instance : SDiff Definition := ⟨without⟩

def members : Definition → CharSet
  | table lines => readTable lines
  | union a b => a.members.union b.members
  | without a b => a.members.without b.members

end Definition

/-- Sets of characters, each under all of its names. -/
abbrev Glossary := List (List String × Definition)

def Glossary.find? (g : Glossary) (name : String) : Option CharSet :=
  (List.find? (·.1.contains name) g).map (·.2.members)

end Backflow.Unicode
