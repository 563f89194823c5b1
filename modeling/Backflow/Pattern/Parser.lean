import Backflow.Pattern.Brackets
import Backflow.Pattern.Room

namespace Backflow.Pattern

open Unicode (CharSet Definition)

/-- Sets one flag. -/
def setFlag? (f : Flags) (on : Bool) (c : Char) : Option Flags :=
  match c with
  | 'i' => some { f with ignoreCase := on }
  | 'u' => some { f with unicode := on }
  | 'x' => some { f with spaced := on }
  | 'm' => some { f with lines := on }
  | 's' => some { f with dotAll := on }
  | 'R' => some { f with crlf := on }
  | 'U' => some { f with swapGreed := on }
  | _ => none

/-- Reads flags up to a colon or a closing parenthesis: the settings, how many items there were,
and the text from that mark on. No flag may stand twice, and a hyphen needs a flag after it. -/
def readFlags (f : Flags) (on : Bool) (seen : List Char) :
    List Char → Option (Flags × Nat × List Char)
  | [] => none
  | c :: s =>
    if c = ':' || c = ')' then
      if seen.head? = some '-' then none else some (f, seen.length, c :: s)
    else if seen.contains c then none
    else if c = '-' then readFlags f false (c :: seen) s
    else
      match setFlag? f on c with
      | none => none
      | some f => readFlags f on (c :: seen) s

/-- Letters that a group name may hold besides those of the tables, as a later version of the
standard has them. -/
def laterLetters : Definition := .table [
  "88F C5C CDC A7CE-A7CF A7D2 A7D4 A7F1 10940-10959 10EC5-10EC7 10EFA-10EFB 11B60-11B67",
  "11DB0-11DDB 16EA0-16EB8 16EBB-16ED3 16FF2-16FF6 187F8-187FF 18D09-18D1E 18D80-18DF2",
  "1E6C0-1E6DE 1E6E0-1E6F5 1E6FE-1E6FF 2B73A-2B73F 2CEA2-2CEAD 323B0-33479"]

def laterNumbers : Definition := .table ["11DE0-11DE9 16FF4-16FF6"]

def nameLetters : CharSet := (Unicode.alphabetic ∪ laterLetters).members

def nameNumbers : CharSet := (Unicode.number ∪ laterNumbers).members

/-- Whether a character may stand in the name of a group. -/
def isNameChar (first : Bool) (c : Char) : Bool :=
  c = '_' || nameLetters.contains c ||
    (!first && (c = '.' || c = '[' || c = ']' || nameNumbers.contains c))

/-- The name of a group up to its closing bracket, and what follows. -/
def groupName? (s : List Char) : Option (String × List Char) :=
  match s.takeWhile (· ≠ '>'), s.dropWhile (· ≠ '>') with
  | c :: name, _ :: rest =>
    if isNameChar true c && name.all (isNameChar false) then
      some (String.ofList (c :: name), rest)
    else none
  | _, _ => none

/-- What the head of a group says: it has an index or not, or it only changes the settings. -/
inductive GroupHead where
  | group (index : Option Nat) (inner : Reader)
  | flags (after : Reader)

def named? (r : Reader) (s : List Char) : Option GroupHead := do
  let (name, rest) ← groupName? s
  guard (!r.names.contains name)
  return .group (some r.groups) { r with rest, groups := r.groups + 1, names := name :: r.names }

/-- The head of a group, after its opening parenthesis. Looking around is not supported. -/
def groupHead (r : Reader) : Option GroupHead :=
  let r := r.blank
  match r.rest with
  | '?' :: '=' :: _ | '?' :: '!' :: _ | '?' :: '<' :: '=' :: _ | '?' :: '<' :: '!' :: _ => none
  | '?' :: 'P' :: '<' :: s => named? r s
  | '?' :: '<' :: s => named? r s
  | '?' :: s => do
    let (flags, count, rest) ← readFlags r.flags true [] s
    match rest with
    | ':' :: s => return .group none { r with rest := s, flags }
    | _ :: s =>
      guard (count ≠ 0)
      return .flags { r with rest := s, flags }
    | [] => none
  | _ => some (.group (some r.groups) { r with groups := r.groups + 1 })

/-- A decimal number with blanks around it. -/
def decimal (r : Reader) : Option (Nat × Reader) := do
  let r := r.seek (r.rest.dropWhile isWhite)
  let (ds, r) := digitsOf r.rest r []
  let r := r.seek (r.rest.dropWhile isWhite)
  let r := r.blank
  guard (!ds.isEmpty)
  let n := ds.foldl (fun n c => 10 * n + (c.toNat - '0'.toNat)) 0
  guard (n < 0x100000000)
  return (n, r)
where
  digitsOf (bound : List Char) (r : Reader) (taken : List Char) : List Char × Reader :=
    match bound, r.rest with
    | _ :: bound, c :: _ => if c.isDigit then digitsOf bound r.next (c :: taken) else (taken.reverse, r)
    | _, _ => (taken.reverse, r)

/-- A count in braces, the opening one already read: at least and at most how often. -/
def counts (r : Reader) : Option (Nat × Option Nat × Reader) := do
  let (low, r) ← decimal r.blank
  let (high, r) ← match r.rest with
    | ',' :: _ =>
      let r := r.next
      match r.rest with
      | '\x7d' :: _ => some (none, r)
      | _ => (decimal r).map fun (n, r) => (some n, r)
    | _ => some (some low, r)
  match r.rest with
  | '\x7d' :: s =>
    guard (high.all (low ≤ ·))
    return (low, high, (r.seek s).blank)
  | _ => none

/-- Whether a mark follows that makes a repetition lazy, or greedy with the settings swapped. -/
def lazyMark (r : Reader) : Bool × Reader :=
  match r.rest with
  | '?' :: s => (!r.flags.swapGreed, r.seek s)
  | _ => (r.flags.swapGreed, r)

/-- Repeats the last of the items read, given newest first; the reader stands at the place for a
mark. -/
def repeatLast (items : List Node) (low : Nat) (high : Option Nat) (r : Reader) :
    Option (List Node × Reader) :=
  match items with
  | n :: rest =>
    if n.isFlags then none
    else
      let (lazy, r) := lazyMark r
      some ({ pattern := n.pattern.repeating low high lazy, depth := n.depth + 1 } :: rest, r)
  | [] => none

def greatest (depths : List Nat) : Nat := depths.foldl max 0

/-- Items in sequence, given newest first. -/
def sequenceNode : List Node → Node
  | [] => { pattern := .empty }
  | [n] => { n with isFlags := false }
  | items => {
      pattern := .inOrder (items.reverse.map (·.pattern))
      depth := greatest (items.map (·.depth)) + 1 }

/-- Branches to choose from, given newest first. -/
def choiceNode : List Node → Node
  | [] => { pattern := .empty }
  | [n] => n
  | branches => {
      pattern := .oneOf (branches.reverse.map (·.pattern))
      depth := greatest (branches.map (·.depth)) + 1 }

def escapeNode (f : Flags) : Escape → Option Node
  | .literal c isByte => charNode? f c isByte
  | .set s => some { pattern := .ofSet s.set, depth := s.depth }
  | .look l => some { pattern := .look l }

/-- What a dot stands for. -/
def dotSet (f : Flags) : CharSet :=
  if f.dotAll then .all
  else if f.crlf then (Unicode.readTable ["A D"]).complement
  else (Unicode.readTable ["A"]).complement

/-- A character that stands for itself, for any character, or for an end of the text. -/
def plain? (f : Flags) (c : Char) : Option Node :=
  if c = '.' then
    if f.unicode then some { pattern := .ofSet (dotSet f) } else none
  else if c = '^' then
    some { pattern := .look (if f.lines then .lineStart f.crlf else .textStart) }
  else if c = '$' then
    some { pattern := .look (if f.lines then .lineEnd f.crlf else .textEnd) }
  else charNode? f c false

def groupNode (index : Option Nat) (n : Node) : Node where
  pattern := match index with
    | some i => .group i n.pattern
    | none => n.pattern
  depth := n.depth + 1

/-- Reads alternatives up to the end of the group or of the text. `branches` and `items` hold what
has been read of the group and of its current branch, newest first. -/
def alternatives (fuel : Nat) (inGroup : Bool) (branches items : List Node) (r : Reader) :
    Option (Node × Reader) :=
  match fuel with
  | 0 => none
  | fuel + 1 =>
    let r := r.blank
    let continueWith := fun items r => alternatives fuel inGroup branches items r
    match r.rest with
    | [] => if inGroup then none else some (choiceNode (sequenceNode items :: branches), r)
    | ')' :: s =>
      if inGroup then some (choiceNode (sequenceNode items :: branches), r.seek s) else none
    | '|' :: s => alternatives fuel inGroup (sequenceNode items :: branches) [] (r.seek s)
    | '(' :: s => do
      match ← groupHead (r.seek s) with
      | .flags after => continueWith ({ pattern := .empty, isFlags := true } :: items) after
      | .group index inner =>
        let (n, after) ← alternatives fuel true [] [] inner
        continueWith (groupNode index n :: items) { after with flags := r.flags }
    | '[' :: s => do
      let (n, r) ← bracketed (r.seek s)
      continueWith ({ pattern := .ofSet n.set, depth := n.depth } :: items) r
    | '?' :: s => do
      let (items, r) ← repeatLast items 0 (some 1) (r.seek s)
      continueWith items r
    | '*' :: s => do
      let (items, r) ← repeatLast items 0 none (r.seek s)
      continueWith items r
    | '+' :: s => do
      let (items, r) ← repeatLast items 1 none (r.seek s)
      continueWith items r
    | '\x7b' :: s => do
      let (low, high, after) ← counts (r.seek s)
      let (items, r) ← repeatLast items low high after
      continueWith items r
    | '\\' :: s => do
      let (e, after) ← escape (r.seek s)
      let n ← escapeNode r.flags e
      continueWith (n :: items) after
    | c :: s => do
      let n ← plain? r.flags c
      continueWith (n :: items) (r.seek s)

/-- The pattern that a text spells, if it spells one that is neither too deep nor too large. -/
def parse? (text : String) : Option Pattern := do
  let chars := text.toList
  let (n, _) ← alternatives (chars.length + 1) false [] [] { rest := chars }
  guard (n.depth ≤ maxNesting)
  guard n.pattern.fits
  return n.pattern

end Backflow.Pattern
