import Backflow.Pattern.Basic
import Backflow.Unicode.Folding
import Backflow.Unicode.Query

namespace Backflow.Pattern

open Unicode (CharSet)

/-- The settings of a pattern. -/
structure Flags where
  ignoreCase : Bool := false
  unicode : Bool := true
  /-- Blanks and comments in the pattern mean nothing. -/
  spaced : Bool := false
  /-- The signs for the ends of the text stand for the ends of lines too. -/
  lines : Bool := false
  /-- A dot stands for the ends of lines too. -/
  dotAll : Bool := false
  /-- Lines end with a carriage return too. -/
  crlf : Bool := false
  /-- Repetitions are lazy unless marked. -/
  swapGreed : Bool := false
deriving DecidableEq, Repr

/-- The rest of a pattern's text, the settings in force, and the groups met so far. -/
structure Reader where
  rest : List Char
  flags : Flags := {}
  groups : Nat := 0
  names : List String := []

def isWhite (c : Char) : Bool :=
  let n := c.toNat
  (9 ≤ n && n ≤ 13) || n = 0x20 || n = 0x85 || n = 0xa0 || n = 0x1680 ||
    (0x2000 ≤ n && n ≤ 0x200a) || n = 0x2028 || n = 0x2029 || n = 0x202f || n = 0x205f || n = 0x3000

/-- Drops blanks, and comments from a `#` to the end of its line. -/
def skipBlanks (inComment : Bool) : List Char → List Char
  | [] => []
  | c :: s =>
    if inComment then skipBlanks (c ≠ '\n') s
    else if isWhite c then skipBlanks false s
    else if c = '#' then skipBlanks true s
    else c :: s

namespace Reader

def seek (r : Reader) (rest : List Char) : Reader := { r with rest }

/-- Passes over blanks where they mean nothing. -/
def blank (r : Reader) : Reader :=
  if r.flags.spaced then r.seek (skipBlanks false r.rest) else r

/-- Passes over a character and the blanks after it. -/
def next (r : Reader) : Reader := (r.seek (r.rest.drop 1)).blank

end Reader

/-- A part of a pattern with its depth. -/
structure Node where
  pattern : Pattern
  depth : Nat := 0
  /-- A change of settings, which cannot be repeated. -/
  isFlags : Bool := false

/-- A set of characters with its depth. -/
structure SetNode where
  set : CharSet
  depth : Nat := 0

/-- The greatest depth of a pattern. -/
def maxNesting : Nat := 250

/-- Applies the setting on case. -/
def Flags.fold (f : Flags) (s : CharSet) : CharSet :=
  if !f.ignoreCase then s else if f.unicode then s.foldCase else s.foldAscii

/-- Applies the setting on case and then a negation. Sets of bytes must keep to ASCII. -/
def closeSet (f : Flags) (negated : Bool) (s : CharSet) : Option CharSet :=
  let folded := f.fold s
  let result := if negated then folded.complement else folded
  if !f.unicode && !result.isAscii then none else some result

/-- A character that stands for itself. A byte that is no character is not allowed. -/
def charNode? (f : Flags) (c : Char) (isByte : Bool) : Option Node :=
  if !f.unicode && isByte && 0x7f < c.toNat then none
  else some { pattern := .ofSet (f.fold (.single c)) }

/-- What an escape stands for. -/
inductive Escape where
  | literal (c : Char) (isByte : Bool)
  | set (s : SetNode)
  | look (l : Look)

def isMeta (c : Char) : Bool := "\\.+*?()|[]\x7b\x7d^$#&-~".toList.contains c

/-- Whether a character may follow a backslash and then stands for itself. -/
def isEscapable (c : Char) : Bool :=
  isMeta c || (c.toNat < 128 && !c.isAlphanum && c ≠ '<' && c ≠ '>')

def hexValue? (digits : List Char) : Option Char :=
  let digit (c : Char) : Option Nat :=
    if '0' ≤ c && c ≤ '9' then some (c.toNat - '0'.toNat)
    else if 'a' ≤ c && c ≤ 'f' then some (c.toNat - 'a'.toNat + 10)
    else if 'A' ≤ c && c ≤ 'F' then some (c.toNat - 'A'.toNat + 10)
    else none
  match digits.mapM digit with
  | none => none
  | some ds =>
    let n := ds.foldl (fun n d => 16 * n + d) 0
    if h : n.isValidChar then some (Char.ofNatAux n h) else none

/-- Takes `n` characters, passing over blanks after each where they mean nothing. -/
def takeSpaced (n : Nat) (r : Reader) (taken : List Char) : Option (List Char × Reader) :=
  match n with
  | 0 => some (taken.reverse, r)
  | n + 1 =>
    match r.rest with
    | [] => none
    | c :: _ => takeSpaced n r.next (c :: taken)

/-- Takes the characters up to a closing brace; the reader stands at the one before them. -/
def takeBraced (bound : List Char) (r : Reader) (taken : List Char) :
    Option (List Char × Reader) :=
  match bound with
  | [] => none
  | _ :: bound =>
    let r := r.next
    match r.rest with
    | [] => none
    | '\x7d' :: _ => some (taken.reverse, r)
    | c :: _ => takeBraced bound r (c :: taken)

/-- A character by its code; the reader stands at the letter that tells the number of digits. -/
def hexEscape (r : Reader) : Option (Escape × Reader) := do
  let count := match r.rest with
    | 'x' :: _ => 2
    | 'u' :: _ => 4
    | _ => 8
  let r := r.next
  match r.rest with
  | [] => none
  | '\x7b' :: _ =>
    let (digits, r) ← takeBraced r.rest r []
    guard (!digits.isEmpty)
    let c ← hexValue? digits
    return (.literal c false, r.next)
  | _ =>
    let (digits, r) ← takeSpaced count r []
    let c ← hexValue? digits
    return (.literal c (count = 2), r)

def splitAt? (mark : List Char) : List Char → Option (List Char × List Char)
  | [] => none
  | c :: s =>
    if mark.isPrefixOf (c :: s) then some ([], (c :: s).drop mark.length)
    else (splitAt? mark s).map fun (before, after) => (c :: before, after)

/-- The characters that a text in braces stands for. All signs between a name and a value mean the
same. -/
def bracedProperty? (text : List Char) : Option CharSet :=
  match splitAt? ['!', '='] text <|> splitAt? [':'] text <|> splitAt? ['='] text with
  | some (name, value) => Unicode.propertyValue? (String.ofList name) (String.ofList value)
  | none => Unicode.property? (String.ofList text)

/-- The name of a property, a letter or a text in braces, after the letter that announces it. -/
def propertyName (r : Reader) : Option (CharSet × Reader) :=
  match r.rest with
  | [] => none
  | '\x7b' :: _ => do
    let (text, r) ← takeBraced r.rest r []
    let found ← bracedProperty? text
    return (found, r.seek (r.rest.drop 1))
  | '\\' :: _ => none
  | c :: _ => (Unicode.property? c.toString).map fun set => (set, r.next)

/-- A class of characters by a property; the reader stands at the letter. -/
def propertyEscape (r : Reader) : Option (Escape × Reader) := do
  let negated := r.rest.head? = some 'P'
  let (found, r) ← propertyName r.next
  guard r.flags.unicode
  let set ← closeSet r.flags negated found
  return (.set { set }, r)

/-- The class that a small letter stands for. -/
def smallClass? (unicode : Bool) (c : Char) : Option CharSet :=
  match c, unicode with
  | 'd', true => some Unicode.decimalNumber.members
  | 'd', false => some (Unicode.readTable ["30-39"])
  | 's', true => some Unicode.whiteSpace.members
  | 's', false => some (Unicode.readTable ["9-D 20"])
  | 'w', true => some Unicode.wordCharacter.members
  | 'w', false => some (Unicode.readTable ["30-39 41-5A 5F 61-7A"])
  | _, _ => none

/-- A class of characters by a single letter, a capital one for the complement. -/
def letterClass? (f : Flags) (c : Char) : Option SetNode := do
  let small ← smallClass? f.unicode c.toLower
  if c.isUpper then
    guard f.unicode
    return { set := small.complement }
  else return { set := small }

def isBoundaryChar (c : Char) : Bool := c.isAlpha || c = '-'

/-- A condition on words, with the setting on scripts. -/
def wordLook (r : Reader) (place : WordPlace) : Escape := .look (.word r.flags.unicode place)

/-- The word boundary after `\b`, with the kind that braces may give it. Braces that begin
otherwise are left for a repetition. -/
def boundary (r : Reader) : Option (Escape × Reader) :=
  match r.rest with
  | '\x7b' :: _ =>
    match r.next.rest with
    | [] => none
    | c :: _ =>
      if isBoundaryChar c then do
        let (name, r) ← takeBraced r.rest r []
        guard (name.all isBoundaryChar)
        let r := r.seek (r.rest.drop 1)
        match String.ofList name with
        | "start" => return (wordLook r .start, r)
        | "end" => return (wordLook r .finish, r)
        | "start-half" => return (wordLook r .startHalf, r)
        | "end-half" => return (wordLook r .finishHalf, r)
        | _ => none
      else some (wordLook r .boundary, r)
  | _ => some (wordLook r .boundary, r)

/-- What follows a backslash. -/
def escape (r : Reader) : Option (Escape × Reader) :=
  match r.rest with
  | [] => none
  | c :: s =>
    let after := r.seek s
    if c.isDigit then none
    else if c = 'x' || c = 'u' || c = 'U' then hexEscape r
    else if c = 'p' || c = 'P' then propertyEscape r
    else if c.toLower = 'd' || c.toLower = 's' || c.toLower = 'w' then
      (letterClass? r.flags c).map fun set => (.set set, after)
    else if isEscapable c then some (.literal c false, after)
    else match c with
      | 'a' => some (.literal '\x07' false, after)
      | 'f' => some (.literal '\x0c' false, after)
      | 't' => some (.literal '\t' false, after)
      | 'n' => some (.literal '\n' false, after)
      | 'r' => some (.literal '\r' false, after)
      | 'v' => some (.literal '\x0b' false, after)
      | 'A' => some (.look .textStart, after)
      | 'z' => some (.look .textEnd, after)
      | 'b' => boundary after
      | 'B' => some (wordLook r .notBoundary, after)
      | '<' => some (wordLook r .start, after)
      | '>' => some (wordLook r .finish, after)
      | _ => none

end Backflow.Pattern
