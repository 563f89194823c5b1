import Backflow.Command.Failure
import Backflow.Text.Split

namespace Backflow

/-- How a path ends after its last name. -/
inductive Ending where
  | plain
  | slash
  | dot
deriving DecidableEq, Repr

/-- A path to a file: names to follow, from the top or from the working directory. -/
structure Path where
  absolute : Bool
  names : List String
  ending : Ending
deriving DecidableEq, Repr

namespace Path

/-- The path of a text; the empty text is none. -/
def ofText? (text : String) : Option Path :=
  let parts := Text.split '/' text
  let filled := parts.filter (· ≠ "")
  if text = "" then none
  else some {
    absolute := parts.head? = some ""
    names := filled.filter (· ≠ ".")
    ending :=
      if filled.getLast? = some "." then .dot
      else if parts.getLast? = some "" then .slash
      else .plain }

/-- A name inside the directory of a path. -/
def join (base name : String) : String :=
  if base = "" ∨ base.toList.getLast? = some '/' then base ++ name else base ++ "/" ++ name

/-- The longest name of a file, in bytes. -/
def maxName : Nat := 255

end Path

inductive Node where
  | directory
  | file (text : String)
deriving DecidableEq, Repr

/-- The files and directories that are known, the newest first. A place is the names on the way to it
from the working directory; the places above have the name `..` only, and the top is `/`. -/
structure Disk where
  nodes : List (List String × Node) := []

namespace Disk

/-- The working directory, what is above it, and the top. -/
def isAbove (place : List String) : Bool := place = ["/"] || place.all (· = "..")

def node? (d : Disk) (place : List String) : Option Node :=
  if isAbove place then some .directory
  else (d.nodes.find? (·.1 = place)).map (·.2)

def put (d : Disk) (place : List String) (n : Node) : Disk :=
  ⟨(place, n) :: d.nodes.filter (·.1 ≠ place)⟩

def up (place : List String) : List String :=
  if place = ["/"] then place
  else if place.all (· = "..") then place ++ [".."]
  else place.dropLast

/-- Lets pass only where there is a directory. -/
def enter (d : Disk) (place : List String) : Except FileError Unit :=
  match d.node? place with
  | some .directory => .ok ()
  | some (.file _) => .error .notADirectory
  | none => .error .missing

/-- One name further: only directories can be passed. -/
def step (d : Disk) (place : List String) (name : String) : Except FileError (List String) := do
  d.enter place
  if name = ".." then return up place
  if Path.maxName < name.utf8ByteSize then throw .nameTooLong
  return place ++ [name]

def root (absolute : Bool) : List String := if absolute then ["/"] else []

def follow (d : Disk) (absolute : Bool) (names : List String) : Except FileError (List String) :=
  names.foldlM d.step (root absolute)

/-- The text of a file. -/
def read (d : Disk) (path : String) : Except FileError String := do
  match Path.ofText? path with
  | none => throw .missing
  | some p =>
    let place ← d.follow p.absolute p.names
    if p.ending ≠ .plain then d.enter place
    match d.node? place with
    | none => throw .missing
    | some .directory => throw .isADirectory
    | some (.file text) => return text

/-- Writes a file, new or over an old one; its directory has to exist. -/
def write (d : Disk) (path text : String) : Except FileError Disk := do
  match Path.ofText? path with
  | none => throw .missing
  | some p =>
    match p.names.getLast?, p.ending with
    | none, _ => throw .isADirectory
    | some _, .dot =>
      d.enter (← d.follow p.absolute p.names)
      throw .isADirectory
    | some name, ending =>
      let directory ← d.follow p.absolute p.names.dropLast
      d.enter directory
      if ending = .slash ∨ name = ".." then throw .isADirectory
      let place ← d.step directory name
      if d.node? place = some .directory then throw .isADirectory
      return d.put place (.file text)

/-- A new directory where nothing is yet. -/
def makeDir (d : Disk) (absolute : Bool) (names : List String) : Except FileError Disk := do
  let place ← d.follow absolute names
  if (d.node? place).isSome then throw .occupied
  return d.put place .directory

def isDir (d : Disk) (absolute : Bool) (names : List String) : Bool :=
  match d.follow absolute names with
  | .ok place => d.node? place = some .directory
  | .error _ => false

/-- A directory and those on the way to it, given by its names from the last to the first. What is
there already is passed over if it is a directory. -/
def makeDirs (d : Disk) (absolute : Bool) : List String → Except FileError Disk
  | [] => .ok d
  | name :: above =>
    let names := (name :: above).reverse
    match d.makeDir absolute names with
    | .ok d' => .ok d'
    | .error .missing => do
      let d' ← d.makeDirs absolute above
      match d'.makeDir absolute names with
      | .ok d'' => .ok d''
      | .error e => if d'.isDir absolute names then .ok d' else .error e
    | .error e => if d.isDir absolute names then .ok d else .error e

def makeAll (d : Disk) (path : String) : Except FileError Disk :=
  match Path.ofText? path with
  | none => .ok d
  | some p => d.makeDirs p.absolute p.names.reverse

/-- A file with the directories on the way to it. -/
def place (d : Disk) (names : List String) (text : String) : Disk :=
  let above := ((List.range names.length).drop 1).map names.take
  (above.foldl (fun d l => if (d.node? l).isSome then d else d.put l .directory) d).put names
    (.file text)

def ofFiles (files : List (String × String)) : Disk :=
  files.foldl (fun d (path, text) =>
    match Path.ofText? path with
    | some p => d.place p.names text
    | none => d) {}

/-- The files below the working directory that another disk has not, or has otherwise. -/
def changes (before after : Disk) : List (String × String) :=
  after.nodes.filterMap fun (names, n) =>
    match n with
    | .directory => none
    | .file text =>
      if names.head? = some ".." ∨ names.head? = some "/" ∨ before.node? names = some n then none
      else some ("/".intercalate names, text)

end Disk

end Backflow
