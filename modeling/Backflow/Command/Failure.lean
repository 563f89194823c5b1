import Backflow.Syntax.Error

namespace Backflow

/-- Why a file cannot be read or written. -/
inductive FileError where
  | missing
  | occupied
  | notADirectory
  | isADirectory
  | nameTooLong
  | notUtf8
  | other (text : String)
deriving DecidableEq, Repr

namespace FileError

/-- An error with the number that the system gives it. -/
def system (code : Nat) (kind message : String) : String :=
  s!"Os \x7b code: {code}, kind: {kind}, message: {Text.quote message} \x7d"

def custom (kind message : String) : String :=
  s!"Error \x7b kind: {kind}, message: {Text.quote message} \x7d"

def text : FileError → String
  | missing => system 2 "NotFound" "No such file or directory"
  | occupied => system 17 "AlreadyExists" "File exists"
  | notADirectory => system 20 "NotADirectory" "Not a directory"
  | isADirectory => system 21 "IsADirectory" "Is a directory"
  | nameTooLong => system 36 "InvalidFilename" "File name too long"
  | notUtf8 => custom "InvalidData" "stream did not contain valid UTF-8"
  | other text => custom "Other" text

end FileError

/-- Why a tool ends without success. -/
inductive Failure where
  | missingCommand
  | file (e : FileError)
  | pattern
  | source (e : SyntaxError)
  | failedMethods (failed total : Nat)
deriving DecidableEq, Repr

def Location.fields (l : Location) : String :=
  s!"loc: Loc \x7b line: {l.numbers.1}, col: {l.numbers.2} \x7d"

/-- The name and the fields of a syntax error. -/
def SyntaxError.fields : SyntaxError → String
  | badChar loc found => s!"Lexing \x7b {loc.fields}, found: {Text.quoteChar found} \x7d"
  | unexpected loc expected found =>
    s!"Parsing \x7b {loc.fields}, expected: {Text.quote expected.text}, " ++
      s!"found: {Text.quote (Token.describe? found)} \x7d"
  | notACall loc =>
    s!"Parsing \x7b {loc.fields}, expected: " ++ Text.quote "statement" ++ ", found: " ++
      Text.quote "expression" ++ " \x7d"
  | intOverflow loc digits => s!"IntOverflow \x7b {loc.fields}, literal: {Text.quote digits} \x7d"
  | tooDeep loc => s!"TooDeep \x7b {loc.fields}, limit: {maxDepth} \x7d"

/-- The failure on one line, with the names and values of its fields. -/
def Failure.text : Failure → String
  | missingCommand => "BadArguments(" ++ Text.quote "missing subcommand" ++ ")"
  | file e => s!"IO({e.text})"
  | pattern => "Regex"
  | source e => s!"Ast({e.fields})"
  | failedMethods failed total => s!"FailedMethods \x7b failed: {failed}, total: {total} \x7d"

end Backflow
