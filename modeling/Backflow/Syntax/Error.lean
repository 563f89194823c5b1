import Backflow.Token.Basic
import Backflow.Text.Quoted

namespace Backflow

/-- The deepest nesting of statements and expressions that is read. -/
def maxDepth : Nat := 128

/-- What the grammar asks for at a place. -/
inductive Expected where
  | punct (p : Punct)
  | keyword (k : Keyword)
  | identifier
  | type
  | expression
  | println
deriving DecidableEq, Repr

def Expected.text : Expected → String
  | punct p => s!"`{p.text}`"
  | keyword k => s!"keyword `{k.text}`"
  | identifier => "identifier"
  | type => "type"
  | expression => "expression"
  | println => "`println`"

/-- Why a text is no program. -/
inductive SyntaxError where
  | badChar (loc : Location) (found : Char)
  | unexpected (loc : Location) (expected : Expected) (found : Option Token)
  | notACall (loc : Location)
  | intOverflow (loc : Location) (digits : String)
  | tooDeep (loc : Location)
deriving DecidableEq, Repr

namespace SyntaxError

def loc : SyntaxError → Location
  | badChar loc _ | unexpected loc _ _ | notACall loc | intOverflow loc _ | tooDeep loc => loc

def message : SyntaxError → String
  | badChar loc found => s!"{loc.text}: unexpected character {Text.quoteChar found}"
  | unexpected loc expected found =>
    s!"{loc.text}: expected {expected.text}, found {Token.describe? found}"
  | notACall loc => s!"{loc.text}: expected statement, found expression"
  | intOverflow loc digits => s!"{loc.text}: integer literal out of range: {digits}"
  | tooDeep loc => s!"{loc.text}: nesting deeper than {maxDepth} levels"

end SyntaxError

end Backflow
