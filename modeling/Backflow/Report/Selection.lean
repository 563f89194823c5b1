import Backflow.Pattern.Parser
import Backflow.Pattern.Search
import Backflow.Syntax.Basic
import Backflow.Text.Quoted

namespace Backflow

/-- A condition on names: a pattern with its text. -/
structure NameFilter where
  text : String
  pattern : Pattern

/-- Which methods are asked for; a missing condition lets every name pass. -/
structure Selection where
  onClass : Option NameFilter := none
  onMethod : Option NameFilter := none

namespace Selection

def filter? : Option String → Option (Option NameFilter)
  | none => some none
  | some text => (Pattern.parse? text).map fun pattern => some ⟨text, pattern⟩

/-- The selection by the texts of two patterns, if both are patterns. -/
def ofTexts? (onClass onMethod : Option String) : Option Selection := do
  let onClass ← filter? onClass
  let onMethod ← filter? onMethod
  return ⟨onClass, onMethod⟩

def passes (f : Option NameFilter) (name : String) : Bool := f.all (·.pattern.isMatch name)

/-- The methods asked for, in source order. -/
def select (s : Selection) (p : Program) : List Routine :=
  p.routines.filter fun r => passes s.onClass r.owner.name && passes s.onMethod r.method.name

/-- A condition as messages show it. -/
def describe : Option NameFilter → String
  | none => "None"
  | some f => "Some(Regex(" ++ Text.quote f.text ++ "))"

end Selection

end Backflow
