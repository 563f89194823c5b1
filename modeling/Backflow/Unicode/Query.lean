import Backflow.Unicode.Age
import Backflow.Unicode.Break
import Backflow.Unicode.Script

namespace Backflow.Unicode

/-- A name of a property or a value, in lower case and without blanks, hyphens, underscores and a
leading `is`. -/
def normalize (name : String) : String :=
  let lower := name.toList.map Char.toLower
  let isStart := lower.take 2 = ['i', 's']
  let core := (if isStart then lower.drop 2 else lower).filter fun c =>
    c ≠ ' ' && c ≠ '_' && c ≠ '-' && c.toNat < 128
  if isStart && core = ['c'] then "isc" else String.ofList core

/-- The characters that a single name stands for: a property, a general category or a script. -/
def property? (name : String) : Option CharSet :=
  let name := normalize name
  properties.find? name <|> categories.find? name <|> scripts.find? name

/-- The characters that have a property with the given value. -/
def propertyValue? (name value : String) : Option CharSet :=
  let value := normalize value
  match normalize name with
  | "gc" | "generalcategory" => categories.find? value
  | "sc" | "script" => scripts.find? value
  | "scx" | "scriptextensions" => usedBy? value
  | "wb" | "wordbreak" => wordBreaks.find? value
  | "sb" | "sentencebreak" => sentenceBreaks.find? value
  | "gcb" | "graphemeclusterbreak" => clusterBreaks.find? value
  | "age" => presentIn? value
  | _ => none

end Backflow.Unicode
