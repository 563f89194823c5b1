import Backflow.Text.Printable

namespace Backflow.Text

/-- The code point of a character between braces, in lower case hexadecimal digits. -/
def codePoint (c : Char) : String :=
  "\\u\x7b" ++ String.ofList (Nat.toDigits 16 c.toNat) ++ "\x7d"

/-- A character inside quotes of the kind `mark`; the other kind of quote stands for itself. -/
def escaped (mark : Char) (c : Char) : String :=
  if c = '\x00' then "\\0"
  else if c = '\t' then "\\t"
  else if c = '\r' then "\\r"
  else if c = '\n' then "\\n"
  else if c = '\\' then "\\\\"
  else if c = mark then String.ofList ['\\', mark]
  else if isPrintable c then c.toString
  else codePoint c

def quoteChar (c : Char) : String := "'" ++ escaped '\'' c ++ "'"

def quote (s : String) : String :=
  "\"" ++ String.join (s.toList.map (escaped '"')) ++ "\""

/-- Escapes down to visible ASCII: quotes of both kinds, the backslash, and all that lies outside. -/
def escapeAscii (s : String) : String :=
  String.join <| s.toList.map fun c =>
    if c = '\t' then "\\t"
    else if c = '\r' then "\\r"
    else if c = '\n' then "\\n"
    else if c = '\'' then "\\'"
    else if c = '"' then "\\\""
    else if c = '\\' then "\\\\"
    else if 0x20 ≤ c.toNat && c.toNat ≤ 0x7e then c.toString
    else codePoint c

end Backflow.Text
