import Backflow.Location

namespace Backflow

inductive Keyword where
  | kwBoolean | kwBreak | kwClass | kwContinue | kwElse | kwExtends | kwFalse | kwIf | kwInt
  | kwNew | kwPublic | kwReturn | kwStatic | kwThis | kwTrue | kwVoid | kwWhile | kwString
deriving DecidableEq, Repr

namespace Keyword

def text : Keyword → String
  | kwBoolean => "boolean"
  | kwBreak => "break"
  | kwClass => "class"
  | kwContinue => "continue"
  | kwElse => "else"
  | kwExtends => "extends"
  | kwFalse => "false"
  | kwIf => "if"
  | kwInt => "int"
  | kwNew => "new"
  | kwPublic => "public"
  | kwReturn => "return"
  | kwStatic => "static"
  | kwThis => "this"
  | kwTrue => "true"
  | kwVoid => "void"
  | kwWhile => "while"
  | kwString => "String"

def all : List Keyword :=
  [kwBoolean, kwBreak, kwClass, kwContinue, kwElse, kwExtends, kwFalse, kwIf, kwInt, kwNew,
    kwPublic, kwReturn, kwStatic, kwThis, kwTrue, kwVoid, kwWhile, kwString]

def ofText? (w : String) : Option Keyword := all.find? (·.text = w)

end Keyword

inductive Punct where
  | andAnd | orOr | lessEq | greaterEq | eqEq | notEq
  | lbrace | rbrace | lparen | rparen | lbracket | rbracket | semi | comma | dot
  | assign | less | greater | plus | minus | star | slash | percent | bang
deriving DecidableEq, Repr

namespace Punct

def text : Punct → String
  | andAnd => "&&"
  | orOr => "||"
  | lessEq => "<="
  | greaterEq => ">="
  | eqEq => "=="
  | notEq => "!="
  | lbrace => "\x7b"
  | rbrace => "\x7d"
  | lparen => "("
  | rparen => ")"
  | lbracket => "["
  | rbracket => "]"
  | semi => ";"
  | comma => ","
  | dot => "."
  | assign => "="
  | less => "<"
  | greater => ">"
  | plus => "+"
  | minus => "-"
  | star => "*"
  | slash => "/"
  | percent => "%"
  | bang => "!"

/-- The marks of two characters stand before those of one, so that the first mark that begins a
text is the longest one. -/
def all : List Punct :=
  [andAnd, orOr, lessEq, greaterEq, eqEq, notEq,
    lbrace, rbrace, lparen, rparen, lbracket, rbracket, semi, comma, dot,
    assign, less, greater, plus, minus, star, slash, percent, bang]

def chars (p : Punct) : List Char := p.text.toList

end Punct

/-- What a token says, apart from where it stands. -/
inductive Lexeme where
  | ident (name : String)
  | int (digits : String)
  | keyword (k : Keyword)
  | punct (p : Punct)
deriving DecidableEq, Repr

namespace Lexeme

/-- The source text of a lexeme. -/
def text : Lexeme → String
  | ident name => name
  | int digits => digits
  | keyword k => k.text
  | punct p => p.text

/-- The lexeme as messages name it. -/
def describe : Lexeme → String
  | ident name => s!"identifier `{name}`"
  | int digits => s!"integer `{digits}`"
  | keyword k => s!"keyword `{k.text}`"
  | punct p => s!"`{p.text}`"

end Lexeme

structure Token where
  lexeme : Lexeme
  loc : Location
deriving DecidableEq, Repr

/-- The tokens of a text and the place where the text ends. -/
structure TokenStream where
  tokens : List Token
  stop : Location
deriving DecidableEq, Repr

/-- A token as messages name it; no token is the end of the text. -/
def Token.describe? : Option Token → String
  | some t => t.lexeme.describe
  | none => "end of input"

end Backflow
