import Backflow.Syntax.Basic

namespace Backflow

def Ty.text : Ty → String
  | int => "int"
  | intArray => "int[]"
  | boolean => "boolean"
  | void => "void"
  | stringArray => "String[]"
  | named name => name

namespace Expr

def isBinary : Expr → Bool
  | binary _ _ _ => true
  | _ => false

/-- Puts parentheses around the text of a binary expression. -/
def wrap (e : Expr) (text : String) : String :=
  if e.isBinary then "(" ++ text ++ ")" else text

mutual

/-- An expression in source form. A binary operand always has parentheses, so no precedence is
needed to read the text back. -/
def text : Expr → String
  | int value => toString value
  | bool true => "true"
  | bool false => "false"
  | var name => name
  | self => "this"
  | unary op e => op.punct.text ++ e.wrap e.text
  | binary op e₁ e₂ => e₁.wrap e₁.text ++ " " ++ op.punct.text ++ " " ++ e₂.wrap e₂.text
  | index a i => a.wrap a.text ++ "[" ++ i.text ++ "]"
  | length a => a.wrap a.text ++ ".length"
  | call receiver method args =>
    receiver.wrap receiver.text ++ "." ++ method ++ "(" ++ ", ".intercalate (texts args) ++ ")"
  | newArray size => "new int[" ++ size.text ++ "]"
  | newObject name => "new " ++ name ++ "()"

def texts : List Expr → List String
  | [] => []
  | e :: es => e.text :: texts es

end

end Expr

namespace Stmt

/-- One line for a statement: all of a simple one, the head of a compound one. -/
def header : Stmt → String
  | block _ _ => "\x7b ... \x7d"
  | assign _ target value => target ++ " = " ++ value.text ++ ";"
  | store _ target position value =>
    target ++ "[" ++ position.text ++ "] = " ++ value.text ++ ";"
  | ifThen _ cond _ | ifElse _ cond _ _ => "if (" ++ cond.text ++ ")"
  | loop _ cond _ => "while (" ++ cond.text ++ ")"
  | print _ value => "System.out.println(" ++ value.text ++ ");"
  | call _ receiver method args => (Expr.call receiver method args).text ++ ";"
  | ret _ (some value) => "return " ++ value.text ++ ";"
  | ret _ none => "return;"
  | brk _ => "break;"
  | cont _ => "continue;"

end Stmt

/-- The text of a comment line above a statement, if it gets one. -/
abbrev Note := Stmt → Option String

namespace Printer

/-- A line of text with four blanks for each level of depth. -/
def line (depth : Nat) (text : String) : String :=
  String.ofList (List.replicate (4 * depth) ' ') ++ text

def noteLines (note : Note) (s : Stmt) (depth : Nat) : List String :=
  match note s with
  | some text => [line depth ("// " ++ text)]
  | none => []

/-- The depth of a branch: a block has its braces below its parent, another statement is indented. -/
def branchDepth (s : Stmt) (depth : Nat) : Nat := if s.isBlock then depth else depth + 1

mutual

/-- The lines of a statement, with a note above each statement that is no block. -/
def stmtLines (note : Note) : Stmt → Nat → List String
  | .block _ body, depth =>
    line depth "\x7b" :: (stmtsLines note body (depth + 1) ++ [line depth "\x7d"])
  | .ifThen t c yes, depth =>
    noteLines note (.ifThen t c yes) depth ++ line depth (Stmt.ifThen t c yes).header ::
      stmtLines note yes (branchDepth yes depth)
  | .ifElse t c yes no, depth =>
    noteLines note (.ifElse t c yes no) depth ++ line depth (Stmt.ifElse t c yes no).header ::
      (stmtLines note yes (branchDepth yes depth) ++ line depth "else" ::
        stmtLines note no (branchDepth no depth))
  | .loop t c body, depth =>
    noteLines note (.loop t c body) depth ++ line depth (Stmt.loop t c body).header ::
      stmtLines note body (branchDepth body depth)
  | s, depth => noteLines note s depth ++ [line depth s.header]

def stmtsLines (note : Note) : List Stmt → Nat → List String
  | [], _ => []
  | s :: rest, depth => stmtLines note s depth ++ stmtsLines note rest depth

end

def declText (d : VarDecl) : String := d.type.text ++ " " ++ d.name

def methodHeader (m : Method) : String :=
  "public " ++ (if m.isStatic then "static " else "") ++ m.returns.text ++ " " ++ m.name ++
    "(" ++ ", ".intercalate (m.params.map declText) ++ ") \x7b"

def methodLines (note : Note) (m : Method) (depth : Nat) : List String :=
  line depth (methodHeader m) ::
    (m.locals.map (fun d => line (depth + 1) (declText d ++ ";")) ++
      (stmtsLines note m.body (depth + 1) ++ [line depth "\x7d"]))

def classHeader (c : Class) : String :=
  "class " ++ c.name ++ (match c.parent with
    | some p => " extends " ++ p
    | none => "") ++ " \x7b"

/-- The lines of a class: its fields come before its methods. -/
def classLines (note : Note) (c : Class) : List String :=
  classHeader c ::
    (c.fields.map (fun d => line 1 (declText d ++ ";")) ++
      (c.methods.flatMap (methodLines note · 1) ++ ["\x7d"]))

/-- The lines of classes, with an empty line between two of them. -/
def classesLines (note : Note) : List Class → List String
  | [] => []
  | [c] => classLines note c
  | c :: rest => classLines note c ++ "" :: classesLines note rest

def unlines (lines : List String) : String := String.join (lines.map (· ++ "\n"))

end Printer

def Method.print (note : Note) (m : Method) : String :=
  Printer.unlines (Printer.methodLines note m 0)

def Program.print (note : Note) (p : Program) : String :=
  Printer.unlines (Printer.classesLines note p.classes)

end Backflow
