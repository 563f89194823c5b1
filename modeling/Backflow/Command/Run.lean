import Backflow.Command.Tools
import Backflow.Command.Usage
import Backflow.Syntax.Parser.Program

namespace Backflow

namespace Tool

/-- What a tool does with a program. -/
def planProgram (t : Tool) (s : Settings) (p : Program) : Plan :=
  match Selection.ofTexts? s.filterClass s.filterMethod with
  | none => { actions := [], failure := some .pattern }
  | some selection =>
    let as := (selection.select p).map (Analyzed.run s.options)
    let rest := t.planMethods s as
    { rest with
      actions := (selection.progress ++ t.opening s ++ as.flatMap Analyzed.progress).map .log ++
        rest.actions }

/-- What a tool does with a text. -/
def planText (t : Tool) (s : Settings) (text : String) : Plan :=
  match Lexer.lex text with
  | .error e => { actions := [], failure := some (.source e) }
  | .ok tokens =>
    match Program.ofTokens tokens with
    | .error e => { actions := tokens.progress.map .log, failure := some (.source e) }
    | .ok p =>
      let rest := t.planProgram s p
      { rest with
        actions := (tokens.progress ++ p.progress s.source).map .log ++ rest.actions }

/-- What a tool does; only an analysis asks for a text. -/
def plan (t : Tool) (s : Settings) (text : Except FileError String) : Plan :=
  match t, text with
  | .completions, _ => planCompletions
  | _, .error e => { actions := [], failure := some (.file e) }
  | _, .ok text => t.planText s text

end Tool

/-- A text from its bytes. -/
def decodeText (bytes : ByteArray) : Except FileError String :=
  match String.fromUTF8? bytes with
  | some text => .ok text
  | none => .error .notUtf8

namespace Request

/-- Carries out a request, if there is one, on a disk and with bytes given to the tool directly. -/
def run (r : Option Request) (limit : Option Level) (given : ByteArray) (d : Disk) : Outcome :=
  match r with
  | none => { failure := some .missingCommand, disk := d }
  | some r =>
    let text := if r.settings.source = "-" then decodeText given else d.read r.settings.source
    (r.tool.plan r.settings text).run (r.settings.limit limit) d

end Request

end Backflow
