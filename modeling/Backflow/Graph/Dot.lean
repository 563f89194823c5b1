import Backflow.Graph.Basic
import Backflow.Text.Quoted

namespace Backflow

namespace Dot

def color : Branch → String
  | .ifTrue => "green"
  | .ifFalse => "red"
  | .back | .cont => "blue"
  | .ret | .brk => "purple"
  | .sequence => "black"

/-- The text of a node's label; a line break is a left-justified one. -/
def label (text : String) : String :=
  String.join <| text.toList.map fun c =>
    if c = '"' || c = '\\' then String.ofList ['\\', c]
    else if c = '\n' then "\\l"
    else c.toString

def nodeLine (g : Graph) (note : Nat → Option String) (i : Nat) : String :=
  let b := g.block i
  let style := if b.dead then "shape=box,style=dashed,color=gray" else "shape=box,color=black"
  let extra := match note i with
    | some text => ",xlabel=\"" ++ Text.escapeAscii text ++ "\""
    | none => ""
  s!"    {i} [ label = \"" ++ label b.text ++ "\" " ++ style ++ extra ++ "]\n"

def edgeLine (e : Edge) : String :=
  s!"    {e.source} -> {e.target} [ color=" ++ color e.branch ++ ",xlabel=\"" ++ e.branch.text ++
    "\"]\n"

end Dot

/-- A drawing of the graph, with a further label for the blocks that `note` gives one. -/
def Graph.dot (g : Graph) (note : Nat → Option String) : String :=
  "digraph \x7b\n  nodesep=1;\n" ++
    String.join (g.indices.map (Dot.nodeLine g note)) ++
    String.join (g.edges.reverse.map Dot.edgeLine) ++ "\x7d"

end Backflow
