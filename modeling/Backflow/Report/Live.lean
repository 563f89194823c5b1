import Backflow.Registers.Assignment
import Backflow.Report.DeadStores
import Backflow.Text.Color

namespace Backflow

def NameSet.json (s : NameSet) : Json := .arr (s.toList.map .str)

def LiveMap.json (m : LiveMap) : Json :=
  .obj (m.toList.map fun (id, names) => (toString id, names.json))

namespace Liveness

def liveNote (names : NameSet) : String := "live: " ++ namesText names

/-- The method in source form, with the live variables above each statement. -/
def annotated (l : Liveness) (color : Bool) : String :=
  let map := l.map
  l.method.print fun s =>
    (map.get? s.id).map fun names => Text.Color.cyan.paintIf color (liveNote names)

/-- The variables live before a statement, with the statement. -/
def stmtJson (s : Stmt) (live : NameSet) : Json :=
  .obj [("id", .num s.id), ("loc", s.loc.json), ("stmt", .str s.header), ("live", live.json)]

/-- The results of a method, with its registers if a number of them is given. -/
def report (l : Liveness) (owner : Class) (registers : Option Nat) : Json :=
  let map := l.map
  let stmts := l.method.statements.filterMap fun s => (map.get? s.id).map (stmtJson s)
  let places := registers.toList.map fun k => ("registers", (l.interference.assign k).json)
  .obj ([("class", .str owner.name), ("method", .str l.method.name),
    ("blocks", .num l.graph.size), ("iterations", .num l.iterations),
    ("statements", .arr stmts)] ++ places)

end Liveness

end Backflow
