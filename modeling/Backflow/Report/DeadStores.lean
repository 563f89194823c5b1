import Backflow.Json
import Backflow.Report.Analyzed

namespace Backflow

def Location.json (l : Location) : Json :=
  .obj [("line", .num l.numbers.1.toNat), ("col", .num l.numbers.2.toNat)]

/-- A dead store as it is reported. -/
structure DeadStoreReport where
  method : String
  loc : Location
  var : String
  stmt : String
  unreachable : Bool
deriving DecidableEq, Repr

namespace DeadStoreReport

def of (r : Routine) (d : DeadStore) : DeadStoreReport where
  method := r.name
  loc := d.stmt.loc
  var := d.var
  stmt := d.stmt.header
  unreachable := d.unreachable

/-- The dead stores of the methods that could be analyzed. -/
def collect (as : List Analyzed) : List DeadStoreReport :=
  as.flatMap fun a =>
    match a.result with
    | .ok l => l.deadStores.map (of a.routine)
    | .error _ => []

def text (d : DeadStoreReport) : String :=
  s!"{d.method}:{d.loc.text}: value assigned to `{d.var}` is never read: {d.stmt}" ++
    (if d.unreachable then " (unreachable)" else "")

def json (d : DeadStoreReport) : Json :=
  .obj [("method", .str d.method), ("loc", d.loc.json), ("var", .str d.var),
    ("stmt", .str d.stmt), ("unreachable", .bool d.unreachable)]

end DeadStoreReport

end Backflow
