import Backflow.Command.Plan
import Backflow.Command.Progress
import Backflow.Stats

namespace Backflow

namespace Settings

/-- The name of the text to work on; `-` stands for what is given to the tool directly. -/
def source (s : Settings) : String := s.input.getD "-"

def options (s : Settings) : Options := { order := s.order }

end Settings

namespace Analyzed

/-- The end of every tool: an account of the methods, and a failure if one of them failed. -/
def close (as : List Analyzed) (actions : List Action) : Plan where
  actions := actions ++ (summary as).map .log
  failure := if failed as = 0 then none else some (.failedMethods (failed as) as.length)

def header (a : Analyzed) : String := s!"[*] {a.routine.name}"

end Analyzed

/-- Text as lines that are printed further to the right. -/
def Action.printIndented (lines : List String) : Action :=
  .print (String.join (lines.map fun line => "    " ++ line ++ "\n"))

namespace Liveness

/-- The lines of `text`. -/
def lines (l : Liveness) : List String := (Text.split '\n' l.text).dropLast

/-- Where the drawing of a method goes inside a directory. -/
def dotPath (dir : String) (r : Routine) : String :=
  Path.join (Path.join dir r.owner.name) (r.method.name ++ ".dot")

/-- The drawing as a file, or the blocks on the screen. -/
def draw (l : Liveness) (r : Routine) : Option String → List Action
  | some dir =>
    let path := dotPath dir r
    [.makeDirs (Path.join dir r.owner.name), .write path l.dot,
      .log ⟨.info, .tool .graphs, s!"dot output written in {Text.quote path}"⟩]
  | none => [.printIndented l.lines]

end Liveness

namespace Tool

def graphActions (s : Settings) (a : Analyzed) : List Action :=
  match a.result with
  | .error _ => []
  | .ok l =>
    .print (a.header ++ "\n") :: l.draw a.routine s.output ++
      if s.stats then [.printIndented (Stats.ofLiveness l).lines] else []

def total (as : List Analyzed) : Stats :=
  as.foldl (fun t a => match a.result with
    | .ok l => t.add (Stats.ofLiveness l)
    | .error _ => t) {}

/-- Prints or draws the graphs of methods. -/
def planGraphs (s : Settings) (as : List Analyzed) : Plan :=
  Analyzed.close as <| as.flatMap (graphActions s) ++
    if s.stats then [.print "[*] total\n", .printIndented (total as).lines] else []

/-- Reports the dead stores of methods. -/
def planDeadStores (s : Settings) (as : List Analyzed) : Plan :=
  let stores := DeadStoreReport.collect as
  let text :=
    if s.json then (Json.arr (stores.map (·.json))).pretty ++ "\n"
    else String.join (stores.map fun d => d.text ++ "\n")
  Analyzed.close as [.print text,
    .log ⟨.info, .tool .deadStores, s!"{stores.length} dead store(s) found"⟩]

def registerLine (l : Liveness) (k : Nat) : String :=
  s!"// registers ({k}): {(l.interference.assign k).text}\n"

/-- A method as it is shown: its text with notes, or why it has none. -/
def annotatedText (s : Settings) (a : Analyzed) : String :=
  match a.result with
  | .ok l =>
    Text.Color.green.paintIf s.color a.header ++ "\n" ++ l.annotated s.color ++
      String.join (s.registers.toList.map (registerLine l))
  | .error e => Text.Color.red.paintIf s.color (a.header ++ ": " ++ e.message) ++ "\n"

def spillWarning (name : String) (l : Liveness) (k : Nat) : List Message :=
  let spilled := (l.interference.assign k).spilledCount
  if spilled = 0 then []
  else [⟨.warn, .tool .liveness, s!"{name}: {spilled} variable(s) spilled with {k} registers"⟩]

def deadWarnings (name : String) (l : Liveness) : List Message :=
  let dead := l.graph.indices.filter fun i =>
    (l.graph.block i).dead && !(l.graph.stmts i).isEmpty
  dead.map fun i => ⟨.warn, .tool .liveness, s!"{name}: unreachable code in block {i}"⟩

/-- The messages of assigning registers. -/
def registerMessages (s : Settings) (l : Liveness) : List Message :=
  s.registers.toList.flatMap fun _ => l.interference.progress l.method.name

def annotatedMessages (s : Settings) (a : Analyzed) : List Message :=
  match a.result with
  | .ok l =>
    registerMessages s l ++ s.registers.toList.flatMap (spillWarning a.routine.name l) ++
      deadWarnings a.routine.name l
  | .error _ => []

def reports (s : Settings) (as : List Analyzed) : Json :=
  .arr <| as.filterMap fun a => match a.result with
    | .ok l => some (l.report a.routine.owner s.registers)
    | .error _ => none

def reportMessages (s : Settings) (as : List Analyzed) : List Message :=
  as.flatMap fun a => match a.result with
    | .ok l => registerMessages s l
    | .error _ => []

/-- Shows the live variables of methods. -/
def planLiveness (s : Settings) (as : List Analyzed) : Plan :=
  let text :=
    if s.json then (reports s as).pretty ++ "\n" else String.join (as.map (annotatedText s))
  let messages := if s.json then reportMessages s as else as.flatMap (annotatedMessages s)
  let out := match s.output with
    | some path => .write path text
    | none => .print text
  Analyzed.close as (out :: messages.map .log)

/-- The names that complete a command line. -/
def planCompletions : Plan where
  actions := [.print (String.join (all.map fun t => t.name ++ "\n"))]

/-- What a tool says before its first method. -/
def opening (t : Tool) (s : Settings) : List Message :=
  match t with
  | .liveness =>
    [⟨.info, .tool .liveness, s!"analyzing {s.source} with {s.order.name} worklist order"⟩]
  | _ => []

/-- What a tool does with the methods that it is asked for. -/
def planMethods (t : Tool) (s : Settings) (as : List Analyzed) : Plan :=
  match t with
  | .graphs => planGraphs s as
  | .deadStores => planDeadStores s as
  | .liveness => planLiveness s as
  | .completions => planCompletions

end Tool

end Backflow
