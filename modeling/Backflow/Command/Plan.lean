import Backflow.Command.Disk
import Backflow.Command.Journal

namespace Backflow

/-- One thing that a tool does. -/
inductive Action where
  | log (m : Message)
  | print (text : String)
  | makeDirs (path : String)
  | write (path text : String)
deriving DecidableEq, Repr

/-- What a tool does, in order, and how it ends if all of that can be done. -/
structure Plan where
  actions : List Action
  failure : Option Failure := none

/-- What the run of a tool leaves behind. -/
structure Outcome where
  printed : List String := []
  log : List Message := []
  failure : Option Failure := none
  disk : Disk := {}

namespace Outcome

def stdout (o : Outcome) : String := String.join o.printed

def exit (o : Outcome) : Nat := if o.failure.isSome then 1 else 0

end Outcome

namespace Disk

/-- The disk after an action. -/
def apply (d : Disk) : Action → Except FileError Disk
  | .log _ | .print _ => .ok d
  | .makeDirs path => d.makeAll path
  | .write path text => d.write path text

end Disk

namespace Plan

/-- Does what is planned on a disk; the first action that fails is the last. -/
def perform (limit : Option Level) (failure : Option Failure) (d : Disk) : List Action → Outcome
  | [] => { failure, disk := d }
  | a :: rest =>
    match d.apply a with
    | .error e => { failure := some (.file e), disk := d }
    | .ok d' =>
      let o := perform limit failure d' rest
      match a with
      | .log m => if m.kept limit then { o with log := m :: o.log } else o
      | .print text => { o with printed := text :: o.printed }
      | _ => o

def run (p : Plan) (limit : Option Level) (d : Disk) : Outcome :=
  perform limit p.failure d p.actions

end Plan

end Backflow
