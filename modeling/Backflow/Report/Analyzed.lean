import Backflow.Liveness.Basic

namespace Backflow

/-- A method with what its analysis came to. -/
structure Analyzed where
  routine : Routine
  result : Except AnalysisError Liveness

namespace Analyzed

def run (o : Options) (r : Routine) : Analyzed := ⟨r, Liveness.compute r.method o⟩

def error? (a : Analyzed) : Option AnalysisError :=
  match a.result with
  | .ok _ => none
  | .error e => some e

/-- The message when some methods could not be analyzed. -/
def failureText (failed total : Nat) : String :=
  s!"{failed} method(s) out of {total} could not be analyzed"

def failed (as : List Analyzed) : Nat := as.countP (·.error?.isSome)

end Analyzed

end Backflow
