import Backflow.Syntax.Basic

namespace Backflow

/-- What is wrong with a graph. -/
inductive Defect where
  | entryHasPredecessors
  | exitHasSuccessors
  | deadFlag (block : Nat)
  | emptyBasic (block : Nat)
  | fullSynthetic (block : Nat)
  | earlyEnd (stmt block : Nat)
deriving DecidableEq, Repr

def Defect.message : Defect → String
  | entryHasPredecessors => "entry block has predecessors"
  | exitHasSuccessors => "exit block has successors"
  | deadFlag b => s!"block {b} reachability does not match its dead flag"
  | emptyBasic b => s!"basic block {b} is empty"
  | fullSynthetic b => s!"synthetic block {b} holds statements"
  | earlyEnd s b => s!"statement {idText s} does not end block {b}"

/-- A failure that no program should meet. -/
inductive Fault where
  | defect (d : Defect)
  | exitDecreased (block : Nat) (old new : String)
  | entryDecreased (block : Nat) (old new : String)
  | mismatch (block : Nat)
  | unnumbered (name : String) (stmt : Nat)
  | analyzedTwice (stmt : Nat)
  | unsettled (visits : Nat)
  /-- Raised by the problem that is being solved. -/
  | raised (text : String)
deriving DecidableEq, Repr

def Fault.message : Fault → String
  | defect d => d.message
  | exitDecreased b old new => s!"exit state of block {b} decreased from {old} to {new}"
  | entryDecreased b old new => s!"entry state of block {b} decreased from {old} to {new}"
  | mismatch b => s!"statement states of block {b} do not match its entry state"
  | unnumbered name s => s!"variable `{name}` of statement {idText s} is not numbered"
  | analyzedTwice s => s!"statement {idText s} is analyzed twice"
  | unsettled n => s!"no fixpoint within {n} block visits"
  | raised text => text

/-- Why a method cannot be analyzed. -/
inductive AnalysisError where
  | internal (f : Fault)
  | outsideLoop (jump : Keyword) (loc : Location)
deriving DecidableEq, Repr

def AnalysisError.message : AnalysisError → String
  | internal f => s!"internal error: {f.message}"
  | outsideLoop jump loc =>
    s!"{loc.text}: unsupported construct: `{jump.text}` outside of loop"

end Backflow
