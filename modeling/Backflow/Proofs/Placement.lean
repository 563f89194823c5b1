import Backflow.Syntax.Basic

namespace Backflow

namespace Stmt

mutual

def retag (f : Tag → Tag) : Stmt → Stmt
  | block t body => block (f t) (retagList f body)
  | assign t target value => assign (f t) target value
  | store t target position value => store (f t) target position value
  | ifThen t cond yes => ifThen (f t) cond (yes.retag f)
  | ifElse t cond yes no => ifElse (f t) cond (yes.retag f) (no.retag f)
  | loop t cond body => loop (f t) cond (body.retag f)
  | print t value => print (f t) value
  | call t receiver method args => call (f t) receiver method args
  | ret t value => ret (f t) value
  | brk t => brk (f t)
  | cont t => cont (f t)

def retagList (f : Tag → Tag) : List Stmt → List Stmt
  | [] => []
  | s :: rest => s.retag f :: retagList f rest

end

theorem retagList_eq_map (f : Tag → Tag) (l : List Stmt) : retagList f l = l.map (retag f) := by
  induction l with
  | nil => rfl
  | cons s rest ih => rw [retagList, ih, List.map_cons]

end Stmt

def VarDecl.unplaced (v : VarDecl) : VarDecl := { v with loc := .start }

def Method.retag (f : Tag → Tag) (m : Method) : Method :=
  { m with
    params := m.params.map VarDecl.unplaced
    locals := m.locals.map VarDecl.unplaced
    body := m.body.map (Stmt.retag f)
    loc := .start }

theorem Method.retag_congr {f : Tag → Tag} {m m' : Method} (hname : m.name = m'.name)
    (hstatic : m.isStatic = m'.isStatic) (hreturns : m.returns = m'.returns)
    (hparams : m.params.map VarDecl.unplaced = m'.params.map VarDecl.unplaced)
    (hlocals : m.locals.map VarDecl.unplaced = m'.locals.map VarDecl.unplaced)
    (hbody : m.body.map (Stmt.retag f) = m'.body.map (Stmt.retag f)) : m.retag f = m'.retag f := by
  rw [Method.retag, Method.retag, hname, hstatic, hreturns, hparams, hlocals, hbody]

def Class.retag (f : Tag → Tag) (c : Class) : Class :=
  { c with
    fields := c.fields.map VarDecl.unplaced
    methods := c.methods.map (Method.retag f)
    loc := .start }

theorem Class.retag_congr {f : Tag → Tag} {c c' : Class} (hname : c.name = c'.name) (hparent : c.parent = c'.parent)
    (hfields : c.fields.map VarDecl.unplaced = c'.fields.map VarDecl.unplaced)
    (hmethods : c.methods.map (Method.retag f) = c'.methods.map (Method.retag f)) : c.retag f = c'.retag f := by
  rw [Class.retag, Class.retag, hname, hparent, hfields, hmethods]

def Program.retag (f : Tag → Tag) (p : Program) : Program := ⟨p.classes.map (Class.retag f)⟩

def Tag.bare (_ : Tag) : Tag := ⟨0, .start⟩

end Backflow
