import Backflow.Proofs.PrintedExpr
import Backflow.Proofs.ProgramGrammar
import Backflow.Proofs.Statements

namespace Backflow

open Grammar Lexer

namespace Stmt

def headWords : Stmt → List Lexeme
  | block _ _ => []
  | assign _ target value => .ident target :: .punct .assign :: (value.lexemes ++ [.punct .semi])
  | store _ target position value => .ident target :: .punct .lbracket ::
      (position.lexemes ++ .punct .rbracket :: .punct .assign :: (value.lexemes ++ [.punct .semi]))
  | ifThen _ cond _ | ifElse _ cond _ _ => .keyword .kwIf :: .punct .lparen :: (cond.lexemes ++ [.punct .rparen])
  | loop _ cond _ => .keyword .kwWhile :: .punct .lparen :: (cond.lexemes ++ [.punct .rparen])
  | print _ value => .ident "System" :: .punct .dot :: .ident "out" :: .punct .dot :: .ident "println" ::
      .punct .lparen :: (value.lexemes ++ [.punct .rparen, .punct .semi])
  | call _ receiver method args => (Expr.call receiver method args).lexemes ++ [.punct .semi]
  | ret _ (some value) => .keyword .kwReturn :: (value.lexemes ++ [.punct .semi])
  | ret _ none => [.keyword .kwReturn, .punct .semi]
  | brk _ => [.keyword .kwBreak, .punct .semi]
  | cont _ => [.keyword .kwContinue, .punct .semi]

mutual

def lexemes : Stmt → List Lexeme
  | block _ body => .punct .lbrace :: (lexemesList body ++ [.punct .rbrace])
  | ifThen t c yes => (ifThen t c yes).headWords ++ yes.lexemes
  | ifElse t c yes no => (ifElse t c yes no).headWords ++ (yes.lexemes ++ .keyword .kwElse :: no.lexemes)
  | loop t c body => (loop t c body).headWords ++ body.lexemes
  | s => s.headWords

def lexemesList : List Stmt → List Lexeme
  | [] => []
  | s :: rest => s.lexemes ++ lexemesList rest

end

def exprs : Stmt → List Expr
  | assign _ _ e | print _ e | ifThen _ e _ | ifElse _ e _ _ | loop _ e _ | ret _ (some e) => [e]
  | store _ _ i e => [i, e]
  | call _ receiver method args => [.call receiver method args]
  | block _ _ | ret _ none | brk _ | cont _ => []

mutual

/-- The levels of nesting that a statement's text opens, its own included. -/
def nesting : Stmt → Nat
  | block _ body => nestingList body + 1
  | ifThen _ c yes => max (c.nesting + 1) yes.nesting + 1
  | ifElse _ c yes no => max (c.nesting + 1) (max yes.nesting no.nesting) + 1
  | loop _ c body => max (c.nesting + 1) body.nesting + 1
  | s => Expr.nestingList s.exprs + 1

def nestingList : List Stmt → Nat
  | [] => 0
  | s :: rest => max s.nesting (nestingList rest)

end

/-- The text of the call statement begins like another statement. -/
def inDisguise : Stmt → Bool
  | call _ receiver method args => disguised (Expr.call receiver method args).lexemes
  | _ => false

end Stmt

def VarDecl.lexemes (v : VarDecl) : List Lexeme := v.type.lexemes ++ [.ident v.name]

def Method.modifiers (m : Method) : List Lexeme :=
  .keyword .kwPublic :: if m.isStatic then [.keyword .kwStatic] else []

def Method.headWords (m : Method) : List Lexeme :=
  m.modifiers ++ (m.returns.lexemes ++ .ident m.name :: .punct .lparen ::
    (commas (m.params.map VarDecl.lexemes) ++ [.punct .rparen, .punct .lbrace]))

def Method.lexemes (m : Method) : List Lexeme :=
  m.headWords ++ (m.locals.flatMap (fun v => v.lexemes ++ [.punct .semi]) ++
    (Stmt.lexemesList m.body ++ [.punct .rbrace]))

def parentWords : Option String → List Lexeme
  | some name => [.keyword .kwExtends, .ident name]
  | none => []

def Class.headWords (c : Class) : List Lexeme :=
  .keyword .kwClass :: .ident c.name :: (parentWords c.parent ++ [.punct .lbrace])

def Class.lexemes (c : Class) : List Lexeme :=
  c.headWords ++ (c.fields.flatMap (fun v => v.lexemes ++ [.punct .semi]) ++
    (c.methods.flatMap Method.lexemes ++ [.punct .rbrace]))

def Program.lexemes (p : Program) : List Lexeme := p.classes.flatMap Class.lexemes

namespace Printer

def WritesLines (ws : List Lexeme) (lines : List String) : Prop :=
  ∀ ⦃us : List Lexeme⦄ ⦃cs : List Char⦄, Written us cs → Written (ws ++ us) ((unlines lines).toList ++ cs)

variable {ws us : List Lexeme} {ls ls' : List String} {s : String}

theorem toList_unlines (ls : List String) : (unlines ls).toList = ls.flatMap fun l => l.toList ++ ['\n'] := by
  rw [unlines, String.toList_join, List.flatMap_map]
  simp only [String.toList_append]
  rfl

theorem writesLines_nil : WritesLines [] [] := fun _ _ hus => hus

theorem WritesLines.append (h : WritesLines ws ls) (h' : WritesLines us ls') :
    WritesLines (ws ++ us) (ls ++ ls') := by
  intro vs cs hvs
  rw [toList_unlines, List.flatMap_append, ← toList_unlines, ← toList_unlines, List.append_assoc, List.append_assoc]
  exact h (h' hvs)

theorem Written.blanks {cs : List Char} (h : Written ws cs) (n : Nat) : Written ws (List.replicate n ' ' ++ cs) := by
  induction n with
  | zero => exact h
  | succ n ih => exact .blank ' ' rfl ih

theorem writesLines_line {text : String} (h : Writes ws text) (depth : Nat) : WritesLines ws [line depth text] := by
  intro us cs hus
  rw [toList_unlines, List.flatMap_singleton, line, String.toList_append, String.toList_ofList, List.append_assoc,
    List.append_assoc]
  have hblanks := Written.blanks (h (.blank '\n' rfl hus) (stops_cons rfl cs)) (4 * depth)
  exact hblanks

theorem writesLines_flatMap {α : Type} {W : α → List Lexeme} {L : α → List String} {xs : List α}
    (h : ∀ x ∈ xs, WritesLines (W x) (L x)) : WritesLines (xs.flatMap W) (xs.flatMap L) := by
  induction xs with
  | nil => exact writesLines_nil
  | cons x xs ih =>
      obtain ⟨hx, hxs⟩ := List.forall_mem_cons.1 h
      rw [List.flatMap_cons, List.flatMap_cons]
      exact hx.append (ih hxs)

theorem writes_mark {p : Punct} (hp : ∀ c, joins (.punct p) c = false) : Writes [.punct p] p.text :=
  fun _ _ hus _ => .mark hp hus

theorem writes_semi (h : Writes ws s) : Writes (ws ++ [.punct .semi]) (s ++ ";") := by
  intro us cs hus _
  rw [String.toList_append, List.append_assoc, List.append_assoc]
  exact h.mark (p := .semi) (fun _ => rfl) hus

theorem writes_type {ty : Ty} (h : ∀ w ∈ ty.lexemes, Lexer.Readable w) : Writes ty.lexemes ty.text := by
  have hbrackets : ∀ k : Keyword, Writes [.keyword k, .punct .lbracket, .punct .rbracket] (k.text ++ "[]") := by
    intro k us cs hus _
    rw [String.toList_append, List.append_assoc]
    exact (writes_keyword k).mark (p := .lbracket) (fun _ => rfl) (.mark (p := .rbracket) (fun _ => rfl) hus)
  cases ty with
  | int | boolean | void => exact writes_keyword _
  | intArray => exact hbrackets .kwInt
  | stringArray => exact hbrackets .kwString
  | named name => exact writes_ident (h _ List.mem_cons_self).1

theorem writes_declText {v : VarDecl} (h : ∀ w ∈ v.lexemes, Lexer.Readable w) : Writes v.lexemes (declText v) := by
  obtain ⟨htype, hname⟩ := List.forall_mem_append.1 h
  intro us cs hus hcs
  rw [declText, VarDecl.lexemes, String.toList_append, String.toList_append, List.append_assoc, List.append_assoc,
    List.append_assoc]
  exact (writes_type htype).blank (writes_ident (hname _ List.mem_cons_self).1 hus hcs)

theorem writes_header {s : Stmt} (hs : s.isBlock = false) (h : ∀ w ∈ s.headWords, Lexer.Readable w) :
    Writes s.headWords s.header := by
  have hcond (k : Keyword) {c : Expr} (hc : c.Readable) :
      Writes (.keyword k :: .punct .lparen :: (c.lexemes ++ [.punct .rparen])) (k.text ++ " (" ++ c.text ++ ")") := by
    intro us cs hus _
    simp only [String.toList_append, List.append_assoc, List.cons_append, List.nil_append]
    exact (writes_keyword k).blank (.mark (p := .lparen) (fun _ => rfl)
      ((Expr.writes_text hc).mark (p := .rparen) (fun _ => rfl) hus))
  cases s with
  | block => cases hs
  | ifThen t c | ifElse t c =>
      simp only [Stmt.headWords, List.forall_mem_cons, List.forall_mem_append] at h
      exact hcond .kwIf h.2.2.1
  | loop t c =>
      simp only [Stmt.headWords, List.forall_mem_cons, List.forall_mem_append] at h
      exact hcond .kwWhile h.2.2.1
  | call t r f args => exact writes_semi (Expr.writes_text (List.forall_mem_append.1 h).1)
  | assign t x e =>
      simp only [Stmt.headWords, List.forall_mem_cons, List.forall_mem_append] at h
      intro us cs hus _
      have hvalue := (Expr.writes_text h.2.2.1).mark (p := .semi) (fun _ => rfl) hus
      change Written _ ((x ++ " = " ++ e.text ++ ";").toList ++ cs)
      simp only [Stmt.headWords, String.toList_append, List.append_assoc, List.cons_append, List.nil_append]
      exact writes_ident h.1.1 (.spaced .assign hvalue) (stops_cons rfl _)
  | store t x i e =>
      simp only [Stmt.headWords, List.forall_mem_cons, List.forall_mem_append] at h
      obtain ⟨hx, _, hi, _, _, he, _⟩ := h
      intro us cs hus _
      have hvalue := (Expr.writes_text he).mark (p := .semi) (fun _ => rfl) hus
      have hplace := (Expr.writes_text hi).mark (p := .rbracket) (fun _ => rfl) (.spaced .assign hvalue)
      change Written _ ((x ++ "[" ++ i.text ++ "] = " ++ e.text ++ ";").toList ++ cs)
      simp only [Stmt.headWords, String.toList_append, List.append_assoc, List.cons_append, List.nil_append]
      exact (writes_ident hx.1).mark (p := .lbracket) (fun _ => rfl) hplace
  | print t e =>
      simp only [Stmt.headWords, List.forall_mem_cons, List.forall_mem_append] at h
      obtain ⟨hsystem, _, hout, _, hprintln, _, he, _⟩ := h
      intro us cs hus _
      have hvalue := (Expr.writes_text he).mark (p := .rparen) (fun _ => rfl)
        (.mark (p := .semi) (fun _ => rfl) hus)
      have hprintln := (writes_ident hprintln.1).mark (p := .lparen) (fun _ => rfl) hvalue
      have hout := (writes_ident hout.1).mark (p := .dot) (fun _ => rfl) hprintln
      change Written _ (("System.out.println(" ++ e.text ++ ");").toList ++ cs)
      simp only [Stmt.headWords, String.toList_append, List.append_assoc, List.cons_append, List.nil_append]
      exact (writes_ident hsystem.1).mark (p := .dot) (fun _ => rfl) hout
  | ret t value =>
      cases value with
      | none => exact writes_semi (writes_keyword .kwReturn)
      | some e =>
          simp only [Stmt.headWords, List.forall_mem_cons, List.forall_mem_append] at h
          intro us cs hus _
          have hvalue := (Expr.writes_text h.2.1).mark (p := .semi) (fun _ => rfl) hus
          change Written _ (("return " ++ e.text ++ ";").toList ++ cs)
          simp only [Stmt.headWords, String.toList_append, List.append_assoc, List.cons_append, List.nil_append]
          exact (writes_keyword .kwReturn).blank hvalue
  | brk t => exact writes_semi (writes_keyword .kwBreak)
  | cont t => exact writes_semi (writes_keyword .kwContinue)

theorem writesLines_stmt :
    (∀ s : Stmt, (∀ w ∈ s.lexemes, Lexer.Readable w) → ∀ depth,
      WritesLines s.lexemes (stmtLines (fun _ => none) s depth)) ∧
    ∀ l : List Stmt, (∀ w ∈ Stmt.lexemesList l, Lexer.Readable w) → ∀ depth,
      WritesLines (Stmt.lexemesList l) (stmtsLines (fun _ => none) l depth) := by
  apply Stmt.induction
  case plain =>
    intro s hs
    apply hs.cases <;> intros <;> exact writesLines_line (writes_header rfl ‹_›) _
  case ret | brk | cont => intros; exact writesLines_line (writes_header rfl ‹_›) _
  case block =>
    intro t body ih h depth
    obtain ⟨hbody, _⟩ := List.forall_mem_append.1 (List.forall_mem_cons.1 h).2
    have hopen := writesLines_line (writes_mark (p := .lbrace) fun _ => rfl) depth
    have hclose := writesLines_line (writes_mark (p := .rbrace) fun _ => rfl) depth
    exact hopen.append ((ih hbody (depth + 1)).append hclose)
  case ifThen =>
    intro t c yes ih h depth
    obtain ⟨hhead, hyes⟩ := List.forall_mem_append.1 h
    exact (writesLines_line (writes_header rfl hhead) depth).append (ih hyes _)
  case ifElse =>
    intro t c yes no ihyes ihno h depth
    simp only [Stmt.lexemes, List.forall_mem_append, List.forall_mem_cons] at h
    obtain ⟨hhead, hyes, _, hno⟩ := h
    have hhead := writesLines_line (writes_header (s := .ifElse t c yes no) rfl hhead) depth
    have helse := writesLines_line (writes_keyword .kwElse) depth
    exact hhead.append ((ihyes hyes _).append (helse.append (ihno hno _)))
  case loop =>
    intro t c body ih h depth
    obtain ⟨hhead, hbody⟩ := List.forall_mem_append.1 h
    exact (writesLines_line (writes_header rfl hhead) depth).append (ih hbody _)
  case nil => exact fun _ _ => writesLines_nil
  case cons =>
    intro s rest ihs ihrest h depth
    obtain ⟨hs, hrest⟩ := List.forall_mem_append.1 h
    exact (ihs hs depth).append (ihrest hrest depth)

theorem writesLines_declarations {vs : List VarDecl} {depth : Nat}
    (h : ∀ w ∈ vs.flatMap fun v => v.lexemes ++ [.punct .semi], Lexer.Readable w) :
    WritesLines (vs.flatMap fun v => v.lexemes ++ [.punct .semi])
      (vs.map fun v => line depth (declText v ++ ";")) := by
  rw [List.forall_mem_flatMap] at h
  rw [List.map_eq_flatMap]
  refine writesLines_flatMap fun v hv => writesLines_line (writes_semi (writes_declText ?_)) depth
  exact (List.forall_mem_append.1 (h v hv)).1

theorem writes_methodHeader {m : Method} (h : ∀ w ∈ m.headWords, Lexer.Readable w) :
    Writes m.headWords (methodHeader m) := by
  intro us cs hus _
  simp only [Method.headWords, List.forall_mem_cons, List.forall_mem_append,
    Expr.forall_mem_commas (readable_punct .comma), List.forall_mem_map] at h
  obtain ⟨_, htype, hname, _, hparams, _⟩ := h
  have hlist := writes_commas fun v hv => writes_declText (hparams v hv)
  have htail := hlist.mark (p := .rparen) (fun _ => rfl) (.blank ' ' rfl (.mark (p := .lbrace) (fun _ => rfl) hus))
  have hrest := (writes_type htype).blank ((writes_ident hname.1).mark (p := .lparen) (fun _ => rfl) htail)
  unfold Method.headWords Method.modifiers methodHeader
  simp only [String.toList_append, List.append_assoc, List.cons_append, List.nil_append]
  cases m.isStatic with
  | true => exact (writes_keyword .kwPublic).blank ((writes_keyword .kwStatic).blank hrest)
  | false => exact (writes_keyword .kwPublic).blank hrest

theorem writesLines_method {m : Method} (h : ∀ w ∈ m.lexemes, Lexer.Readable w) (depth : Nat) :
    WritesLines m.lexemes (methodLines (fun _ => none) m depth) := by
  simp only [Method.lexemes, List.forall_mem_append] at h
  obtain ⟨hhead, hlocals, hbody, _⟩ := h
  have hclose := writesLines_line (writes_mark (p := .rbrace) fun _ => rfl) depth
  exact (writesLines_line (writes_methodHeader hhead) depth).append
    ((writesLines_declarations hlocals).append ((writesLines_stmt.2 m.body hbody (depth + 1)).append hclose))

theorem writes_classHeader {c : Class} (h : ∀ w ∈ c.headWords, Lexer.Readable w) :
    Writes c.headWords (classHeader c) := by
  intro us cs hus _
  simp only [Class.headWords, List.forall_mem_cons, List.forall_mem_append] at h
  obtain ⟨_, hname, hparent, _⟩ := h
  have hopen : Written (.punct .lbrace :: us) (' ' :: ("\x7b".toList ++ cs)) :=
    .blank ' ' rfl (.mark (p := .lbrace) (fun _ => rfl) hus)
  unfold classHeader Class.headWords
  cases hp : c.parent with
  | none =>
      simp only [parentWords, String.toList_append, List.append_assoc, List.cons_append, List.nil_append]
      exact (writes_keyword .kwClass).blank (writes_ident hname.1 hopen (stops_cons rfl _))
  | some q =>
      rw [hp] at hparent
      have hq := (hparent _ (List.mem_cons_of_mem _ List.mem_cons_self)).1
      have hextends := (writes_keyword .kwExtends).blank (writes_ident hq hopen (stops_cons rfl _))
      simp only [parentWords, String.toList_append, List.append_assoc, List.cons_append, List.nil_append]
      exact (writes_keyword .kwClass).blank ((writes_ident hname.1).blank hextends)

theorem writesLines_class {c : Class} (h : ∀ w ∈ c.lexemes, Lexer.Readable w) :
    WritesLines c.lexemes (classLines (fun _ => none) c) := by
  simp only [Class.lexemes, List.forall_mem_append] at h
  obtain ⟨hhead, hfields, hmethods, _⟩ := h
  rw [List.forall_mem_flatMap] at hmethods
  have hmethods := writesLines_flatMap fun m hm => writesLines_method (hmethods m hm) 1
  exact (writesLines_line (writes_classHeader hhead) 0).append ((writesLines_declarations hfields).append
    (hmethods.append (writesLines_line (writes_mark (p := .rbrace) fun _ => rfl) 0)))

theorem writesLines_classes {cs : List Class} (h : ∀ c ∈ cs, ∀ w ∈ c.lexemes, Lexer.Readable w) :
    WritesLines (cs.flatMap Class.lexemes) (classesLines (fun _ => none) cs) := by
  induction cs with
  | nil => exact writesLines_nil
  | cons c rest ih =>
      obtain ⟨hc, hrest⟩ := List.forall_mem_cons.1 h
      cases rest with
      | nil => simpa [classesLines] using writesLines_class hc
      | cons d rest =>
          have hempty : WritesLines [] [""] := fun _ _ hus => .blank '\n' rfl hus
          exact (writesLines_class hc).append (hempty.append (ih hrest))

end Printer

/-- The text of a program of readable words is read as these words. -/
theorem Program.lex_print {p : Program} (h : ∀ w ∈ p.lexemes, Lexer.Readable w) :
    ∃ s, Lexer.lex (p.print fun _ => none) = .ok s ∧ words s.tokens = p.lexemes := by
  have hlines := Printer.writesLines_classes (List.forall_mem_flatMap.1 h) .nil
  rw [List.append_nil, List.append_nil] at hlines
  exact lexFrom_written hlines .start

end Backflow
