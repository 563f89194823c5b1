import Backflow.Proofs.PrintedProgram

namespace Backflow

open Grammar

namespace Stmt

/-- The number of call statements in disguise in the statement's text. -/
def disguises (s : Stmt) : Nat := s.preorder.countP inDisguise

def Regular (s : Stmt) : Prop := ∀ x ∈ s.preorder, ∀ e ∈ x.exprs, e.regular = true

theorem lexemesList_eq_flatMap (l : List Stmt) : lexemesList l = l.flatMap lexemes := by
  induction l with
  | nil => rfl
  | cons s rest ih => rw [lexemesList, ih, List.flatMap_cons]

theorem nestingList_eq_foldr (l : List Stmt) : nestingList l = (l.map nesting).foldr max 0 := by
  induction l with
  | nil => rfl
  | cons s rest ih => rw [nestingList, ih, List.map_cons, List.foldr_cons]

theorem disguises_block (t : Tag) (body : List Stmt) :
    (block t body).disguises = (body.map disguises).foldr (· + ·) 0 := by
  rw [disguises, preorder, List.countP_cons_of_neg (by simp [inDisguise])]
  induction body with
  | nil => rfl
  | cons s rest ih => rw [preorderList, List.countP_append, ih, List.map_cons, List.foldr_cons, disguises]

theorem disguises_ifElse (t : Tag) (c : Expr) (yes no : Stmt) :
    (ifElse t c yes no).disguises = yes.disguises + no.disguises := by
  rw [disguises, preorder, List.countP_cons_of_neg (by simp [inDisguise]), List.countP_append]
  rfl

theorem regular_block {t : Tag} {body : List Stmt} : (block t body).Regular ↔ ∀ s ∈ body, s.Regular := by
  rw [Regular, preorder, List.forall_mem_cons, preorderList_eq_flatMap, List.forall_mem_flatMap]
  simp [exprs, Regular]

theorem regular_ifThen {t : Tag} {c : Expr} {yes : Stmt} :
    (ifThen t c yes).Regular ↔ c.regular = true ∧ yes.Regular := by
  rw [Regular, preorder, List.forall_mem_cons, exprs, List.forall_mem_singleton, Regular]

theorem regular_ifElse {t : Tag} {c : Expr} {yes no : Stmt} :
    (ifElse t c yes no).Regular ↔ c.regular = true ∧ yes.Regular ∧ no.Regular := by
  rw [Regular, preorder, List.forall_mem_cons, exprs, List.forall_mem_singleton, List.forall_mem_append, Regular,
    Regular]

theorem regular_loop {t : Tag} {c : Expr} {body : Stmt} :
    (loop t c body).Regular ↔ c.regular = true ∧ body.Regular := by
  rw [Regular, preorder, List.forall_mem_cons, exprs, List.forall_mem_singleton, Regular]

theorem regular_leaf {s : Stmt} (h : s.preorder = [s]) : s.Regular ↔ ∀ e ∈ s.exprs, e.regular = true := by
  rw [Regular, h, List.forall_mem_singleton]

end Stmt

namespace Grammar

theorem Piece.forall_mem_spelled {α : Type} {P : Lexeme → Prop} {ps : List (Piece α)} :
    (∀ w ∈ words (Piece.spelled ps), P w) ↔ ∀ p ∈ ps, ∀ w ∈ words p.tokens, P w := by
  rw [words, Piece.spelled, List.map_flatMap, List.forall_mem_flatMap]
  rfl

theorem exists_pieces_of {α : Type} {G : α → List Token → Nat → Nat → Prop} {W : α → List Lexeme} {xs : List α}
    (h : ∀ x ∈ xs, ∃ ts d k, words ts = W x ∧ G x ts d k) :
    ∃ ps : List (Piece α), ps.map (·.value) = xs ∧ words (Piece.spelled ps) = xs.flatMap W ∧
      ∀ p ∈ ps, G p.value p.tokens p.depth p.disguises := by
  induction xs with
  | nil => exact ⟨[], rfl, rfl, List.forall_mem_nil _⟩
  | cons x xs ih =>
      obtain ⟨⟨ts, d, k, hts, hG⟩, hxs⟩ := List.forall_mem_cons.1 h
      obtain ⟨ps, rfl, hwords, hall⟩ := ih hxs
      refine ⟨⟨x, ts, d, k⟩ :: ps, rfl, ?_, List.forall_mem_cons.2 ⟨hG, hall⟩⟩
      rw [Piece.spelled, List.flatMap_cons, words_append, hts, ← Piece.spelled, hwords, List.flatMap_cons]

section Readable

variable {e : Expr} {s : Stmt} {ts : List Token} {d k : Nat}

theorem Ended.readable (h : Ended e ts d) (hts : ∀ w ∈ words ts, Lexer.Readable w) : e.Readable := by
  cases h with
  | mk h =>
      rw [words_append, List.forall_mem_append] at hts
      exact Expr.readable_of_renders h hts.1

theorem Condition.readable (h : Condition e ts d) (hts : ∀ w ∈ words ts, Lexer.Readable w) : e.Readable := by
  cases h with
  | mk h =>
      rw [words_cons, words_append, List.forall_mem_cons, List.forall_mem_append] at hts
      exact Expr.readable_of_renders h hts.2.1

theorem Statement.readable (h : Statement s ts d k) (hts : ∀ w ∈ words ts, Lexer.Readable w) :
    ∀ w ∈ s.lexemes, Lexer.Readable w := by
  induction h with
  | ret | brk | cont => exact hts
  | @block t l body _ ih =>
      rw [words_cons, words_append, List.forall_mem_cons, List.forall_mem_append, Piece.forall_mem_spelled] at hts
      have hbody : ∀ s ∈ body.map (·.value), ∀ w ∈ s.lexemes, Lexer.Readable w :=
        List.forall_mem_map.2 fun p hp => ih p hp (hts.2.1 p hp)
      rw [Stmt.lexemes, List.forall_mem_cons, List.forall_mem_append, Stmt.lexemesList_eq_flatMap,
        List.forall_mem_flatMap]
      exact ⟨hts.1, hbody, hts.2.2⟩
  | assign h =>
      simp only [words_cons, List.forall_mem_cons] at hts
      simpa [Stmt.lexemes, Stmt.headWords, or_imp, forall_and] using ⟨hts.1.1, h.readable hts.2.2⟩
  | store hi h =>
      simp only [words_cons, words_append, List.forall_mem_cons, List.forall_mem_append] at hts
      obtain ⟨hname, _, his, _, _, hts⟩ := hts
      have hi := Expr.readable_of_renders hi his
      simpa [Stmt.lexemes, Stmt.headWords, or_imp, forall_and] using ⟨hname.1, hi, h.readable hts⟩
  | ifThen hcond _ ih | loop hcond _ ih =>
      simp only [words_cons, words_append, List.forall_mem_cons, List.forall_mem_append] at hts
      simpa [Stmt.lexemes, Stmt.headWords, or_imp, forall_and] using ⟨hcond.readable hts.2.1, ih hts.2.2⟩
  | ifElse hcond _ _ ihyes ihno =>
      simp only [words_cons, words_append, List.forall_mem_cons, List.forall_mem_append] at hts
      obtain ⟨_, hcs, hyes, _, hno⟩ := hts
      simpa [Stmt.lexemes, Stmt.headWords, or_imp, forall_and] using ⟨hcond.readable hcs, ihyes hyes, ihno hno⟩
  | print h =>
      simp only [words_cons, words_append, List.forall_mem_cons, List.forall_mem_append] at hts
      obtain ⟨hsystem, _, hout, _, hprintln, hts, _⟩ := hts
      simpa [Stmt.lexemes, Stmt.headWords, or_imp, forall_and] using
        ⟨hsystem.1, hout.1, hprintln.1, h.readable hts⟩
  | call h _ =>
      rw [words_append, List.forall_mem_append] at hts
      exact List.forall_mem_append.2 ⟨Expr.readable_of_renders h hts.1, hts.2⟩
  | value h =>
      simp only [words_cons, List.forall_mem_cons] at hts
      simpa [Stmt.lexemes, Stmt.headWords, or_imp, forall_and, Expr.Readable] using h.readable hts.2

theorem Declares.words_eq {v : VarDecl} (h : Declares v ts) : words ts = v.lexemes := by
  cases h with
  | mk hts => rw [words_append, hts]; rfl

theorem Parameters.words_eq {vs : List VarDecl} (h : Parameters vs ts) :
    words ts = commas (vs.map VarDecl.lexemes) := by
  cases h with
  | none => rfl
  | some h =>
      induction h with
      | one hv => exact hv.words_eq
      | more hv ht hrest ih =>
          rw [words_append, words_cons, hv.words_eq, ht, ih]
          cases hrest <;> rfl

theorem Parent.words_eq {o : Option String} (h : Parent o ts) : words ts = parentWords o := by
  cases h <;> rfl

def grouped {α β : Type} (as : List α) (bs : List β) : List (α ⊕ β) := as.map .inl ++ bs.map .inr

theorem mem_grouped {α β : Type} {l : List (α ⊕ β)} {x : α ⊕ β} :
    x ∈ grouped (l.filterMap Sum.getLeft?) (l.filterMap Sum.getRight?) ↔ x ∈ l := by
  cases x <;> simp [grouped]

def partWords {β : Type} (W : β → List Lexeme) : VarDecl ⊕ β → List Lexeme :=
  Sum.elim (fun v => v.lexemes ++ [.punct .semi]) W

theorem flatMap_grouped {β : Type} {W : β → List Lexeme} (vs : List VarDecl) (bs : List β) :
    (grouped vs bs).flatMap (partWords W) = vs.flatMap (fun v => v.lexemes ++ [.punct .semi]) ++ bs.flatMap W := by
  rw [grouped, List.flatMap_append, List.flatMap_map, List.flatMap_map]
  rfl

theorem lexemes_method (m : Method) :
    m.lexemes = m.headWords ++ ((grouped m.locals m.body).flatMap (partWords Stmt.lexemes) ++ [.punct .rbrace]) := by
  rw [Method.lexemes, flatMap_grouped, Stmt.lexemesList_eq_flatMap, List.append_assoc]

theorem lexemes_class (c : Class) :
    c.lexemes =
      c.headWords ++ ((grouped c.fields c.methods).flatMap (partWords Method.lexemes) ++ [.punct .rbrace]) := by
  rw [Class.lexemes, flatMap_grouped, List.append_assoc]

theorem Piece.forall_grouped {α β : Type} {W : α ⊕ β → List Lexeme} {P : Lexeme → Prop} {ps : List (Piece (α ⊕ β))}
    (h : ∀ p ∈ ps, ∀ w ∈ W p.value, P w) :
    ∀ w ∈ (grouped ((ps.map (·.value)).filterMap Sum.getLeft?)
      ((ps.map (·.value)).filterMap Sum.getRight?)).flatMap W, P w := by
  refine List.forall_mem_flatMap.2 fun x hx => ?_
  obtain ⟨p, hp, rfl⟩ := List.mem_map.1 (mem_grouped.1 hx)
  exact h p hp

theorem Item.readable {x : VarDecl ⊕ Stmt} (h : Item x ts d k) (hts : ∀ w ∈ words ts, Lexer.Readable w) :
    ∀ w ∈ partWords Stmt.lexemes x, Lexer.Readable w := by
  cases h with
  | declares hv =>
      rw [words_append, hv.words_eq] at hts
      exact hts
  | states h => exact h.readable hts

theorem Member.readable {x : VarDecl ⊕ Method} (h : Member x ts d k) (hts : ∀ w ∈ words ts, Lexer.Readable w) :
    ∀ w ∈ partWords Method.lexemes x, Lexer.Readable w := by
  cases h with
  | field _ htype =>
      rw [words_append, words_append, htype, List.forall_mem_append] at hts
      simpa [partWords, VarDecl.lexemes] using hts.2
  | @method m ms ts ps l₁ l₂ l₃ l₄ l₅ items _ _ htype _ hparams hitems hlocals hbody =>
      simp only [words_append, words_cons, htype, hparams.words_eq, List.forall_mem_append, List.forall_mem_cons,
        Piece.forall_mem_spelled] at hts
      obtain ⟨_, hret, hname, _, hps, _, _, hspelled, _⟩ := hts
      have hhead : ∀ w ∈ m.headWords, Lexer.Readable w := by
        have hmodifiers : ∀ w ∈ m.modifiers, Lexer.Readable w := by
          unfold Method.modifiers
          split <;> simp
        simp only [Method.headWords, List.forall_mem_cons, List.forall_mem_append]
        exact ⟨hmodifiers, hret, hname, by simp, hps, by simp⟩
      have hparts := Piece.forall_grouped fun p hp => (hitems p hp).readable (hspelled p hp)
      rw [← hlocals, ← hbody] at hparts
      rw [partWords, Sum.elim_inr, lexemes_method, List.forall_mem_append, List.forall_mem_append]
      exact ⟨hhead, hparts, by simp⟩

theorem ClassText.readable {c : Class} (h : ClassText c ts d k) (hts : ∀ w ∈ words ts, Lexer.Readable w) :
    ∀ w ∈ c.lexemes, Lexer.Readable w := by
  cases h with
  | mk members hparent hmembers hfields hmethods =>
      simp only [words_append, words_cons, hparent.words_eq, List.forall_mem_append, List.forall_mem_cons,
        Piece.forall_mem_spelled] at hts
      obtain ⟨_, hname, hps, _, hspelled, _⟩ := hts
      have hhead : ∀ w ∈ c.headWords, Lexer.Readable w := by
        simp only [Class.headWords, List.forall_mem_cons, List.forall_mem_append]
        exact ⟨by simp, hname, hps, by simp⟩
      have hparts := Piece.forall_grouped fun p hp => (hmembers p hp).readable (hspelled p hp)
      rw [← hfields, ← hmethods] at hparts
      rw [lexemes_class, List.forall_mem_append, List.forall_mem_append]
      exact ⟨hhead, hparts, by simp⟩

theorem Derives.readable {p : Program} (h : Derives p ts d k) (hts : ∀ w ∈ words ts, Lexer.Readable w) :
    ∀ w ∈ p.lexemes, Lexer.Readable w := by
  cases h with
  | mk classes hclasses =>
      rw [Piece.forall_mem_spelled] at hts
      rw [Program.lexemes, List.forall_mem_flatMap, List.forall_mem_map]
      exact fun c hc => (hclasses c hc).readable (hts c hc)

theorem Item.local_type {x : VarDecl ⊕ Stmt} (h : Item x ts d k) :
    Sum.elim (fun v => v.type ≠ .void) (fun _ => True) x := by
  cases h with
  | declares _ hty => exact hty
  | states => trivial

theorem Member.local_type {x : VarDecl ⊕ Method} (h : Member x ts d k) :
    Sum.elim (fun _ => True) (fun m => ∀ v ∈ m.locals, v.type ≠ .void) x := by
  cases h with
  | field => trivial
  | method items _ _ _ _ _ hitems hlocals =>
      intro v hv
      rw [hlocals] at hv
      obtain ⟨x, hx, hleft⟩ := List.mem_filterMap.1 hv
      obtain ⟨p, hp, rfl⟩ := List.mem_map.1 hx
      have htype := (hitems p hp).local_type
      rwa [Sum.getLeft?_eq_some_iff.1 hleft] at htype

theorem ClassText.local_type {c : Class} (h : ClassText c ts d k) :
    ∀ m ∈ c.methods, ∀ v ∈ m.locals, v.type ≠ .void := by
  cases h with
  | mk members _ hmembers _ hmethods =>
      rw [hmethods]
      exact Piece.forall_getRight?.2 fun p hp => (hmembers p hp).local_type

theorem Derives.local_type {p : Program} (h : Derives p ts d k) :
    ∀ c ∈ p.classes, ∀ m ∈ c.methods, ∀ v ∈ m.locals, v.type ≠ .void := by
  cases h with
  | mk classes hclasses => exact List.forall_mem_map.2 fun c hc => (hclasses c hc).local_type

end Readable

section Derivation

def place (l : Location) (ws : List Lexeme) : List Token := ws.map (⟨·, l⟩)

@[simp] theorem words_place (l : Location) (ws : List Lexeme) : words (place l ws) = ws := by
  rw [words, place, List.map_map]
  exact List.map_id ws

variable {e : Expr} {s : Stmt}

theorem renders_place (h : e.regular = true) (l : Location) :
    Renders .whole e (words (place l e.lexemes)) (e.nesting + 1) := by
  rw [words_place]
  exact Expr.renders_whole (Expr.renders_lexemes h)

theorem ended_place (h : e.regular = true) (l : Location) :
    Ended e (place l e.lexemes ++ [⟨.punct .semi, l⟩]) (e.nesting + 1) :=
  .mk (renders_place h l)

theorem condition_place (h : e.regular = true) (l : Location) :
    Condition e (⟨.punct .lparen, l⟩ :: (place l e.lexemes ++ [⟨.punct .rparen, l⟩])) (e.nesting + 1) :=
  .mk (renders_place h l)

theorem starts_place {ws : List Lexeme} (h : ws ≠ []) (l : Location) : Starts (place l ws) l := by
  obtain ⟨w, us, rfl⟩ := List.exists_cons_of_ne_nil h
  rfl

def Spelled (s : Stmt) : Prop :=
  ∃ ts d k, words ts = s.lexemes ∧ Statement s ts d k ∧ d = s.nesting ∧ k = s.disguises

theorem spelled_plain (hs : s.Plain) (h : s.Regular) : Spelled s := by
  revert h
  apply hs.cases
  · intro t x e h
    have he := (Stmt.regular_leaf rfl).1 h e List.mem_cons_self
    refine ⟨_, _, _, ?_, .assign (l := t.loc) (ended_place he t.loc), ?_, rfl⟩
    · simp [Stmt.lexemes, Stmt.headWords]
    · simp [Stmt.nesting, Stmt.exprs, Expr.nestingList]
  · intro t x i e h
    obtain ⟨hi, he⟩ : i.regular = true ∧ e.regular = true := by simpa [Stmt.exprs] using (Stmt.regular_leaf rfl).1 h
    have hstore := @Statement.store t x i e _ _ _ _ t.loc t.loc t.loc (renders_place hi t.loc) (ended_place he t.loc)
    refine ⟨_, _, _, ?_, hstore, ?_, rfl⟩
    · simp [Stmt.lexemes, Stmt.headWords]
    · simp [Stmt.nesting, Stmt.exprs, Expr.nestingList]
  · intro t e h
    have he := (Stmt.regular_leaf rfl).1 h e List.mem_cons_self
    have hprint := @Statement.print t e _ _ t.loc t.loc t.loc t.loc t.loc (condition_place he t.loc)
    refine ⟨_, _, _, ?_, hprint, ?_, rfl⟩
    · simp [Stmt.lexemes, Stmt.headWords]
    · simp [Stmt.nesting, Stmt.exprs, Expr.nestingList]
  · intro t r f args h
    have hcall := renders_place ((Stmt.regular_leaf rfl).1 h _ List.mem_cons_self) t.loc
    have hne : (Expr.call r f args).lexemes ≠ [] := by simpa using hcall.ne_nil
    refine ⟨_, _, _, ?_, .call (l := t.loc) hcall (starts_place hne t.loc), ?_, ?_⟩
    · simp [Stmt.lexemes, Stmt.headWords]
    · simp [Stmt.nesting, Stmt.exprs, Expr.nestingList]
    · have hone : (Stmt.call t r f args).disguises = [Stmt.call t r f args].countP Stmt.inDisguise := rfl
      rw [words_place, hone, List.countP_singleton, Stmt.inDisguise]
      cases disguised (Expr.call r f args).lexemes <;> rfl

theorem spelled_block {t : Tag} {body : List Stmt} (h : ∀ s ∈ body, Spelled s) : Spelled (.block t body) := by
  obtain ⟨ps, rfl, hwords, hall⟩ := exists_pieces_of h
  refine ⟨_, _, _, ?_, .block (t := t) (l := t.loc) ps fun p hp => (hall p hp).1, ?_, ?_⟩
  · rw [words_cons, words_append, hwords, Stmt.lexemes, Stmt.lexemesList_eq_flatMap]
    rfl
  · rw [Stmt.nesting, Stmt.nestingList_eq_foldr, List.map_map, Piece.deepest,
      List.map_congr_left fun p hp => (hall p hp).2.1]
    rfl
  · rw [Stmt.disguises_block, List.map_map, Piece.total, List.map_congr_left fun p hp => (hall p hp).2.2]
    rfl

/-- The words of a regular statement's text spell the statement. -/
theorem spelled_of_regular (s : Stmt) : s.Regular → Spelled s := by
  have hall : (∀ s : Stmt, s.Regular → Spelled s) ∧ ∀ l : List Stmt, ∀ s ∈ l, s.Regular → Spelled s := by
    apply Stmt.induction
    case plain => exact fun s => spelled_plain
    case ret =>
      intro t value h
      cases value with
      | none => exact ⟨_, _, _, rfl, .ret (l := t.loc), rfl, rfl⟩
      | some e =>
          have he := (Stmt.regular_leaf rfl).1 h e List.mem_cons_self
          refine ⟨_, _, _, ?_, .value (ended_place he t.loc), ?_, rfl⟩
          · simp [Stmt.lexemes, Stmt.headWords]
          · simp [Stmt.nesting, Stmt.exprs, Expr.nestingList]
    case brk => exact fun t _ => ⟨_, _, _, rfl, .brk (l := t.loc), rfl, rfl⟩
    case cont => exact fun t _ => ⟨_, _, _, rfl, .cont (l := t.loc), rfl, rfl⟩
    case block => exact fun t body ih h => spelled_block fun s hs => ih s hs (Stmt.regular_block.1 h s hs)
    case ifThen =>
      intro t c yes ih h
      obtain ⟨hc, hyes⟩ := Stmt.regular_ifThen.1 h
      obtain ⟨ts, d, k, hts, hyes, rfl, rfl⟩ := ih hyes
      refine ⟨_, _, _, ?_, .ifThen (condition_place hc t.loc) hyes, rfl, rfl⟩
      simp [hts, Stmt.lexemes, Stmt.headWords]
    case ifElse =>
      intro t c yes no ihyes ihno h
      obtain ⟨hc, hyes, hno⟩ := Stmt.regular_ifElse.1 h
      obtain ⟨ts, d₁, k₁, hts, hyes, rfl, rfl⟩ := ihyes hyes
      obtain ⟨us, d₂, k₂, hus, hno, rfl, rfl⟩ := ihno hno
      refine ⟨_, _, _, ?_, .ifElse (l := t.loc) (condition_place hc t.loc) hyes hno, rfl, ?_⟩
      · simp [hts, hus, Stmt.lexemes, Stmt.headWords]
      · rw [Stmt.disguises_ifElse]
    case loop =>
      intro t c body ih h
      obtain ⟨hc, hbody⟩ := Stmt.regular_loop.1 h
      obtain ⟨ts, d, k, hts, hbody, rfl, rfl⟩ := ih hbody
      refine ⟨_, _, _, ?_, .loop (condition_place hc t.loc) hbody, rfl, rfl⟩
      simp [hts, Stmt.lexemes, Stmt.headWords]
    case nil => exact List.forall_mem_nil _
    case cons => exact fun s rest hs hrest => List.forall_mem_cons.2 ⟨hs, hrest⟩
  exact hall.1 s

def Sits (s : Stmt) : Prop := s.disguises = 0 ∧ s.nesting ≤ maxDepth

theorem declares_place (v : VarDecl) : Declares v (place v.loc v.type.lexemes ++ [⟨.ident v.name, v.loc⟩]) :=
  .mk (words_place _ _) (starts_place (Ty.lexemes_ne_nil _) _)

theorem item_lexemes {x : VarDecl ⊕ Stmt} (htype : ∀ v, x = .inl v → v.type ≠ .void)
    (h : ∀ s, x = .inr s → s.Regular) :
    ∃ ts d k, words ts = partWords Stmt.lexemes x ∧ Item x ts d k ∧
      (k = 0 ∧ d ≤ maxDepth ↔ Sum.elim (fun _ => True) Sits x) := by
  cases x with
  | inl v =>
      refine ⟨_, 0, 0, ?_, .declares (l := v.loc) (declares_place v) (htype v rfl), by simp⟩
      rw [words_append, (declares_place v).words_eq]
      rfl
  | inr s =>
      obtain ⟨ts, d, k, hts, hs, rfl, rfl⟩ := spelled_of_regular s (h s rfl)
      exact ⟨ts, _, _, hts, .states hs, Iff.rfl⟩

theorem getLeft?_grouped {α β : Type} (as : List α) (bs : List β) :
    (grouped as bs).filterMap Sum.getLeft? = as := by
  simp [grouped, List.filterMap_map, Function.comp_def]

theorem getRight?_grouped {α β : Type} (as : List α) (bs : List β) :
    (grouped as bs).filterMap Sum.getRight? = bs := by
  simp [grouped, List.filterMap_map, Function.comp_def]

theorem Piece.limits_iff {α : Type} {ps : List (Piece α)} {n : Nat} {Q : α → Prop}
    (h : ∀ p ∈ ps, (p.disguises = 0 ∧ p.depth ≤ n ↔ Q p.value)) :
    Piece.total ps = 0 ∧ Piece.deepest ps ≤ n ↔ ∀ x ∈ ps.map (·.value), Q x := by
  rw [← Piece.limits, List.forall_mem_map]
  exact forall₂_congr h

theorem forall_grouped {α β : Type} {Q : β → Prop} {as : List α} {bs : List β} :
    (∀ x ∈ grouped as bs, Sum.elim (fun _ => True) Q x) ↔ ∀ b ∈ bs, Q b := by
  simp [grouped, or_imp, forall_and]

theorem exists_parameters (vs : List VarDecl) : ∃ ts, Parameters vs ts := by
  have hlisted (v : VarDecl) (vs : List VarDecl) :
      ∃ ts, Listed (fun t : Token => t.lexeme = .punct .comma) Declares (v :: vs) ts := by
    induction vs generalizing v with
    | nil => exact ⟨_, .one (declares_place v)⟩
    | cons u vs ih =>
        obtain ⟨ts, hts⟩ := ih u
        exact ⟨_, .more (t := ⟨.punct .comma, v.loc⟩) (declares_place v) rfl hts⟩
  cases vs with
  | nil => exact ⟨[], .none⟩
  | cons v vs =>
      obtain ⟨ts, hts⟩ := hlisted v vs
      exact ⟨ts, .some hts⟩

theorem modifiers_place (m : Method) (l : Location) : Modifiers (place l m.modifiers) := by
  unfold Method.modifiers
  split <;> simp [Modifiers, place]

theorem isStatic_iff_mem (m : Method) : m.isStatic = true ↔ .keyword .kwStatic ∈ m.modifiers := by
  unfold Method.modifiers
  split <;> simp_all

theorem method_lexemes {m : Method} (htype : ∀ v ∈ m.locals, v.type ≠ .void) (h : ∀ s ∈ m.body, s.Regular) :
    ∃ ts d k, words ts = m.lexemes ∧ Member (.inr m) ts d k ∧ (k = 0 ∧ d ≤ maxDepth ↔ ∀ s ∈ m.body, Sits s) := by
  have hitems : ∀ x ∈ grouped m.locals m.body, ∃ ts d k, words ts = partWords Stmt.lexemes x ∧ Item x ts d k ∧
      (k = 0 ∧ d ≤ maxDepth ↔ Sum.elim (fun _ => True) Sits x) := by
    intro x hx
    refine item_lexemes (fun v hv => htype v ?_) fun s hs => h s ?_
    · simpa [grouped, hv] using hx
    · simpa [grouped, hs] using hx
  obtain ⟨ps, hvalues, hwords, hall⟩ := exists_pieces_of hitems
  obtain ⟨us, hparams⟩ := exists_parameters m.params
  have hstatic : m.isStatic = true ↔ .keyword .kwStatic ∈ words (place m.loc m.modifiers) := by
    rw [words_place, isStatic_iff_mem]
  have hmethod := @Member.method m _ (place m.loc m.returns.lexemes) us m.loc m.loc m.loc m.loc m.loc ps
    (modifiers_place m m.loc) hstatic (words_place _ _) rfl hparams (fun p hp => (hall p hp).1)
    (by rw [hvalues, getLeft?_grouped]) (by rw [hvalues, getRight?_grouped])
  refine ⟨_, _, _, ?_, hmethod, ?_⟩
  · simp [lexemes_method, Method.headWords, hparams.words_eq, hwords]
  · rw [Piece.limits_iff fun p hp => (hall p hp).2, hvalues, forall_grouped]

theorem class_lexemes {c : Class} (htype : ∀ m ∈ c.methods, ∀ v ∈ m.locals, v.type ≠ .void)
    (h : ∀ m ∈ c.methods, ∀ s ∈ m.body, s.Regular) :
    ∃ ts d k, words ts = c.lexemes ∧ ClassText c ts d k ∧
      (k = 0 ∧ d ≤ maxDepth ↔ ∀ m ∈ c.methods, ∀ s ∈ m.body, Sits s) := by
  have hmembers : ∀ x ∈ grouped c.fields c.methods, ∃ ts d k, words ts = partWords Method.lexemes x ∧
      Member x ts d k ∧ (k = 0 ∧ d ≤ maxDepth ↔ Sum.elim (fun _ => True) (fun m => ∀ s ∈ m.body, Sits s) x) := by
    intro x hx
    cases x with
    | inl v =>
        have hfield := @Member.field v [] _ v.loc v.loc (List.forall_mem_nil _) (words_place v.loc v.type.lexemes)
          (starts_place (Ty.lexemes_ne_nil _) _)
        exact ⟨_, 0, 0, by simp [partWords, VarDecl.lexemes], hfield, by simp⟩
    | inr m =>
        have hm : m ∈ c.methods := by simpa [grouped] using hx
        exact method_lexemes (htype m hm) (h m hm)
  obtain ⟨ps, hvalues, hwords, hall⟩ := exists_pieces_of hmembers
  obtain ⟨us, hparent⟩ : ∃ us, Parent c.parent us := by
    cases c.parent with
    | none => exact ⟨_, .none⟩
    | some name => exact ⟨_, @Parent.some name c.loc c.loc⟩
  have hclass := @ClassText.mk c us c.loc c.loc c.loc ps hparent (fun p hp => (hall p hp).1)
    (by rw [hvalues, getLeft?_grouped]) (by rw [hvalues, getRight?_grouped])
  refine ⟨_, _, _, ?_, hclass, ?_⟩
  · simp [lexemes_class, Class.headWords, hparent.words_eq, hwords]
  · rw [Piece.limits_iff fun p hp => (hall p hp).2, hvalues, forall_grouped]

/-- The words of a regular program's text spell the program. -/
theorem derives_lexemes {p : Program} (htype : ∀ c ∈ p.classes, ∀ m ∈ c.methods, ∀ v ∈ m.locals, v.type ≠ .void)
    (h : ∀ c ∈ p.classes, ∀ m ∈ c.methods, ∀ s ∈ m.body, s.Regular) :
    ∃ ts d k, words ts = p.lexemes ∧ Derives p ts d k ∧
      (k = 0 ∧ d ≤ maxDepth ↔ ∀ c ∈ p.classes, ∀ m ∈ c.methods, ∀ s ∈ m.body, Sits s) := by
  obtain ⟨classes⟩ := p
  obtain ⟨ps, rfl, hwords, hall⟩ := exists_pieces_of fun c hc => class_lexemes (htype c hc) (h c hc)
  exact ⟨_, _, _, hwords, .mk ps fun p hp => (hall p hp).1, Piece.limits_iff fun p hp => (hall p hp).2⟩

end Derivation

end Grammar

end Backflow
