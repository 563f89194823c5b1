import Backflow.Proofs.Alignment
import Backflow.Proofs.Unplaced

namespace Backflow

variable {f : Tag → Tag}

namespace Stmt

theorem exprs_retag (s : Stmt) : (s.retag f).exprs = s.exprs := by
  cases s with
  | ret t value => cases value <;> rfl
  | _ => rfl

theorem regular_retag {s : Stmt} : (s.retag f).Regular ↔ s.Regular := by
  rw [Regular, (preorder_retag f).1, List.forall_mem_map]
  simp only [exprs_retag, Regular]

end Stmt

namespace Printer

theorem branchDepth_retag (s : Stmt) (depth : Nat) : branchDepth (s.retag f) depth = branchDepth s depth := by
  cases s <;> rfl

theorem stmtLines_retag (f : Tag → Tag) :
    (∀ (s : Stmt) (depth : Nat), stmtLines (fun _ => none) (s.retag f) depth = stmtLines (fun _ => none) s depth) ∧
      ∀ (l : List Stmt) (depth : Nat), stmtsLines (fun _ => none) (Stmt.retagList f l) depth =
        stmtsLines (fun _ => none) l depth := by
  apply Stmt.induction
  case plain => intro s hs; apply hs.cases <;> intros <;> rfl
  case ret =>
    intro t value depth
    cases value <;> rfl
  case brk | cont => intros; rfl
  case nil => intros; rfl
  case block =>
    intro t body ih depth
    rw [Stmt.retag, stmtLines, ih, stmtLines]
  case ifThen | loop =>
    intro t c s ih depth
    rw [Stmt.retag, stmtLines, ih, branchDepth_retag, stmtLines]
    rfl
  case ifElse =>
    intro t c yes no ihyes ihno depth
    rw [Stmt.retag, stmtLines, ihyes, ihno, branchDepth_retag, branchDepth_retag, stmtLines]
    rfl
  case cons =>
    intro s rest ihs ihrest depth
    rw [Stmt.retagList, stmtsLines, ihs, ihrest, stmtsLines]

theorem declText_unplaced (v : VarDecl) : declText v.unplaced = declText v := rfl

theorem methodLines_retag (m : Method) (depth : Nat) :
    methodLines (fun _ => none) (m.retag f) depth = methodLines (fun _ => none) m depth := by
  have hbody := (stmtLines_retag f).2 m.body (depth + 1)
  rw [Stmt.retagList_eq_map] at hbody
  have hheader : methodHeader (m.retag f) = methodHeader m := by
    have hparams : (m.retag f).params.map declText = m.params.map declText := by
      rw [Method.retag, List.map_map]
      rfl
    unfold methodHeader
    rw [hparams]
    rfl
  rw [methodLines, hheader, methodLines]
  simp only [Method.retag, List.map_map, Function.comp_def, declText_unplaced, hbody]

theorem classLines_retag (c : Class) : classLines (fun _ => none) (c.retag f) = classLines (fun _ => none) c := by
  simp only [classLines, Class.retag, List.map_map, List.flatMap_map, Function.comp_def, declText_unplaced,
    methodLines_retag]
  rfl

theorem classesLines_retag (cs : List Class) :
    classesLines (fun _ => none) (cs.map (Class.retag f)) = classesLines (fun _ => none) cs := by
  induction cs with
  | nil => rfl
  | cons c rest ih =>
      cases rest with
      | nil => exact classLines_retag c
      | cons d rest =>
          change classLines _ (c.retag f) ++ "" :: classesLines _ ((d :: rest).map (Class.retag f)) =
            classLines _ c ++ "" :: classesLines _ (d :: rest)
          rw [classLines_retag, ih]

end Printer

namespace Program

open Grammar

variable {p q : Program}

theorem print_retag (f : Tag → Tag) (p : Program) : (p.retag f).print (fun _ => none) = p.print fun _ => none := by
  rw [print, Program.retag, Printer.classesLines_retag, print]

theorem print_of_bare (h : q.retag Tag.bare = p.retag Tag.bare) :
    q.print (fun _ => none) = p.print fun _ => none := by
  rw [← print_retag Tag.bare q, h, print_retag]

def Regular (p : Program) : Prop := ∀ c ∈ p.classes, ∀ m ∈ c.methods, ∀ s ∈ m.body, s.Regular

theorem regular_retag : (p.retag f).Regular ↔ p.Regular := by
  simp only [Regular, Program.retag, Class.retag, Method.retag, List.forall_mem_map, Stmt.regular_retag]

theorem readable_of_lex {source : String} {s : TokenStream} (hlex : Lexer.lex source = .ok s)
    (hfits : Fits (words s.tokens)) : ∀ w ∈ words s.tokens, Lexer.Readable w := by
  intro w hw
  refine ⟨Lexer.valid_of_lexFrom hlex w hw, fun digits hdigits => hfits digits ?_⟩
  rwa [List.mem_singleton.1 hdigits]

theorem facts_of_parse {source : String} (h : parse source = .ok p) :
    (∀ w ∈ p.lexemes, Lexer.Readable w) ∧ p.NearestElse ∧
      ∀ c ∈ p.classes, ∀ m ∈ c.methods, ∀ v ∈ m.locals, v.type ≠ .void := by
  obtain ⟨s, hlex, hp⟩ := parse_eq_ok.1 h
  obtain ⟨d, hd, _⟩ := derives_of_ofTokens hp
  exact ⟨hd.readable (readable_of_lex hlex (fits_of_ofTokens hp)), nearestElse_of_ofTokens hp, hd.local_type⟩

theorem fits_of_readable {ws : List Lexeme} (h : ∀ w ∈ ws, Lexer.Readable w) : Fits ws :=
  fun digits hdigits => (h _ hdigits).2 digits List.mem_cons_self

end Program

/-- The text of the method is read as the method: no index, length or call has a unary base, no call statement is in
disguise, and not too many levels are nested. -/
structure Method.Printable (m : Method) : Prop where
  regular : ∀ s ∈ m.statements, ∀ e ∈ s.exprs, e.regular = true
  plain : ∀ s ∈ m.statements, s.inDisguise = false
  shallow : ∀ s ∈ m.body, s.nesting ≤ maxDepth

theorem Method.printable_iff {m : Method} :
    m.Printable ↔ (∀ s ∈ m.body, s.Regular) ∧ ∀ s ∈ m.body, Grammar.Sits s := by
  have hstatements {P : Stmt → Prop} : (∀ s ∈ m.statements, P s) ↔ ∀ s ∈ m.body, ∀ x ∈ s.preorder, P x := by
    rw [Method.statements, Stmt.preorderList_eq_flatMap, List.forall_mem_flatMap]
  have hplain (s : Stmt) : s.disguises = 0 ↔ ∀ x ∈ s.preorder, x.inDisguise = false := by
    rw [Stmt.disguises, List.countP_eq_zero]
    simp
  constructor
  · intro h
    refine ⟨hstatements.1 h.regular, fun s hs => ⟨(hplain s).2 ?_, h.shallow s hs⟩⟩
    exact hstatements.1 h.plain s hs
  · rintro ⟨hregular, hsits⟩
    exact ⟨hstatements.2 hregular, hstatements.2 fun s hs => (hplain s).1 (hsits s hs).1, fun s hs => (hsits s hs).2⟩

instance (m : Method) : Decidable m.Printable :=
  decidable_of_iff ((∀ s ∈ m.statements, ∀ e ∈ s.exprs, e.regular = true) ∧
      (∀ s ∈ m.statements, s.inDisguise = false) ∧ ∀ s ∈ m.body, s.nesting ≤ maxDepth)
    ⟨fun h => ⟨h.1, h.2.1, h.2.2⟩, fun h => ⟨h.regular, h.plain, h.shallow⟩⟩

namespace Program

open Grammar

variable {p q : Program}

def Printable (p : Program) : Prop := ∀ r ∈ p.routines, r.method.Printable

instance (p : Program) : Decidable p.Printable := inferInstanceAs (Decidable (∀ r ∈ p.routines, r.method.Printable))

theorem printable_iff : p.Printable ↔ p.Regular ∧ ∀ c ∈ p.classes, ∀ m ∈ c.methods, ∀ s ∈ m.body, Sits s := by
  simp only [Printable, routines, List.forall_mem_flatMap, List.forall_mem_map, Method.printable_iff, Regular,
    forall_and]

/-- A program whose text is read as the program itself, up to places, is regular. -/
theorem regular_of_parse_print (h : parse (p.print fun _ => none) = .ok q) (hsame : q.unplaced = p.unplaced) :
    p.Regular := by
  have hbare := bare_of_unplaced hsame
  obtain ⟨s, hlex, hwords⟩ := lex_print (facts_of_parse h).1
  obtain ⟨s', hlex', hq⟩ := parse_eq_ok.1 h
  rw [print_of_bare hbare, hlex'] at hlex
  cases hlex
  obtain ⟨d, hd, _⟩ := derives_of_ofTokens hq
  rw [← regular_retag (f := Tag.bare), ← hbare, regular_retag]
  exact regular_of_derives hd hwords (fits_of_ofTokens hq)

/-- A program that was read is read again from its text, with the same numbers of statements and up to places, just if
the text of each method is read as the method. What is read then has the same text. -/
theorem parse_print_iff {source : String} (h : parse source = .ok p) :
    (∃ q, parse (p.print fun _ => none) = .ok q ∧ q.unplaced = p.unplaced ∧
      q.print (fun _ => none) = p.print fun _ => none) ↔ p.Printable := by
  obtain ⟨hreadable, hnear, htype⟩ := facts_of_parse h
  obtain ⟨s, hlex, hwords⟩ := lex_print hreadable
  have hfits := fits_of_readable hreadable
  rw [printable_iff]
  constructor
  · rintro ⟨q, hq, hsame, _⟩
    have hregular := regular_of_parse_print hq hsame
    obtain ⟨ts, d, k, hts, hderives, hlimits⟩ := derives_lexemes htype hregular
    rw [← hts] at hwords hfits
    refine ⟨hregular, hlimits.1 ?_⟩
    by_contra hnot
    obtain ⟨e, he⟩ := (ofTokens_of_derives hderives hnear hwords hfits).2 hnot
    obtain ⟨s', hlex', hq⟩ := parse_eq_ok.1 hq
    rw [hlex] at hlex'
    cases hlex'
    rw [hq] at he
    cases he
  · rintro ⟨hregular, hsits⟩
    obtain ⟨ts, d, k, hts, hderives, hlimits⟩ := derives_lexemes htype hregular
    rw [← hts] at hwords hfits
    obtain ⟨q, hq, hbare⟩ := (ofTokens_of_derives hderives hnear hwords hfits).1 (hlimits.2 hsits)
    have hparse : parse (p.print fun _ => none) = .ok q := parse_eq_ok.2 ⟨s, hlex, hq⟩
    exact ⟨q, hparse, unplaced_of_bare h hparse hbare, print_of_bare hbare⟩

/-- The text with two `if`s and one `else` is read, printed and read again. -/
theorem parse_print_dangling : ∃ p, parse danglingText = .ok p ∧ p.Printable ∧
    ∃ q, parse (p.print fun _ => none) = .ok q ∧ q.unplaced = p.unplaced ∧
      q.print (fun _ => none) = p.print fun _ => none := by
  have hrun : (parse danglingText).toOption.any (fun p => decide p.Printable) = true := by decide +kernel
  obtain ⟨p, hp, hprintable⟩ := exists_ok_of_any hrun
  exact ⟨p, hp, of_decide_eq_true hprintable, (parse_print_iff hp).2 (of_decide_eq_true hprintable)⟩

def elementText : String := "class A \x7b int f(int[] a) \x7b (a[0]).f(); return 1; \x7d \x7d"

/-- The parentheses are not printed, and the text is not read again. -/
theorem elementText_not_reread : ∃ p, parse elementText = .ok p ∧ ∃ e, parse (p.print fun _ => none) = .error e := by
  have hrun : (parse elementText).toOption.any (fun p => (parse (p.print fun _ => none)).toOption.isNone) = true := by
    decide +kernel
  obtain ⟨p, hp, hnone⟩ := exists_ok_of_any hrun
  refine ⟨p, hp, ?_⟩
  cases hparse : parse (p.print fun _ => none) with
  | error e => exact ⟨e, rfl⟩
  | ok q =>
      rw [hparse] at hnone
      cases hnone

end Program

end Backflow
