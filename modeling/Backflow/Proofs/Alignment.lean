import Backflow.Proofs.ParserComplete
import Backflow.Proofs.PrintedGrammar

namespace Backflow

namespace Grammar

open Backflow.Parser

variable {e e' : Expr} {ws ws' us us' : List Lexeme} {d d' : Nat} {p : Punct}

def before (ws : List Lexeme) : State := ⟨place .start ws, .start, 0⟩

theorem expr_before (h : Renders .whole e ws d) (hp : p ∈ [.rbracket, .rparen, .comma, .semi])
    (hfits : Fits (ws ++ .punct p :: us)) {room : Nat} (hroom : d ≤ room) :
    expr room (before (ws ++ .punct p :: us)) = .ok e (before (.punct p :: us)) := by
  have hpass : (before (ws ++ .punct p :: us)).Passes ws (before (.punct p :: us)) :=
    ⟨place .start ws, words_place _ _, by simp [before, place]⟩
  obtain ⟨hcloses, hoff⟩ := closes_of_mark hp ws
  exact (meets h room _ _ hpass (fits_append.1 hfits).1 hcloses hoff).1 hroom

/-- Before a closing mark there is just one way to read an expression. -/
theorem renders_unique (h : Renders .whole e ws d) (h' : Renders .whole e' ws' d')
    (hp : p ∈ [.rbracket, .rparen, .comma, .semi]) (heq : ws ++ .punct p :: us = ws' ++ .punct p :: us')
    (hfits : Fits (ws ++ .punct p :: us)) : e = e' ∧ us = us' := by
  have hrun := expr_before h hp hfits (Nat.le_max_left d d')
  rw [heq] at hrun hfits
  rw [expr_before h' hp hfits (Nat.le_max_right d d')] at hrun
  simp only [EStateM.Result.ok.injEq, before, State.mk.injEq] at hrun
  obtain ⟨rfl, hplace, _⟩ := hrun
  have hwords := congrArg words hplace
  rw [words_place, words_place] at hwords
  exact ⟨rfl, (List.cons.inj hwords).2.symm⟩

theorem aligned_expr (h : Renders .whole e ws d) (hp : p ∈ [.rbracket, .rparen, .comma, .semi])
    (heq : ws ++ .punct p :: us = e.lexemes ++ .punct p :: us') (hfits : Fits (ws ++ .punct p :: us)) :
    e.regular = true ∧ us = us' := by
  have hnorm := Expr.renders_whole (Expr.renders_lexemes (Expr.regular_norm e))
  rw [Expr.lexemes_norm] at hnorm
  obtain ⟨hsame, hus⟩ := renders_unique h hnorm hp heq hfits
  exact ⟨Expr.norm_eq_self_iff.1 hsame.symm, hus⟩

theorem aligned_ended {ts : List Token} (h : Ended e ts d)
    (heq : words ts ++ us = e.lexemes ++ .punct .semi :: us') (hfits : Fits (words ts ++ us)) :
    e.regular = true ∧ us = us' := by
  cases h with
  | mk h =>
      rw [words_append, List.append_assoc] at heq hfits
      exact aligned_expr h (by decide) heq hfits

theorem aligned_condition {ts : List Token} (h : Condition e ts d)
    (heq : words ts ++ us = .punct .lparen :: (e.lexemes ++ .punct .rparen :: us')) (hfits : Fits (words ts ++ us)) :
    e.regular = true ∧ us = us' := by
  cases h with
  | mk h =>
      rw [words_cons, words_append, List.cons_append, List.append_assoc] at heq hfits
      exact aligned_expr h (by decide) (List.cons.inj heq).2 (fits_punct.1 hfits)

theorem aligned_pieces {α : Type} {W : α → List Lexeme} {R : α → Prop} {ps : List (Piece α)}
    (h : ∀ p ∈ ps, ∀ us us', words p.tokens ++ us = W p.value ++ us' → Fits (words p.tokens ++ us) →
      R p.value ∧ us = us')
    (heq : words (Piece.spelled ps) ++ us = (ps.map (·.value)).flatMap W ++ us')
    (hfits : Fits (words (Piece.spelled ps) ++ us)) : (∀ x ∈ ps.map (·.value), R x) ∧ us = us' := by
  induction ps with
  | nil => exact ⟨List.forall_mem_nil _, heq⟩
  | cons p ps ih =>
      obtain ⟨hp, hps⟩ := List.forall_mem_cons.1 h
      rw [Piece.spelled, List.flatMap_cons, words_append, List.append_assoc, ← Piece.spelled] at heq hfits
      rw [List.map_cons, List.flatMap_cons, List.append_assoc] at heq
      obtain ⟨hR, hrest⟩ := hp _ _ heq hfits
      obtain ⟨hall, hus⟩ := ih hps hrest (fits_append.1 hfits).2
      exact ⟨List.forall_mem_cons.2 ⟨hR, hall⟩, hus⟩

/-- If the words of a statement's text spell it, then the statement is regular. -/
theorem aligned_statement {s : Stmt} {ts : List Token} {d k : Nat} (h : Statement s ts d k)
    (heq : words ts ++ us = s.lexemes ++ us') (hfits : Fits (words ts ++ us)) : s.Regular ∧ us = us' := by
  induction h generalizing us us' with
  | @block t l body _ ih =>
      simp only [words_cons, words_append, words_nil, Stmt.lexemes, Stmt.lexemesList_eq_flatMap, List.cons_append,
        List.append_assoc, List.cons.injEq, true_and, fits_punct] at heq hfits
      obtain ⟨hall, htail⟩ := aligned_pieces (fun p hp us us' => ih p hp) heq hfits
      exact ⟨Stmt.regular_block.2 hall, (List.cons.inj htail).2⟩
  | assign h =>
      simp only [words_cons, Stmt.lexemes, Stmt.headWords, List.cons_append, List.append_assoc, List.cons.injEq,
        true_and, fits_ident, fits_punct] at heq hfits
      obtain ⟨he, hus⟩ := aligned_ended h heq hfits
      exact ⟨(Stmt.regular_leaf rfl).2 (List.forall_mem_singleton.2 he), hus⟩
  | store hi h =>
      simp only [words_cons, words_append, Stmt.lexemes, Stmt.headWords, List.cons_append, List.append_assoc,
        List.cons.injEq, true_and, fits_ident, fits_punct] at heq hfits
      obtain ⟨hi, htail⟩ := aligned_expr hi (by decide) heq hfits
      simp only [fits_append, fits_punct] at hfits
      obtain ⟨he, hus⟩ := aligned_ended h (List.cons.inj htail).2 (fits_append.2 hfits.2)
      exact ⟨(Stmt.regular_leaf rfl).2 (List.forall_mem_cons.2 ⟨hi, List.forall_mem_singleton.2 he⟩), hus⟩
  | ifThen hcond _ ih =>
      simp only [words_cons, words_append, Stmt.lexemes, Stmt.headWords, List.cons_append, List.append_assoc,
        List.cons.injEq, true_and, fits_keyword] at heq hfits
      obtain ⟨hc, htail⟩ := aligned_condition hcond heq hfits
      obtain ⟨hyes, hus⟩ := ih htail (fits_append.1 hfits).2
      exact ⟨Stmt.regular_ifThen.2 ⟨hc, hyes⟩, hus⟩
  | ifElse hcond _ _ ihyes ihno =>
      simp only [words_cons, words_append, Stmt.lexemes, Stmt.headWords, List.cons_append, List.append_assoc,
        List.cons.injEq, true_and, fits_keyword] at heq hfits
      obtain ⟨hc, htail⟩ := aligned_condition hcond heq hfits
      have hfits := (fits_append.1 hfits).2
      obtain ⟨hyes, htail⟩ := ihyes htail hfits
      obtain ⟨hno, hus⟩ := ihno (List.cons.inj htail).2 (fits_keyword.1 (fits_append.1 hfits).2)
      exact ⟨Stmt.regular_ifElse.2 ⟨hc, hyes, hno⟩, hus⟩
  | loop hcond _ ih =>
      simp only [words_cons, words_append, Stmt.lexemes, Stmt.headWords, List.cons_append, List.append_assoc,
        List.cons.injEq, true_and, fits_keyword] at heq hfits
      obtain ⟨hc, htail⟩ := aligned_condition hcond heq hfits
      obtain ⟨hbody, hus⟩ := ih htail (fits_append.1 hfits).2
      exact ⟨Stmt.regular_loop.2 ⟨hc, hbody⟩, hus⟩
  | print h =>
      simp only [words_cons, words_append, words_nil, Stmt.lexemes, Stmt.headWords, List.cons_append,
        List.append_assoc, List.cons.injEq, true_and, fits_ident, fits_punct] at heq hfits
      obtain ⟨he, htail⟩ := aligned_condition h heq hfits
      exact ⟨(Stmt.regular_leaf rfl).2 (List.forall_mem_singleton.2 he), (List.cons.inj htail).2⟩
  | call h _ =>
      simp only [words_cons, words_append, words_nil, Stmt.lexemes, Stmt.headWords, List.append_assoc] at heq hfits
      obtain ⟨he, hus⟩ := aligned_expr h (by decide) heq hfits
      exact ⟨(Stmt.regular_leaf rfl).2 (List.forall_mem_singleton.2 he), hus⟩
  | value h =>
      simp only [words_cons, Stmt.lexemes, Stmt.headWords, List.cons_append, List.append_assoc, List.cons.injEq,
        true_and, fits_keyword] at heq hfits
      obtain ⟨he, hus⟩ := aligned_ended h heq hfits
      exact ⟨(Stmt.regular_leaf rfl).2 (List.forall_mem_singleton.2 he), hus⟩
  | ret | brk | cont =>
      exact ⟨(Stmt.regular_leaf rfl).2 (List.forall_mem_nil _), List.append_cancel_left heq⟩

theorem aligned_parts {β : Type} {W : β → List Lexeme} {R : β → Prop}
    {G : VarDecl ⊕ β → List Token → Nat → Nat → Prop} {ps : List (Piece (VarDecl ⊕ β))} {vs : List VarDecl}
    {bs : List β}
    (hG : ∀ p ∈ ps, G p.value p.tokens p.depth p.disguises)
    (hvs : vs = (ps.map (·.value)).filterMap Sum.getLeft?) (hbs : bs = (ps.map (·.value)).filterMap Sum.getRight?)
    (hleft : ∀ v ts d k us us', G (.inl v) ts d k → words ts ++ us = (v.lexemes ++ [.punct .semi]) ++ us' → us = us')
    (hright : ∀ b ts d k us us', G (.inr b) ts d k → words ts ++ us = W b ++ us' → Fits (words ts ++ us) →
      R b ∧ us = us')
    (hapart : ∀ v b ts d k ts' d' k' us us', G (.inl v) ts d k → G (.inr b) ts' d' k' →
      words ts' ++ us ≠ (v.lexemes ++ [.punct .semi]) ++ us')
    (heq : words (Piece.spelled ps) ++ us =
      vs.flatMap (fun v => v.lexemes ++ [.punct .semi]) ++ (bs.flatMap W ++ us'))
    (hfits : Fits (words (Piece.spelled ps) ++ us)) : (∀ b ∈ bs, R b) ∧ us = us' := by
  induction ps generalizing vs bs with
  | nil =>
      subst hvs hbs
      exact ⟨List.forall_mem_nil _, heq⟩
  | cons p ps ih =>
      obtain ⟨value, ts, d, k⟩ := p
      obtain ⟨hp, hps⟩ := List.forall_mem_cons.1 hG
      rw [Piece.spelled, List.flatMap_cons, words_append, List.append_assoc, ← Piece.spelled] at heq hfits
      have hfits' := (fits_append.1 hfits).2
      cases value with
      | inl v =>
          obtain ⟨vs', rfl⟩ : ∃ vs', vs = v :: vs' := ⟨_, hvs⟩
          rw [List.flatMap_cons, List.append_assoc] at heq
          exact ih hps (List.cons.inj hvs).2 hbs (hleft v ts d k _ _ hp heq) hfits'
      | inr b =>
          obtain ⟨bs', rfl⟩ : ∃ bs', bs = b :: bs' := ⟨_, hbs⟩
          cases vs with
          | nil =>
              rw [List.flatMap_nil, List.nil_append, List.flatMap_cons, List.append_assoc] at heq
              obtain ⟨hb, hrest⟩ := hright b ts d k _ _ hp heq hfits
              obtain ⟨hall, hus⟩ := ih hps hvs (List.cons.inj hbs).2 hrest hfits'
              exact ⟨List.forall_mem_cons.2 ⟨hb, hall⟩, hus⟩
          | cons v vs =>
              have hv : v ∈ (ps.map (·.value)).filterMap Sum.getLeft? := hvs ▸ List.mem_cons_self
              obtain ⟨x, hx, hleft⟩ := List.mem_filterMap.1 hv
              obtain ⟨q, hq, rfl⟩ := List.mem_map.1 hx
              have hGq := hps q hq
              rw [Sum.getLeft?_eq_some_iff.1 hleft] at hGq
              rw [List.flatMap_cons, List.append_assoc] at heq
              exact absurd heq (hapart v b _ _ _ _ _ _ _ _ hGq hp)

theorem aligned_items {items : List (Piece (VarDecl ⊕ Stmt))} {vs : List VarDecl} {ss : List Stmt}
    (hitems : ∀ p ∈ items, Item p.value p.tokens p.depth p.disguises)
    (hvs : vs = (items.map (·.value)).filterMap Sum.getLeft?)
    (hss : ss = (items.map (·.value)).filterMap Sum.getRight?)
    (heq : words (Piece.spelled items) ++ us =
      vs.flatMap (fun v => v.lexemes ++ [.punct .semi]) ++ (ss.flatMap Stmt.lexemes ++ us'))
    (hfits : Fits (words (Piece.spelled items) ++ us)) : (∀ s ∈ ss, s.Regular) ∧ us = us' := by
  refine aligned_parts hitems hvs hss ?_ ?_ ?_ heq hfits
  · intro v ts d k us us' h heq
    cases h with
    | declares hv =>
        rw [words_append, hv.words_eq] at heq
        exact List.append_cancel_left heq
  · intro s ts d k us us' h heq hfits
    cases h with
    | states h => exact aligned_statement h heq hfits
  · intro v s ts d k ts' d' k' us us' hv hs heq
    cases hv with
    | declares hv hty =>
        cases hs with
        | states hs =>
            have hlocal := beginsLocal_declares hv hty (.punct .semi :: us')
            have hother := beginsLocal_statement hs us
            rw [heq, List.append_assoc, ← hv.words_eq] at hother
            exact absurd (hlocal.symm.trans hother) (by decide)

theorem aligned_modifiers {ms ms' : List Lexeme} {ty ty' : Ty}
    (hms : ∀ w ∈ ms, w = .keyword .kwPublic ∨ w = .keyword .kwStatic)
    (hms' : ∀ w ∈ ms', w = .keyword .kwPublic ∨ w = .keyword .kwStatic)
    (heq : ms ++ (ty.lexemes ++ us) = ms' ++ (ty'.lexemes ++ us')) : ty.lexemes ++ us = ty'.lexemes ++ us' := by
  have hfirst {w : Lexeme} {ws us vs : List Lexeme} {ty : Ty} (hw : w = .keyword .kwPublic ∨ w = .keyword .kwStatic)
      (heq : ty.lexemes ++ us = w :: ws ++ vs) : False := by
    obtain ⟨v, vs, hvs, _, _, hstatic, hpublic, _⟩ := lexemes_begin ty
    rw [hvs] at heq
    obtain rfl := (List.cons.inj heq).1
    rcases hw with rfl | rfl
    · exact hpublic rfl
    · exact hstatic rfl
  induction ms generalizing ms' with
  | nil =>
      cases ms' with
      | nil => exact heq
      | cons w ms' => exact (hfirst (hms' w List.mem_cons_self) heq).elim
  | cons w ms ih =>
      cases ms' with
      | nil => exact (hfirst (hms w List.mem_cons_self) heq.symm).elim
      | cons w' ms' =>
          exact ih (List.forall_mem_cons.1 hms).2 (List.forall_mem_cons.1 hms').2 (List.cons.inj heq).2

theorem aligned_type {ty ty' : Ty} {name name' : String}
    (heq : ty.lexemes ++ .ident name :: us = ty'.lexemes ++ .ident name' :: us') : us = us' := by
  cases ty <;> cases ty' <;> simp_all [Ty.lexemes]

theorem aligned_members {members : List (Piece (VarDecl ⊕ Method))} {vs : List VarDecl} {ms : List Method}
    (hmembers : ∀ p ∈ members, Member p.value p.tokens p.depth p.disguises)
    (hvs : vs = (members.map (·.value)).filterMap Sum.getLeft?)
    (hms : ms = (members.map (·.value)).filterMap Sum.getRight?)
    (heq : words (Piece.spelled members) ++ us =
      vs.flatMap (fun v => v.lexemes ++ [.punct .semi]) ++ (ms.flatMap Method.lexemes ++ us'))
    (hfits : Fits (words (Piece.spelled members) ++ us)) : (∀ m ∈ ms, ∀ s ∈ m.body, s.Regular) ∧ us = us' := by
  refine aligned_parts hmembers hvs hms ?_ ?_ ?_ heq hfits
  · intro v ts d k us us' h heq
    cases h with
    | field hmods htype =>
        simp only [words_append, words_cons, words_nil, htype, VarDecl.lexemes, List.append_assoc, List.cons_append,
          List.nil_append] at heq
        have htail := aligned_type (aligned_modifiers (List.forall_mem_map.2 hmods) (List.forall_mem_nil _) heq)
        exact (List.cons.inj htail).2
  · intro m ts d k us us' h heq hfits
    cases h with
    | method items hmods _ htype _ hparams hitems hlocals hbody =>
        simp only [words_append, words_cons, words_nil, htype, hparams.words_eq, Method.lexemes, Method.headWords,
          Stmt.lexemesList_eq_flatMap, List.append_assoc, List.cons_append, List.nil_append] at heq hfits
        have hmodifiers : ∀ w ∈ m.modifiers, w = .keyword .kwPublic ∨ w = .keyword .kwStatic := by
          unfold Method.modifiers
          split <;> simp
        have htail := List.append_cancel_left (aligned_modifiers (List.forall_mem_map.2 hmods) hmodifiers heq)
        simp only [List.cons.injEq, true_and, List.append_cancel_left_eq] at htail
        simp only [fits_append, fits_ident, fits_punct] at hfits
        obtain ⟨hregular, hus⟩ := aligned_items hitems hlocals hbody htail (by simpa using hfits.2.2.2)
        exact ⟨hregular, (List.cons.inj hus).2⟩
  · intro v m ts d k ts' d' k' us us' _ hm heq
    cases hm with
    | method items hmods _ htype =>
        simp only [words_append, words_cons, htype, VarDecl.lexemes, List.append_assoc, List.cons_append,
          List.nil_append] at heq
        have htail := aligned_type (aligned_modifiers (List.forall_mem_map.2 hmods) (List.forall_mem_nil _) heq)
        cases htail

theorem aligned_class {c : Class} {ts : List Token} {d k : Nat} (h : ClassText c ts d k)
    (heq : words ts ++ us = c.lexemes ++ us') (hfits : Fits (words ts ++ us)) :
    (∀ m ∈ c.methods, ∀ s ∈ m.body, s.Regular) ∧ us = us' := by
  cases h with
  | mk members hparent hmembers hfields hmethods =>
      simp only [words_append, words_cons, words_nil, hparent.words_eq, Class.lexemes, Class.headWords,
        List.append_assoc, List.cons_append, List.nil_append, List.cons.injEq, true_and,
        List.append_cancel_left_eq] at heq hfits
      simp only [fits_append, fits_keyword, fits_ident, fits_punct] at hfits
      obtain ⟨hregular, hus⟩ := aligned_members hmembers hfields hmethods heq (by simpa using hfits.2)
      exact ⟨hregular, (List.cons.inj hus).2⟩

/-- If the words of a program's text spell it, then all its expressions are regular. -/
theorem regular_of_derives {p : Program} {ts : List Token} {d k : Nat} (h : Derives p ts d k)
    (heq : words ts = p.lexemes) (hfits : Fits (words ts)) :
    ∀ c ∈ p.classes, ∀ m ∈ c.methods, ∀ s ∈ m.body, s.Regular := by
  cases h with
  | mk classes hclasses =>
      rw [← List.append_nil (words _)] at hfits
      have hflat : words (Piece.spelled classes) ++ [] = (classes.map (·.value)).flatMap Class.lexemes ++ [] := by
        rw [heq]
        rfl
      exact (aligned_pieces (fun c hc us us' => aligned_class (hclasses c hc)) hflat hfits).1

end Grammar

end Backflow
