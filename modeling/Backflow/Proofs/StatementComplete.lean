import Backflow.Proofs.ExprComplete
import Backflow.Proofs.Placement
import Backflow.Proofs.ProgramGrammar

namespace Backflow

namespace Grammar

inductive AfterName : List Lexeme → Prop
  | index {i : Expr} {us vs : List Lexeme} {c : Nat} : Renders .whole i us c →
      vs.head? ≠ some (.punct .assign) → AfterName (.punct .lbracket :: (us ++ .punct .rbracket :: vs))
  | length (vs : List Lexeme) : AfterName (.punct .dot :: .ident "length" :: vs)
  | call (name : String) (vs : List Lexeme) : AfterName (.punct .dot :: .ident name :: .punct .lparen :: vs)
  | operator (op : BinOp) (vs : List Lexeme) : AfterName (.punct (markOf op) :: vs)

theorem AfterName.append {ws us : List Lexeme} (h : AfterName ws) (hus : us.head? ≠ some (.punct .assign)) :
    AfterName (ws ++ us) := by
  cases h with
  | @index i is vs c hi hvs =>
      rw [List.cons_append, List.append_assoc, List.cons_append]
      refine .index hi ?_
      cases vs with
      | nil => exact hus
      | cons v vs => exact hvs
  | length vs => exact .length _
  | call name vs => exact .call name _
  | operator op vs => exact .operator op _

theorem afterName_append {ws us rest : List Lexeme} {w : Lexeme} {x : String} (hne : ws ≠ [])
    (ih : ∀ rest, ws = .ident x :: rest → rest = [] ∨ AfterName rest) (hmark : AfterName (w :: us))
    (hw : w ≠ .punct .assign) (h : ws ++ w :: us = .ident x :: rest) : rest = [] ∨ AfterName rest := by
  obtain ⟨v, vs, rfl⟩ := List.exists_cons_of_ne_nil hne
  rw [List.cons_append, List.cons.injEq] at h
  obtain ⟨rfl, rfl⟩ := h
  right
  rcases ih vs rfl with rfl | hvs
  · exact hmark
  · exact hvs.append (by simpa using hw)

theorem Renders.afterName {r : Rank} {e : Expr} {ws rest : List Lexeme} {d : Nat} {x : String}
    (h : Renders r e ws d) (hws : ws = .ident x :: rest) : rest = [] ∨ AfterName rest := by
  induction h generalizing rest with
  | var => exact Or.inl (List.cons.inj hws).2.symm
  | int | yes | no | self | newArray | newObject | group | sign => cases hws
  | primary _ ih | suffixed _ ih | operand _ ih | tighter _ _ ih | whole _ ih => exact ih hws
  | index h hi ih _ => exact afterName_append h.ne_nil (fun _ => ih) (.index hi (by simp)) nofun hws
  | length h ih => exact afterName_append h.ne_nil (fun _ => ih) (.length _) nofun hws
  | call name args h _ ih _ => exact afterName_append h.ne_nil (fun _ => ih) (.call name _) nofun hws
  | @binary _ _ _ _ _ _ _ _ op _ h _ ih _ =>
      exact afterName_append h.ne_nil (fun _ => ih) (.operator op _) (by cases op <;> exact nofun) hws

theorem prefix_of_prefix_append_cons {α : Type} {l ws us : List α} {x : α} (hx : x ∉ l)
    (h : l <+: ws ++ x :: us) : l <+: ws := by
  have hw : ws ++ [x] <+: ws ++ x :: us := ⟨us, by simp⟩
  rcases List.prefix_or_prefix_of_prefix h hw with h | h
  · rcases List.prefix_concat_iff.1 h with rfl | h
    · exact absurd (by simp) hx
    · exact h
  · exact absurd (h.subset (by simp)) hx

theorem Renders.not_target {r : Rank} {e : Expr} {ws us : List Lexeme} {d : Nat} (h : Renders r e ws d)
    (hstore : beginsStore ws = false) {name : String} {p : Punct}
    (hp : [.ident name, .punct p] <+: ws ++ .punct .semi :: us) : p ≠ .assign ∧ p ≠ .lbracket := by
  obtain ⟨w, rest, rfl⟩ := List.exists_cons_of_ne_nil h.ne_nil
  rw [List.cons_append, List.cons_prefix_cons] at hp
  obtain ⟨rfl, hp⟩ := hp
  rcases h.afterName rfl with rfl | hafter
  · obtain ⟨heq, _⟩ := List.cons_prefix_cons.1 hp
    cases heq
    exact ⟨nofun, nofun⟩
  · cases hafter with
    | index => cases hstore
    | length | call =>
        obtain ⟨heq, _⟩ := List.cons_prefix_cons.1 hp
        cases heq
        exact ⟨nofun, nofun⟩
    | operator op =>
        obtain ⟨heq, _⟩ := List.cons_prefix_cons.1 hp
        cases heq
        cases op <;> exact ⟨nofun, nofun⟩

theorem AfterName.of_dot {ws vs : List Lexeme} {name : String} (h : AfterName ws)
    (hws : ws = .punct .dot :: .ident name :: vs) : name = "length" ∨ ∃ us, vs = .punct .lparen :: us := by
  cases h with
  | index => cases hws
  | length us =>
      cases hws
      exact Or.inl rfl
  | call _ us =>
      cases hws
      exact Or.inr ⟨us, rfl⟩
  | operator op => cases op <;> cases hws

theorem AfterName.of_bracket {ws rest : List Lexeme} (h : AfterName ws) (hws : ws = .punct .lbracket :: rest) :
    ∃ i us c vs, Renders .whole i us c ∧ rest = us ++ .punct .rbracket :: vs ∧
      vs.head? ≠ some (.punct .assign) := by
  cases h with
  | @index i us vs c hi hvs =>
      cases hws
      exact ⟨i, us, c, vs, hi, rfl, hvs⟩
  | length | call => cases hws
  | operator op => cases op <;> cases hws

theorem Renders.of_disguised {r : Rank} {e : Expr} {ws : List Lexeme} {d : Nat} (h : Renders r e ws d)
    (hd : disguised ws = true) :
    (∃ vs, ws = [.ident "System", .punct .dot, .ident "out"] ++ .punct .lparen :: vs) ∨
      (¬ [.ident "System", .punct .dot, .ident "out"] <+: ws ∧ ∃ name i us c vs, Renders .whole i us c ∧
        ws = .ident name :: .punct .lbracket :: (us ++ .punct .rbracket :: vs) ∧
          vs.head? ≠ some (.punct .assign)) := by
  by_cases hout : [.ident "System", .punct .dot, .ident "out"] <+: ws
  · obtain ⟨vs, rfl⟩ := hout
    have hafter := (h.afterName rfl).resolve_left (List.cons_ne_nil _ _)
    obtain ⟨us, rfl⟩ := (hafter.of_dot rfl).resolve_left (by decide)
    exact Or.inl ⟨us, rfl⟩
  · rw [disguised, Bool.or_eq_true, List.isPrefixOf_iff_prefix, or_iff_left hout] at hd
    unfold beginsStore at hd
    split at hd
    case h_1 name rest =>
      have hafter := (h.afterName rfl).resolve_left (List.cons_ne_nil _ _)
      obtain ⟨i, us, c, vs, hi, rfl, hvs⟩ := hafter.of_bracket rfl
      exact Or.inr ⟨hout, name, i, us, c, vs, hi, rfl, hvs⟩
    case h_2 => cases hd

end Grammar

namespace Parser

open Grammar

variable {α β : Type} {g g' : Prop} {s s' s₁ : State} {x : EStateM.Result SyntaxError State α}
  {P : α → State → Prop} {Q : β → State → Prop}

/-- If `g` holds, the run gives a result with the property `P`; otherwise it ends with an error. -/
def Yields (g : Prop) (x : EStateM.Result SyntaxError State α) (P : α → State → Prop) : Prop :=
  (g → ∃ a s, x = .ok a s ∧ P a s) ∧ (¬ g → ∃ e s, x = .error e s)

theorem Yields.ok {a : α} (hg : g) (h : P a s) : Yields g (.ok a s) P :=
  ⟨fun _ => ⟨a, s, rfl, h⟩, fun hn => absurd hg hn⟩

theorem Yields.fail (hg : ¬ g) (h : ∃ e s, x = .error e s) : Yields g x P :=
  ⟨fun h => absurd h hg, fun _ => h⟩

theorem Yields.iff (h : Yields g x P) (hg : g ↔ g') : Yields g' x P :=
  ⟨fun hg' => h.1 (hg.2 hg'), fun hn => h.2 fun hg' => hn (hg.1 hg')⟩

theorem Yields.bind {p : Parser α} {q : α → Parser β} (h : Yields g (p s) P)
    (hq : ∀ a s₁, P a s₁ → Yields g' (q a s₁) Q) : Yields (g ∧ g') ((p >>= q) s) Q := by
  by_cases hg : g
  · obtain ⟨a, s₁, hp, hP⟩ := h.1 hg
    rw [bind_of_ok hp]
    exact (hq a s₁ hP).iff (by simp [hg])
  · obtain ⟨e, s₁, hp⟩ := h.2 hg
    exact .fail (fun hgg => hg hgg.1) ⟨e, s₁, bind_of_error hp⟩

theorem Leads.then {p : Parser α} {q : α → Parser β} {a : α} (h : Leads g (p s) (.ok a s₁))
    (hq : Yields g' (q a s₁) Q) : Yields (g ∧ g') ((p >>= q) s) Q := by
  by_cases hg : g
  · rw [bind_of_ok (h.1 hg)]
    exact hq.iff (by simp [hg])
  · obtain ⟨loc, s₁, hp⟩ := h.2 hg
    exact .fail (fun hgg => hg hgg.1) ⟨_, s₁, bind_of_error hp⟩

theorem State.Passes.of_tokens {ws : List Lexeme} (h : s.Passes ws s') (hs : s₁.tokens = s.tokens) :
    ∃ s₂, s₁.Passes ws s₂ ∧ s₂.tokens = s'.tokens := by
  obtain ⟨ts, hts, rfl⟩ := h
  refine ⟨{ s₁ with tokens := s'.tokens }, ⟨ts, hts, ?_⟩, rfl⟩
  change s₁.tokens = ts ++ s'.tokens at hs
  rw [← hs]

theorem State.next_congr (h : s.tokens = s'.tokens) : s.next = s'.next := by rw [State.next, h, State.next]

theorem eat_skip {w v : Lexeme} {p q : Parser α} (h : s.next = some w) (hw : w ≠ v) :
    (eat v >>= fun b => if b = true then p else q) s = q s :=
  eat_else fun hv => hw (Option.some.inj (h.symm.trans hv))

theorem yields_untilBrace {γ : Type} {f : α → γ} {g : Piece α → Prop} {item : Parser α} {ps : List (Piece α)}
    (hfirst : ∀ p ∈ ps, ∃ w us, words p.tokens = w :: us ∧ w ≠ .punct .rbrace ∧ w ≠ .keyword .kwElse)
    (hitem : ∀ p ∈ ps, ∀ s s', s.Passes (words p.tokens) s' → s'.next ≠ some (.keyword .kwElse) →
      Yields (g p) (item s) fun a s₁ => f a = f p.value ∧ s₁.tokens = s'.tokens)
    {bound : List Token} (hpass : s.Passes (words (Piece.spelled ps) ++ [.punct .rbrace]) s')
    (hbound : s.tokens.length ≤ bound.length) :
    Yields (∀ p ∈ ps, g p) (untilBrace item bound s) fun as s₁ =>
      as.map f = (ps.map (·.value)).map f ∧ s₁.tokens = s'.tokens := by
  have hlong := hpass.length_eq
  simp only [List.length_append, List.length_cons, List.length_nil] at hlong
  induction ps generalizing s s' bound with
  | nil =>
      cases bound with
      | nil =>
          simp only [List.length_nil] at hbound
          omega
      | cons t bound =>
          have hrun : untilBrace item (t :: bound) s = .ok [] s' := eat_then hpass
          rw [hrun]
          exact .ok (List.forall_mem_nil _) ⟨rfl, rfl⟩
  | cons p ps ih =>
      obtain ⟨⟨w, us, hus, hbrace, _⟩, hfirst⟩ := List.forall_mem_cons.1 hfirst
      obtain ⟨hp, hps⟩ := List.forall_mem_cons.1 hitem
      rw [Piece.spelled, List.flatMap_cons, words_append, List.append_assoc] at hpass
      obtain ⟨s₁, hpiece, hpass⟩ := State.passes_append.1 hpass
      have hlong₁ := hpiece.length_eq
      rw [hus, List.length_cons] at hlong₁
      cases bound with
      | nil =>
          simp only [List.length_nil] at hbound
          omega
      | cons t bound =>
          have hnext : s.next = some w := (hus ▸ hpiece).next
          have helse : s₁.next ≠ some (.keyword .kwElse) := by
            cases ps with
            | nil =>
                rw [hpass.next]
                decide
            | cons p' ps =>
                obtain ⟨w', us', hus', _, hw'⟩ := hfirst p' List.mem_cons_self
                rw [List.flatMap_cons, words_append, hus', List.append_assoc] at hpass
                rw [hpass.next]
                exact fun heq => hw' (Option.some.inj heq)
          have hrun : untilBrace item (t :: bound) s = (item >>= fun x =>
              untilBrace item bound >>= fun xs => pure (x :: xs)) s := eat_skip hnext hbrace
          rw [hrun]
          refine ((hp s s₁ hpiece helse).bind fun a s₂ hres => ?_).iff List.forall_mem_cons.symm
          obtain ⟨ha, hs₂⟩ := hres
          obtain ⟨s₃, hpass₂, hs₃⟩ := hpass.of_tokens hs₂
          have hlong₂ := hpass₂.length_eq
          simp only [List.length_append, List.length_cons, List.length_nil] at hlong₂ hbound
          have hbound₂ : s₂.tokens.length ≤ bound.length := by
            rw [hs₂]
            omega
          refine ((ih hfirst hps hpass₂ hbound₂ hlong₂).bind fun as s₄ hres => ?_).iff (iff_of_eq (and_true _))
          obtain ⟨has, hs₄⟩ := hres
          refine .ok trivial ⟨?_, hs₄.trans hs₃⟩
          rw [List.map_cons, ha, has]
          rfl

theorem Leads.yields {a : α} (h : Leads g x (.ok a s)) (hP : P a s) : Yields g x P := by
  refine ⟨fun hg => ⟨a, s, h.1 hg, hP⟩, fun hn => ?_⟩
  obtain ⟨loc, s₁, hx⟩ := h.2 hn
  exact ⟨_, s₁, hx⟩

variable {room d d' c k m : Nat} {e : Expr} {ts cs : List Token} {t : Tag} {l : Location}

theorem leads_before {ws : List Lexeme} {p : Punct} {q : Expr → Parser β} (h : Renders .whole e ws d)
    (hpass : s.Passes (ws ++ [.punct p]) s') (hfits : Fits ws) (hp : p ∈ [.rbracket, .rparen, .comma, .semi]) :
    Leads (d ≤ room) ((expr room >>= fun x => expectPunct p >>= fun _ => q x) s) (q e s') := by
  obtain ⟨s₁, hinside, hclose⟩ := State.passes_append.1 hpass
  obtain ⟨hcloses, hoff⟩ := closes_of_mark hp ws
  rw [← hclose.next] at hcloses hoff
  exact (meets h room s s₁ hinside hfits hcloses hoff).bind (expectPunct_pass hclose)

theorem leads_condition (h : Condition e cs d) (hpass : s.Passes (words cs) s') (hfits : Fits (words cs)) :
    Leads (d ≤ room) (condition (expr room) s) (.ok e s') := by
  cases h with
  | mk h =>
      rw [words_cons, words_append] at hpass
      obtain ⟨s₁, hopen, hpass⟩ := State.passes_cons.1 hpass
      have hrun : condition (expr room) s = _ := expectPunct_pass hopen
      rw [hrun]
      exact leads_before h hpass (by simpa using hfits) (by simp)

theorem leads_ended {q : Expr → Parser β} (h : Ended e ts d) (hpass : s.Passes (words ts) s')
    (hfits : Fits (words ts)) :
    Leads (d ≤ room) ((expr room >>= fun x => expectPunct .semi >>= fun _ => q x) s) (q e s') := by
  cases h with
  | mk h =>
      rw [words_append] at hpass
      exact leads_before h hpass (by simpa using hfits) (by simp)

section

variable {p : Parser Expr} {q : Parser Stmt}

theorem stmtWith_block (h : s.Passes [.punct .lbrace] s₁) :
    stmtWith t p q s = (block q >>= fun body => pure (.block t body)) s₁ :=
  eat_then h

theorem stmtWith_if (h : s.Passes [.keyword .kwIf] s₁) : stmtWith t p q s = (do
    let cond ← condition p
    let yes ← q
    if ← eatKeyword .kwElse then
      let no ← q
      return .ifElse t cond yes no
    else
      return .ifThen t cond yes : Parser Stmt) s₁ :=
  Eq.trans (eat_skip h.next (by decide)) (eat_then h)

theorem stmtWith_while (h : s.Passes [.keyword .kwWhile] s₁) :
    stmtWith t p q s = (condition p >>= fun cond => q >>= fun body => pure (.loop t cond body)) s₁ :=
  calc stmtWith t p q s
    _ = _ := eat_skip h.next (by decide)
    _ = _ := eat_skip h.next (by decide)
    _ = _ := eat_then h

theorem stmtWith_return (h : s.Passes [.keyword .kwReturn] s₁) : stmtWith t p q s = (do
    if ← eatPunct .semi then
      return .ret t none
    let value ← p
    expectPunct .semi
    return .ret t (some value) : Parser Stmt) s₁ :=
  calc stmtWith t p q s
    _ = _ := eat_skip h.next (by decide)
    _ = _ := eat_skip h.next (by decide)
    _ = _ := eat_skip h.next (by decide)
    _ = _ := eat_then h

theorem stmtWith_break (h : s.Passes [.keyword .kwBreak, .punct .semi] s') :
    stmtWith t p q s = .ok (.brk t) s' := by
  obtain ⟨s₁, hbreak, hsemi⟩ := State.passes_cons.1 h
  calc stmtWith t p q s
    _ = _ := eat_skip hbreak.next (by decide)
    _ = _ := eat_skip hbreak.next (by decide)
    _ = _ := eat_skip hbreak.next (by decide)
    _ = _ := eat_skip hbreak.next (by decide)
    _ = _ := eat_then hbreak
    _ = _ := expectPunct_pass hsemi

theorem stmtWith_continue (h : s.Passes [.keyword .kwContinue, .punct .semi] s') :
    stmtWith t p q s = .ok (.cont t) s' := by
  obtain ⟨s₁, hcontinue, hsemi⟩ := State.passes_cons.1 h
  calc stmtWith t p q s
    _ = _ := eat_skip hcontinue.next (by decide)
    _ = _ := eat_skip hcontinue.next (by decide)
    _ = _ := eat_skip hcontinue.next (by decide)
    _ = _ := eat_skip hcontinue.next (by decide)
    _ = _ := eat_skip hcontinue.next (by decide)
    _ = _ := eat_then hcontinue
    _ = _ := expectPunct_pass hsemi

theorem eatAll_pass {xs : List Lexeme} (h : s.Passes xs s₁) : eatAll xs s = .ok true s₁ := by
  obtain ⟨ts, rfl, rfl⟩ := h
  simp [eatAll, words]

theorem eatAll_other {xs : List Lexeme} (h : ¬ xs <+: words s.tokens) : eatAll xs s = .ok false s := by
  refine if_neg fun heq => h (List.prefix_iff_eq_take.2 ?_)
  rw [words, ← List.map_take]
  exact heq.symm

theorem stmtWith_print (h : s.Passes [.ident "System", .punct .dot, .ident "out"] s₁) :
    stmtWith t p q s = (printed p >>= fun value => pure (.print t value)) s₁ :=
  calc stmtWith t p q s
    _ = _ := eat_skip h.next (by decide)
    _ = _ := eat_skip h.next (by decide)
    _ = _ := eat_skip h.next (by decide)
    _ = _ := eat_skip h.next (by decide)
    _ = _ := eat_skip h.next (by decide)
    _ = _ := eat_skip h.next (by decide)
    _ = _ := bind_of_ok (eatAll_pass h)

/-- A statement that begins like an expression, and not like a print statement, is an assignment or a call. -/
theorem stmtWith_other {w : Lexeme} {o : Option (String × Punct)} (hnext : s.next = some w)
    (hw : Rank.whole.begins w = true) (hout : ¬ [.ident "System", .punct .dot, .ident "out"] <+: words s.tokens)
    (htarget : target? s = .ok o s₁) :
    stmtWith t p q s = o.elim (callStmt t p) (fun o => assignment t p o.1 o.2) s₁ :=
  calc stmtWith t p q s
    _ = _ := eat_skip hnext (by rintro rfl; cases hw)
    _ = _ := eat_skip hnext (by rintro rfl; cases hw)
    _ = _ := eat_skip hnext (by rintro rfl; cases hw)
    _ = _ := eat_skip hnext (by rintro rfl; cases hw)
    _ = _ := eat_skip hnext (by rintro rfl; cases hw)
    _ = _ := eat_skip hnext (by rintro rfl; cases hw)
    _ = _ := bind_of_ok (eatAll_other hout)
    _ = _ := bind_of_ok htarget
    _ = _ := by cases o <;> rfl

theorem target?_pass {name : String} {p : Punct} (hp : p = .assign ∨ p = .lbracket)
    (h : s.Passes [.ident name, .punct p] s₁) : target? s = .ok (some (name, p)) s₁ := by
  obtain ⟨s₂, hname, hmark⟩ := State.passes_cons.1 h
  obtain ⟨l, rfl⟩ := hmark.token
  obtain ⟨l, rfl⟩ := hname.token
  rcases hp with rfl | rfl <;> rfl

theorem target?_none (h : ∀ name p, [.ident name, .punct p] <+: words s.tokens → p ≠ .assign ∧ p ≠ .lbracket) :
    target? s = .ok none s := by
  unfold target?
  split
  case h_1 name l₁ p l₂ rest htokens =>
    have hp := h name p (by rw [htokens]; exact ⟨words rest, rfl⟩)
    simp [hp]
  case h_2 => rfl

end

def Gives (g : Prop) (r : EStateM.Result SyntaxError State Stmt) (x : Stmt) (s' : State) : Prop :=
  Yields g r fun y s₁ => y.retag Tag.bare = x.retag Tag.bare ∧ s₁.tokens = s'.tokens

/-- The parser reads the words of the statement, if none of its calls is in disguise and if it has room. -/
def Completes (x : Stmt) (ws : List Lexeme) (d k : Nat) : Prop :=
  ∀ room s s', s.Passes ws s' → Fits ws → (x.isOpen = true → s'.next ≠ some (.keyword .kwElse)) →
    Gives (k = 0 ∧ d ≤ room) (stmt room s) x s'

theorem gives_of_leads {r : EStateM.Result SyntaxError State Stmt} {x : Stmt} (y : Stmt)
    (hy : y.retag Tag.bare = x.retag Tag.bare) (h : Leads (d ≤ room) r (.ok y s')) :
    Gives (0 = 0 ∧ d ≤ room) r x s' :=
  (h.yields ⟨hy, rfl⟩).iff (by simp)

theorem completes_of_stmtWith {x : Stmt} {ws : List Lexeme}
    (h : ∀ room t s s', s.Passes ws s' → Fits ws → (x.isOpen = true → s'.next ≠ some (.keyword .kwElse)) →
      Gives (k = 0 ∧ d ≤ room) (stmtWith t (expr room) (stmt room) s) x s') : Completes x ws (d + 1) k := by
  intro room s s' hpass hfits hopen
  cases room with
  | zero => exact .fail (fun hg => Nat.not_succ_le_zero d hg.2) ⟨_, _, rfl⟩
  | succ room =>
      obtain ⟨s₁, hpass₁, hs₁⟩ := hpass.of_tokens (rfl : State.tokens { s with nextId := s.nextId + 1 } = s.tokens)
      have hgives := h room ⟨s.nextId, s.here⟩ _ s₁ hpass₁ hfits (State.next_congr hs₁ ▸ hopen)
      rw [Gives, hs₁] at hgives
      exact hgives.iff (by omega)

theorem completes_block {body : List (Piece Stmt)}
    (hfirst : ∀ p ∈ body, ∃ w us, words p.tokens = w :: us ∧ w ≠ .punct .rbrace ∧ w ≠ .keyword .kwElse)
    (hbody : ∀ p ∈ body, Completes p.value (words p.tokens) p.depth p.disguises) :
    Completes (.block t (body.map (·.value)))
      (.punct .lbrace :: (words (Piece.spelled body) ++ [.punct .rbrace]))
      (Piece.deepest body + 1) (Piece.total body) := by
  refine completes_of_stmtWith fun room t' s s' hpass hfits _ => ?_
  obtain ⟨s₁, hopen, hpass⟩ := State.passes_cons.1 hpass
  have hfits : Fits (words (Piece.spelled body)) := by simpa using hfits
  have hitem : ∀ p ∈ body, ∀ s s', s.Passes (words p.tokens) s' → s'.next ≠ some (.keyword .kwElse) →
      Yields (p.disguises = 0 ∧ p.depth ≤ room) (stmt room s) fun y s₁ =>
        y.retag Tag.bare = p.value.retag Tag.bare ∧ s₁.tokens = s'.tokens :=
    fun p hp s s' hpass helse => hbody p hp room s s' hpass (Piece.fits_spelled.1 hfits p hp) fun _ => helse
  rw [stmtWith_block hopen]
  refine ((yields_untilBrace hfirst hitem hpass (Nat.le_refl _)).bind fun ss s₂ hres => ?_).iff
    ((and_iff_left trivial).trans Piece.limits)
  obtain ⟨hss, hs₂⟩ := hres
  refine .ok trivial ⟨?_, hs₂⟩
  rw [Stmt.retag, Stmt.retagList_eq_map, hss, ← Stmt.retagList_eq_map]
  rfl

theorem completes_ifThen {yes : Stmt} (hcond : Condition e cs c) (hyes : Completes yes (words ts) d k) :
    Completes (.ifThen t e yes) (.keyword .kwIf :: (words cs ++ words ts)) (max c d + 1) k := by
  refine completes_of_stmtWith fun room t' s s' hpass hfits hopen => ?_
  obtain ⟨s₁, hif, hpass⟩ := State.passes_cons.1 hpass
  obtain ⟨s₂, hpassc, hpass⟩ := State.passes_append.1 hpass
  obtain ⟨hfitsc, hfits⟩ : Fits (words cs) ∧ Fits (words ts) := by simpa using hfits
  have hroom : (c ≤ room ∧ (k = 0 ∧ d ≤ room) ∧ True) ↔ k = 0 ∧ max c d ≤ room := by
    simp only [and_true]
    omega
  rw [stmtWith_if hif]
  refine ((leads_condition hcond hpassc hfitsc).then
    ((hyes room s₂ s' hpass hfits fun _ => hopen rfl).bind fun y s₃ hres => ?_)).iff hroom
  obtain ⟨hy, hs₃⟩ := hres
  have helse : s₃.next ≠ some (.keyword .kwElse) := State.next_congr hs₃ ▸ hopen rfl
  rw [eatKeyword, eat_else helse]
  refine .ok trivial ⟨?_, hs₃⟩
  rw [Stmt.retag, hy]
  rfl

theorem completes_ifElse {yes no : Stmt} {us : List Token} (hcond : Condition e cs c)
    (hyes : Completes yes (words ts) d k) (hno : Completes no (words us) d' m) (hclosed : yes.isOpen = false) :
    Completes (.ifElse t e yes no) (.keyword .kwIf :: (words cs ++ (words ts ++ .keyword .kwElse :: words us)))
      (max c (max d d') + 1) (k + m) := by
  refine completes_of_stmtWith fun room t' s s' hpass hfits hopen => ?_
  obtain ⟨s₁, hif, hpass⟩ := State.passes_cons.1 hpass
  obtain ⟨s₂, hpassc, hpass⟩ := State.passes_append.1 hpass
  obtain ⟨s₃, hpassy, hpass⟩ := State.passes_append.1 hpass
  obtain ⟨hfitsc, hfitsy, hfits⟩ : Fits (words cs) ∧ Fits (words ts) ∧ Fits (words us) := by simpa using hfits
  have hroom : (c ≤ room ∧ (k = 0 ∧ d ≤ room) ∧ (m = 0 ∧ d' ≤ room) ∧ True) ↔
      k + m = 0 ∧ max c (max d d') ≤ room := by
    simp only [and_true]
    omega
  rw [stmtWith_if hif]
  refine ((leads_condition hcond hpassc hfitsc).then
    ((hyes room s₂ s₃ hpassy hfitsy (by simp [hclosed])).bind fun y s₄ hres => ?_)).iff hroom
  obtain ⟨hy, hs₄⟩ := hres
  obtain ⟨s₅, hpass, hs₅⟩ := hpass.of_tokens hs₄
  obtain ⟨s₆, helse, hpass⟩ := State.passes_cons.1 hpass
  rw [eatKeyword, eat_then helse]
  refine (hno room s₆ s₅ hpass hfits (State.next_congr hs₅ ▸ hopen)).bind fun n s₇ hres => ?_
  obtain ⟨hn, hs₇⟩ := hres
  refine .ok trivial ⟨?_, hs₇.trans hs₅⟩
  rw [Stmt.retag, hy, hn]
  rfl

theorem completes_loop {body : Stmt} (hcond : Condition e cs c) (hbody : Completes body (words ts) d k) :
    Completes (.loop t e body) (.keyword .kwWhile :: (words cs ++ words ts)) (max c d + 1) k := by
  refine completes_of_stmtWith fun room t' s s' hpass hfits hopen => ?_
  obtain ⟨s₁, hwhile, hpass⟩ := State.passes_cons.1 hpass
  obtain ⟨s₂, hpassc, hpass⟩ := State.passes_append.1 hpass
  obtain ⟨hfitsc, hfits⟩ : Fits (words cs) ∧ Fits (words ts) := by simpa using hfits
  have hroom : (c ≤ room ∧ (k = 0 ∧ d ≤ room) ∧ True) ↔ k = 0 ∧ max c d ≤ room := by
    simp only [and_true]
    omega
  rw [stmtWith_while hwhile]
  refine ((leads_condition hcond hpassc hfitsc).then
    ((hbody room s₂ s' hpass hfits hopen).bind fun y s₃ hres => ?_)).iff hroom
  obtain ⟨hy, hs₃⟩ := hres
  refine .ok trivial ⟨?_, hs₃⟩
  rw [Stmt.retag, hy]
  rfl

theorem State.Passes.words_eq {ws : List Lexeme} (h : s.Passes ws s') : words s.tokens = ws ++ words s'.tokens := by
  obtain ⟨ts, rfl, rfl⟩ := h
  exact words_append _ _

theorem State.passes_pair {w v : Lexeme} {ws : List Lexeme} :
    s.Passes (w :: v :: ws) s' ↔ ∃ s₁, s.Passes [w, v] s₁ ∧ s₁.Passes ws s' := by
  rw [← State.passes_append]
  rfl

theorem completes_assign {name : String} (h : Ended e ts d) :
    Completes (.assign t name e) (.ident name :: .punct .assign :: words ts) (d + 1) 0 := by
  refine completes_of_stmtWith fun room t' s s' hpass hfits _ => ?_
  obtain ⟨s₁, htarget, hpass₁⟩ := State.passes_pair.1 hpass
  have hout : ¬ [.ident "System", .punct .dot, .ident "out"] <+: words s.tokens := by
    rw [hpass.words_eq]
    simp
  rw [stmtWith_other hpass.next rfl hout (target?_pass (Or.inl rfl) htarget)]
  exact gives_of_leads (.assign t' name e) rfl (leads_ended h hpass₁ (by simpa using hfits))

theorem completes_store {name : String} {i : Expr} {is : List Token} (hi : Renders .whole i (words is) c)
    (h : Ended e ts d) : Completes (.store t name i e) (.ident name :: .punct .lbracket ::
      (words is ++ .punct .rbracket :: .punct .assign :: words ts)) (max c d + 1) 0 := by
  refine completes_of_stmtWith fun room t' s s' hpass hfits _ => ?_
  obtain ⟨s₁, htarget, hpass₁⟩ := State.passes_pair.1 hpass
  rw [List.append_cons] at hpass₁
  obtain ⟨s₂, hpassi, hpass₂⟩ := State.passes_append.1 hpass₁
  obtain ⟨s₃, hassign, hpass₃⟩ := State.passes_cons.1 hpass₂
  have hout : ¬ [.ident "System", .punct .dot, .ident "out"] <+: words s.tokens := by
    rw [hpass.words_eq]
    simp
  obtain ⟨hfitsi, hfits⟩ : Fits (words is) ∧ Fits (words ts) := by simpa using hfits
  have hvalue : Leads (d ≤ room) ((expectPunct .assign >>= fun _ => expr room >>= fun x =>
      expectPunct .semi >>= fun _ => pure (Stmt.store t' name i x)) s₂) (.ok (Stmt.store t' name i e) s') := by
    rw [expectPunct_pass hassign]
    exact leads_ended h hpass₃ hfits
  rw [stmtWith_other hpass.next rfl hout (target?_pass (Or.inr rfl) htarget)]
  exact gives_of_leads (.store t' name i e) rfl
    (((leads_before hi hpassi hfitsi (by simp)).trans hvalue).iff Nat.max_le.symm)

theorem leads_printed (h : Condition e ts d) (hpass : s.Passes (.punct .dot :: .ident "println" ::
    (words ts ++ [.punct .semi])) s') (hfits : Fits (words ts)) :
    Leads (d ≤ room) (printed (expr room) s) (.ok e s') := by
  obtain ⟨s₁, hdot, hpass⟩ := State.passes_cons.1 hpass
  obtain ⟨s₂, hname, hpass⟩ := State.passes_cons.1 hpass
  obtain ⟨s₃, hinside, hsemi⟩ := State.passes_append.1 hpass
  have hrun : printed (expr room) s =
      (condition (expr room) >>= fun x => expectPunct .semi >>= fun _ => pure x) s₂ :=
    calc printed (expr room) s
      _ = _ := expectPunct_pass hdot
      _ = _ := identifier_pass hname
      _ = _ := by simp
  rw [hrun]
  exact (leads_condition h hinside hfits).bind (expectPunct_pass hsemi)

theorem completes_print (h : Condition e ts d) :
    Completes (.print t e) (.ident "System" :: .punct .dot :: .ident "out" :: .punct .dot :: .ident "println" ::
      (words ts ++ [.punct .semi])) (d + 1) 0 := by
  refine completes_of_stmtWith fun room t' s s' hpass hfits _ => ?_
  have hpass : s.Passes ([.ident "System", .punct .dot, .ident "out"] ++ _) s' := hpass
  obtain ⟨s₁, hout, hpass⟩ := State.passes_append.1 hpass
  rw [stmtWith_print hout]
  exact gives_of_leads (.print t' e) rfl ((leads_printed h hpass (by simpa using hfits)).bind rfl)

theorem completes_ret : Completes (.ret t none) [.keyword .kwReturn, .punct .semi] 1 0 := by
  refine completes_of_stmtWith fun room t' s s' hpass _ _ => ?_
  obtain ⟨s₁, hreturn, hsemi⟩ := State.passes_cons.1 hpass
  rw [stmtWith_return hreturn, eatPunct, eat_then hsemi]
  exact .ok ⟨rfl, Nat.zero_le _⟩ ⟨rfl, rfl⟩

theorem completes_value (h : Ended e ts d) :
    Completes (.ret t (some e)) (.keyword .kwReturn :: words ts) (d + 1) 0 := by
  refine completes_of_stmtWith fun room t' s s' hpass hfits _ => ?_
  obtain ⟨s₁, hreturn, hpass⟩ := State.passes_cons.1 hpass
  have hsemi : s₁.next ≠ some (.punct .semi) := by
    cases h with
    | mk h =>
        obtain ⟨w, us, hus, hw⟩ := h.begins
        rw [words_append, hus] at hpass
        rw [hpass.next]
        rintro ⟨rfl⟩
        cases hw
  rw [stmtWith_return hreturn, eatPunct, eat_else hsemi]
  exact gives_of_leads (.ret t' (some e)) rfl (leads_ended h hpass (by simpa using hfits))

theorem expectPunct_other {p : Punct} {q : Unit → Parser β} (h : s.next ≠ some (.punct p)) :
    ∃ err s₁, (expectPunct p >>= q) s = .error err s₁ := by
  have hrun : expectPunct p s = fail (.punct p) s := eat_else h
  exact ⟨_, _, bind_of_error hrun⟩

theorem not_out_of_passes {ws : List Lexeme} (hpass : s.Passes (ws ++ [.punct .semi]) s')
    (hout : ¬ [.ident "System", .punct .dot, .ident "out"] <+: ws) :
    ¬ [.ident "System", .punct .dot, .ident "out"] <+: words s.tokens := by
  rw [hpass.words_eq, List.append_assoc]
  exact fun h => hout (prefix_of_prefix_append_cons (by decide) h)

theorem stmtWith_disguised {ws : List Lexeme} {q : Parser Stmt} (h : Renders .whole e ws d)
    (hd : disguised ws = true) (hpass : s.Passes (ws ++ [.punct .semi]) s') (hfits : Fits ws) :
    ∃ err s₁, stmtWith t (expr room) q s = .error err s₁ := by
  rcases h.of_disguised hd with ⟨vs, rfl⟩ | ⟨hout, name, i, us, c, vs, hi, rfl, hvs⟩
  · rw [List.append_assoc] at hpass
    obtain ⟨s₁, hsystem, hpass⟩ := State.passes_append.1 hpass
    have hdot : s₁.next ≠ some (.punct .dot) := by
      rw [hpass.next]
      exact nofun
    obtain ⟨err, s₂, herr⟩ : ∃ err s₂, printed (expr room) s₁ = .error err s₂ := expectPunct_other hdot
    exact ⟨err, s₂, by rw [stmtWith_print hsystem, bind_of_error herr]⟩
  · have htokens := not_out_of_passes hpass hout
    have hnext := hpass.next
    rw [List.cons_append, List.cons_append, List.append_assoc, List.cons_append, List.append_cons] at hpass
    obtain ⟨s₁, htarget, hpass⟩ := State.passes_pair.1 hpass
    obtain ⟨s₂, hpassi, hpass⟩ := State.passes_append.1 hpass
    have hassign : s₂.next ≠ some (.punct .assign) := by
      cases vs with
      | nil =>
          rw [hpass.next]
          exact nofun
      | cons v vs =>
          rw [hpass.next]
          exact hvs
    rw [stmtWith_other hnext rfl htokens (target?_pass (Or.inr rfl) htarget)]
    have hleads : Leads (c ≤ room) (assignment t (expr room) name .lbracket s₁) _ :=
      leads_before hi hpassi (by simp at hfits; exact hfits.1) (by simp)
    by_cases hc : c ≤ room
    · obtain ⟨err, s₃, herr⟩ := expectPunct_other hassign
      exact ⟨err, s₃, (hleads.1 hc).trans herr⟩
    · obtain ⟨loc, s₃, herr⟩ := hleads.2 hc
      exact ⟨_, s₃, herr⟩

theorem completes_call {receiver : Expr} {method : String} {args : List Expr} {ws : List Lexeme}
    (h : Renders .whole (.call receiver method args) ws d) :
    Completes (.call t receiver method args) (ws ++ [.punct .semi]) (d + 1) (disguised ws).toNat := by
  refine completes_of_stmtWith fun room t' s s' hpass hfits _ => ?_
  have hfits : Fits ws := by simpa using hfits
  cases hd : disguised ws with
  | true => exact .fail (by simp) (stmtWith_disguised h hd hpass hfits)
  | false =>
      obtain ⟨hstore, hout⟩ := Bool.or_eq_false_iff.1 hd
      rw [← Bool.not_eq_true, List.isPrefixOf_iff_prefix] at hout
      have htarget : target? s = .ok none s := by
        refine target?_none fun name p hp => ?_
        rw [hpass.words_eq, List.append_assoc] at hp
        exact h.not_target hstore hp
      obtain ⟨w, us, rfl, hw⟩ := h.begins
      rw [stmtWith_other hpass.next hw (not_out_of_passes hpass hout) htarget]
      obtain ⟨s₁, hinside, hsemi⟩ := State.passes_append.1 hpass
      obtain ⟨hcloses, hoff⟩ := closes_of_mark (p := .semi) (by simp) (w :: us)
      rw [← hsemi.next] at hcloses hoff
      exact gives_of_leads (.call t' receiver method args) rfl
        ((meets h room s s₁ hinside hfits hcloses hoff).bind (expectPunct_pass hsemi))

theorem Statement.begins {x : Stmt} (h : Statement x ts d k) :
    ∃ w us, words ts = w :: us ∧ w ≠ .punct .rbrace ∧ w ≠ .keyword .kwElse := by
  cases h with
  | call h =>
      obtain ⟨w, us, hus, hw⟩ := h.begins
      refine ⟨w, us ++ [.punct .semi], by rw [words_append, hus]; rfl, ?_, ?_⟩ <;>
        · rintro rfl
          cases hw
  | _ => exact ⟨_, _, rfl, nofun, nofun⟩

/-- The parser reads each statement that the grammar has, up to calls in disguise and if it has room. -/
theorem completes {x : Stmt} (h : Statement x ts d k) (hnear : x.NearestElse) : Completes x (words ts) d k := by
  induction h with
  | block body hbody ih =>
      rw [words_cons, words_append]
      rw [Stmt.nearestElse_block, List.forall_mem_map] at hnear
      exact completes_block (fun p hp => Statement.begins (hbody p hp)) fun p hp => ih p hp (hnear p hp)
  | assign h => exact completes_assign h
  | store hi h =>
      rw [words_cons, words_cons, words_append]
      exact completes_store hi h
  | ifThen hcond _ ih =>
      rw [words_cons, words_append]
      exact completes_ifThen hcond (ih (Stmt.nearestElse_ifThen.1 hnear))
  | ifElse hcond _ _ ihyes ihno =>
      obtain ⟨hclosed, hyes, hno⟩ := Stmt.nearestElse_ifElse.1 hnear
      rw [words_cons, words_append, words_append]
      exact completes_ifElse hcond (ihyes hyes) (ihno hno) hclosed
  | loop hcond _ ih =>
      rw [words_cons, words_append]
      exact completes_loop hcond (ih (Stmt.nearestElse_loop.1 hnear))
  | print h =>
      rw [words_cons, words_cons, words_cons, words_cons, words_cons, words_append]
      exact completes_print h
  | call h =>
      rw [words_append]
      exact completes_call h
  | ret => exact completes_ret
  | value h => exact completes_value h
  | brk =>
      refine completes_of_stmtWith fun room t' s s' hpass _ _ => ?_
      rw [stmtWith_break hpass]
      exact .ok ⟨rfl, Nat.zero_le _⟩ ⟨rfl, rfl⟩
  | cont =>
      refine completes_of_stmtWith fun room t' s s' hpass _ _ => ?_
      rw [stmtWith_continue hpass]
      exact .ok ⟨rfl, Nat.zero_le _⟩ ⟨rfl, rfl⟩

end Parser

end Backflow
