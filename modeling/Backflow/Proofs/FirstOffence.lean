import Backflow.Proofs.ParserComplete
import Backflow.Proofs.StatementPrediction

namespace Backflow

namespace Grammar

def Declared (P : Ty → Prop) (w : List Lexeme) : Prop := ∃ ty name, P ty ∧ w = ty.lexemes ++ [.ident name]

def Line (w : List Lexeme) : Prop := Sentence w ∨ ∃ x, w = x ++ [.punct .semi] ∧ Declared (· ≠ .void) x

def Feature (w : List Lexeme) : Prop :=
  w = [.punct .semi] ∨ ∃ ps b, w = .punct .lparen :: (ps ++ .punct .lbrace :: b) ∧
    Tupled (Declared fun _ => True) ps ∧ Braced Line b

def Modified (w : List Lexeme) : Prop := ∀ x ∈ w, x = .keyword .kwPublic ∨ x = .keyword .kwStatic

def MemberWords (w : List Lexeme) : Prop :=
  ∃ ms x y, w = ms ++ (x ++ y) ∧ Modified ms ∧ Declared (fun _ => True) x ∧ Feature y

def Heritage (w : List Lexeme) : Prop := w = [] ∨ ∃ name, w = [.keyword .kwExtends, .ident name]

def ClassWords (w : List Lexeme) : Prop :=
  ∃ name ps b, w = .keyword .kwClass :: .ident name :: (ps ++ .punct .lbrace :: b) ∧ Heritage ps ∧
    Braced MemberWords b

/-- The words of a program without limits: however deep it is nested, with literals of any size, and with any
expression as a statement. -/
def ProgramWords (w : List Lexeme) : Prop := ∃ parts : List (List Lexeme), w = parts.flatten ∧ ∀ x ∈ parts, ClassWords x

variable {w x : List Lexeme} {P : Ty → Prop}

theorem Declared.begins (h : Declared P w) : ∃ a y, w = a :: y ∧ a ≠ .punct .rbrace ∧ a ≠ .keyword .kwElse ∧
    a ≠ .keyword .kwStatic ∧ a ≠ .keyword .kwPublic ∧ a ≠ .punct .rparen := by
  obtain ⟨ty, name, _, rfl⟩ := h
  obtain ⟨a, y, hy, ha⟩ := Parser.lexemes_begin ty
  exact ⟨a, y ++ [.ident name], by rw [hy]; rfl, ha⟩

theorem declared_default : Declared (· ≠ .void) [.keyword .kwInt, .ident ""] := ⟨.int, "", nofun, rfl⟩

theorem not_declared_nil : ¬ Declared P [] := by
  intro h
  obtain ⟨a, y, hnil, _⟩ := h.begins
  cases hnil

theorem Line.begins (h : Line w) : ∃ a y, w = a :: y ∧ a ≠ .punct .rbrace ∧ a ≠ .keyword .kwElse := by
  rcases h with h | ⟨x, rfl, h⟩
  · obtain ⟨a, y, rfl⟩ := List.exists_cons_of_ne_nil (fun hnil : w = [] => not_sentence_nil (hnil ▸ h))
    refine ⟨a, y, rfl, ?_, ?_⟩
    · exact fun ha => h.head? rfl (by decide) (congrArg some ha)
    · exact fun ha => h.head? rfl (by decide) (congrArg some ha)
  · obtain ⟨a, y, rfl, hbrace, helse, _⟩ := h.begins
    exact ⟨a, _, rfl, hbrace, helse⟩

theorem not_line_nil : ¬ Line [] := by
  intro h
  obtain ⟨a, y, hnil, _⟩ := h.begins
  cases hnil

theorem Sentence.after_name {name : String} (h : Sentence (.ident name :: w)) : ∃ p y, w = .punct p :: y := by
  cases h with
  | assign | store | print => exact ⟨_, _, rfl⟩
  | @expression _ x hx _ hw =>
      obtain ⟨e, d, hx⟩ := hx
      obtain ⟨a, x, rfl⟩ := List.exists_cons_of_ne_nil hx.ne_nil
      cases hw
      rcases hx.afterName rfl with rfl | hafter
      · exact ⟨_, _, rfl⟩
      · cases hafter <;> exact ⟨_, _, rfl⟩

theorem MemberWords.begins (h : MemberWords w) : ∃ a y, w = a :: y ∧ a ≠ .punct .rbrace := by
  obtain ⟨ms, x, y, rfl, hms, hx, _⟩ := h
  cases ms with
  | nil =>
      obtain ⟨a, z, rfl, ha, _⟩ := hx.begins
      exact ⟨a, z ++ y, rfl, ha⟩
  | cons m ms =>
      refine ⟨m, _, rfl, ?_⟩
      rcases hms m List.mem_cons_self with rfl | rfl <;> exact nofun

theorem not_memberWords_nil : ¬ MemberWords [] := by
  intro h
  obtain ⟨a, y, hnil, _⟩ := h.begins
  cases hnil

theorem not_classWords_nil : ¬ ClassWords [] := by
  rintro ⟨name, ps, b, hnil, _⟩
  cases hnil

end Grammar

namespace Parser

open Grammar

variable {α : Type} {s : State} {bound : List Token} {P : Ty → Prop}

def types (P : Ty → Prop) : Category :=
  ⟨fun w => ∃ ty, P ty ∧ w = ty.lexemes, fun w next => w = [.keyword .kwInt] → next ≠ some (.punct .lbracket)⟩

theorem not_types_nil : ¬ (types P).phrase [] := by
  rintro ⟨ty, _, hnil⟩
  exact ty.lexemes_ne_nil hnil.symm

theorem predicts_named (hP : ∀ name, P (.named name))
    (hnext : ∀ k, s.next = some (.keyword k) → k ∉ [.kwInt, .kwBoolean, .kwVoid, .kwString]) :
    PredictsAt type.named (types P) s := by
  by_cases hname : ∃ name, s.next = some (.ident name)
  · obtain ⟨name, hname⟩ := hname
    obtain ⟨l, s₁, hpass, hs⟩ := State.exists_passes hname
    refine .read_one hs (.of_closed (.pure (.named name)) fun w => ⟨?_, ?_⟩) ?_ ?_
    · rintro ⟨ty, _, hw⟩
      cases ty <;> cases hw
      rfl
    · rintro rfl
      exact ⟨_, hP name, rfl⟩
    · obtain ⟨l, rfl⟩ := hpass.token
      rfl
    · rintro w k hw _ rfl
      exact not_types_nil hw.1
  · have hsome : ∃ w, (types P).phrase w := ⟨_, _, hP "", rfl⟩
    refine .fail (e := .type) nofun hsome (fun w k hw hhead => hname ?_) ?_
    · obtain ⟨⟨ty, _, rfl⟩, _⟩ := hw
      cases ty with
      | named name => exact ⟨name, hhead.symm⟩
      | _ => exact absurd (by simp) (hnext _ hhead.symm)
    · unfold type.named
      split
      case h_1 name l rest htokens => exact absurd ⟨name, by rw [State.next, htokens]; rfl⟩ hname
      case h_2 => rfl

theorem predicts_type (hP : ∀ ty, ty ≠ .void → P ty) (hvoid : P .void ∨ s.next ≠ some (.keyword .kwVoid)) :
    PredictsAt type (types P) s := by
  have hgo (a : Lexeme) (w k : List Lexeme) (hw : (types P).Admits w k) (_ : (w ++ k).head? = some a) : w ≠ [] := by
    rintro rfl
    exact not_types_nil hw.1
  refine .branch (fun l s₁ _ => ?_) (hgo _) fun hint => .branch (fun l s₁ _ => ?_) (hgo _) fun hboolean =>
    .branch (fun l s₁ hs => ?_) (hgo _) fun hvoid' => .branch (fun l s₁ _ => ?_) (hgo _) fun hstring => ?_
  · refine .branch (fun l s₂ _ => .mark _ fun w => ⟨?_, ?_⟩) ?_ fun hbracket => ?_
    · rintro ⟨ty, _, hw⟩
      cases ty <;> cases hw
      rfl
    · rintro rfl
      exact ⟨.intArray, hP _ (by decide), rfl⟩
    · rintro w k ⟨_, hfollow⟩ hhead rfl
      exact hfollow rfl hhead
    · refine .done rfl (.refl s₁) ⟨.int, hP _ (by decide), rfl⟩ ?_
      rintro w k ⟨⟨ty, _, hw⟩, _⟩ hhead
      cases ty <;> cases hw
      · rfl
      · exact absurd hhead.symm hbracket
  · refine .of_closed (.pure Ty.boolean) fun w => ⟨?_, ?_⟩
    · rintro ⟨ty, _, hw⟩
      cases ty <;> cases hw
      rfl
    · rintro rfl
      exact ⟨.boolean, hP _ (by decide), rfl⟩
  · have hnext : s.next = some (.keyword .kwVoid) := by
      rw [State.next, hs.reads]
      rfl
    refine .of_closed (.pure Ty.void) fun w => ⟨?_, ?_⟩
    · rintro ⟨ty, _, hw⟩
      cases ty <;> cases hw
      rfl
    · rintro rfl
      exact ⟨.void, hvoid.resolve_right fun h => h hnext, rfl⟩
  · refine .expectPunct (fun l s₂ _ => .mark _ fun w => ⟨?_, ?_⟩) ?_ ?_
    · rintro ⟨ty, _, hw⟩
      cases ty <;> cases hw
      rfl
    · rintro rfl
      exact ⟨.stringArray, hP _ (by decide), rfl⟩
    · exact ⟨_, .stringArray, hP _ (by decide), rfl⟩
    · rintro w ⟨ty, _, hw⟩
      cases ty <;> cases hw
      rfl
  · refine predicts_named (fun name => hP _ (by simp)) fun k hk hmem => ?_
    simp only [List.mem_cons, List.not_mem_nil, or_false] at hmem
    rcases hmem with rfl | rfl | rfl | rfl
    · exact hint hk
    · exact hboolean hk
    · exact hvoid' hk
    · exact hstring hk

theorem predicts_typed {q : Ty → String → Parser α} {G : List Lexeme → Prop} (hP : ∀ ty, ty ≠ .void → P ty)
    (hvoid : P .void ∨ s.next ≠ some (.keyword .kwVoid)) (hsome : ∃ y, G y)
    (hq : ∀ ty name s₁, PredictsAt (q ty name) (.closed G) s₁) :
    PredictsAt (type >>= fun ty => identifier >>= fun name => q ty name)
      (.closed fun w => ∃ x y, w = x ++ y ∧ Declared P x ∧ G y) s := by
  obtain ⟨y₀, hy₀⟩ := hsome
  refine (predicts_type hP hvoid).bind (D := .closed fun w => ∃ name y, w = .ident name :: y ∧ G y)
    (fun ty s₁ _ => ?_) ⟨_, "", y₀, rfl, hy₀⟩ ?_ ?_
  · refine .identifier (fun name l s₂ _ => .of_closed (hq ty name s₂) fun w => ⟨?_, ?_⟩) ⟨_, "", y₀, rfl, hy₀⟩ ?_
    · rintro ⟨name', y, hw, hy⟩
      cases hw
      exact hy
    · exact fun hw => ⟨name, w, rfl, hw⟩
    · rintro _ ⟨name, y, rfl, _⟩
      exact ⟨name, rfl⟩
  · rintro _ _ ⟨ty, hty, rfl⟩ ⟨name, y, rfl, hy⟩
    exact ⟨ty.lexemes ++ [.ident name], y, by simp, ⟨ty, name, hty, rfl⟩, hy⟩
  · rintro _ k ⟨⟨_, y, rfl, ⟨ty, name, hty, rfl⟩, hy⟩, _⟩
    exact ⟨ty.lexemes, .ident name :: y, by simp, ⟨⟨ty, hty, rfl⟩, fun _ => nofun⟩, ⟨name, y, rfl, hy⟩, trivial⟩

theorem predicts_decl (hP : ∀ ty, ty ≠ .void → P ty) (hvoid : P .void ∨ s.next ≠ some (.keyword .kwVoid)) :
    PredictsAt decl (.closed (Declared P)) s := by
  have hdecl := predicts_typed (G := (· = [])) hP hvoid ⟨[], rfl⟩ fun ty name s₁ =>
    PredictsAt.pure (s := s₁) (VarDecl.mk ty name s.here)
  refine .congr (.of_closed hdecl fun w => ⟨fun hw => ?_, ?_⟩) (.refl s) rfl
  · exact ⟨w, [], (List.append_nil w).symm, hw, rfl⟩
  · rintro ⟨x, _, rfl, hx, rfl⟩
    rwa [List.append_nil]

theorem predicts_parameters : Predicts (parenthesized decl) (.closed (Tupled (Declared fun _ => True))) := by
  refine predicts_parenthesized (C := .closed (Declared fun _ => True))
    (fun s => predicts_decl (fun _ _ => trivial) (.inl trivial)) not_declared_nil ⟨_, .int, "", trivial, rfl⟩ ?_ ?_
  · intro x hx
    obtain ⟨a, y, rfl, ha⟩ := Declared.begins hx
    exact fun h => ha.2.2.2.2 (Option.some.inj h)
  · exact fun _ _ => ⟨trivial, trivial⟩

def lines : Category := ⟨Line, fun _ next => next ≠ some (.keyword .kwElse)⟩

theorem predicts_local (hsees : beginsLocal (words s.tokens) = true) :
    PredictsAt (decl >>= fun d => expectPunct .semi >>= fun _ => pure (Sum.inl d : VarDecl ⊕ Stmt)) lines s := by
  have hvoid : s.next ≠ some (.keyword .kwVoid) := (seesLocal_ok ((seesLocal_eq s).trans (by rw [hsees]))).2 rfl
  have hdecl : PredictsAt (decl >>= fun d => expectPunct .semi >>= fun _ => pure (Sum.inl d : VarDecl ⊕ Stmt))
      (.closed fun w => ∃ x, w = x ++ [.punct .semi] ∧ Declared (· ≠ .void) x) s := by
    refine (predicts_decl (P := (· ≠ .void)) (fun _ h => h) (.inr hvoid)).bind (D := .closed (· = [.punct .semi]))
      (fun d s₁ _ => .mark _ fun w => Iff.rfl) ⟨_, rfl⟩ ?_ ?_
    · rintro x _ hx rfl
      exact ⟨x, rfl, hx⟩
    · rintro _ k ⟨⟨x, rfl, hx⟩, _⟩
      exact ⟨x, _, rfl, ⟨hx, trivial⟩, rfl, trivial⟩
  refine hdecl.exchange (fun x hx => .inl (.inr hx)) ?_
  rintro w k ⟨hw | hw, _⟩
  · right
    obtain ⟨a, w, rfl⟩ := List.exists_cons_of_ne_nil (fun hnil : w = [] => not_sentence_nil (hnil ▸ hw))
    by_cases hnext : s.next = some a
    · generalize hws : words s.tokens = ws at hsees
      rw [State.next, hws] at hnext
      unfold beginsLocal at hsees
      split at hsees
      case h_1 k _ =>
        cases hnext
        simp only [Bool.or_eq_true, decide_eq_true_eq] at hsees
        rcases hsees with (rfl | rfl) | rfl <;> exact absurd rfl (hw.head? rfl (by decide))
      case h_2 name name' _ =>
        cases hnext
        obtain ⟨p, y, rfl⟩ := hw.after_name
        refine ⟨[.ident name], .punct p, [.ident name, .ident "", .punct .semi], ⟨_, rfl⟩, ?_,
          ⟨[], ⟨_, rfl, .named name, "", by simp, rfl⟩, trivial⟩, ⟨_, rfl⟩⟩
        rw [hws]
        simp
      case h_3 => cases hsees
    · exact State.departs_at_once hnext ⟨[], ⟨_, rfl, declared_default⟩, trivial⟩
  · exact .inl ⟨hw, trivial⟩

theorem predicts_statement (hsees : beginsLocal (words s.tokens) = false) :
    PredictsAt (stmt maxDepth >>= fun x => pure (Sum.inr x : VarDecl ⊕ Stmt)) lines s := by
  have hstates : ∃ k, sentences.Admits [.punct .lbrace, .punct .rbrace] k :=
    ⟨[], .block [] (by simp), nofun⟩
  refine ((predicts_stmt maxDepth s).map _).exchange (fun x hx => .inl (.inl hx)) ?_
  rintro w k ⟨hw | ⟨_, rfl, ty, name, hty, rfl⟩, hfollow⟩
  · exact .inl ⟨hw, fun h => absurd h hfollow⟩
  · right
    have hkeyword (k : Keyword) (hk : k ∈ [.kwInt, .kwBoolean, .kwString]) : s.next ≠ some (.keyword k) := by
      intro hnext
      obtain ⟨rest, hrest⟩ := List.head?_eq_some_iff.1 hnext
      rw [hrest] at hsees
      simp only [List.mem_cons, List.not_mem_nil, or_false] at hk
      rcases hk with rfl | rfl | rfl <;> cases hsees
    cases ty with
    | void => exact absurd rfl hty
    | named a =>
        refine ⟨[.ident a], .ident name, [.ident a, .punct .semi], ⟨_, rfl⟩, ?_, ⟨[], sentence_name a, nofun⟩, ⟨_, rfl⟩⟩
        rintro ⟨rest, hrest⟩
        rw [← hrest] at hsees
        cases hsees
    | int | intArray => exact State.departs_at_once (hkeyword .kwInt (by simp)) hstates
    | boolean => exact State.departs_at_once (hkeyword .kwBoolean (by simp)) hstates
    | stringArray => exact State.departs_at_once (hkeyword .kwString (by simp)) hstates

theorem predicts_bodyItem : Predicts bodyItem lines := by
  intro s
  cases hsees : beginsLocal (words s.tokens) with
  | true => exact .congr (predicts_local hsees) (.refl s) ((bind_of_ok (seesLocal_eq s)).trans (by rw [hsees]; rfl))
  | false =>
      exact .congr (predicts_statement hsees) (.refl s) ((bind_of_ok (seesLocal_eq s)).trans (by rw [hsees]; rfl))

theorem predicts_body : Predicts (block bodyItem) (.closed (Braced Line)) := by
  refine fun s => (predicts_untilBrace predicts_bodyItem not_line_nil ?_ ?_ (Nat.le_refl _)).bounded
  · intro x hx hhead
    obtain ⟨a, y, rfl, hbrace, _⟩ := Line.begins hx
    exact hbrace (Option.some.inj hhead)
  · rintro x y _ ⟨parts, rfl, hparts⟩ helse
    cases parts with
    | nil => cases helse
    | cons z parts =>
        obtain ⟨a, z, rfl, _, ha⟩ := Line.begins (hparts z List.mem_cons_self)
        exact ha (Option.some.inj helse)

theorem predicts_modifiers (b : Bool) (hbound : s.tokens.length ≤ bound.length) : PredictsAt (modifiers b bound)
    ⟨Modified, fun _ next => next ≠ some (.keyword .kwStatic) ∧ next ≠ some (.keyword .kwPublic)⟩ s := by
  induction bound generalizing s b with
  | nil =>
      have hnone := State.next_eq_none (List.length_eq_zero_iff.1 (Nat.le_zero.1 hbound))
      refine .done rfl (.refl s) (by simp [Modified]) fun x k _ hhead => ?_
      rw [hnone, List.head?_eq_none_iff] at hhead
      exact (List.append_eq_nil_iff.1 hhead).1
  | cons t bound ih =>
      rw [List.length_cons] at hbound
      have hmore (b : Bool) {x : Lexeme} (hx : x = .keyword .kwPublic ∨ x = .keyword .kwStatic) (l : Location)
          (s₁ : State) (hs : s.Advances [⟨x, l⟩] s₁) : PredictsAt (modifiers b bound) (Category.after ⟨Modified,
            fun _ next => next ≠ some (.keyword .kwStatic) ∧ next ≠ some (.keyword .kwPublic)⟩ [x]) s₁ := by
        have hone := hs.length_eq
        rw [List.length_singleton] at hone
        refine (ih b (by omega)).mono (fun y hy => List.forall_mem_cons.2 ⟨hx, hy⟩) ?_
        exact fun y k hy _ => ⟨(List.forall_mem_cons.1 hy.1).2, hy.2⟩
      refine .branch (hmore true (.inr rfl)) ?_ fun hstatic => .branch (hmore b (.inl rfl)) ?_ fun hpublic => ?_
      · rintro w k ⟨_, hfollow⟩ hhead rfl
        exact hfollow.1 hhead
      · rintro w k ⟨_, hfollow⟩ hhead rfl
        exact hfollow.2 hhead
      · refine .done rfl (.refl s) (by simp [Modified]) ?_
        rintro w k ⟨hw, _⟩ hhead
        cases w with
        | nil => rfl
        | cons x w =>
            rcases hw x List.mem_cons_self with rfl | rfl
            · exact absurd hhead.symm hpublic
            · exact absurd hhead.symm hstatic

theorem predicts_feature {field : α} {method : List VarDecl → List (VarDecl ⊕ Stmt) → α} :
    Predicts (eatPunct .semi >>= fun b => if b = true then pure field else
      expectPunct .lparen >>= fun _ => parenthesized decl >>= fun params => expectPunct .lbrace >>= fun _ =>
        block bodyItem >>= fun items => pure (method params items)) (.closed Feature) := by
  have hparams : ∃ ps, Tupled (Declared fun _ => True) ps := ⟨_, tupled_iff.2 (.inl rfl)⟩
  obtain ⟨ps₀, hps₀⟩ := hparams
  intro s
  refine .branch (fun l s₁ _ => .of_closed (.pure field) fun w => ⟨?_, ?_⟩) ?_ fun hnext => ?_
  · rintro (hw | ⟨ps, b, hw, _⟩) <;> cases hw
    rfl
  · rintro rfl
    exact .inl rfl
  · rintro w k ⟨hw | ⟨ps, b, hw, _⟩, _⟩ _ rfl <;> cases hw
  · have hmethod : PredictsAt (expectPunct .lparen >>= fun _ => parenthesized decl >>= fun params =>
        expectPunct .lbrace >>= fun _ => block bodyItem >>= fun items => pure (method params items))
        (.closed fun w => ∃ ps b, w = .punct .lparen :: (ps ++ .punct .lbrace :: b) ∧
          Tupled (Declared fun _ => True) ps ∧ Braced Line b) s := by
      refine .expectPunct (fun l s₁ _ => ?_) ⟨_, ps₀, _, rfl, hps₀, braced_nil⟩ ?_
      · refine (predicts_parameters s₁).bind
          (D := .closed fun w => ∃ b, w = .punct .lbrace :: b ∧ Braced Line b) (fun params s₂ _ => ?_)
          ⟨_, _, rfl, braced_nil⟩ ?_ ?_
        · refine .expectPunct (fun l s₃ _ => .of_closed ((predicts_body s₃).map _) fun w => ⟨?_, ?_⟩)
            ⟨_, _, rfl, braced_nil⟩ ?_
          · rintro ⟨b, hw, hb⟩
            cases hw
            exact hb
          · exact fun hw => ⟨w, rfl, hw⟩
          · rintro _ ⟨b, rfl, _⟩
            rfl
        · rintro ps _ hps ⟨b, rfl, hb⟩
          exact ⟨ps, b, rfl, hps, hb⟩
        · rintro w k ⟨⟨ps, b, hw, hps, hb⟩, _⟩
          cases hw
          exact ⟨ps, _, rfl, ⟨hps, trivial⟩, ⟨b, rfl, hb⟩, trivial⟩
      · rintro _ ⟨ps, b, rfl, _⟩
        rfl
    refine hmethod.mono (fun w hw => .inr hw) ?_
    rintro w k ⟨rfl | hw, _⟩ hhead
    · exact absurd hhead.symm hnext
    · exact ⟨hw, trivial⟩

theorem predicts_classMember : Predicts classMember (.closed MemberWords) := by
  intro s
  refine .congr (q := bounded (modifiers false) >>= fun isStatic => type >>= fun ty => identifier >>= fun name => _)
    ?_ (.refl s) rfl
  refine (predicts_modifiers false (Nat.le_refl _)).bounded.bind (fun isStatic s₁ _ =>
    predicts_typed (P := fun _ => True) (fun _ _ => trivial) (.inl trivial) ⟨_, .inl rfl⟩ fun ty name s₂ =>
      predicts_feature s₂) ?_ ?_ ?_
  · exact ⟨_, _, _, rfl, ⟨.int, "", trivial, rfl⟩, .inl rfl⟩
  · rintro ms _ hms ⟨x, y, rfl, hx, hy⟩
    exact ⟨ms, x, y, rfl, hms, hx, hy⟩
  · rintro _ k ⟨⟨ms, x, y, rfl, hms, hx, hy⟩, _⟩
    refine ⟨ms, x ++ y, rfl, ⟨hms, ?_⟩, ⟨x, y, rfl, hx, hy⟩, trivial⟩
    obtain ⟨a, x, rfl, _, _, hstatic, hpublic, _⟩ := hx.begins
    exact ⟨fun h => hstatic (Option.some.inj h), fun h => hpublic (Option.some.inj h)⟩

theorem predicts_members : Predicts (block classMember) (.closed (Braced MemberWords)) := by
  refine fun s => (predicts_untilBrace predicts_classMember not_memberWords_nil ?_ ?_ (Nat.le_refl _)).bounded
  · intro x hx hhead
    obtain ⟨a, y, rfl, hbrace⟩ := MemberWords.begins hx
    exact hbrace (Option.some.inj hhead)
  · exact fun _ _ _ _ => trivial

theorem predicts_parent : Predicts classDecl.parent?
    ⟨Heritage, fun w next => w = [] → next ≠ some (.keyword .kwExtends)⟩ := by
  intro s
  refine .branch (fun l s₁ _ => ?_) ?_ fun hnext => ?_
  · refine .identifier (fun name l s₂ _ => .of_closed (.pure (some name)) fun w => ⟨?_, ?_⟩) ⟨_, .inr ⟨"", rfl⟩⟩ ?_
    · rintro (hw | ⟨name', hw⟩) <;> cases hw
      rfl
    · rintro rfl
      exact .inr ⟨name, rfl⟩
    · rintro w (hw | ⟨name, hw⟩) <;> cases hw
      exact ⟨name, rfl⟩
  · rintro w k ⟨_, hfollow⟩ hhead rfl
    exact hfollow rfl hhead
  · refine .done rfl (.refl s) (.inl rfl) ?_
    rintro w k ⟨rfl | ⟨name, rfl⟩, _⟩ hhead
    · rfl
    · exact absurd hhead.symm hnext

theorem predicts_classDecl : Predicts classDecl (.closed ClassWords) := by
  intro s
  refine .congr (q := expectKeyword .kwClass >>= fun _ => identifier >>= fun name => classDecl.parent? >>= fun parent =>
    expectPunct .lbrace >>= fun _ => block classMember >>= fun members => _) ?_ (.refl s) rfl
  refine .expectKeyword (fun l s₁ _ => .identifier (fun name l s₂ _ => ?_) ⟨_, "", [], _, rfl, .inl rfl, braced_nil⟩ ?_)
    ⟨_, "", [], _, rfl, .inl rfl, braced_nil⟩ ?_
  · refine (predicts_parent s₂).bind (D := .closed fun w => ∃ b, w = .punct .lbrace :: b ∧ Braced MemberWords b)
      (fun parent s₃ _ => ?_) ⟨_, _, rfl, braced_nil⟩ ?_ ?_
    · refine .expectPunct (fun l s₄ _ => .of_closed ((predicts_members s₄).map _) fun w => ⟨?_, ?_⟩)
        ⟨_, _, rfl, braced_nil⟩ ?_
      · rintro ⟨b, hw, hb⟩
        cases hw
        exact hb
      · exact fun hw => ⟨w, rfl, hw⟩
      · rintro _ ⟨b, rfl, _⟩
        rfl
    · rintro ps _ hps ⟨b, rfl, hb⟩
      exact ⟨name, ps, b, rfl, hps, hb⟩
    · rintro w k ⟨⟨name', ps, b, hw, hps, hb⟩, _⟩
      cases hw
      exact ⟨ps, _, rfl, ⟨hps, fun _ => nofun⟩, ⟨b, rfl, hb⟩, trivial⟩
  · rintro w ⟨name, ps, b, hw, _⟩
    cases hw
    exact ⟨name, rfl⟩
  · rintro _ ⟨name, ps, b, rfl, _⟩
    rfl

theorem predicts_classes (hbound : s.tokens.length ≤ bound.length) :
    PredictsAt (classes bound) ⟨ProgramWords, fun _ next => next = none⟩ s := by
  induction bound generalizing s with
  | nil =>
      have hnone := State.next_eq_none (List.length_eq_zero_iff.1 (Nat.le_zero.1 hbound))
      refine .done rfl (.refl s) ⟨[], rfl, by simp⟩ fun x k _ hhead => ?_
      rw [hnone, List.head?_eq_none_iff] at hhead
      exact (List.append_eq_nil_iff.1 hhead).1
  | cons t bound ih =>
      rw [List.length_cons] at hbound
      by_cases hnil : s.tokens = []
      · refine .done (a := []) ?_ (.refl s) ⟨[], rfl, by simp⟩ fun x k _ hhead => ?_
        · have hend : atEnd s = .ok true s := by rw [atEnd, hnil]; rfl
          exact (bind_of_ok hend).trans rfl
        · rw [State.next_eq_none hnil, List.head?_eq_none_iff] at hhead
          exact (List.append_eq_nil_iff.1 hhead).1
      · have hend : atEnd s = .ok false s := by
          rw [atEnd, List.isEmpty_eq_false_iff.2 hnil]
        have hclass : PredictsAt (classDecl >>= fun c => classes bound >>= fun cs => pure (c :: cs))
            ⟨fun w => ∃ x y, w = x ++ y ∧ ClassWords x ∧ ProgramWords y, fun _ next => next = none⟩ s := by
          refine (predicts_classDecl s).bind (fun c s₁ hrun => (ih ?_).map _) ⟨_, [], rfl, by simp⟩ ?_ ?_
          · have hless := (predicts_classDecl s).shorter not_classWords_nil hrun
            omega
          · exact fun x y hx hy => ⟨x, y, rfl, hx, hy⟩
          · rintro _ k ⟨⟨x, y, rfl, hx, hy⟩, hfollow⟩
            exact ⟨x, y, rfl, ⟨hx, trivial⟩, hy, hfollow⟩
        refine .congr (hclass.mono ?_ ?_) (.refl s) ((bind_of_ok hend).trans rfl)
        · rintro _ ⟨x, _, rfl, hx, parts, rfl, hparts⟩
          exact ⟨x :: parts, rfl, List.forall_mem_cons.2 ⟨hx, hparts⟩⟩
        · rintro w k ⟨⟨parts, rfl, hparts⟩, hfollow⟩ hhead
          cases parts with
          | nil =>
              have hnone : s.next = none := hhead.symm.trans hfollow
              rw [State.next, List.head?_eq_none_iff] at hnone
              exact absurd (List.map_eq_nil_iff.1 hnone) hnil
          | cons x parts =>
              obtain ⟨hx, hparts⟩ := List.forall_mem_cons.1 hparts
              exact ⟨⟨x, _, rfl, hx, parts, rfl, hparts⟩, hfollow⟩

theorem predicts_program : Predicts program ⟨ProgramWords, fun _ next => next = none⟩ :=
  fun _ => (predicts_classes (Nat.le_refl _)).bounded.map _

theorem classes_end {cs : List Class} {s' : State} (hbound : s.tokens.length ≤ bound.length)
    (h : classes bound s = .ok cs s') : s'.tokens = [] := by
  induction bound generalizing s cs with
  | nil =>
      cases h
      exact List.length_eq_zero_iff.1 (Nat.le_zero.1 hbound)
  | cons t bound ih =>
      obtain ⟨b, s₁, hend, hrest⟩ := bind_ok.1 h
      cases hend
      split at hrest
      case isTrue hempty =>
        cases hrest
        exact List.isEmpty_iff.1 hempty
      case isFalse =>
        obtain ⟨c, s₁, hclass, hrest⟩ := bind_ok.1 hrest
        obtain ⟨cs', s₂, hmore, hpure⟩ := bind_ok.1 hrest
        cases hpure
        have hless := (predicts_classDecl s).shorter not_classWords_nil hclass
        rw [List.length_cons] at hbound
        exact ih (by omega) hmore

end Parser

def TokenStream.place (s : TokenStream) (us : List Token) : Location := (us.head?.map (·.loc)).getD s.stop

/-- Some program begins with the tokens `ts`, but none goes on with the first of `us`, or ends if there is none. -/
structure Grammar.FirstWrong (ts us : List Token) : Prop where
  viable : ∃ ws, ProgramWords (words ts ++ ws)
  wrong : ∀ w, ProgramWords w → ¬ Begins (words ts) (words us).head? w

/-- There is one such place in a text: what goes on rightly beyond it would go on rightly there. -/
theorem Grammar.FirstWrong.unique {ts us ts' us' : List Token} (h : FirstWrong ts us) (h' : FirstWrong ts' us')
    (htokens : ts ++ us = ts' ++ us') : ts = ts' := by
  have hshort {ts us ts' us' : List Token} (h : FirstWrong ts us) (h' : FirstWrong ts' us')
      (htokens : ts ++ us = ts' ++ us') (hlt : ts.length < ts'.length) : False := by
    obtain ⟨vs, rfl⟩ : ts <+: ts' :=
      List.prefix_of_prefix_length_le ⟨us, htokens⟩ (List.prefix_append ts' us') (Nat.le_of_lt hlt)
    rw [List.append_assoc, List.append_cancel_left_eq] at htokens
    obtain ⟨v, vs, rfl⟩ := List.exists_cons_of_ne_nil (l := vs) (by rintro rfl; simp at hlt)
    obtain ⟨ws, hws⟩ := h'.viable
    refine h.wrong _ hws ⟨words (v :: vs) ++ ws, by simp, ?_⟩
    rw [htokens]
    rfl
  rcases Nat.lt_trichotomy ts.length ts'.length with hlt | heq | hgt
  · exact (hshort h h' htokens hlt).elim
  · exact (List.append_inj htokens heq).1
  · exact (hshort h' h htokens.symm hgt).elim

namespace Program

open Grammar

variable {s : TokenStream} {loc : Location} {e : Expected} {found : Option Token}

theorem programWords_of_ofTokens {p : Program} (h : ofTokens s = .ok p) : ProgramWords (words s.tokens) := by
  unfold ofTokens at h
  split at h
  case h_1 p' s' hrun =>
    obtain ⟨ts, hts, hwords, _⟩ := (Parser.predicts_program _).takes _ _ hrun
    obtain ⟨cs, s₁, hclasses, hpure⟩ := bind_ok.1 hrun
    cases hpure
    have hall : s.tokens = ts ++ s'.tokens := hts.reads
    rw [Parser.classes_end (Nat.le_refl _) hclasses, List.append_nil] at hall
    rwa [hall]
  case h_2 => cases h

theorem exists_firstWrong (h : ofTokens s = .error (.unexpected loc e found)) :
    ∃ ts us, s.tokens = ts ++ us ∧ FirstWrong ts us ∧ ((e ≠ .println ∧ found = us.head? ∧ loc = s.place us) ∨
      (e = .println ∧ ∃ name l rest, us = ⟨.ident name, l⟩ :: rest ∧ name ≠ "println" ∧ found = rest.head? ∧
        loc = s.place rest)) := by
  unfold ofTokens at h
  split at h
  case h_1 => cases h
  case h_2 err s' hrun =>
    cases h
    obtain ⟨hloc, hfound, ts, us, htokens, hstop, hoffends, hviable, hnone⟩ :=
      (Parser.predicts_program _).blames _ _ _ _ hrun
    refine ⟨ts, us, htokens, ⟨hviable, fun w hw hbegins => ?_⟩, ?_⟩
    · refine hnone w [] ⟨hw, rfl⟩ ?_
      rwa [List.append_nil]
    · have hplace : loc = s.place s'.tokens := by
        rw [hloc, TokenStream.place, Parser.State.here]
        cases s'.tokens with
        | nil => exact hstop
        | cons t rest => rfl
      cases hoffends with
      | next he => exact .inl ⟨he, hfound, hplace⟩
      | last hname => exact .inr ⟨rfl, _, _, _, rfl, hname, hfound, hplace⟩

/-- A text that is read is the text of a program, and where a token is complained about, there is a first token that
no program goes on with after the tokens before it. The complaint is about this token, except where a name
stands for `println`: then it is about the token after the name. -/
theorem complaint_at_firstWrong (s : TokenStream) :
    (∀ p, ofTokens s = .ok p → ProgramWords (words s.tokens)) ∧
      ∀ loc e found, ofTokens s = .error (.unexpected loc e found) → ¬ ProgramWords (words s.tokens) ∧
        ∃ ts us, s.tokens = ts ++ us ∧ FirstWrong ts us ∧ ((e ≠ .println ∧ found = us.head? ∧ loc = s.place us) ∨
          (e = .println ∧ ∃ name l rest, us = ⟨.ident name, l⟩ :: rest ∧ name ≠ "println" ∧ found = rest.head? ∧
            loc = s.place rest)) := by
  refine ⟨fun p h => programWords_of_ofTokens h, fun loc e found h => ?_⟩
  obtain ⟨ts, us, htokens, hwrong, hplace⟩ := exists_firstWrong h
  refine ⟨fun hwords => hwrong.wrong _ hwords ?_, ts, us, htokens, hwrong, hplace⟩
  rw [htokens, words_append]
  exact ⟨words us, rfl, rfl⟩

def syntaxError? (s : TokenStream) : Option SyntaxError :=
  match ofTokens s with
  | .ok _ => none
  | .error e => some e

theorem syntaxError?_eq_some {e : SyntaxError} (h : syntaxError? s = some e) : ofTokens s = .error e := by
  unfold syntaxError? at h
  split at h
  case h_1 => cases h
  case h_2 hrun =>
    cases h
    exact hrun

def fieldText : String := "class A { int x }"

/-- The complaint is about the closing brace. -/
theorem complaint_at_firstWrong_field : ∃ s, Lexer.lex fieldText = .ok s ∧
    ofTokens s = .error (.unexpected ⟨1, 17⟩ (.punct .lparen) (some ⟨.punct .rbrace, ⟨1, 17⟩⟩)) ∧
      ∃ ts us, s.tokens = ts ++ us ∧ FirstWrong ts us ∧ us.head? = some ⟨.punct .rbrace, ⟨1, 17⟩⟩ := by
  have hrun : (Lexer.lex fieldText).toOption.any (fun s => syntaxError? s =
      some (.unexpected ⟨1, 17⟩ (.punct .lparen) (some ⟨.punct .rbrace, ⟨1, 17⟩⟩))) = true := by
    decide +kernel
  obtain ⟨s, hs, herror⟩ := exists_ok_of_any hrun
  have herror := syntaxError?_eq_some (of_decide_eq_true herror)
  obtain ⟨_, ts, us, htokens, hwrong, ⟨_, hfound, _⟩ | ⟨hprintln, _⟩⟩ :=
    (complaint_at_firstWrong s).2 _ _ _ herror
  · exact ⟨s, hs, herror, ts, us, htokens, hwrong, hfound.symm⟩
  · cases hprintln

def printText : String := "class A { void f() { System.out.print(1); } }"

/-- The complaint is about the parenthesis after the name, where it is too late: no program begins like that. -/
theorem complaint_after_print : ∃ s, Lexer.lex printText = .ok s ∧
    ofTokens s = .error (.unexpected ⟨1, 38⟩ .println (some ⟨.punct .lparen, ⟨1, 38⟩⟩)) ∧
      ¬ ∃ ts us, s.tokens = ts ++ us ∧ FirstWrong ts us ∧ us.head? = some ⟨.punct .lparen, ⟨1, 38⟩⟩ ∧
        s.place us = ⟨1, 38⟩ := by
  have hrun : (Lexer.lex printText).toOption.any (fun s => syntaxError? s =
      some (.unexpected ⟨1, 38⟩ .println (some ⟨.punct .lparen, ⟨1, 38⟩⟩))) = true := by
    decide +kernel
  obtain ⟨s, hs, herror⟩ := exists_ok_of_any hrun
  have herror := syntaxError?_eq_some (of_decide_eq_true herror)
  refine ⟨s, hs, herror, ?_⟩
  rintro ⟨ts, us, htokens, hwrong, hhead, _⟩
  obtain ⟨ts', us', htokens', hwrong', ⟨hprintln, _⟩ | ⟨_, name, l, rest, rfl, _⟩⟩ := exists_firstWrong herror
  · exact hprintln rfl
  · have hsame := htokens.symm.trans htokens'
    obtain rfl := hwrong.unique hwrong' hsame
    rw [List.append_cancel_left hsame] at hhead
    cases hhead

end Program

end Backflow
