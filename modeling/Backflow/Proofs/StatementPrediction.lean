import Backflow.Proofs.ExprPrediction
import Backflow.Proofs.StatementComplete

namespace Backflow

namespace Grammar

/-- The words of a statement, however deep, where any expression can be a statement. An expression that begins like
the assignment of an array element or like a print statement is taken for one. -/
inductive Sentence : List Lexeme → Prop
  | block (parts : List (List Lexeme)) : (∀ x ∈ parts, Sentence x) →
      Sentence (.punct .lbrace :: (parts.flatten ++ [.punct .rbrace]))
  | assign (name : String) {x : List Lexeme} : Worded .whole x →
      Sentence (.ident name :: .punct .assign :: (x ++ [.punct .semi]))
  | store (name : String) {i x : List Lexeme} : Worded .whole i → Worded .whole x →
      Sentence (.ident name :: .punct .lbracket ::
        (i ++ .punct .rbracket :: .punct .assign :: (x ++ [.punct .semi])))
  | ifThen {c y : List Lexeme} : Worded .whole c → Sentence y →
      Sentence (.keyword .kwIf :: .punct .lparen :: (c ++ .punct .rparen :: y))
  | ifElse {c y n : List Lexeme} : Worded .whole c → Sentence y → Sentence n →
      Sentence (.keyword .kwIf :: .punct .lparen :: (c ++ .punct .rparen :: (y ++ .keyword .kwElse :: n)))
  | loop {c y : List Lexeme} : Worded .whole c → Sentence y →
      Sentence (.keyword .kwWhile :: .punct .lparen :: (c ++ .punct .rparen :: y))
  | print {x : List Lexeme} : Worded .whole x →
      Sentence (.ident "System" :: .punct .dot :: .ident "out" :: .punct .dot :: .ident "println" ::
        .punct .lparen :: (x ++ [.punct .rparen, .punct .semi]))
  | expression {w x : List Lexeme} : Worded .whole x → disguised x = false → w = x ++ [.punct .semi] → Sentence w
  | ret : Sentence [.keyword .kwReturn, .punct .semi]
  | value {x : List Lexeme} : Worded .whole x → Sentence (.keyword .kwReturn :: (x ++ [.punct .semi]))
  | brk : Sentence [.keyword .kwBreak, .punct .semi]
  | cont : Sentence [.keyword .kwContinue, .punct .semi]

inductive Sealed : List Lexeme → Prop
  | plain {x : List Lexeme} : Sentence x → x.head? ≠ some (.keyword .kwIf) → x.head? ≠ some (.keyword .kwWhile) →
      Sealed x
  | ifElse {c y n : List Lexeme} : Worded .whole c → Sealed y → Sealed n →
      Sealed (.keyword .kwIf :: .punct .lparen :: (c ++ .punct .rparen :: (y ++ .keyword .kwElse :: n)))
  | loop {c y : List Lexeme} : Worded .whole c → Sealed y →
      Sealed (.keyword .kwWhile :: .punct .lparen :: (c ++ .punct .rparen :: y))

variable {w x y z k : List Lexeme}

theorem Sealed.sentence (h : Sealed x) : Sentence x := by
  induction h with
  | plain h => exact h
  | ifElse hc _ _ hy hn => exact .ifElse hc hy hn
  | loop hc _ hy => exact .loop hc hy

theorem Worded.ne_cons {r : Rank} {a : Lexeme} (hx : Worded r x) (ha : r.begins a = false) : a :: w ≠ x ++ y := by
  obtain ⟨b, x, rfl, hb⟩ := hx.begins
  rintro ⟨⟩
  rw [ha] at hb
  cases hb

theorem Worded.not_target {name : String} {p : Punct} (hx : Worded .whole x) (hd : disguised x = false)
    (hw : .ident name :: .punct p :: w = x ++ [.punct .semi]) : p ≠ .assign ∧ p ≠ .lbracket := by
  obtain ⟨e, d, hx⟩ := hx
  exact hx.not_target (Bool.or_eq_false_iff.1 hd).1 ⟨w, hw⟩

theorem Sentence.head? (h : Sentence w) {a : Lexeme} (ha : Rank.whole.begins a = false)
    (hother : a ∉ [.punct .lbrace, .keyword .kwIf, .keyword .kwWhile, .keyword .kwReturn, .keyword .kwBreak,
      .keyword .kwContinue]) : w.head? ≠ some a := by
  cases h with
  | @expression _ x hx _ hw =>
      subst hw
      rw [List.head?_append]
      cases hhead : x.head? with
      | none => exact absurd (List.head?_eq_none_iff.1 hhead ▸ hx) not_worded_nil
      | some b =>
          rintro ⟨⟩
          exact hx.head? ha hhead
  | assign | store | print =>
      rintro ⟨rfl⟩
      cases ha
  | block | ifThen | ifElse | loop | ret | value | brk | cont =>
      rintro ⟨rfl⟩
      simp at hother

theorem not_sentence_nil : ¬ Sentence [] := by
  intro h
  generalize hw : ([] : List Lexeme) = w at h
  cases h with
  | expression _ _ hx =>
      subst hw
      simp at hx
  | _ => cases hw

theorem Sentence.ends (h : Sentence x) : .punct .semi ∈ x ∨ .punct .rbrace ∈ x := by
  induction h with
  | block => exact .inr (by simp)
  | ifThen _ _ ih | loop _ _ ih => exact ih.imp (by simp +contextual) (by simp +contextual)
  | ifElse _ _ _ ih _ => exact ih.imp (by simp +contextual) (by simp +contextual)
  | expression _ _ hw => exact .inl (by simp [hw])
  | _ => exact .inl (by simp)

/-- Words that do not end a statement are part of a statement that begins with them. -/
theorem Sentence.prefix_of_append (h : Sentence x) (hsemi : .punct .semi ∉ y) (hbrace : .punct .rbrace ∉ y)
    (hy : y <+: x ++ k) : y <+: x := by
  rcases List.prefix_or_prefix_of_prefix hy (List.prefix_append x k) with hyx | hxy
  · exact hyx
  · rcases h.ends with hx | hx
    · exact absurd (hxy.subset hx) hsemi
    · exact absurd (hxy.subset hx) hbrace

theorem sentence_name (name : String) : Sentence [.ident name, .punct .semi] :=
  .expression (worded_name name) (by simp [disguised, beginsStore, List.isPrefixOf]) rfl

theorem worded_call (name method : String) :
    Worded .whole [.ident name, .punct .dot, .ident method, .punct .lparen, .punct .rparen] :=
  ⟨_, _, .whole ((Renders.suffixed (.call method [] (.primary (.var name)) (by simp))).at_levels _)⟩

/-- A text and an `else`: the text is closed, or the `else` belongs to its last open `if`. -/
theorem Sentence.sealed_or (hx : Sentence x) (hz : Sentence z) : Sealed x ∨ Sentence (x ++ .keyword .kwElse :: z) := by
  induction hx generalizing z with
  | @ifThen c y hc hy =>
      right
      simpa using Sentence.ifElse hc hy hz
  | @ifElse c y n hc hy hn ihy ihn =>
      rcases ihn hz with hn' | hn'
      · rcases ihy hn with hy' | hy'
        · exact .inl (.ifElse hc hy' hn')
        · right
          simpa using Sentence.ifElse hc hy' hz
      · right
        simpa using Sentence.ifElse hc hy hn'
  | @loop c y hc hy ih =>
      rcases ih hz with hy' | hy'
      · exact .inl (.loop hc hy')
      · right
        simpa using Sentence.loop hc hy'
  | block parts hparts => exact .inl (.plain (.block parts hparts) nofun nofun)
  | assign name hx => exact .inl (.plain (.assign name hx) nofun nofun)
  | store name hi hx => exact .inl (.plain (.store name hi hx) nofun nofun)
  | print hx => exact .inl (.plain (.print hx) nofun nofun)
  | @expression w x hx hd hw =>
      refine .inl (.plain (.expression hx hd hw) ?_ ?_) <;>
        · subst hw
          obtain ⟨b, x, rfl, hb⟩ := hx.begins
          rintro ⟨rfl⟩
          cases hb
  | ret => exact .inl (.plain .ret nofun nofun)
  | value hx => exact .inl (.plain (.value hx) nofun nofun)
  | brk => exact .inl (.plain .brk nofun nofun)
  | cont => exact .inl (.plain .cont nofun nofun)

end Grammar

namespace Parser

open Grammar

def sentences : Category := ⟨Sentence, fun w next => next = some (.keyword .kwElse) → Sealed w⟩

variable {α : Type} {s : State} {inner : Parser Expr} {nested : Parser Stmt}

def Conditional (w : List Lexeme) : Prop := ∃ x, w = .punct .lparen :: (x ++ [.punct .rparen]) ∧ Worded .whole x

theorem predicts_condition (hinner : Predicts inner expressions) :
    Predicts (condition inner) (.closed Conditional) := by
  intro s
  refine .expectPunct (fun l s₁ _ => predicts_ended hinner (by simp) fun w => ⟨?_, ?_⟩) ⟨_, _, rfl, worded_name ""⟩ ?_
  · rintro ⟨x, hw, hx⟩
    exact ⟨x, (List.cons.inj hw).2, hx⟩
  · rintro ⟨x, rfl, hx⟩
    exact ⟨x, rfl, hx⟩
  · rintro _ ⟨x, rfl, _⟩
    rfl

/-- What comes after a condition: one statement, or two with an `else` between them. -/
def branches : Category :=
  ⟨fun w => Sentence w ∨ ∃ y n, w = y ++ .keyword .kwElse :: n ∧ Sentence y ∧ Sentence n,
    fun w next => next = some (.keyword .kwElse) → ∃ y n, w = y ++ .keyword .kwElse :: n ∧ Sealed y ∧ Sealed n⟩

def otherwise : Category :=
  ⟨fun w => w = [] ∨ ∃ n, w = .keyword .kwElse :: n ∧ Sentence n,
    fun w next => next = some (.keyword .kwElse) → ∃ n, w = .keyword .kwElse :: n ∧ Sealed n⟩

theorem predicts_otherwise (hnested : Predicts nested sentences) (f : Stmt → Stmt) (x : Stmt) :
    Predicts (eatKeyword .kwElse >>= fun b => if b = true then nested >>= fun n => pure (f n) else pure x)
      otherwise := by
  intro s
  refine .branch (fun l s₁ _ => ?_) ?_ fun hnext => ?_
  · refine ((hnested s₁).map f).mono (fun n hn => .inr ⟨n, rfl, hn⟩) ?_
    rintro n k ⟨hn | ⟨n', hn, hsentence⟩, hfollow⟩ _
    · cases hn
    · cases hn
      refine ⟨hsentence, fun helse => ?_⟩
      obtain ⟨n', hn', hsealed⟩ := hfollow helse
      cases hn'
      exact hsealed
  · rintro w k ⟨_, hfollow⟩ hhead rfl
    obtain ⟨n, hn, _⟩ := hfollow hhead
    cases hn
  · refine .done rfl (.refl s) (.inl rfl) ?_
    rintro w k ⟨rfl | ⟨n, rfl, _⟩, _⟩ hhead
    · rfl
    · exact absurd hhead.symm hnext

theorem predicts_branches (hnested : Predicts nested sentences) (f : Stmt → Stmt → Stmt) (g : Stmt → Stmt) :
    Predicts (nested >>= fun y => eatKeyword .kwElse >>= fun b =>
      if b = true then nested >>= fun n => pure (f y n) else pure (g y)) branches := by
  intro s
  refine (hnested s).bind (fun y s₁ _ => predicts_otherwise hnested (f y) (g y) s₁) ⟨_, .inl rfl⟩ ?_ ?_
  · rintro x y hx (rfl | ⟨n, rfl, hn⟩)
    · rw [List.append_nil]
      exact .inl hx
    · exact .inr ⟨x, n, rfl, hx, hn⟩
  · rintro w k ⟨hw, hfollow⟩
    by_cases helse : k.head? = some (.keyword .kwElse)
    · obtain ⟨y, n, rfl, hy, hn⟩ := hfollow helse
      exact ⟨y, _, rfl, ⟨hy.sentence, fun _ => hy⟩, .inr ⟨n, rfl, hn.sentence⟩, fun _ => ⟨n, rfl, hn⟩⟩
    · have hwhole (hw : Sentence w) :
          ∃ x y, w = x ++ y ∧ sentences.Admits x (y ++ k) ∧ otherwise.Admits y k :=
        ⟨w, [], (List.append_nil w).symm, ⟨hw, fun h => absurd h helse⟩, .inl rfl, fun h => absurd h helse⟩
      rcases hw with hw | ⟨y, n, rfl, hy, hn⟩
      · exact hwhole hw
      · rcases hy.sealed_or hn with hy' | hyn
        · exact ⟨y, _, rfl, ⟨hy, fun _ => hy'⟩, .inr ⟨n, rfl, hn⟩, fun h => absurd h helse⟩
        · exact hwhole hyn

theorem predicts_if (hinner : Predicts inner expressions) (hnested : Predicts nested sentences)
    (f : Expr → Stmt → Stmt → Stmt) (g : Expr → Stmt → Stmt) :
    Predicts (condition inner >>= fun c => nested >>= fun y => eatKeyword .kwElse >>= fun b =>
      if b = true then nested >>= fun n => pure (f c y n) else pure (g c y)) (sentences.after [.keyword .kwIf]) := by
  intro s
  have hsome : ∃ y, branches.phrase y := ⟨_, .inl .ret⟩
  refine (predicts_condition hinner s).bind (fun c s₁ _ => predicts_branches hnested (f c) (g c) s₁) hsome ?_ ?_
  · rintro _ y ⟨x, rfl, hx⟩ (hy | ⟨y, n, rfl, hy, hn⟩)
    · rw [List.cons_append, List.append_assoc]
      exact Sentence.ifThen hx hy
    · rw [List.cons_append, List.append_assoc]
      exact Sentence.ifElse hx hy hn
  · rintro w k ⟨hw, hfollow⟩
    by_cases helse : k.head? = some (.keyword .kwElse)
    · cases hfollow helse with
      | plain _ hif => exact absurd rfl hif
      | @ifElse c y n hc hy hn =>
          exact ⟨.punct .lparen :: (c ++ [.punct .rparen]), _, by simp, ⟨⟨c, rfl, hc⟩, trivial⟩,
            .inr ⟨y, n, rfl, hy.sentence, hn.sentence⟩, fun _ => ⟨y, n, rfl, hy, hn⟩⟩
    · cases hw with
      | @ifThen c y hc hy =>
          exact ⟨.punct .lparen :: (c ++ [.punct .rparen]), y, by simp, ⟨⟨c, rfl, hc⟩, trivial⟩, .inl hy,
            fun h => absurd h helse⟩
      | @ifElse c y n hc hy hn =>
          exact ⟨.punct .lparen :: (c ++ [.punct .rparen]), _, by simp, ⟨⟨c, rfl, hc⟩, trivial⟩,
            .inr ⟨y, n, rfl, hy, hn⟩, fun h => absurd h helse⟩
      | expression hx _ hw => exact absurd hw (hx.ne_cons rfl)

theorem predicts_while (hinner : Predicts inner expressions) (hnested : Predicts nested sentences)
    (f : Expr → Stmt → Stmt) : Predicts (condition inner >>= fun c => nested >>= fun y => pure (f c y))
      (sentences.after [.keyword .kwWhile]) := by
  intro s
  refine (predicts_condition hinner s).bind (fun c s₁ _ => (hnested s₁).map (f c)) ⟨_, .ret⟩ ?_ ?_
  · rintro _ y ⟨x, rfl, hx⟩ hy
    rw [List.cons_append, List.append_assoc]
    exact Sentence.loop hx hy
  · rintro w k ⟨hw, hfollow⟩
    by_cases helse : k.head? = some (.keyword .kwElse)
    · cases hfollow helse with
      | plain _ _ hwhile => exact absurd rfl hwhile
      | @loop c y hc hy =>
          exact ⟨.punct .lparen :: (c ++ [.punct .rparen]), y, by simp, ⟨⟨c, rfl, hc⟩, trivial⟩, hy.sentence,
            fun _ => hy⟩
    · cases hw with
      | @loop c y hc hy =>
          exact ⟨.punct .lparen :: (c ++ [.punct .rparen]), y, by simp, ⟨⟨c, rfl, hc⟩, trivial⟩, hy,
            fun h => absurd h helse⟩
      | expression hx _ hw => exact absurd hw (hx.ne_cons rfl)

theorem predicts_return (hinner : Predicts inner expressions) (x : Stmt) (f : Expr → Stmt) :
    Predicts (eatPunct .semi >>= fun b => if b = true then pure x else
      inner >>= fun e => expectPunct .semi >>= fun _ => pure (f e)) (sentences.after [.keyword .kwReturn]) := by
  intro s
  refine .of_closed (G := fun w => w = [.punct .semi] ∨ ∃ x, w = x ++ [.punct .semi] ∧ Worded .whole x) ?_ ?_
  · refine .branch (fun l s₁ _ => (PredictsAt.pure x).mono ?_ ?_) ?_ fun hnext => ?_
    · rintro _ rfl
      exact .inl rfl
    · rintro w k ⟨hw | ⟨x, hw, hx⟩, _⟩ _
      · exact ⟨(List.cons.inj hw).2, trivial⟩
      · exact absurd hw (hx.ne_cons rfl)
    · rintro w k ⟨hw | ⟨x, hw, hx⟩, _⟩ _ rfl
      · cases hw
      · simp at hw
    · have hvalue : PredictsAt (inner >>= fun e => expectPunct .semi >>= fun _ => pure (f e))
          (.closed fun w => ∃ x, w = x ++ [.punct .semi] ∧ Worded .whole x) s :=
        predicts_ended hinner (by simp) fun w => Iff.rfl
      refine hvalue.mono (fun w hw => .inr hw) ?_
      rintro w k ⟨rfl | hw, _⟩ hhead
      · exact absurd hhead.symm hnext
      · exact ⟨hw, trivial⟩
  · refine fun w => ⟨fun hw => ?_, ?_⟩
    · cases hw with
      | ret => exact .inl rfl
      | value hx => exact .inr ⟨_, rfl, hx⟩
      | expression hx _ hw => exact absurd hw (hx.ne_cons rfl)
    · rintro (rfl | ⟨x, rfl, hx⟩)
      · exact .ret
      · exact .value hx

theorem predicts_jump {k : Keyword} (hk : ∀ w, Sentence (.keyword k :: w) ↔ w = [.punct .semi]) (x : Stmt) :
    Predicts (expectPunct .semi >>= fun _ => pure x) (sentences.after [.keyword k]) :=
  fun _ => .mark x hk

def Printed (w : List Lexeme) : Prop :=
  ∃ x, w = .punct .dot :: .ident "println" :: .punct .lparen :: (x ++ [.punct .rparen, .punct .semi]) ∧
    Worded .whole x

theorem predicts_printed (hinner : Predicts inner expressions) : Predicts (printed inner) (.closed Printed) := by
  have hsome : ∃ w, Printed w := ⟨_, _, rfl, worded_name ""⟩
  obtain ⟨_, x₀, rfl, hx₀⟩ := hsome
  intro s
  refine .expectPunct (fun l s₁ _ => ?_) ⟨_, x₀, rfl, hx₀⟩ ?_
  · have hafter (w k : List Lexeme) (hw : ((Category.closed Printed).after [.punct .dot]).Admits w k) :
        (w ++ k).head? = some (.ident "println") := by
      obtain ⟨⟨x, hw, _⟩, _⟩ := hw
      cases hw
      rfl
    have hsome : ∃ w, ((Category.closed Printed).after [.punct .dot]).phrase w := ⟨_, x₀, rfl, hx₀⟩
    by_cases hname : ∃ name, s₁.next = some (.ident name)
    · obtain ⟨name, hname⟩ := hname
      obtain ⟨l, s₂, hpass, hs⟩ := State.exists_passes hname
      by_cases hprintln : name = "println"
      · subst hprintln
        refine .read_one hs ?_ ((identifier_pass hpass).trans rfl) ?_
        · refine (predicts_condition hinner s₂).bind (D := .closed (· = [.punct .semi])) (fun e s₃ _ => ?_) ⟨_, rfl⟩
            ?_ ?_
          · exact .mark e fun w => Iff.rfl
          · rintro _ _ ⟨x, rfl, hx⟩ rfl
            exact ⟨x, by simp, hx⟩
          · rintro w k ⟨⟨x, hw, hx⟩, _⟩
            cases hw
            exact ⟨.punct .lparen :: (x ++ [.punct .rparen]), [.punct .semi], by simp, ⟨⟨x, rfl, hx⟩, trivial⟩,
              rfl, trivial⟩
        · rintro w k hw _ rfl
          obtain ⟨⟨x, hw, _⟩, _⟩ := hw
          cases hw
      · refine .fail_last hs hprintln hsome (fun w k hw hhead => hprintln ?_) ?_
        · rw [hafter w k hw] at hhead
          cases hhead
          rfl
        · refine (identifier_pass hpass).trans ?_
          rw [if_neg hprintln]
          rfl
    · refine .fail (e := .identifier) nofun hsome (fun w k hw hhead => hname ?_)
        (PredictsAt.identifier_fails hname)
      exact ⟨_, hhead.symm.trans (hafter w k hw)⟩
  · rintro _ ⟨x, rfl, _⟩
    rfl

theorem predicts_assignment (hinner : Predicts inner expressions) (t : Tag) (name : String) {p : Punct}
    (hp : p = .assign ∨ p = .lbracket) :
    Predicts (assignment t inner name p) (sentences.after [.ident name, .punct p]) := by
  intro s
  rcases hp with rfl | rfl
  · refine .of_closed (G := fun w => ∃ x, w = x ++ [.punct .semi] ∧ Worded .whole x)
      (predicts_ended hinner (by simp) fun w => Iff.rfl) fun w => ⟨fun hw => ?_, ?_⟩
    · cases hw with
      | assign _ hx => exact ⟨_, rfl, hx⟩
      | expression hx hd hw => exact absurd rfl (hx.not_target hd hw).1
    · rintro ⟨x, rfl, hx⟩
      exact .assign name hx
  · have hvalue (i : Expr) (s₁ : State) : PredictsAt (expectPunct .assign >>= fun _ => inner >>= fun v =>
        expectPunct .semi >>= fun _ => pure (Stmt.store t name i v))
        (.closed fun w => ∃ x, w = .punct .assign :: (x ++ [.punct .semi]) ∧ Worded .whole x) s₁ := by
      refine .expectPunct (fun l s₂ _ => predicts_ended hinner (by simp) fun w => ⟨?_, ?_⟩)
        ⟨_, _, rfl, worded_name ""⟩ ?_
      · rintro ⟨x, hw, hx⟩
        exact ⟨x, (List.cons.inj hw).2, hx⟩
      · rintro ⟨x, rfl, hx⟩
        exact ⟨x, rfl, hx⟩
      · rintro _ ⟨x, rfl, _⟩
        rfl
    refine .of_closed (G := fun w => ∃ i x, w = i ++ .punct .rbracket :: .punct .assign :: (x ++ [.punct .semi]) ∧
      Worded .whole i ∧ Worded .whole x) ?_ fun w => ⟨fun hw => ?_, ?_⟩
    · refine predicts_marked hinner (by simp) (fun i s₁ _ => hvalue i s₁) ⟨_, _, rfl, worded_name ""⟩ ?_ ?_
      · rintro i _ hi ⟨x, rfl, hx⟩
        exact ⟨i, x, rfl, hi, hx⟩
      · rintro _ k ⟨⟨i, x, rfl, hi, hx⟩, _⟩
        exact ⟨i, _, rfl, hi, ⟨x, rfl, hx⟩, trivial⟩
    · cases hw with
      | store _ hi hx => exact ⟨_, _, rfl, hi, hx⟩
      | expression hx hd hw => exact absurd rfl (hx.not_target hd hw).2
    · rintro ⟨i, x, rfl, hi, hx⟩
      exact .store name hi hx

theorem predicts_callStmt_whole (hinner : Predicts inner expressions) (t : Tag) :
    Predicts (callStmt t inner) (.closed fun w => ∃ x, w = x ++ [.punct .semi] ∧ Worded .whole x) := by
  intro s
  refine (hinner s).bind (D := .closed (· = [.punct .semi])) (fun e s₁ _ => ?_) ⟨_, rfl⟩ ?_ ?_
  · cases e with
    | call receiver method args => exact .mark _ fun w => Iff.rfl
    | _ => exact .limit rfl fun _ _ _ => nofun
  · rintro x _ hx rfl
    exact ⟨x, rfl, hx⟩
  · rintro _ k ⟨⟨x, rfl, hx⟩, _⟩
    exact ⟨x, _, rfl, ⟨hx, closes_of_mark (by simp) x⟩, rfl, trivial⟩

theorem predicts_callStmt (hinner : Predicts inner expressions) (t : Tag)
    (hfirst : ∀ w ∈ [.punct .lbrace, .keyword .kwIf, .keyword .kwWhile, .keyword .kwReturn, .keyword .kwBreak,
      .keyword .kwContinue], s.next ≠ some w)
    (hout : ¬ [.ident "System", .punct .dot, .ident "out"] <+: words s.tokens)
    (htarget : ∀ name p, [.ident name, .punct p] <+: words s.tokens → p ≠ .assign ∧ p ≠ .lbracket) :
    PredictsAt (callStmt t inner) sentences s := by
  have hname (name : String) : ∃ k, (Category.closed fun w => ∃ x, w = x ++ [.punct .semi] ∧ Worded .whole x).Admits
      [.ident name, .punct .semi] k := ⟨[], ⟨[.ident name], rfl, worded_name name⟩, trivial⟩
  have hcall := worded_call "System" "f"
  refine (predicts_callStmt_whole hinner t s).exchange ?_ ?_
  · rintro _ ⟨x, rfl, hx⟩
    cases hd : disguised x with
    | false => exact .inl (.expression hx hd rfl)
    | true =>
        right
        obtain ⟨e, d, hx⟩ := hx
        rcases hx.of_disguised hd with ⟨vs, rfl⟩ | ⟨_, name, i, us, c, vs, _, rfl, _⟩
        · exact ⟨[.ident "System", .punct .dot], .ident "out", _, ⟨_, rfl⟩, hout, .expression hcall rfl rfl, ⟨_, rfl⟩⟩
        · exact ⟨[.ident name], .punct .lbracket, _, ⟨_, rfl⟩, fun h => (htarget _ _ h).2 rfl, sentence_name name,
            ⟨_, rfl⟩⟩
  · rintro w k ⟨hw, _⟩
    cases hw with
    | expression hx _ hw => exact .inl ⟨⟨_, hw, hx⟩, trivial⟩
    | assign name =>
        exact .inr ⟨[.ident name], .punct .assign, _, ⟨_, rfl⟩, fun h => (htarget _ _ h).1 rfl, hname name, ⟨_, rfl⟩⟩
    | store name =>
        exact .inr ⟨[.ident name], .punct .lbracket, _, ⟨_, rfl⟩, fun h => (htarget _ _ h).2 rfl, hname name, ⟨_, rfl⟩⟩
    | print =>
        exact .inr ⟨[.ident "System", .punct .dot], .ident "out", _, ⟨_, rfl⟩, hout,
          ⟨[], ⟨_, rfl, hcall⟩, trivial⟩, ⟨_, rfl⟩⟩
    | block | ifThen | ifElse | loop | ret | value | brk | cont =>
        exact .inr (State.departs_at_once (hfirst _ (by simp)) (hname ""))

theorem predicts_block (hnested : Predicts nested sentences) : Predicts (block nested) (.closed (Braced Sentence)) := by
  refine fun s => (predicts_untilBrace hnested not_sentence_nil ?_ ?_ (Nat.le_refl _)).bounded
  · exact fun x hx => hx.head? rfl (by decide)
  · intro x y hx hy helse
    obtain ⟨parts, rfl, hparts⟩ := hy
    cases parts with
    | nil => cases helse
    | cons z parts =>
        have hz : Sentence z := hparts z List.mem_cons_self
        obtain ⟨b, z, rfl⟩ := List.exists_cons_of_ne_nil (fun h : z = [] => not_sentence_nil (h ▸ hz))
        exact absurd helse (hz.head? rfl (by decide))

theorem predicts_print (hinner : Predicts inner expressions) (f : Expr → Stmt) :
    Predicts (printed inner >>= fun e => pure (f e))
      (sentences.after [.ident "System", .punct .dot, .ident "out"]) := by
  refine fun s => .of_closed ((predicts_printed hinner s).map f) fun w => ⟨fun hw => ?_, ?_⟩
  · cases hw with
    | print hx => exact ⟨_, rfl, hx⟩
    | expression hx hd hw =>
        have hpre := prefix_of_prefix_append_cons (by decide) ⟨w, hw⟩
        have hd := (Bool.or_eq_false_iff.1 hd).2
        rw [List.isPrefixOf_iff_prefix.2 hpre] at hd
        cases hd
  · rintro ⟨x, rfl, hx⟩
    exact .print hx

theorem predicts_stmtWith (hinner : Predicts inner expressions) (hnested : Predicts nested sentences) (t : Tag) :
    Predicts (stmtWith t inner nested) sentences := by
  have hgo (a : Lexeme) (w k : List Lexeme) (hw : sentences.Admits w k) (_ : (w ++ k).head? = some a) : w ≠ [] := by
    rintro rfl
    exact not_sentence_nil hw.1
  intro s
  refine .branch (fun l s₁ _ => ?_) (hgo _) fun hbrace =>
    .branch (fun l s₁ _ => predicts_if hinner hnested (.ifElse t) (.ifThen t) s₁) (hgo _) fun hif =>
    .branch (fun l s₁ _ => predicts_while hinner hnested (.loop t) s₁) (hgo _) fun hwhile =>
    .branch (fun l s₁ _ => predicts_return hinner (.ret t none) (fun e => .ret t (some e)) s₁) (hgo _) fun hreturn =>
    .branch (fun l s₁ _ => predicts_jump (fun w => ?_) (.brk t) s₁) (hgo _) fun hbreak =>
    .branch (fun l s₁ _ => predicts_jump (fun w => ?_) (.cont t) s₁) (hgo _) fun hcontinue => ?_
  · refine .of_closed ((predicts_block hnested s₁).map _) fun w => ⟨fun hw => ?_, ?_⟩
    · cases hw with
      | block parts hparts => exact ⟨parts, rfl, hparts⟩
      | expression hx _ hw => exact absurd hw (hx.ne_cons rfl)
    · rintro ⟨parts, rfl, hparts⟩
      exact .block parts hparts
  · refine ⟨fun hw => ?_, ?_⟩
    · cases hw with
      | brk => rfl
      | expression hx _ hw => exact absurd hw (hx.ne_cons rfl)
    · rintro rfl
      exact .brk
  · refine ⟨fun hw => ?_, ?_⟩
    · cases hw with
      | cont => rfl
      | expression hx _ hw => exact absurd hw (hx.ne_cons rfl)
    · rintro rfl
      exact .cont
  · have hfirst : ∀ w ∈ [.punct .lbrace, .keyword .kwIf, .keyword .kwWhile, .keyword .kwReturn, .keyword .kwBreak,
        .keyword .kwContinue], s.next ≠ some w := by
      simpa using ⟨hbrace, hif, hwhile, hreturn, hbreak, hcontinue⟩
    by_cases hout : [.ident "System", .punct .dot, .ident "out"] <+: words s.tokens
    · obtain ⟨ts, s₁, hts, hpass, hs⟩ := State.exists_passes_of_prefix hout
      refine .read hs ?_ (bind_of_ok (eatAll_pass hpass)) fun x k hx hprint => ?_
      · rw [hts]
        exact predicts_print hinner _ s₁
      · exact hx.1.prefix_of_append (by rw [hts]; decide) (by rw [hts]; decide) hprint
    by_cases htarget : ∃ name p, [.ident name, .punct p] <+: words s.tokens ∧ (p = .assign ∨ p = .lbracket)
    · obtain ⟨name, p, hbegins, hp⟩ := htarget
      obtain ⟨ts, s₁, hts, hpass, hs⟩ := State.exists_passes_of_prefix hbegins
      refine .read hs ?_ ((bind_of_ok (eatAll_other hout)).trans (bind_of_ok (target?_pass hp hpass)))
        fun x k hx hx' => ?_
      · rw [hts]
        exact predicts_assignment hinner t name hp s₁
      · rw [hts] at hx' ⊢
        refine hx.1.prefix_of_append ?_ ?_ hx' <;> rcases hp with rfl | rfl <;> simp
    · have hnone (name : String) (p : Punct) (hbegins : [.ident name, .punct p] <+: words s.tokens) :
          p ≠ .assign ∧ p ≠ .lbracket :=
        not_or.1 fun hp => htarget ⟨name, p, hbegins, hp⟩
      exact .congr (predicts_callStmt hinner t hfirst hout hnone) (.refl s)
        ((bind_of_ok (eatAll_other hout)).trans (bind_of_ok (target?_none hnone)))

theorem predicts_stmt (room : Nat) : Predicts (stmt room) sentences := by
  induction room with
  | zero => exact fun s => .limit rfl fun _ _ _ => nofun
  | succ room ih =>
      intro s
      have hbody := predicts_stmtWith (predicts_expr room) ih ⟨s.nextId, s.here⟩ { s with nextId := s.nextId + 1 }
      exact .congr hbody ⟨rfl, rfl⟩ rfl

end Parser

end Backflow
