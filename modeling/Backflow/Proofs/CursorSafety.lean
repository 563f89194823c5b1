import Backflow.Proofs.CursorRuns

namespace Backflow

namespace CursorParser

variable {α : Type} {c : Cursor} {d room : Nat} {m m' : Nat → CursorParser α} {p p' : Parser α}

section Statements

variable {inner : Parser Expr} {nested : Parser Stmt} {t : Tag}

theorem consumes_stmt (room : Nat) : Consumes (Parser.stmt room) :=
  fun s _ _ => (Parser.predicts_stmt room s).shorter Grammar.not_sentence_nil

theorem tracks_tag : Tracks d (fun _ => tag) Parser.tag := by
  intro c _ hc
  refine ⟨.ok ⟨c.nextId, c.here⟩, { c with nextId := c.nextId + 1 }, .of_forall fun _ => rfl, ?_, ?_, rfl⟩
  · rw [Parser.tag, Cursor.state_here]
    rfl
  · exact ⟨rfl, rfl, ⟨hc.within, hc.forward⟩, List.suffix_refl _⟩

theorem tracks_condition (hexpr : Tracks d expr inner) : Tracks d condition (Parser.condition inner) :=
  (tracks_expectPunct _).bind fun _ => hexpr.bind fun _ => (tracks_expectPunct _).bind fun _ => .pure _

theorem tracks_printed (hexpr : Tracks d expr inner) : Tracks d printed (Parser.printed inner) := by
  refine (tracks_expectPunct _).bind fun _ => tracks_identifier.bind fun name => ?_
  have hrest : Tracks d (fun n => condition n >>= fun e => expectPunct .semi >>= fun _ => pure e)
      (Parser.condition inner >>= fun e => Parser.expectPunct .semi >>= fun _ => pure e) :=
    (tracks_condition hexpr).bind fun _ => (tracks_expectPunct _).bind fun _ => .pure _
  exact hrest.ite ((tracks_fail _).bind fun _ => hrest)

theorem tracks_callStmt (hexpr : Tracks d expr inner) : Tracks d (callStmt t) (Parser.callStmt t inner) := by
  refine hexpr.bind fun e => ?_
  cases e with
  | call receiver method args => exact (tracks_expectPunct _).bind fun _ => .pure _
  | _ => exact fun _ _ => follows_error (fun _ => rfl) rfl

theorem tracks_mark {x : Punct} (a : α) (hm : Tracks d m p) :
    Tracks d (fun n => sees (.punct x) >>= fun b => if b = true then expectPunct x >>= fun _ => pure a else m n)
      (Parser.eatPunct x >>= fun b => if b = true then pure a else p) := by
  intro c hc
  by_cases hx : c.peek 0 = some (.punct x)
  · obtain ⟨l, ht⟩ := Cursor.exists_token? hx
    have hsees : sees (.punct x) c = some (.ok true, c) := by rw [sees, decide_eq_true hx]
    have hmark : expectPunct x c = some (.ok (), c.skip 1) := bind_of_ok (eat_step hx)
    refine follows_step (r := .ok a) ht (fun _ => ?_) (Backflow.bind_of_ok (Parser.eat_pass (Cursor.passes_skip hx)))
    exact (bind_of_ok hsees).trans (bind_of_ok hmark)
  · have hsees : sees (.punct x) c = some (.ok false, c) := by rw [sees, decide_eq_false hx]
    refine (hm c hc).congr (fun _ => bind_of_ok hsees) (Backflow.bind_of_ok (Parser.eat_other ?_))
    rwa [Cursor.state_next]

theorem seesOut_eq (c : Cursor) : seesOut c = some (.ok (decide
    ((c.state.tokens.take 3).map (·.lexeme) = [.ident "System", .punct .dot, .ident "out"])), c) := by
  rw [seesOut, Cursor.peek_eq, Cursor.peek_eq, Cursor.peek_eq]
  rcases c.state.tokens with _ | ⟨x, _ | ⟨y, _ | ⟨z, rest⟩⟩⟩ <;> simp [words, Bool.and_assoc]

/-- The jump over three tokens goes no further than the look ahead. -/
theorem tracks_out (hm : Tracks d m p) (hm' : Tracks d m' p') :
    Tracks d (fun n => seesOut >>= fun b => if b = true then jump 3 >>= fun _ => m n else m' n)
      (Parser.eatAll [.ident "System", .punct .dot, .ident "out"] >>= fun b => if b = true then p else p') := by
  intro c hc
  have hsees := seesOut_eq c
  by_cases hout : (c.state.tokens.take 3).map (·.lexeme) = [.ident "System", .punct .dot, .ident "out"]
  · have hlong : c.pos + 3 ≤ c.tokens.length := by
      have hlength := congrArg List.length hout
      simp only [Cursor.state, List.length_map, List.length_take, List.length_drop, List.length_cons,
        List.length_nil] at hlength
      omega
    have heat : Parser.eatAll [.ident "System", .punct .dot, .ident "out"] c.state = .ok true (c.skip 3).state := by
      refine (if_pos hout).trans ?_
      rw [Cursor.state, List.drop_drop]
      rfl
    rw [decide_eq_true hout] at hsees
    exact .jump hlong (hm (c.skip 3) hc) (fun _ => bind_of_ok hsees) (Backflow.bind_of_ok heat)
  · have heat : Parser.eatAll [.ident "System", .punct .dot, .ident "out"] c.state = .ok false c.state := if_neg hout
    rw [decide_eq_false hout] at hsees
    exact (hm' c hc).congr (fun _ => bind_of_ok hsees) (Backflow.bind_of_ok heat)

theorem follows_assigned (hexpr : Tracks d expr inner) {name : String} {mark : Punct} (hc : c.depth = d)
    (hmark : c.peek 0 = some (.punct mark)) (hmarks : mark = .assign ∨ mark = .lbracket) :
    Follows (assigned t name) (fun _ => Parser.assignment t inner name mark (c.skip 1).state) c := by
  obtain ⟨l, ht⟩ := Cursor.exists_token? hmark
  rcases hmarks with rfl | rfl
  · have hvalue : Tracks d (fun n => expr n >>= fun value => expectPunct .semi >>= fun _ => pure (.assign t name value))
        (Parser.assignment t inner name .assign) :=
      hexpr.bind fun _ => (tracks_expectPunct _).bind fun _ => .pure _
    have hother : c.peek 0 ≠ some (.punct .lbracket) := by simp [hmark]
    have hread : expectPunct .assign c = some (.ok (), c.skip 1) := bind_of_ok (eat_step hmark)
    refine .jump (Cursor.lt_of_token? ht) (hvalue (c.skip 1) hc) (fun _ => ?_) rfl
    exact (bind_of_ok (eat_stay hother)).trans (bind_of_ok hread)
  · have hvalue : Tracks d (fun n => expr n >>= fun position => expectPunct .rbracket >>= fun _ =>
        expectPunct .assign >>= fun _ => expr n >>= fun value => expectPunct .semi >>= fun _ =>
          pure (.store t name position value))
        (Parser.assignment t inner name .lbracket) := by
      refine hexpr.bind fun _ => (tracks_expectPunct _).bind fun _ => (tracks_expectPunct _).bind fun _ => ?_
      exact hexpr.bind fun _ => (tracks_expectPunct _).bind fun _ => .pure _
    exact .jump (Cursor.lt_of_token? ht) (hvalue (c.skip 1) hc) (fun _ => bind_of_ok (eat_step hmark)) rfl

theorem seesTarget_no (h : ∀ name mark, c.peek 0 = some (.ident name) → c.peek 1 = some (.punct mark) →
    mark ≠ .assign ∧ mark ≠ .lbracket) : seesTarget c = some (.ok false, c) := by
  unfold seesTarget
  split
  case h_1 name hname =>
    have hassign : c.peek 1 ≠ some (.punct .assign) := fun hmark => (h name _ hname hmark).1 rfl
    have hbracket : c.peek 1 ≠ some (.punct .lbracket) := fun hmark => (h name _ hname hmark).2 rfl
    rw [decide_eq_false hassign, decide_eq_false hbracket]
    rfl
  case h_2 => rfl

theorem tracks_target (hexpr : Tracks d expr inner) {k : Option (String × Punct) → Parser Stmt}
    (hsome : ∀ name mark, k (some (name, mark)) = Parser.assignment t inner name mark)
    (hnone : k none = Parser.callStmt t inner) :
    Tracks d (fun n => seesTarget >>= fun b => if b = true then assignment t n else callStmt t n)
      (Parser.target? >>= k) := by
  intro c hc
  by_cases htarget : ∃ name mark, c.peek 0 = some (.ident name) ∧ c.peek 1 = some (.punct mark) ∧
      (mark = .assign ∨ mark = .lbracket)
  · obtain ⟨name, mark, hname, hmark, hmarks⟩ := htarget
    obtain ⟨l, ht⟩ := Cursor.exists_token? hname
    have hsees : seesTarget c = some (.ok true, c) := by
      rcases hmarks with rfl | rfl <;> simp [seesTarget, hname, hmark]
    have hread : identifier c = some (.ok name, c.skip 1) := by simp only [identifier, hname]
    have hpass : c.state.Passes [.ident name, .punct mark] ((c.skip 1).skip 1).state :=
      Parser.State.passes_cons.2 ⟨_, Cursor.passes_skip hname, Cursor.passes_skip (c := c.skip 1) hmark⟩
    have hvalue : Follows (assigned t name) (fun _ => Parser.assignment t inner name mark ((c.skip 1).skip 1).state)
        (c.skip 1) := follows_assigned hexpr hc hmark hmarks
    refine .jump (Cursor.lt_of_token? ht) hvalue (fun _ => ?_) ?_
    · exact (bind_of_ok hsees).trans (bind_of_ok hread)
    · rw [Backflow.bind_of_ok (Parser.target?_pass hmarks hpass), hsome]
  · have hother (name : String) (mark : Punct) (hname : c.peek 0 = some (.ident name))
        (hmark : c.peek 1 = some (.punct mark)) : mark ≠ .assign ∧ mark ≠ .lbracket :=
      not_or.1 fun hmarks => htarget ⟨name, mark, hname, hmark, hmarks⟩
    refine (tracks_callStmt hexpr c hc).congr (fun _ => bind_of_ok (seesTarget_no hother)) ?_
    rw [Backflow.bind_of_ok (Parser.target?_none ?_), hnone]
    rintro name mark ⟨us, hus⟩
    refine hother name mark ?_ ?_ <;> rw [Cursor.peek_eq, ← hus] <;> rfl

theorem tracks_stmtWith (hexpr : Tracks d expr inner) (hstmt : Tracks d stmt nested) (hnested : Consumes nested) :
    Tracks d (stmtWith t) (Parser.stmtWith t inner nested) := by
  refine .succ ?_
  simp only [stmtWith]
  refine (tracks_eat _).bind fun _ => .ite ?_ ?_
  · exact (tracks_untilBrace hstmt hnested fun n => by rw [stmts]).bind fun _ => .pure _
  refine (tracks_eat _).bind fun _ => .ite ?_ ?_
  · refine (tracks_condition hexpr).bind fun _ => hstmt.bind fun _ => (tracks_eat _).bind fun _ => ?_
    exact .ite (hstmt.bind fun _ => .pure _) (.pure _)
  refine (tracks_eat _).bind fun _ => .ite ?_ ?_
  · exact (tracks_condition hexpr).bind fun _ => hstmt.bind fun _ => .pure _
  refine (tracks_eat _).bind fun _ => .ite ?_ ?_
  · exact tracks_mark _ (hexpr.bind fun _ => (tracks_expectPunct _).bind fun _ => .pure _)
  refine (tracks_eat _).bind fun _ => .ite ?_ ?_
  · exact (tracks_expectPunct _).bind fun _ => .pure _
  refine (tracks_eat _).bind fun _ => .ite ?_ ?_
  · exact (tracks_expectPunct _).bind fun _ => .pure _
  refine tracks_out ?_ ?_
  · exact (tracks_printed hexpr).bind fun _ => .pure _
  · exact tracks_target hexpr (fun _ _ => rfl) rfl

theorem tracks_stmt (hroom : d + room = maxDepth) : Tracks d stmt (Parser.stmt room) := by
  induction room generalizing d with
  | zero =>
      refine .succ ?_
      simp only [stmt]
      exact tracks_tag.bind fun t => tracks_tooDeep hroom
  | succ room ih =>
      refine .succ ?_
      simp only [stmt]
      refine tracks_tag.bind fun t => Tracks.nested ?_ (by omega)
      exact tracks_stmtWith (tracks_expr (by omega)) (ih (by omega)) (consumes_stmt room)

end Statements

section Programs

theorem tracks_named : Tracks d (fun _ => type.named) Parser.type.named := by
  refine fun c hc => .cases (fun ht htokens => ?_) fun t ht htokens => ?_
  · refine (tracks_fail .type c hc).congr (fun _ => ?_) ?_
    · simp [type.named, Cursor.peek, ht]
    · simp [Parser.type.named, htokens]
  · obtain ⟨w, l⟩ := t
    cases w with
    | ident name =>
        refine follows_step (r := .ok (.named name)) ht (fun _ => ?_) ?_
        · simp [type.named, Cursor.peek, ht]
        · simp only [Parser.type.named, htokens]
          rfl
    | _ =>
        refine (tracks_fail .type c hc).congr (fun _ => ?_) ?_
        · simp [type.named, Cursor.peek, ht]
        · simp [Parser.type.named, htokens]

theorem tracks_type : Tracks d (fun _ => type) Parser.type := by
  refine (tracks_eat _).bind fun _ => .ite ?_ ?_
  · refine (tracks_eat _).bind fun _ => .ite ?_ (.pure _)
    exact (tracks_expectPunct _).bind fun _ => .pure _
  refine (tracks_eat _).bind fun _ => .ite (.pure _) ?_
  refine (tracks_eat _).bind fun _ => .ite (.pure _) ?_
  refine (tracks_eat _).bind fun _ => .ite ?_ tracks_named
  exact (tracks_expectPunct _).bind fun _ => (tracks_expectPunct _).bind fun _ => .pure _

theorem tracks_decl : Tracks d (fun _ => decl) Parser.decl :=
  tracks_here.bind fun _ => tracks_type.bind fun _ => tracks_identifier.bind fun _ => .pure _

theorem tracks_seesLocal : Tracks d (fun _ => seesLocal) Parser.seesLocal := by
  intro c _
  refine follows_look (fun _ => ?_) (Parser.seesLocal_eq c.state)
  rw [seesLocal, Cursor.peek_eq, Cursor.peek_eq]
  rcases words c.state.tokens with _ | ⟨w, _ | ⟨w', rest⟩⟩
  · rfl
  · cases w <;> rfl
  · cases w <;> cases w' <;> rfl

theorem tracks_bodyItem : Tracks 0 bodyItem Parser.bodyItem := by
  refine tracks_seesLocal.bind fun _ => .ite ?_ ?_
  · exact tracks_decl.bind fun _ => (tracks_expectPunct _).bind fun _ => .pure _
  · exact (tracks_stmt (Nat.zero_add _)).bind fun _ => .pure _

theorem tracks_modifiers (b : Bool) : Tracks d (fun n => modifiers n b) (Parser.bounded (Parser.modifiers b)) := by
  refine tracks_bounded fun bound c hc hbound => ?_
  induction bound generalizing b c with
  | nil =>
      have hnil : c.state.tokens = [] := List.length_eq_zero_iff.1 (Nat.le_zero.1 hbound)
      refine .succ (follows_look (a := b) (fun n => ?_) rfl)
      rw [modifiers]
      refine (bind_of_ok (eat_end hnil)).trans ?_
      exact bind_of_ok (eat_end hnil)
  | cons t bound ih =>
      rw [List.length_cons] at hbound
      refine .succ ?_
      simp only [modifiers]
      refine (tracks_eat _ c hc).bind fun x c₁ hreach₁ hc₁ hrun₁ => ?_
      refine .ite (fun hx => ?_) fun _ => ?_
      · subst hx
        have hless := eat_shorter hrun₁
        exact ih true c₁ (hc₁.trans hc) (by omega)
      · refine (tracks_eat _ c₁ (hc₁.trans hc)).bind fun x c₂ _ hc₂ hrun₂ => ?_
        refine .ite (fun hx => ?_) fun _ => follows_pure b
        subst hx
        have hless := eat_shorter hrun₂
        have hle := hreach₁.length_le
        exact ih b c₂ (hc₂.trans (hc₁.trans hc)) (by omega)

theorem consumes_decl : Consumes Parser.decl := by
  intro s _ _
  have hdecl : Parser.PredictsAt Parser.decl (.closed (Grammar.Declared fun _ => True)) s :=
    Parser.predicts_decl (fun _ _ => trivial) (.inl trivial)
  exact hdecl.shorter Grammar.not_declared_nil

theorem consumes_bodyItem : Consumes Parser.bodyItem :=
  fun s _ _ => (Parser.predicts_bodyItem s).shorter Grammar.not_line_nil

theorem tracks_classMember : Tracks 0 classMember Parser.classMember := by
  refine tracks_here.bind fun _ => (tracks_modifiers false).bind fun _ => tracks_type.bind fun _ => ?_
  refine tracks_identifier.bind fun _ => (tracks_eat _).bind fun _ => (Tracks.pure _).ite ?_
  refine (tracks_expectPunct _).bind fun _ => ?_
  refine Tracks.bind ((tracks_eat _).bind fun _ => (Tracks.pure _).ite ?_) fun _ => ?_
  · exact tracks_listed tracks_decl consumes_decl fun _ => rfl
  refine (tracks_expectPunct _).bind fun _ => ?_
  exact (tracks_untilBrace tracks_bodyItem consumes_bodyItem fun _ => rfl).bind fun _ => .pure _

theorem tracks_classDecl : Tracks 0 classDecl Parser.classDecl := by
  have hparent : Tracks 0 (fun _ => parent?) Parser.classDecl.parent? :=
    (tracks_eat _).bind fun _ => .ite (tracks_identifier.bind fun _ => .pure _) (.pure _)
  have hmember : Consumes Parser.classMember :=
    fun s _ _ => (Parser.predicts_classMember s).shorter Grammar.not_memberWords_nil
  refine tracks_here.bind fun _ => (tracks_expectKeyword _).bind fun _ => tracks_identifier.bind fun _ => ?_
  refine hparent.bind fun _ => (tracks_expectPunct _).bind fun _ => ?_
  exact (tracks_untilBrace tracks_classMember hmember fun _ => rfl).bind fun _ => .pure _

theorem consumes_classDecl : Consumes Parser.classDecl :=
  fun s _ _ => (Parser.predicts_classDecl s).shorter Grammar.not_classWords_nil

theorem tracks_atEnd : Tracks d (fun _ => atEnd) Parser.atEnd := by
  intro c _
  refine follows_look (fun _ => rfl) ?_
  rw [Parser.atEnd, ← Cursor.state_head?]
  cases c.state.tokens <;> rfl

theorem tracks_classes : Tracks 0 classes (Parser.bounded Parser.classes) := by
  refine tracks_bounded fun bound c hc hbound => ?_
  induction bound generalizing c with
  | nil =>
      have hnil : c.state.tokens = [] := List.length_eq_zero_iff.1 (Nat.le_zero.1 hbound)
      have hend : atEnd c = some (.ok true, c) := by rw [atEnd, Cursor.token?_eq_none hnil]; rfl
      refine .succ (follows_look (a := []) (fun n => ?_) rfl)
      rw [classes]
      exact bind_of_ok hend
  | cons t bound ih =>
      rw [List.length_cons] at hbound
      refine .succ ?_
      simp only [classes]
      refine (tracks_atEnd c hc).bind fun b c₁ hreach₁ hc₁ _ => ?_
      refine .ite (fun _ => follows_pure []) fun _ => ?_
      refine (tracks_classDecl c₁ (hc₁.trans hc)).bind fun x c₂ _ hc₂ hrun => ?_
      have hle := hreach₁.length_le
      have hless := consumes_classDecl _ _ _ hrun
      exact (ih c₂ (hc₂.trans (hc₁.trans hc)) (by omega)).bind fun _ _ _ _ _ => follows_pure _

theorem tracks_program : Tracks 0 program Parser.program := tracks_classes.bind fun _ => .pure _

end Programs

/-- The call of `m` ends, with the result or the error of `p`. The run is sane and ends at the depth where it began,
and after a result it ends further on. -/
def Returns (m : Nat → CursorParser α) (p : Parser α) (c : Cursor) : Prop :=
  ∃ r c', Ends m c (r, c') ∧ p c.state = outcome (r, c') ∧ c.Reaches c' ∧ c'.depth = c.depth ∧
    ∀ a, r = .ok a → c.pos < c'.pos

theorem Tracks.returns (h : Tracks d m p) (hp : Consumes p) (hc : c.Sane) (hd : c.depth = d) : Returns m p c := by
  obtain ⟨r, c', hrun, houtcome, hreach, hdepth⟩ := h c hd hc
  refine ⟨r, c', hrun, houtcome, hreach, hdepth, ?_⟩
  rintro a rfl
  have hless := hp _ _ _ houtcome
  simp only [Cursor.state, List.length_drop, hreach.tokens] at hless
  omega

def outcomes : Nat → Parser.State → List (Except SyntaxError Expr)
  | 0, _ => []
  | n + 1, s =>
    match Parser.expr maxDepth s with
    | .ok e s' => .ok e :: outcomes n s'
    | .error e s' => .error e :: outcomes n s'

theorem outcomes_succ {r : Except SyntaxError Expr} {s : Parser.State} (h : Parser.expr maxDepth s = outcome (r, c))
    (n : Nat) : outcomes (n + 1) s = r :: outcomes n c.state := by
  cases r <;> simp only [outcomes, h, outcome]

theorem ends_exprs (count : Nat) (hc : c.Sane) (hd : c.depth = 0) :
    ∃ c', Ends (fun n => exprs n count) c (outcomes count c.state, c') ∧ c.Reaches c' ∧ c'.depth = 0 := by
  induction count generalizing c with
  | zero => exact ⟨c, .of_forall fun _ => rfl, hc.reaches, hd⟩
  | succ count ih =>
      obtain ⟨r, c₁, ⟨bound, hrun⟩, houtcome, hreach, hdepth⟩ := tracks_expr (Nat.zero_add maxDepth) c hd hc
      obtain ⟨c₂, ⟨bound', hruns⟩, hreach₂, hdepth₂⟩ := ih hreach.sane (hdepth.trans hd)
      refine ⟨c₂, ⟨max bound bound', fun n hn => ?_⟩, hreach.trans hreach₂, hdepth₂⟩
      have hle := Nat.max_le.1 hn
      rw [outcomes_succ houtcome]
      change (expr n c).bind _ = _
      rw [hrun n hle.1]
      have hrest : exprs n count c₁ = some (outcomes count c₁.state, c₂) := hruns n hle.2
      change (exprs n count c₁).bind _ = _
      rw [hrest]
      rfl

theorem ends_program (s : TokenStream) : ∃ c, Ends program (.ofStream s) (Program.ofTokens s, c) ∧
    (Cursor.ofStream s).Reaches c ∧ c.depth = 0 := by
  obtain ⟨r, c, hrun, houtcome, hreach, hdepth⟩ := tracks_program (.ofStream s) rfl (Cursor.sane_ofStream s)
  refine ⟨c, ?_, hreach, hdepth⟩
  have hparse : Parser.program (.ofStream s) = outcome (r, c) := houtcome
  cases r <;> simpa only [Program.ofTokens, hparse, outcome] using hrun

/-- A program, and expressions one after the other, are read to an end by a sane run, and a call of an expression or of
a statement returns from wherever a sane run may make it. -/
theorem runs_stay_sane (s : TokenStream) :
    (∃ c, Ends program (.ofStream s) (Program.ofTokens s, c) ∧ (Cursor.ofStream s).Reaches c ∧ c.depth = 0) ∧
      (∀ count, ∃ c, Ends (fun n => exprs n count) (.ofStream s) (outcomes count (.ofStream s), c) ∧
        (Cursor.ofStream s).Reaches c ∧ c.depth = 0) ∧
      ∀ c : Cursor, c.Sane → Returns expr (Parser.expr (maxDepth - c.depth)) c ∧
        Returns stmt (Parser.stmt (maxDepth - c.depth)) c := by
  refine ⟨ends_program s, fun count => ends_exprs count (Cursor.sane_ofStream s) rfl, fun c hc => ?_⟩
  have hroom : c.depth + (maxDepth - c.depth) = maxDepth :=
    Nat.add_sub_cancel' (hc.within _ List.mem_cons_self).2
  exact ⟨(tracks_expr hroom).returns (consumes_expr _) hc rfl, (tracks_stmt hroom).returns (consumes_stmt _) hc rfl⟩

/-- The tokens of `else { System.out.println(a + b); x = !!y; }`. -/
def printAndNegate : TokenStream where
  tokens := [⟨.keyword .kwElse, ⟨1, 1⟩⟩, ⟨.punct .lbrace, ⟨1, 6⟩⟩, ⟨.ident "System", ⟨1, 8⟩⟩, ⟨.punct .dot, ⟨1, 14⟩⟩,
    ⟨.ident "out", ⟨1, 15⟩⟩, ⟨.punct .dot, ⟨1, 18⟩⟩, ⟨.ident "println", ⟨1, 19⟩⟩, ⟨.punct .lparen, ⟨1, 26⟩⟩,
    ⟨.ident "a", ⟨1, 27⟩⟩, ⟨.punct .plus, ⟨1, 29⟩⟩, ⟨.ident "b", ⟨1, 31⟩⟩, ⟨.punct .rparen, ⟨1, 32⟩⟩,
    ⟨.punct .semi, ⟨1, 33⟩⟩, ⟨.ident "x", ⟨1, 35⟩⟩, ⟨.punct .assign, ⟨1, 37⟩⟩, ⟨.punct .bang, ⟨1, 39⟩⟩,
    ⟨.punct .bang, ⟨1, 40⟩⟩, ⟨.ident "y", ⟨1, 41⟩⟩, ⟨.punct .semi, ⟨1, 42⟩⟩, ⟨.punct .rbrace, ⟨1, 44⟩⟩]
  stop := ⟨1, 45⟩

/-- The tokens of `a + b (c d`. -/
def unclosed : TokenStream where
  tokens := [⟨.ident "a", ⟨1, 1⟩⟩, ⟨.punct .plus, ⟨1, 3⟩⟩, ⟨.ident "b", ⟨1, 5⟩⟩, ⟨.punct .lparen, ⟨1, 7⟩⟩,
    ⟨.ident "c", ⟨1, 8⟩⟩, ⟨.ident "d", ⟨1, 10⟩⟩]
  stop := ⟨1, 11⟩

theorem stmt_printAndNegate :
    Parser.stmt 4 ⟨printAndNegate.tokens.drop 1, printAndNegate.stop, 0⟩ =
      .error (.tooDeep ⟨1, 41⟩) ⟨printAndNegate.tokens.drop 17, printAndNegate.stop, 3⟩ := by
  cbv

theorem outcomes_unclosed : outcomes 3 (.ofStream unclosed) = [.ok (.binary .add (.var "a") (.var "b")),
    .error (.unexpected ⟨1, 10⟩ (.punct .rparen) (some ⟨.ident "d", ⟨1, 10⟩⟩)), .ok (.var "d")] := rfl

/-- Four levels below the limit, the block after `else` fails at the second negation, after a round of its loop with the
jump over `System.out`, and comes back to its depth. Of three expressions in a row the second one fails. -/
theorem runs_stay_sane_at_limit :
    (∃ c c' : Cursor, c.Sane ∧ c.tokens = printAndNegate.tokens ∧ c.pos = 1 ∧ c.depth = maxDepth - 4 ∧
      Ends stmt c (.error (.tooDeep ⟨1, 41⟩), c') ∧ c.Reaches c' ∧ c'.pos = 17 ∧ c'.depth = c.depth) ∧
    ∃ c, Ends (fun n => exprs n 3) (.ofStream unclosed) ([.ok (.binary .add (.var "a") (.var "b")),
        .error (.unexpected ⟨1, 10⟩ (.punct .rparen) (some ⟨.ident "d", ⟨1, 10⟩⟩)), .ok (.var "d")], c) ∧
      (Cursor.ofStream unclosed).Reaches c ∧ c.depth = 0 := by
  refine ⟨?_, outcomes_unclosed ▸ (runs_stay_sane unclosed).2.1 3⟩
  let c : Cursor := (Cursor.ofStream printAndNegate).moved 1 (maxDepth - 4)
  have hc : c.Sane := ((Cursor.sane_ofStream printAndNegate).moved (by decide) (by decide) (by decide)).sane
  obtain ⟨_, r, c', hrun, houtcome, hreach, hdepth, _⟩ := (runs_stay_sane printAndNegate).2.2 c hc
  have hfail := stmt_printAndNegate.symm.trans houtcome
  cases r with
  | ok e => cases hfail
  | error e =>
      injection hfail with he hstate
      have htokens : c.tokens = printAndNegate.tokens := rfl
      have hlength := congrArg (·.tokens.length) hstate
      have hpos := hreach.sane.pos_le
      simp only [Cursor.state, List.length_drop, hreach.tokens, htokens] at hlength hpos
      have hcount : printAndNegate.tokens.length = 20 := rfl
      exact ⟨c, c', hc, rfl, rfl, rfl, he ▸ hrun, hreach, by omega, hdepth⟩

end CursorParser

end Backflow
