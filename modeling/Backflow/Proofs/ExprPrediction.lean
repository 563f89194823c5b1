import Backflow.Proofs.ExprComplete
import Backflow.Proofs.Prediction

namespace Backflow

namespace Grammar

/-- The words of some expression of a rank, however deep and with literals of any size. -/
def Worded (r : Rank) (w : List Lexeme) : Prop := ∃ e d, Renders r e w d

inductive Selection : List Lexeme → Prop
  | length : Selection [.ident "length"]
  | call (name : String) {y : List Lexeme} : Tupled (Worded .whole) y → Selection (.ident name :: .punct .lparen :: y)

inductive Suffixes : List Lexeme → Prop
  | nil : Suffixes []
  | index {x y : List Lexeme} : Worded .whole x → Suffixes y →
      Suffixes (.punct .lbracket :: (x ++ .punct .rbracket :: y))
  | select {x y : List Lexeme} : Selection x → Suffixes y → Suffixes (.punct .dot :: (x ++ y))

inductive Chained (ops : List BinOp) (ls : List (List BinOp)) : List Lexeme → Prop
  | nil : Chained ops ls []
  | cons {op : BinOp} {x y : List Lexeme} : op ∈ ops → Worded (.levels ls) x → Chained ops ls y →
      Chained ops ls (.punct (markOf op) :: (x ++ y))

variable {r : Rank} {w x y : List Lexeme} {ops : List BinOp} {ls : List (List BinOp)}

theorem Worded.begins (h : Worded r w) : ∃ x y, w = x :: y ∧ r.begins x = true := by
  obtain ⟨e, d, h⟩ := h
  exact h.begins

theorem not_worded_nil : ¬ Worded r [] := by
  intro h
  obtain ⟨x, y, hnil, _⟩ := h.begins
  cases hnil

theorem Worded.head? (h : Worded r w) {x : Lexeme} (hx : r.begins x = false) : w.head? ≠ some x := by
  obtain ⟨x', y, rfl, hx'⟩ := h.begins
  rintro ⟨rfl⟩
  rw [hx] at hx'
  cases hx'

theorem worded_whole_iff : Worded .whole w ↔ Worded (.levels precedence) w := by
  constructor
  · rintro ⟨e, d, ⟨⟩⟩
    exact ⟨_, _, ‹_›⟩
  · rintro ⟨e, d, h⟩
    exact ⟨e, d + 1, .whole h⟩

theorem worded_levels_nil_iff : Worded (.levels []) w ↔ Worded .operand w := by
  constructor
  · rintro ⟨e, d, ⟨⟩⟩
    exact ⟨_, _, ‹_›⟩
  · rintro ⟨e, d, h⟩
    exact ⟨e, d, .operand h⟩

theorem worded_operand_iff : Worded .operand w ↔
    Worded .suffixed w ∨ ∃ (op : UnOp) (x : List Lexeme), w = .punct (signOf op) :: x ∧ Worded .operand x := by
  constructor
  · rintro ⟨e, d, h⟩
    cases h with
    | suffixed h => exact .inl ⟨_, _, h⟩
    | sign op h => exact .inr ⟨op, _, rfl, _, _, h⟩
  · rintro (⟨e, d, h⟩ | ⟨op, x, rfl, e, d, h⟩)
    · exact ⟨e, d, .suffixed h⟩
    · exact ⟨_, _, .sign op h⟩

theorem worded_name (name : String) : Worded .whole [.ident name] :=
  ⟨.var name, 1, .whole ((Renders.suffixed (.primary (.var name))).at_levels _)⟩

theorem exists_arguments {parts : List (List Lexeme)} (h : ∀ x ∈ parts, Worded .whole x) :
    ∃ args : List Argument, args.map (·.words) = parts ∧ ∀ a ∈ args, Renders .whole a.value a.words a.depth := by
  induction parts with
  | nil => exact ⟨[], rfl, by simp⟩
  | cons x parts ih =>
      obtain ⟨⟨e, d, hx⟩, hparts⟩ := List.forall_mem_cons.1 h
      obtain ⟨args, rfl, hargs⟩ := ih hparts
      exact ⟨⟨e, x, d⟩ :: args, rfl, List.forall_mem_cons.2 ⟨hx, hargs⟩⟩

theorem tupled_arguments {args : List Argument} (h : ∀ a ∈ args, Renders .whole a.value a.words a.depth) :
    Tupled (Worded .whole) (commas (args.map (·.words)) ++ [.punct .rparen]) := by
  refine ⟨_, rfl, fun x hx => ?_⟩
  obtain ⟨a, ha, rfl⟩ := List.mem_map.1 hx
  exact ⟨_, _, h a ha⟩

theorem Suffixes.append (hx : Suffixes x) (hy : Suffixes y) : Suffixes (x ++ y) := by
  induction hx with
  | nil => exact hy
  | index hx _ ih =>
      rw [List.cons_append, List.append_assoc]
      exact .index hx ih
  | select hx _ ih =>
      rw [List.cons_append, List.append_assoc]
      exact .select hx ih

theorem Worded.suffixes (hx : Worded .suffixed x) (hy : Suffixes y) : Worded .suffixed (x ++ y) := by
  induction hy generalizing x with
  | nil => rwa [List.append_nil]
  | @index u y hu _ ih =>
      obtain ⟨⟨e, d, hx⟩, ⟨i, c, hu⟩⟩ := And.intro hx hu
      simpa using ih ⟨_, _, .index hx hu⟩
  | @select u y hu _ ih =>
      obtain ⟨e, d, hx⟩ := hx
      cases hu with
      | length => simpa using ih ⟨_, _, .length hx⟩
      | call name hu =>
          obtain ⟨parts, rfl, hparts⟩ := hu
          obtain ⟨args, rfl, hargs⟩ := exists_arguments hparts
          simpa using ih ⟨_, _, .call name args hx hargs⟩

/-- A text with suffixes is one without and the suffixes. -/
theorem worded_suffixed_iff : Worded .suffixed w ↔ ∃ x y, w = x ++ y ∧ Worded .primary x ∧ Suffixes y := by
  constructor
  · rintro ⟨e, d, h⟩
    generalize hr : Rank.suffixed = r at h
    induction h with
    | primary h => exact ⟨_, [], (List.append_nil _).symm, ⟨_, _, h⟩, .nil⟩
    | index _ hi ih =>
        obtain ⟨x, y, rfl, hx, hy⟩ := ih hr
        exact ⟨x, _, List.append_assoc .., hx, hy.append (.index ⟨_, _, hi⟩ .nil)⟩
    | length _ ih =>
        obtain ⟨x, y, rfl, hx, hy⟩ := ih hr
        exact ⟨x, _, List.append_assoc .., hx, hy.append (.select .length .nil)⟩
    | call name args _ hargs ih =>
        obtain ⟨x, y, rfl, hx, hy⟩ := ih hr
        have hcall := Suffixes.select (.call name (tupled_arguments hargs)) .nil
        rw [List.append_nil] at hcall
        exact ⟨x, _, List.append_assoc .., hx, hy.append hcall⟩
    | _ => cases hr
  · rintro ⟨x, y, rfl, ⟨e, d, hx⟩, hy⟩
    exact Worded.suffixes ⟨e, d, .primary hx⟩ hy

theorem Chained.append (hx : Chained ops ls x) (hy : Chained ops ls y) : Chained ops ls (x ++ y) := by
  induction hx with
  | nil => exact hy
  | cons hop hx _ ih =>
      rw [List.cons_append, List.append_assoc]
      exact .cons hop hx ih

theorem Chained.exists_operand {u : Lexeme} (h : Chained ops ls (u :: w)) :
    ∃ x y, w = x ++ y ∧ Worded (.levels ls) x ∧ Chained ops ls y := by
  generalize hu : u :: w = v at h
  cases h with
  | nil => cases hu
  | cons _ hx hy => exact ⟨_, _, (List.cons.inj hu).2, hx, hy⟩

theorem Worded.chained (hx : Worded (.levels (ops :: ls)) x) (hy : Chained ops ls y) :
    Worded (.levels (ops :: ls)) (x ++ y) := by
  induction hy generalizing x with
  | nil => rwa [List.append_nil]
  | cons hop hu _ ih =>
      obtain ⟨⟨e, d, hx⟩, ⟨i, c, hu⟩⟩ := And.intro hx hu
      simpa using ih ⟨_, _, .binary hop hx hu⟩

/-- An expression of a level is an operand and more operands after operators of the level. -/
theorem worded_levels_cons_iff : Worded (.levels (ops :: ls)) w ↔
    ∃ x y, w = x ++ y ∧ Worded (.levels ls) x ∧ Chained ops ls y := by
  constructor
  · rintro ⟨e, d, h⟩
    generalize hr : Rank.levels (ops :: ls) = r at h
    induction h with
    | tighter _ h =>
        cases hr
        exact ⟨_, [], (List.append_nil _).symm, ⟨_, _, h⟩, .nil⟩
    | binary hop _ hu ih =>
        cases hr
        obtain ⟨x, y, rfl, hx, hy⟩ := ih rfl
        have hlast := Chained.cons hop ⟨_, _, hu⟩ .nil
        rw [List.append_nil] at hlast
        exact ⟨x, _, List.append_assoc .., hx, hy.append hlast⟩
    | _ => cases hr
  · rintro ⟨x, y, rfl, ⟨e, d, hx⟩, hy⟩
    exact Worded.chained ⟨e, d, .tighter ops hx⟩ hy

end Grammar

namespace Parser

open Grammar

def expressions : Category := ⟨Worded .whole, fun w next => Closes w next ∧ Off precedence next⟩

def levelled (ls : List (List BinOp)) : Category := ⟨Worded (.levels ls), fun w next => Closes w next ∧ Off ls next⟩

def operands : Category := ⟨Worded .operand, Closes⟩

variable {α : Type} {s : State} {D E : Category} {inner unary : Parser Expr} {bound : List Token}
  {ops : List BinOp} {ls : List (List BinOp)}

theorem predicts_marked (hinner : Predicts inner expressions) {p : Punct}
    (hp : p ∈ [.rbracket, .rparen, .comma, .semi]) {q : Expr → Parser α}
    (hq : ∀ e s₁, s₁.tokens.length < s.tokens.length → PredictsAt (q e) D s₁) (hsome : ∃ y, D.phrase y)
    (hjoin : ∀ x y, Worded .whole x → D.phrase y → E.phrase (x ++ .punct p :: y))
    (hsplit : ∀ w k, E.Admits w k → ∃ x y, w = x ++ .punct p :: y ∧ Worded .whole x ∧ D.Admits y k) :
    PredictsAt (inner >>= fun e => expectPunct p >>= fun _ => q e) E s := by
  obtain ⟨y, hy⟩ := hsome
  refine (hinner s).bind (D := ⟨fun w => ∃ y, w = .punct p :: y ∧ D.phrase y,
    fun w next => ∀ y, w = .punct p :: y → D.follow y next⟩) ?_ ⟨_, y, rfl, hy⟩ ?_ ?_
  · intro e s₁ hrun
    have hless := (hinner s).shorter not_worded_nil hrun
    refine .expectPunct (fun l s₂ hs => ?_) ⟨_, y, rfl, hy⟩ ?_
    · have hone := hs.length_eq
      refine (hq e s₂ (by omega)).mono (fun x hx => ⟨x, rfl, hx⟩) ?_
      rintro x k ⟨⟨y, hy, hphrase⟩, hfollow⟩ _
      cases hy
      exact ⟨hphrase, hfollow x rfl⟩
    · rintro _ ⟨y, rfl, _⟩
      rfl
  · rintro x _ hx ⟨y, rfl, hy⟩
    exact hjoin x y hx hy
  · intro w k hw
    obtain ⟨x, y, rfl, hx, hy, hfollow⟩ := hsplit w k hw
    refine ⟨x, _, rfl, ⟨hx, closes_of_mark hp x⟩, ⟨y, rfl, hy⟩, ?_⟩
    rintro _ ⟨⟩
    exact hfollow

theorem predicts_ended (hinner : Predicts inner expressions) {p : Punct}
    (hp : p ∈ [.rbracket, .rparen, .comma, .semi]) {q : Expr → α}
    (hE : ∀ w, E.phrase w ↔ ∃ x, w = x ++ [.punct p] ∧ Worded .whole x) :
    PredictsAt (inner >>= fun e => expectPunct p >>= fun _ => pure (q e)) E s := by
  refine predicts_marked hinner hp (fun e s₁ _ => PredictsAt.pure _) ⟨_, rfl⟩ ?_ ?_
  · rintro x _ hx rfl
    exact (hE _).2 ⟨x, rfl, hx⟩
  · rintro w k ⟨hw, _⟩
    obtain ⟨x, rfl, hx⟩ := (hE w).1 hw
    exact ⟨x, [], rfl, hx, rfl, trivial⟩

theorem predicts_creation (hinner : Predicts inner expressions) :
    Predicts (primary.creation inner) ((Category.closed (Worded .primary)).after [.keyword .kwNew]) := by
  intro s
  refine .branch (fun l s₁ _ => ?_) ?_ fun hnext => ?_
  · refine .expectPunct (fun l s₂ _ => ?_) ?_ ?_
    · refine predicts_ended hinner (by simp) fun w => ⟨?_, ?_⟩
      · rintro ⟨e, d, ⟨⟩⟩
        exact ⟨_, rfl, _, _, ‹_›⟩
      · rintro ⟨x, rfl, e, d, hx⟩
        exact ⟨_, _, .newArray hx⟩
    · obtain ⟨e, d, h⟩ := worded_name ""
      exact ⟨_, _, _, .newArray h⟩
    · rintro w ⟨e, d, ⟨⟩⟩
      rfl
  · rintro w k ⟨⟨e, d, ⟨⟩⟩, _⟩ _ <;> exact List.cons_ne_nil _ _
  · have hobject : PredictsAt (identifier >>= fun name => expectPunct .lparen >>= fun _ =>
        expectPunct .rparen >>= fun _ => pure (Expr.newObject name))
        (.closed fun w => ∃ name, w = [.ident name, .punct .lparen, .punct .rparen]) s := by
      refine .identifier (fun name l s₁ _ => ?_) ⟨_, "", rfl⟩ ?_
      · refine .expectPunct (fun l s₂ _ => .mark _ fun w => ?_) ⟨_, name, rfl⟩ ?_
        · simp [Category.after, Category.closed]
        · rintro w ⟨name', ⟨⟩⟩
          rfl
      · rintro _ ⟨name, rfl⟩
        exact ⟨name, rfl⟩
    refine hobject.mono ?_ ?_
    · rintro _ ⟨name, rfl⟩
      exact ⟨_, _, .newObject name⟩
    · rintro w k ⟨⟨e, d, ⟨⟩⟩, _⟩ hhead
      · exact absurd hhead.symm hnext
      · exact ⟨⟨_, rfl⟩, trivial⟩

theorem predicts_atom {x : Lexeme} {e : Expr} (he : Renders .primary e [x] 0)
    (honly : ∀ e d y, Renders .primary e (x :: y) d → y = []) (s : State) :
    PredictsAt (pure e) ((Category.closed (Worded .primary)).after [x]) s := by
  refine (PredictsAt.pure e).mono ?_ ?_
  · rintro _ rfl
    exact ⟨e, 0, he⟩
  · rintro y k ⟨⟨e, d, hy⟩, _⟩ _
    exact ⟨honly e d y hy, trivial⟩

theorem primary_fails (h : ∀ x, s.next = some x → beginsPrimary x = false) :
    primary inner s = Parser.fail .expression s := by
  have hno {t : Token} {rest : List Token} (htokens : s.tokens = t :: rest) : beginsPrimary t.lexeme = false := by
    apply h
    rw [State.next, htokens]
    rfl
  unfold primary
  split
  case h_8 => rfl
  all_goals
    rename_i htokens
    cases hno htokens

theorem predicts_noPrimary (h : ∀ x, s.next = some x → beginsPrimary x = false) :
    PredictsAt (primary inner) (.closed (Worded .primary)) s := by
  have hsome : ∃ w, Worded .primary w := ⟨_, _, _, .self⟩
  refine .fail (e := .expression) (by decide) hsome (fun w k hw hhead => ?_) (primary_fails h)
  obtain ⟨x, y, rfl, hx⟩ := hw.1.begins
  cases hx.symm.trans (h x hhead.symm)

theorem predicts_primary (hinner : Predicts inner expressions) :
    Predicts (primary inner) (.closed (Worded .primary)) := by
  rintro ⟨tokens, stop, nextId⟩
  have hgo {t : Token} (x k : List Lexeme) (hx : (Category.closed (Worded .primary)).Admits x k)
      (_ : (x ++ k).head? = some t.lexeme) : x ≠ [] := by
    rintro rfl
    exact not_worded_nil hx.1
  cases tokens with
  | nil => exact predicts_noPrimary fun x hx => by cases hx
  | cons t rest =>
      obtain ⟨x, l⟩ := t
      have hs : State.Advances ⟨⟨x, l⟩ :: rest, stop, nextId⟩ [⟨x, l⟩] ⟨rest, stop, nextId⟩ := ⟨rfl, rfl⟩
      have hother (hx : beginsPrimary x = false) :
          PredictsAt (primary inner) (.closed (Worded .primary)) ⟨⟨x, l⟩ :: rest, stop, nextId⟩ := by
        refine predicts_noPrimary fun y hy => ?_
        cases hy
        exact hx
      cases x with
      | int digits =>
          cases hn : integer? digits with
          | none =>
              have hrun : primary inner ⟨⟨.int digits, l⟩ :: rest, stop, nextId⟩ =
                  .error (.intOverflow l digits) ⟨rest, stop, nextId⟩ := by simp only [primary, hn]
              exact .limit hrun fun _ _ _ h => by cases h
          | some n =>
              have hrun : primary inner ⟨⟨.int digits, l⟩ :: rest, stop, nextId⟩ =
                  .ok (.int n) ⟨rest, stop, nextId⟩ := by simp only [primary, hn]
              have hnumeral := (integer?_eq_some_iff.1 hn).1
              refine .read_one hs (predicts_atom (.int hnumeral) (fun e d y h => ?_) _) hrun hgo
              cases h
              rfl
      | ident name =>
          refine .read_one hs (predicts_atom (.var name) (fun e d y h => ?_) _) rfl hgo
          cases h
          rfl
      | keyword k =>
          cases k with
          | kwTrue =>
              refine .read_one hs (predicts_atom .yes (fun e d y h => ?_) _) rfl hgo
              cases h
              rfl
          | kwFalse =>
              refine .read_one hs (predicts_atom .no (fun e d y h => ?_) _) rfl hgo
              cases h
              rfl
          | kwThis =>
              refine .read_one hs (predicts_atom .self (fun e d y h => ?_) _) rfl hgo
              cases h
              rfl
          | kwNew => exact .read_one hs (predicts_creation hinner _) rfl hgo
          | _ => exact hother rfl
      | punct p =>
          cases p with
          | lparen =>
              refine .read_one hs (predicts_ended hinner (by simp) fun w => ⟨?_, ?_⟩) rfl hgo
              · rintro ⟨e, d, ⟨⟩⟩
                exact ⟨_, rfl, _, _, ‹_›⟩
              · rintro ⟨x, rfl, e, d, hx⟩
                exact ⟨_, _, .group hx⟩
          | _ => exact hother rfl

theorem predicts_arguments (hinner : Predicts inner expressions) :
    Predicts (parenthesized inner) (.closed (Tupled (Worded .whole))) := by
  refine predicts_parenthesized hinner not_worded_nil ⟨_, worded_name ""⟩ (fun x hx => hx.head? rfl) fun x _ => ⟨?_, ?_⟩
  · exact closes_of_mark (by simp) x
  · exact closes_of_mark (by simp) x

def selections : Category := ⟨Selection, fun w next => w = [.ident "length"] → next ≠ some (.punct .lparen)⟩

theorem predicts_member (hinner : Predicts inner expressions) (e : Expr) : Predicts (member inner e) selections := by
  intro s
  refine .identifier (fun name l s₁ _ => ?_) ⟨_, .length⟩ ?_
  · have hcall : PredictsAt (expectPunct .lparen >>= fun _ => parenthesized inner >>= fun args =>
        pure (Expr.call e name args))
        (.closed fun w => ∃ y, w = .punct .lparen :: y ∧ Tupled (Worded .whole) y) s₁ := by
      have hsome : ∃ y, Tupled (Worded .whole) y := ⟨_, [], rfl, by simp⟩
      obtain ⟨y, hy⟩ := hsome
      refine .expectPunct (fun l s₂ _ => ?_) ⟨_, y, rfl, hy⟩ ?_
      · refine ((predicts_arguments hinner s₂).map _).mono (fun y hy => ⟨y, rfl, hy⟩) ?_
        rintro x k ⟨⟨y, hy, hphrase⟩, _⟩ _
        cases hy
        exact ⟨hphrase, trivial⟩
      · rintro _ ⟨y, rfl, _⟩
        rfl
    by_cases hlength : name = "length" ∧ s₁.next ≠ some (.punct .lparen)
    · obtain ⟨rfl, hnext⟩ := hlength
      refine .done ((bind_of_ok (sees_eq _ _)).trans (by simp [hnext]; rfl)) (.refl s₁) .length ?_
      rintro x k ⟨hx, _⟩ hhead
      cases hx with
      | length => rfl
      | call name hy => exact absurd hhead.symm hnext
    · have hrun : (sees (.punct .lparen) >>= fun b => if (name = "length" && !b) = true then pure (Expr.length e)
          else expectPunct .lparen >>= fun _ => parenthesized inner >>= fun args => pure (Expr.call e name args)) s₁ =
          (expectPunct .lparen >>= fun _ => parenthesized inner >>= fun args => pure (Expr.call e name args)) s₁ := by
        refine (bind_of_ok (sees_eq _ _)).trans ?_
        rw [if_neg]
        simpa using hlength
      refine PredictsAt.mono (.congr hcall (.refl s₁) hrun) ?_ ?_
      · rintro _ ⟨y, rfl, hy⟩
        exact .call name hy
      · rintro w k ⟨hw, hfollow⟩ hhead
        refine ⟨?_, trivial⟩
        cases hw with
        | length => exact absurd ⟨rfl, hhead ▸ hfollow rfl⟩ hlength
        | call name hy => exact ⟨_, rfl, hy⟩
  · intro w hw
    cases hw with
    | length => exact ⟨_, rfl⟩
    | call name => exact ⟨_, rfl⟩

theorem predicts_suffixes (hinner : Predicts inner expressions) (e : Expr) (hbound : s.tokens.length ≤ bound.length) :
    PredictsAt (suffixes inner e bound) ⟨Suffixes, Closes⟩ s := by
  induction bound generalizing s e with
  | nil =>
      have hnone := State.next_eq_none (List.length_eq_zero_iff.1 (Nat.le_zero.1 hbound))
      refine .done rfl (.refl s) .nil fun x k hx hhead => ?_
      rw [hnone, List.head?_eq_none_iff] at hhead
      exact (List.append_eq_nil_iff.1 hhead).1
  | cons b bound ih =>
      rw [List.length_cons] at hbound
      refine .branch (fun l s₁ hs => ?_) ?_ fun hbracket => .branch (fun l s₁ hs => ?_) ?_ fun hdot => ?_
      · have hone := hs.length_eq
        refine predicts_marked hinner (by simp) (fun i s₂ _ => ih (.index e i) (by omega)) ⟨_, .nil⟩ ?_ ?_
        · exact fun x y hx hy => .index hx hy
        · rintro w k ⟨hw, hfollow⟩
          cases hw with
          | @index x y hx hy =>
              refine ⟨x, y, rfl, hx, hy, hfollow.of_suffix ?_⟩
              exact ⟨.punct .lbracket :: (x ++ [.punct .rbracket]), by simp⟩
      · rintro w k ⟨_, hfollow⟩ hhead rfl
        exact hfollow.bracket hhead
      · have hone := hs.length_eq
        refine (predicts_member hinner e s₁).bind (D := ⟨Suffixes, Closes⟩) (fun e' s₂ hrun => ih e' ?_) ⟨_, .nil⟩ ?_ ?_
        · have hless := (predicts_member hinner e s₁).shorter nofun hrun
          omega
        · exact fun x y hx hy => @Suffixes.select x y hx hy
        · rintro w k ⟨hw, hfollow⟩
          cases hw with
          | @select x y hx hy =>
              refine ⟨x, y, rfl, ⟨hx, ?_⟩, hy, hfollow.of_suffix ⟨.punct .dot :: x, rfl⟩⟩
              rintro rfl
              cases hy with
              | nil => exact hfollow.call (List.suffix_refl _)
              | index => exact nofun
              | select => exact nofun
      · rintro w k ⟨_, hfollow⟩ hhead rfl
        exact hfollow.dot hhead
      · refine .done rfl (.refl s) .nil fun x k hx hhead => ?_
        cases hx.1 with
        | nil => rfl
        | index => exact absurd hhead.symm hbracket
        | select => exact absurd hhead.symm hdot

theorem predicts_operandWith (hunary : Predicts unary operands) (hinner : Predicts inner expressions) :
    Predicts (operandWith unary inner) operands := by
  have hsigned (op : UnOp) (s₁ : State) : PredictsAt (unary >>= fun e => pure (Expr.unary op e))
      (operands.after [.punct (signOf op)]) s₁ := by
    refine ((hunary s₁).map _).mono ?_ ?_
    · rintro x ⟨e, d, hx⟩
      exact ⟨_, _, .sign op hx⟩
    · rintro x k ⟨hx, hfollow⟩ _
      refine ⟨?_, hfollow.of_suffix (List.suffix_cons _ _)⟩
      rcases worded_operand_iff.1 hx with hx | ⟨op', y, hy, hsign⟩
      · refine absurd rfl (hx.head? ?_)
        cases op <;> rfl
      · rwa [← (List.cons.inj hy).2] at hsign
  have hgo (op : UnOp) (w k : List Lexeme) (hw : operands.Admits w k)
      (_ : (w ++ k).head? = some (.punct (signOf op))) : w ≠ [] := by
    rintro rfl
    exact not_worded_nil hw.1
  intro s
  refine .branch (fun l s₁ _ => hsigned .not s₁) (hgo .not) fun hnot =>
    .branch (fun l s₁ _ => hsigned .neg s₁) (hgo .neg) fun hneg => ?_
  have hsuffixed : PredictsAt (primary inner >>= fun e => bounded (suffixes inner e)) ⟨Worded .suffixed, Closes⟩ s := by
    refine (predicts_primary hinner s).bind (D := ⟨Suffixes, Closes⟩) ?_ ⟨_, .nil⟩ ?_ ?_
    · exact fun e s₁ _ => (predicts_suffixes hinner e (Nat.le_refl _)).bounded
    · exact fun x y hx hy => worded_suffixed_iff.2 ⟨x, y, rfl, hx, hy⟩
    · rintro w k ⟨hw, hfollow⟩
      obtain ⟨x, y, rfl, hx, hy⟩ := worded_suffixed_iff.1 hw
      exact ⟨x, y, rfl, ⟨hx, trivial⟩, hy, hfollow.of_suffix (List.suffix_append x y)⟩
  refine hsuffixed.mono ?_ ?_
  · rintro x ⟨e, d, hx⟩
    exact ⟨e, d, .suffixed hx⟩
  · rintro x k ⟨hx, hfollow⟩ hhead
    refine ⟨?_, hfollow⟩
    rcases worded_operand_iff.1 hx with hx | ⟨op, y, rfl, _⟩
    · exact hx
    · cases op with
      | not => exact absurd hhead.symm hnot
      | neg => exact absurd hhead.symm hneg

theorem admits_operand (hapart : Apart (ops :: ls)) {x y k : List Lexeme} (hx : Worded (.levels ls) x)
    (hy : Chained ops ls y) (hcloses : Closes (x ++ y) k.head?) (hoff : Off (ops :: ls) k.head?) :
    (levelled ls).Admits x (y ++ k) := by
  refine ⟨hx, ?_⟩
  cases hy with
  | nil =>
      rw [List.append_nil] at hcloses
      exact ⟨hcloses, (List.forall_mem_cons.1 hoff).2⟩
  | @cons op x' y' hop =>
      refine ⟨?_, off_of_apart hapart hop⟩
      cases op <;> exact ⟨nofun, nofun, fun _ => nofun⟩

theorem predicts_chain {operand : Parser Expr} (hoperand : Predicts operand (levelled ls)) (hapart : Apart (ops :: ls))
    (left : Expr) (hbound : s.tokens.length ≤ bound.length) : PredictsAt (chain ops operand left bound)
      ⟨Chained ops ls, fun w next => Closes w next ∧ Off (ops :: ls) next⟩ s := by
  induction bound generalizing s left with
  | nil =>
      have hnone := State.next_eq_none (List.length_eq_zero_iff.1 (Nat.le_zero.1 hbound))
      refine .done rfl (.refl s) .nil fun x k hx hhead => ?_
      rw [hnone, List.head?_eq_none_iff] at hhead
      exact (List.append_eq_nil_iff.1 hhead).1
  | cons b bound ih =>
      rw [List.length_cons] at hbound
      by_cases hnext : ∃ op ∈ ops, s.next = some (.punct (markOf op))
      · obtain ⟨op, hop, hnext⟩ := hnext
        obtain ⟨l, s₁, hpass, hs⟩ := State.exists_passes hnext
        have hone := hs.length_eq
        refine .read_one hs ?_ (bind_of_ok (operator?_pass hop hpass)) ?_
        · refine (hoperand s₁).bind (fun right s₂ hrun => ih (.binary op left right) ?_) ⟨_, .nil⟩ ?_ ?_
          · have hless := (hoperand s₁).shorter not_worded_nil hrun
            rw [List.length_singleton] at hone
            omega
          · exact fun x y hx hy => @Chained.cons ops ls op x y hop hx hy
          · rintro w k ⟨hw, hcloses, hoff⟩
            obtain ⟨x, y, rfl, hx, hy⟩ := Chained.exists_operand hw
            have hcloses : Closes (x ++ y) k.head? := hcloses.of_suffix (List.suffix_cons _ _)
            have hy' : Closes y k.head? := hcloses.of_suffix (List.suffix_append x y)
            exact ⟨x, y, rfl, admits_operand hapart hx hy hcloses hoff, hy, hy', hoff⟩
        · rintro w k ⟨_, _, hoff⟩ hhead rfl
          exact (List.forall_mem_cons.1 hoff).1 op hop hhead
      · have hnone : ∀ op ∈ ops, s.next ≠ some (.punct (markOf op)) := fun op hop h => hnext ⟨op, hop, h⟩
        refine .done (chain_stops (b :: bound) hnone) (.refl s) .nil fun x k hx hhead => ?_
        cases hx.1 with
        | nil => rfl
        | cons hop => exact absurd hhead.symm (hnone _ hop)

theorem predicts_binary {operand : Parser Expr} (hoperand : Predicts operand operands) (hapart : Apart ls) :
    Predicts (binary operand ls) (levelled ls) := by
  induction ls with
  | nil =>
      intro s
      refine (hoperand s).mono (fun x hx => worded_levels_nil_iff.2 hx) ?_
      rintro x k ⟨hx, hcloses, _⟩ _
      exact ⟨worded_levels_nil_iff.1 hx, hcloses⟩
  | cons ops ls ih =>
      have htighter := ih (List.pairwise_cons.1 hapart).2
      intro s
      refine (htighter s).bind
        (fun left s₁ _ => (predicts_chain htighter hapart left (Nat.le_refl _)).bounded) ⟨_, .nil⟩ ?_ ?_
      · exact fun x y hx hy => worded_levels_cons_iff.2 ⟨x, y, rfl, hx, hy⟩
      · rintro w k ⟨hw, hcloses, hoff⟩
        obtain ⟨x, y, rfl, hx, hy⟩ := worded_levels_cons_iff.1 hw
        have hy' : Closes y k.head? := hcloses.of_suffix (List.suffix_append x y)
        exact ⟨x, y, rfl, admits_operand hapart hx hy hcloses hoff, hy, hy', hoff⟩

theorem predicts_whole {operand : Parser Expr} (hoperand : Predicts operand operands) :
    Predicts (binary operand precedence) expressions := by
  intro s
  refine (predicts_binary hoperand apart_precedence s).mono (fun x hx => worded_whole_iff.2 hx) ?_
  rintro x k ⟨hx, hfollow⟩ _
  exact ⟨worded_whole_iff.1 hx, hfollow⟩

theorem predicts_operand (room : Nat) : Predicts (operand room) operands := by
  induction room with
  | zero => exact predicts_operandWith (fun _ => .tooDeep) fun _ => .tooDeep
  | succ room ih => exact predicts_operandWith ih (predicts_whole ih)

theorem predicts_expr (room : Nat) : Predicts (expr room) expressions := by
  cases room with
  | zero => exact fun _ => .tooDeep
  | succ room => exact predicts_whole (predicts_operand room)

end Parser

end Backflow
