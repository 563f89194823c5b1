import Backflow.Proofs.ExprGrammar
import Backflow.Proofs.Reading

namespace Backflow.Parser

open Grammar

variable {α : Type} {s s' : State}

/-- What `p` returns is spelled at rank `r` by the tokens that `p` reads, within `room` levels of nesting, and
the next token goes on neither with a suffix nor with an operator of `ls`. -/
def Spells (p : Parser Expr) (r : Rank) (ls : List (List BinOp)) (room : Nat) : Prop :=
  ∀ s e s', p s = .ok e s' → ∃ ts d, s.Reads ts s' ∧ Renders r e (words ts) d ∧ d ≤ room ∧
    Fits (words ts) ∧ Closes (words ts) s'.next ∧ Off ls s'.next

theorem operator?_ok {ops : List BinOp} {o : Option BinOp} (h : operator? ops s = .ok o s') :
    (∃ op l, o = some op ∧ op ∈ ops ∧ s.Reads [⟨.punct (markOf op), l⟩] s') ∨
      (o = none ∧ s' = s ∧ ∀ op ∈ ops, s.next ≠ some (.punct (markOf op))) := by
  unfold operator? at h
  split at h
  case h_1 p loc rest htokens =>
    split at h
    case h_1 op hop =>
      cases h
      have hp : markOf op = p := by simpa [punct_eq_markOf] using List.find?_some hop
      subst hp
      exact Or.inl ⟨op, loc, rfl, List.mem_of_find?_eq_some hop, htokens⟩
    case h_2 hnone =>
      cases h
      refine Or.inr ⟨rfl, rfl, fun op hop hnext => ?_⟩
      have hp : p = markOf op := by simpa [State.next, htokens] using hnext
      simpa [hp, punct_eq_markOf] using List.find?_eq_none.1 hnone op hop
  case h_2 hother =>
    cases h
    refine Or.inr ⟨rfl, rfl, fun op _ hnext => ?_⟩
    cases htokens : s.tokens with
    | nil => simp [State.next, htokens] at hnext
    | cons t rest =>
        have ht : t.lexeme = .punct (markOf op) := by simpa [State.next, htokens] using hnext
        exact hother (markOf op) t.loc rest (by rw [htokens, ← ht])

theorem spells_chain {ops : List BinOp} {ls : List (List BinOp)} {operand : Parser Expr} {room : Nat}
    (hoperand : Spells operand (.levels ls) ls room) {bound : List Token} {left e : Expr}
    {us : List Token} {d : Nat} (hbound : s.tokens.length ≤ bound.length)
    (hleft : Renders (.levels (ops :: ls)) left (words us) d) (hd : d ≤ room) (hfits : Fits (words us))
    (hcloses : Closes (words us) s.next) (hoff : Off ls s.next)
    (h : chain ops operand left bound s = .ok e s') :
    ∃ ts d, s.Reads ts s' ∧ Renders (.levels (ops :: ls)) e (words (us ++ ts)) d ∧ d ≤ room ∧
      Fits (words (us ++ ts)) ∧ Closes (words (us ++ ts)) s'.next ∧ Off (ops :: ls) s'.next := by
  induction bound generalizing s left us d with
  | nil =>
      have hnone : s.next = none := State.next_eq_none (List.length_eq_zero_iff.1 (Nat.le_zero.1 hbound))
      cases h
      refine ⟨[], d, .refl _, ?_, hd, ?_, ?_, hoff.cons fun op _ => ?_⟩
      · rwa [List.append_nil]
      · rwa [List.append_nil]
      · rwa [List.append_nil]
      · rw [hnone]
        exact nofun
  | cons b bound ih =>
      obtain ⟨o, s₁, hop, hrest⟩ := bind_ok.1 h
      rcases operator?_ok hop with ⟨op, l, rfl, hmem, hread⟩ | ⟨rfl, rfl, hnone⟩
      · obtain ⟨right, s₂, hright, hloop⟩ := bind_ok.1 hrest
        obtain ⟨rs, c, hreadr, hrender, hc, hfitsr, hclosesr, hoffr⟩ := hoperand s₁ right s₂ hright
        have hlong : s₂.tokens.length ≤ bound.length := by
          have h₁ := hread.length_eq
          have h₂ := hreadr.length_eq
          simp only [List.length_cons, List.length_nil] at h₁ hbound
          omega
        have hfits' : Fits (words (us ++ ⟨.punct (markOf op), l⟩ :: rs)) := by simp [hfits, hfitsr]
        have hcloses' : Closes (words (us ++ ⟨.punct (markOf op), l⟩ :: rs)) s₂.next := by
          rw [words_append]
          exact hclosesr.after (mark_not_mem_length op)
        have hbinary : Renders (.levels (ops :: ls)) (.binary op left right)
            (words (us ++ ⟨.punct (markOf op), l⟩ :: rs)) (max d c) := by
          rw [words_append]
          exact .binary hmem hleft hrender
        obtain ⟨ts, d', hreads, hresult⟩ := ih hlong hbinary (Nat.max_le.2 ⟨hd, hc⟩) hfits' hcloses' hoffr hloop
        refine ⟨⟨.punct (markOf op), l⟩ :: rs ++ ts, d', (hread.cons hreadr).trans hreads, ?_⟩
        rwa [← List.append_assoc]
      · cases hrest
        refine ⟨[], d, .refl _, ?_, hd, ?_, ?_, hoff.cons hnone⟩
        · rwa [List.append_nil]
        · rwa [List.append_nil]
        · rwa [List.append_nil]

theorem spells_binary {operand : Parser Expr} {room : Nat} (hoperand : Spells operand .operand [] room)
    (ls : List (List BinOp)) : Spells (binary operand ls) (.levels ls) ls room := by
  induction ls with
  | nil =>
      intro s e s' h
      obtain ⟨ts, d, hread, hrender, hrest⟩ := hoperand s e s' h
      exact ⟨ts, d, hread, .operand hrender, hrest⟩
  | cons ops ls ih =>
      intro s e s' h
      obtain ⟨left, s₁, hleft, hloop⟩ := bind_ok.1 h
      obtain ⟨us, d, hread, hrender, hd, hfits, hcloses, hoff⟩ := ih s left s₁ hleft
      obtain ⟨ts, d', hreads, hresult⟩ := spells_chain ih (Nat.le_refl _) (.tighter ops hrender) hd hfits
        hcloses hoff hloop
      exact ⟨us ++ ts, d', hread.trans hreads, hresult⟩

theorem spells_whole {operand : Parser Expr} {room : Nat} (hoperand : Spells operand .operand [] room) :
    Spells (binary operand BinOp.levels) .whole precedence (room + 1) := by
  rw [levels_eq_precedence]
  intro s e s' h
  obtain ⟨ts, d, hread, hrender, hd, hrest⟩ := spells_binary hoperand precedence s e s' h
  exact ⟨ts, d + 1, hread, .whole hrender, Nat.succ_le_succ hd, hrest⟩

theorem listed_ok {item : Parser α} {G : α → List Token → Prop}
    (hitem : ∀ s a s', item s = .ok a s' → ∃ ts, s.Reads ts s' ∧ ts ≠ [] ∧ G a ts) {bound : List Token}
    {xs : List α} (hbound : s.tokens.length ≤ bound.length) (h : listed item bound s = .ok xs s') :
    ∃ ts l, s.Reads (ts ++ [⟨.punct .rparen, l⟩]) s' ∧
      Listed (fun t : Token => t.lexeme = .punct .comma) G xs ts := by
  induction bound generalizing s xs with
  | nil =>
      obtain ⟨x, s₁, hx, _⟩ := bind_ok.1 h
      obtain ⟨ts, hread, hne, _⟩ := hitem s x s₁ hx
      rw [State.Reads, List.length_eq_zero_iff.1 (Nat.le_zero.1 hbound)] at hread
      exact absurd (List.append_eq_nil_iff.1 hread.symm).1 hne
  | cons b bound ih =>
      obtain ⟨x, s₁, hx, hrest⟩ := bind_ok.1 h
      obtain ⟨ts, hread, hne, hG⟩ := hitem s x s₁ hx
      rcases eat_branch hrest with ⟨l, s₂, hreadl, hpure⟩ | ⟨_, hmore⟩
      · cases hpure
        exact ⟨ts, l, hread.trans hreadl, .one hG⟩
      · obtain ⟨c, s₂, hreadc, hmore⟩ := expectPunct_bind hmore
        obtain ⟨xs', s₃, hxs, hpure⟩ := bind_ok.1 hmore
        cases hpure
        have hlong : s₂.tokens.length ≤ bound.length := by
          have h₁ := hread.length_eq
          have h₂ := hreadc.length_eq
          simp only [List.length_cons, List.length_nil] at h₂ hbound
          omega
        obtain ⟨us, l, hreads, hlisted⟩ := ih hlong hxs
        refine ⟨ts ++ ⟨.punct .comma, c⟩ :: us, l, ?_, .more hG rfl hlisted⟩
        rw [List.append_assoc, List.cons_append]
        exact hread.trans (hreadc.cons hreads)

theorem parenthesized_ok {item : Parser α} {G : α → List Token → Prop}
    (hitem : ∀ s a s', item s = .ok a s' → ∃ ts, s.Reads ts s' ∧ ts ≠ [] ∧ G a ts) {xs : List α}
    (h : parenthesized item s = .ok xs s') :
    ∃ ts l, s.Reads (ts ++ [⟨.punct .rparen, l⟩]) s' ∧
      (xs = [] ∧ ts = [] ∨ Listed (fun t : Token => t.lexeme = .punct .comma) G xs ts) := by
  rcases eat_branch h with ⟨l, s₁, hread, hpure⟩ | ⟨_, hmore⟩
  · cases hpure
    exact ⟨[], l, hread, Or.inl ⟨rfl, rfl⟩⟩
  · obtain ⟨ts, l, hread, hlisted⟩ := listed_ok hitem (Nat.le_refl _) hmore
    exact ⟨ts, l, hread, Or.inr hlisted⟩

theorem Spells.item {inner : Parser Expr} {ls : List (List BinOp)} {room : Nat}
    (h : Spells inner .whole ls room) (s : State) (e : Expr) (s' : State) (hrun : inner s = .ok e s') :
    ∃ ts, s.Reads ts s' ∧ ts ≠ [] ∧
      ((∃ d, Renders .whole e (words ts) d ∧ d ≤ room) ∧ Fits (words ts)) := by
  obtain ⟨ts, d, hread, hrender, hd, hfits, _⟩ := h s e s' hrun
  refine ⟨ts, hread, ?_, ⟨d, hrender, hd⟩, hfits⟩
  rintro rfl
  exact hrender.ne_nil rfl

theorem Listed.fits {xs : List α} {ts : List Token} {G : α → List Token → Prop}
    (hG : ∀ x ts, G x ts → Fits (words ts))
    (h : Listed (fun t : Token => t.lexeme = .punct .comma) G xs ts) : Fits (words ts) := by
  induction h with
  | one he => exact hG _ _ he
  | more he ht _ ih => simp [ht, hG _ _ he, ih]

variable {inner : Parser Expr} {room : Nat} {e : Expr}

theorem spells_creation (hinner : Spells inner .whole precedence room)
    (h : primary.creation inner s = .ok e s') :
    ∃ ts d, s.Reads ts s' ∧ Renders .primary e (.keyword .kwNew :: words ts) d ∧ d ≤ room ∧ Fits (words ts) := by
  rcases eat_branch h with ⟨l, s₁, hread, hrest⟩ | ⟨_, hrest⟩
  · obtain ⟨o, s₂, hreado, hrest⟩ := expectPunct_bind hrest
    obtain ⟨size, s₃, hsize, hrest⟩ := bind_ok.1 hrest
    obtain ⟨us, d, hreads, hrender, hd, hfits, _⟩ := hinner s₂ size s₃ hsize
    obtain ⟨c, s₄, hreadc, hpure⟩ := expectPunct_bind hrest
    cases hpure
    refine ⟨_, d, hread.cons (hreado.cons (hreads.trans hreadc)), ?_, hd, by simp [hfits]⟩
    rw [words_cons, words_cons, words_append]
    exact .newArray hrender
  · obtain ⟨name, l, s₁, hreadn, hrest⟩ := identifier_bind hrest
    obtain ⟨o, s₂, hreado, hrest⟩ := expectPunct_bind hrest
    obtain ⟨c, s₃, hreadc, hpure⟩ := expectPunct_bind hrest
    cases hpure
    exact ⟨_, 0, hreadn.cons (hreado.cons hreadc), .newObject name, Nat.zero_le _, by simp⟩

theorem spells_primary (hinner : Spells inner .whole precedence room) (h : primary inner s = .ok e s') :
    ∃ ts d, s.Reads ts s' ∧ Renders .primary e (words ts) d ∧ d ≤ room ∧ Fits (words ts) := by
  unfold primary at h
  split at h
  case h_1 digits loc rest htokens =>
    split at h
    case h_1 n hn =>
      cases h
      have hn := integer?_eq_some_iff.1 hn
      exact ⟨[⟨.int digits, loc⟩], 0, htokens, .int hn.1, Nat.zero_le _, fits_int.2 ⟨⟨n, hn⟩, fits_nil⟩⟩
    case h_2 => cases h
  case h_2 name loc rest htokens =>
    cases h
    exact ⟨[⟨.ident name, loc⟩], 0, htokens, .var name, Nat.zero_le _, by simp⟩
  case h_3 loc rest htokens =>
    cases h
    exact ⟨[⟨.keyword .kwTrue, loc⟩], 0, htokens, .yes, Nat.zero_le _, by simp⟩
  case h_4 loc rest htokens =>
    cases h
    exact ⟨[⟨.keyword .kwFalse, loc⟩], 0, htokens, .no, Nat.zero_le _, by simp⟩
  case h_5 loc rest htokens =>
    cases h
    exact ⟨[⟨.keyword .kwThis, loc⟩], 0, htokens, .self, Nat.zero_le _, by simp⟩
  case h_6 loc rest htokens =>
    obtain ⟨ts, d, hread, hrender, hd, hfits⟩ := spells_creation hinner h
    refine ⟨⟨.keyword .kwNew, loc⟩ :: ts, d, ?_, hrender, hd, fits_keyword.2 hfits⟩
    rw [State.Reads, htokens]
    exact congrArg _ hread
  case h_7 loc rest htokens =>
    obtain ⟨inside, s₁, hinside, hrest⟩ := bind_ok.1 h
    obtain ⟨us, d, hread, hrender, hd, hfits, _⟩ := hinner _ inside s₁ hinside
    obtain ⟨c, s₂, hreadc, hpure⟩ := expectPunct_bind hrest
    cases hpure
    refine ⟨⟨.punct .lparen, loc⟩ :: (us ++ [⟨.punct .rparen, c⟩]), d, ?_, ?_, hd, by simp [hfits]⟩
    · rw [State.Reads, htokens]
      exact congrArg _ (hread.trans hreadc)
    · rw [words_cons, words_append]
      exact .group hrender
  case h_8 => cases h

theorem sees_ok {x : Lexeme} {b : Bool} (h : sees x s = .ok b s') : s' = s ∧ (b = true ↔ s.next = some x) := by
  unfold sees at h
  split at h
  case h_1 t rest htokens =>
    cases h
    simp [State.next, htokens]
  case h_2 htokens =>
    cases h
    simp [State.next, htokens]

theorem spells_member {us : List Token} {d : Nat} (hinner : Spells inner .whole precedence room)
    {base : Expr} (hbase : Renders .suffixed base (words us) d) (hd : d ≤ room)
    (l : Location) (h : member inner base s = .ok e s') :
    ∃ ts d, s.Reads ts s' ∧ Renders .suffixed e (words (us ++ ⟨.punct .dot, l⟩ :: ts)) d ∧ d ≤ room ∧
      Fits (words ts) ∧ ([.punct .dot, .ident "length"] <:+ words (us ++ ⟨.punct .dot, l⟩ :: ts) →
        s'.next ≠ some (.punct .lparen)) := by
  obtain ⟨name, n, s₁, hreadn, hname⟩ := identifier_bind h
  obtain ⟨b, s₂, hsees, hrest⟩ := bind_ok.1 hname
  obtain ⟨rfl, hb⟩ := sees_ok hsees
  clear hname
  split at hrest
  case isTrue hlength =>
    rw [Bool.and_eq_true, decide_eq_true_eq, Bool.not_eq_true', ← Bool.not_eq_true, hb] at hlength
    obtain ⟨rfl, hnext⟩ := hlength
    cases hrest
    refine ⟨_, d, hreadn, ?_, hd, by simp, fun _ => hnext⟩
    rw [words_append]
    exact .length hbase
  case isFalse =>
    obtain ⟨o, s₃, hreado, hrest⟩ := expectPunct_bind hrest
    obtain ⟨args, s₄, hargs, hpure⟩ := bind_ok.1 hrest
    cases hpure
    obtain ⟨ts, c, hread, hlist⟩ := parenthesized_ok hinner.item hargs
    have hwords : words (us ++ ⟨.punct .dot, l⟩ :: ⟨.ident name, n⟩ :: ⟨.punct .lparen, o⟩ ::
        (ts ++ [⟨.punct .rparen, c⟩])) =
        words us ++ .punct .dot :: .ident name :: .punct .lparen :: (words ts ++ [.punct .rparen]) := by
      simp
    obtain ⟨found, rfl, hcommas, hdeep, hall⟩ : ∃ found : List Argument, found.map (·.value) = args ∧
        commas (found.map (·.words)) = words ts ∧ deepest found ≤ room ∧
          ∀ a ∈ found, Renders .whole a.value a.words a.depth := by
      rcases hlist with ⟨rfl, rfl⟩ | hlist
      · exact ⟨[], rfl, rfl, Nat.zero_le _, fun a ha => absurd ha List.not_mem_nil⟩
      · obtain ⟨found, _, hfound⟩ := hlist.exists_arguments (fun t ht => ht) fun e ts he => he.1
        exact ⟨found, hfound⟩
    have hfitsargs : Fits (words ts) := by
      rcases hlist with ⟨_, rfl⟩ | hlist
      · exact fits_nil
      · exact Listed.fits (fun e ts he => he.2) hlist
    refine ⟨_, max d (deepest found), hreadn.cons (hreado.cons hread), ?_, Nat.max_le.2 ⟨hd, hdeep⟩,
      by simp [hfitsargs], fun hlength => ?_⟩
    · rw [hwords, ← hcommas]
      exact .call name found hbase hall
    · obtain ⟨pre, hpre⟩ := hwords ▸ hlength
      have hlast := congrArg List.getLast? hpre
      simp [List.getLast?_cons] at hlast

theorem spells_suffixes (hinner : Spells inner .whole precedence room) {bound us : List Token} {base : Expr}
    {d : Nat} (hbound : s.tokens.length ≤ bound.length) (hbase : Renders .suffixed base (words us) d)
    (hd : d ≤ room) (hfits : Fits (words us))
    (hcall : [.punct .dot, .ident "length"] <:+ words us → s.next ≠ some (.punct .lparen))
    (h : suffixes inner base bound s = .ok e s') :
    ∃ ts d, s.Reads ts s' ∧ Renders .suffixed e (words (us ++ ts)) d ∧ d ≤ room ∧
      Fits (words (us ++ ts)) ∧ Closes (words (us ++ ts)) s'.next := by
  induction bound generalizing s base us d with
  | nil =>
      have hnone : s.next = none := State.next_eq_none (List.length_eq_zero_iff.1 (Nat.le_zero.1 hbound))
      cases h
      refine ⟨[], d, .refl _, ?_⟩
      rw [List.append_nil]
      exact ⟨hbase, hd, hfits, by simp [hnone], by simp [hnone], hcall⟩
  | cons b bound ih =>
      rcases eat_branch h with ⟨o, s₁, hreado, hindex⟩ | ⟨hbracket, hother⟩
      · obtain ⟨i, s₂, hi, hrest⟩ := bind_ok.1 hindex
        obtain ⟨is, c, hreadi, hrender, hc, hfitsi, _⟩ := hinner s₁ i s₂ hi
        obtain ⟨r, s₃, hreadr, hloop⟩ := expectPunct_bind hrest
        have hlong : s₃.tokens.length ≤ bound.length := by
          have h₁ := hreado.length_eq
          have h₂ := hreadi.length_eq
          have h₃ := hreadr.length_eq
          simp only [List.length_cons, List.length_nil] at h₁ h₃ hbound
          omega
        have hwords : words (us ++ ⟨.punct .lbracket, o⟩ :: (is ++ [⟨.punct .rbracket, r⟩])) =
            words us ++ .punct .lbracket :: (words is ++ [.punct .rbracket]) := by
          simp
        have hindexed : Renders .suffixed (.index base i)
            (words (us ++ ⟨.punct .lbracket, o⟩ :: (is ++ [⟨.punct .rbracket, r⟩]))) (max d c) := by
          rw [hwords]
          exact .index hbase hrender
        obtain ⟨ts, d', hread, hresult⟩ := ih hlong hindexed (Nat.max_le.2 ⟨hd, hc⟩)
          (by simp [hfits, hfitsi]) (by
            intro ⟨pre, hpre⟩
            have hlast := congrArg List.getLast? (hpre.trans hwords)
            simp [List.getLast?_cons] at hlast) hloop
        refine ⟨_, d', (hreado.cons (hreadi.trans hreadr)).trans hread, ?_⟩
        rwa [← List.append_assoc]
      · rcases eat_branch hother with ⟨o, s₁, hreado, hmember⟩ | ⟨hdot, hpure⟩
        · obtain ⟨e₁, s₂, he₁, hloop⟩ := bind_ok.1 hmember
          obtain ⟨ms, c, hreadm, hrender, hc, hfitsm, hcallm⟩ := spells_member hinner hbase hd o he₁
          have hlong : s₂.tokens.length ≤ bound.length := by
            have h₁ := hreado.length_eq
            have h₂ := hreadm.length_eq
            simp only [List.length_cons, List.length_nil] at h₁ hbound
            omega
          obtain ⟨ts, d', hread, hresult⟩ := ih hlong hrender hc (by simp [hfits, hfitsm]) hcallm hloop
          refine ⟨_, d', (hreado.cons hreadm).trans hread, ?_⟩
          rwa [← List.append_assoc]
        · cases hpure
          refine ⟨[], d, .refl _, ?_⟩
          rw [List.append_nil]
          exact ⟨hbase, hd, hfits, hbracket, hdot, hcall⟩

section

variable {unary : Parser Expr}
  (hunary : ∀ s e s', unary s = .ok e s' → ∃ ts d, s.Reads ts s' ∧ Renders .operand e (words ts) d ∧
    d < room ∧ Fits (words ts) ∧ Closes (words ts) s'.next)
include hunary

theorem spells_sign (op : UnOp) {l : Location} {s₁ : State} (hread : s.Reads [⟨.punct (signOf op), l⟩] s₁)
    (h : (unary >>= fun e => pure (.unary op e) : Parser Expr) s₁ = .ok e s') :
    ∃ ts d, s.Reads ts s' ∧ Renders .operand e (words ts) d ∧ d ≤ room ∧ Fits (words ts) ∧
      Closes (words ts) s'.next ∧ Off [] s'.next := by
  obtain ⟨arg, s₂, harg, hpure⟩ := bind_ok.1 h
  obtain ⟨ts, d, hreads, hrender, hd, hfits, hcloses⟩ := hunary s₁ arg s₂ harg
  cases hpure
  have hop : Lexeme.punct (signOf op) ∉ [.punct .dot, .ident "length"] := by cases op <;> decide
  exact ⟨_, d + 1, hread.cons hreads, .sign op hrender, hd, by simp [hfits],
    (hcloses.after hop : Closes ([] ++ _) _), List.forall_mem_nil _⟩

theorem spells_operandWith (hinner : Spells inner .whole precedence room) :
    Spells (operandWith unary inner) .operand [] room := by
  intro s e s' h
  rcases eat_branch h with ⟨l, s₁, hread, hrest⟩ | ⟨_, hrest⟩
  · exact spells_sign hunary .not hread hrest
  rcases eat_branch hrest with ⟨l, s₁, hread, hrest⟩ | ⟨_, hrest⟩
  · exact spells_sign hunary .neg hread hrest
  obtain ⟨base, s₁, hbase, hloop⟩ := bind_ok.1 hrest
  obtain ⟨us, d, hread, hrender, hd, hfits⟩ := spells_primary hinner hbase
  obtain ⟨ts, d', hreads, hsuffixed, hd', hfits', hcloses⟩ := spells_suffixes hinner (Nat.le_refl _)
    (.primary hrender) hd hfits (fun hlength => absurd hlength hrender.not_length) hloop
  exact ⟨us ++ ts, d', hread.trans hreads, .suffixed hsuffixed, hd', hfits', hcloses, List.forall_mem_nil _⟩

end

theorem spells_tooDeep (r : Rank) (ls : List (List BinOp)) (room : Nat) : Spells tooDeep r ls room := by
  intro s e s' h
  cases h

theorem spells_operand (room : Nat) : Spells (operand room) .operand [] room := by
  induction room with
  | zero => exact spells_operandWith (fun s e s' h => nomatch h) (spells_tooDeep _ _ _)
  | succ room ih =>
      refine spells_operandWith (fun s e s' h => ?_) (spells_whole ih)
      obtain ⟨ts, d, hread, hrender, hd, hfits, hcloses, _⟩ := ih s e s' h
      exact ⟨ts, d, hread, hrender, Nat.lt_succ_of_le hd, hfits, hcloses⟩

theorem spells_expr (room : Nat) : Spells (expr room) .whole precedence room := by
  cases room with
  | zero => exact spells_tooDeep _ _ _
  | succ room => exact spells_whole (spells_operand room)

end Backflow.Parser
