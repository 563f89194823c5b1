import Backflow.Proofs.ExprGrammar
import Backflow.Proofs.Reading

namespace Backflow

namespace Grammar

def beginsPrimary : Lexeme → Bool
  | .int _ | .ident _ | .keyword .kwTrue | .keyword .kwFalse | .keyword .kwThis | .keyword .kwNew
  | .punct .lparen => true
  | _ => false

def Rank.begins : Rank → Lexeme → Bool
  | .primary, w | .suffixed, w => beginsPrimary w
  | _, w => beginsPrimary w || w = .punct .bang || w = .punct .minus

theorem Renders.begins {r : Rank} {e : Expr} {ws : List Lexeme} {d : Nat} (h : Renders r e ws d) :
    ∃ w us, ws = w :: us ∧ r.begins w = true := by
  induction h with
  | int | var | yes | no | self | newArray | newObject | group => exact ⟨_, _, rfl, rfl⟩
  | primary _ ih | operand _ ih | tighter _ _ ih | whole _ ih => exact ih
  | index _ _ ih _ | length _ ih | call _ _ _ _ ih _ | binary _ _ _ ih _ =>
      obtain ⟨w, us, rfl, hw⟩ := ih
      exact ⟨w, _, rfl, hw⟩
  | suffixed _ ih =>
      obtain ⟨w, us, rfl, hw⟩ := ih
      refine ⟨w, us, rfl, ?_⟩
      have hw : beginsPrimary w = true := hw
      simp [Rank.begins, hw]
  | sign op _ _ => exact ⟨_, _, rfl, by cases op <;> rfl⟩

theorem closes_of_mark {p : Punct} (hp : p ∈ [.rbracket, .rparen, .comma, .semi]) (ws : List Lexeme) :
    Closes ws (some (.punct p)) ∧ Off precedence (some (.punct p)) := by
  simp only [List.mem_cons, List.not_mem_nil, or_false] at hp
  rcases hp with rfl | rfl | rfl | rfl
  all_goals exact ⟨⟨nofun, nofun, fun _ => nofun⟩, by unfold Off; decide⟩

theorem markOf_injective {op op' : BinOp} (h : markOf op = markOf op') : op = op' := by
  cases op <;> cases op' <;> first | rfl | cases h

def Apart (ls : List (List BinOp)) : Prop := ls.Pairwise fun ops ops' => ∀ op ∈ ops, op ∉ ops'

theorem apart_precedence : Apart precedence := by unfold Apart; decide

theorem off_of_apart {ops : List BinOp} {ls : List (List BinOp)} (h : Apart (ops :: ls)) {op : BinOp}
    (hop : op ∈ ops) : Off ls (some (.punct (markOf op))) := by
  intro ops' hops' op' hop' heq
  have hsame : op = op' := markOf_injective (by simpa using heq)
  exact List.rel_of_pairwise_cons h hops' op hop (hsame ▸ hop')

end Grammar

namespace Parser

open Grammar

variable {α β : Type} {g g' : Prop} {s s' s₁ : State}

/-- If `g` holds, the run `x` comes to the same as `y`; otherwise it ends because too much is nested. -/
def Leads (g : Prop) (x y : EStateM.Result SyntaxError State α) : Prop :=
  (g → x = y) ∧ (¬ g → ∃ loc s, x = .error (.tooDeep loc) s)

variable {x y z : EStateM.Result SyntaxError State α}

theorem Leads.trans (h : Leads g x y) (h' : Leads g' y z) : Leads (g ∧ g') x z := by
  refine ⟨fun hg => (h.1 hg.1).trans (h'.1 hg.2), fun hn => ?_⟩
  by_cases hg : g
  · rw [h.1 hg]
    exact h'.2 fun hg' => hn ⟨hg, hg'⟩
  · exact h.2 hg

theorem Leads.iff (h : Leads g x y) (hg : g ↔ g') : Leads g' x y :=
  ⟨fun hg' => h.1 (hg.2 hg'), fun hn => h.2 fun hg' => hn (hg.1 hg')⟩

theorem Leads.bind {p : Parser α} {q : α → Parser β} {a : α} {y : EStateM.Result SyntaxError State β}
    (h : Leads g (p s) (.ok a s₁)) (hq : q a s₁ = y) : Leads g ((p >>= q) s) y := by
  refine ⟨fun hg => (bind_of_ok (h.1 hg)).trans hq, fun hn => ?_⟩
  obtain ⟨loc, s', hs'⟩ := h.2 hn
  refine ⟨loc, s', ?_⟩
  change EStateM.bind p q s = _
  rw [EStateM.bind, hs']

theorem Leads.always (hg : g) (h : x = y) : Leads g x y := ⟨fun _ => h, fun hn => absurd hg hn⟩

def below : Nat → Parser Expr
  | 0 => tooDeep
  | room + 1 => operand room

theorem operand_eq (room : Nat) : operand room = operandWith (below room) (expr room) := by
  cases room <;> rfl

/-- What the parser for a rank does with words that spell `e` with `d` levels inside, where `room` levels are
allowed. The ranks that group to the left come to the loop that reads on. -/
def Meets (room : Nat) (e : Expr) (ws : List Lexeme) (d : Nat) : Rank → Prop
  | .primary => ∀ s s', s.Passes ws s' → Fits ws → Leads (d ≤ room) (primary (expr room) s) (.ok e s')
  | .suffixed => ∀ s s', s.Passes ws s' → Fits ws →
      ([.punct .dot, .ident "length"] <:+ ws → s'.next ≠ some (.punct .lparen)) →
      ∃ bound, s'.tokens.length ≤ bound.length ∧ Leads (d ≤ room)
        ((primary (expr room) >>= fun b => bounded (suffixes (expr room) b)) s) (suffixes (expr room) e bound s')
  | .operand => ∀ s s', s.Passes ws s' → Fits ws → Closes ws s'.next → Leads (d ≤ room) (operand room s) (.ok e s')
  | .levels [] => ∀ s s', s.Passes ws s' → Fits ws → Closes ws s'.next → Leads (d ≤ room) (operand room s) (.ok e s')
  | .levels (ops :: ls) => Apart (ops :: ls) → ∀ s s', s.Passes ws s' → Fits ws → Closes ws s'.next →
      Off ls s'.next → ∃ bound, s'.tokens.length ≤ bound.length ∧ Leads (d ≤ room)
        (binary (operand room) (ops :: ls) s) (chain ops (binary (operand room) ls) e bound s')
  | .whole => ∀ s s', s.Passes ws s' → Fits ws → Closes ws s'.next → Off precedence s'.next →
      Leads (d ≤ room) (expr room s) (.ok e s')

variable {room d c : Nat} {e i e₁ e₂ : Expr} {ws us : List Lexeme}

theorem operator?_none {ops : List BinOp} (h : ∀ op ∈ ops, s.next ≠ some (.punct (markOf op))) :
    operator? ops s = .ok none s := by
  unfold operator?
  split
  case h_1 p l rest htokens =>
    have hnone : ops.find? (·.punct = p) = none := by
      refine List.find?_eq_none.2 fun op hop heq => h op hop ?_
      rw [State.next, htokens, ← punct_eq_markOf]
      simpa using (of_decide_eq_true heq).symm
    rw [hnone]
  case h_2 => rfl

theorem operator?_pass {ops : List BinOp} {op : BinOp} (hop : op ∈ ops) (h : s.Passes [.punct (markOf op)] s₁) :
    operator? ops s = .ok (some op) s₁ := by
  rw [← punct_eq_markOf] at h
  obtain ⟨l, rfl⟩ := h.token
  have hfind : ops.find? (·.punct = op.punct) = some op := by
    cases hfind : ops.find? (·.punct = op.punct) with
    | none => simpa using List.find?_eq_none.1 hfind op hop
    | some op' =>
        have heq : markOf op' = markOf op := by simpa [punct_eq_markOf] using List.find?_some hfind
        rw [markOf_injective heq]
  simp [operator?, hfind]

theorem chain_stops {ops : List BinOp} {p : Parser Expr} (bound : List Token)
    (h : ∀ op ∈ ops, s.next ≠ some (.punct (markOf op))) : chain ops p e bound s = .ok e s := by
  cases bound with
  | nil => rfl
  | cons t bound => exact (bind_of_ok (operator?_none h)).trans rfl

theorem suffixes_stops {p : Parser Expr} (bound : List Token) (h : Closes ws s.next) :
    suffixes p e bound s = .ok e s := by
  cases bound with
  | nil => rfl
  | cons t bound => exact (eat_else h.bracket).trans (eat_else h.dot)

theorem Meets.complete {ls : List (List BinOp)} (h : Meets room e ws d (.levels ls)) (hapart : Apart ls)
    (hpass : s.Passes ws s') (hfits : Fits ws) (hcloses : Closes ws s'.next) (hoff : Off ls s'.next) :
    Leads (d ≤ room) (binary (operand room) ls s) (.ok e s') := by
  cases ls with
  | nil => exact h s s' hpass hfits hcloses
  | cons ops ls =>
      have hsplit := List.forall_mem_cons.1 hoff
      obtain ⟨bound, _, hleads⟩ := h hapart s s' hpass hfits hcloses hsplit.2
      rwa [chain_stops bound hsplit.1] at hleads

theorem meets_group (ih : Meets room e ws d .whole) :
    Meets room e (.punct .lparen :: (ws ++ [.punct .rparen])) d .primary := by
  intro s s' hpass hfits
  obtain ⟨s₁, hopen, hpass⟩ := State.passes_cons.1 hpass
  obtain ⟨s₂, hinside, hclose⟩ := State.passes_append.1 hpass
  obtain ⟨hcloses, hoff⟩ := closes_of_mark (p := .rparen) (by simp) ws
  rw [← hclose.next] at hcloses hoff
  have hrun : primary (expr room) s = (expr room >>= fun x => expectPunct .rparen >>= fun _ => pure x) s₁ := by
    obtain ⟨l, rfl⟩ := hopen.token
    rfl
  rw [hrun]
  exact (ih s₁ s₂ hinside (by simpa using hfits) hcloses hoff).bind (expectPunct_pass hclose)

theorem meets_newArray (ih : Meets room e ws d .whole) : Meets room (.newArray e)
    (.keyword .kwNew :: .keyword .kwInt :: .punct .lbracket :: (ws ++ [.punct .rbracket])) d .primary := by
  intro s s' hpass hfits
  obtain ⟨s₁, hnew, hpass⟩ := State.passes_cons.1 hpass
  obtain ⟨s₂, hint, hpass⟩ := State.passes_cons.1 hpass
  obtain ⟨s₃, hopen, hpass⟩ := State.passes_cons.1 hpass
  obtain ⟨s₄, hinside, hclose⟩ := State.passes_append.1 hpass
  obtain ⟨hcloses, hoff⟩ := closes_of_mark (p := .rbracket) (by simp) ws
  rw [← hclose.next] at hcloses hoff
  have hrun : primary (expr room) s =
      (expr room >>= fun x => expectPunct .rbracket >>= fun _ => pure (Expr.newArray x)) s₃ := by
    obtain ⟨l, rfl⟩ := hnew.token
    exact (eat_then hint).trans (expectPunct_pass hopen)
  rw [hrun]
  exact (ih s₃ s₄ hinside (by simpa using hfits) hcloses hoff).bind (expectPunct_pass hclose)

theorem meets_newObject (name : String) :
    Meets room (.newObject name) [.keyword .kwNew, .ident name, .punct .lparen, .punct .rparen] 0 .primary := by
  intro s s' hpass _
  obtain ⟨s₁, hnew, hpass⟩ := State.passes_cons.1 hpass
  obtain ⟨s₂, hname, hpass⟩ := State.passes_cons.1 hpass
  obtain ⟨s₃, hopen, hclose⟩ := State.passes_cons.1 hpass
  refine .always (Nat.zero_le _) ?_
  have hint : s₁.next ≠ some (.keyword .kwInt) := by
    rw [hname.next]
    exact nofun
  obtain ⟨l, rfl⟩ := hnew.token
  calc primary.creation (expr room) s₁
      = _ := eat_else hint
    _ = _ := identifier_pass hname
    _ = _ := expectPunct_pass hopen
    _ = .ok (.newObject name) s' := expectPunct_pass hclose

theorem Meets.suffix (h : Meets room e ws d .suffixed) {w : Lexeme} (hpass : s.Passes (ws ++ w :: us) s')
    (hfits : Fits ws) (hw : w ≠ .punct .lparen) :
    ∃ t bound s₁ s₂, s₁.Passes [w] s₂ ∧ s₂.Passes us s' ∧ s'.tokens.length ≤ bound.length ∧ Leads (d ≤ room)
      ((primary (expr room) >>= fun b => bounded (suffixes (expr room) b)) s)
      (suffixes (expr room) e (t :: bound) s₁) := by
  obtain ⟨s₁, hbase, hpass⟩ := State.passes_append.1 hpass
  obtain ⟨s₂, hmark, hrest⟩ := State.passes_cons.1 hpass
  have hnext : s₁.next ≠ some (.punct .lparen) := by
    rw [hmark.next]
    exact fun heq => hw (Option.some.inj heq)
  obtain ⟨bound, hbound, hleads⟩ := h s s₁ hbase hfits fun _ => hnext
  have h₁ := hmark.length_eq
  have h₂ := hrest.length_eq
  simp only [List.length_cons, List.length_nil] at h₁
  cases bound with
  | nil =>
      simp only [List.length_nil] at hbound
      omega
  | cons t bound =>
      refine ⟨t, bound, s₁, s₂, hmark, hrest, ?_, hleads⟩
      simp only [List.length_cons] at hbound
      omega

theorem meets_index (ih : Meets room e ws d .suffixed) (ihi : Meets room i us c .whole) :
    Meets room (.index e i) (ws ++ .punct .lbracket :: (us ++ [.punct .rbracket])) (max d c) .suffixed := by
  intro s s' hpass hfits _
  obtain ⟨hfits, hfitsi⟩ : Fits ws ∧ Fits us := by simpa using hfits
  obtain ⟨t, bound, s₁, s₂, hopen, hpass, hbound, hleads⟩ := ih.suffix hpass hfits nofun
  obtain ⟨s₃, hinside, hclose⟩ := State.passes_append.1 hpass
  obtain ⟨hcloses, hoff⟩ := closes_of_mark (p := .rbracket) (by simp) us
  rw [← hclose.next] at hcloses hoff
  have hloop : suffixes (expr room) e (t :: bound) s₁ = (expr room >>= fun x =>
      expectPunct .rbracket >>= fun _ => suffixes (expr room) (.index e x) bound) s₂ := eat_then hopen
  rw [hloop] at hleads
  exact ⟨bound, hbound, (hleads.trans
    ((ihi s₂ s₃ hinside hfitsi hcloses hoff).bind (expectPunct_pass hclose))).iff Nat.max_le.symm⟩

theorem suffixes_dot {t : Token} {bound : List Token} {p : Parser Expr} (h : s.Passes [.punct .dot] s₁) :
    suffixes p e (t :: bound) s = (member p e >>= fun x => suffixes p x bound) s₁ := by
  have hbracket : s.next ≠ some (.punct .lbracket) := by
    rw [h.next]
    exact nofun
  exact (eat_else hbracket).trans (eat_then h)

theorem sees_eq (x : Lexeme) (s : State) : sees x s = .ok (decide (s.next = some x)) s := by
  unfold sees State.next
  split
  case h_1 t rest htokens => simp [htokens]
  case h_2 htokens => simp [htokens]

theorem meets_length (ih : Meets room e ws d .suffixed) :
    Meets room (.length e) (ws ++ [.punct .dot, .ident "length"]) d .suffixed := by
  intro s s' hpass hfits hcall
  have hfits : Fits ws := by simpa using hfits
  obtain ⟨t, bound, s₁, s₂, hdot, hname, hbound, hleads⟩ := ih.suffix hpass hfits nofun
  have hmember : member (expr room) e s₂ = .ok (.length e) s' := by
    have hnext : s'.next ≠ some (.punct .lparen) := hcall (List.suffix_append _ _)
    refine (identifier_pass hname).trans ((bind_of_ok (sees_eq _ _)).trans ?_)
    simp [hnext]
    rfl
  refine ⟨bound, hbound, ?_⟩
  rwa [suffixes_dot hdot, bind_of_ok hmember] at hleads

theorem leads_listed {args : List Argument} (hne : args ≠ [])
    (hargs : ∀ a ∈ args, Meets room a.value a.words a.depth .whole) {bound : List Token}
    (hpass : s.Passes (commas (args.map (·.words)) ++ [.punct .rparen]) s')
    (hfits : Fits (commas (args.map (·.words)))) (hbound : s.tokens.length ≤ bound.length) :
    Leads (deepest args ≤ room) (listed (expr room) bound s) (.ok (args.map (·.value)) s') := by
  induction args generalizing s bound with
  | nil => exact absurd rfl hne
  | cons a rest ih =>
      obtain ⟨ha, hrest⟩ := List.forall_mem_cons.1 hargs
      have hlong := hpass.length_eq
      cases bound with
      | nil =>
          simp only [List.length_append, List.length_cons, List.length_nil] at hlong hbound
          omega
      | cons t bound =>
      cases rest with
      | nil =>
          obtain ⟨s₁, hinside, hclose⟩ := State.passes_append.1 hpass
          obtain ⟨hcloses, hoff⟩ := closes_of_mark (p := .rparen) (by simp) a.words
          rw [← hclose.next] at hcloses hoff
          exact ((ha s s₁ hinside hfits hcloses hoff).bind (eat_then hclose)).iff (by simp [deepest])
      | cons b rest =>
          have hcommas : commas ((a :: b :: rest).map (·.words)) =
              a.words ++ .punct .comma :: commas ((b :: rest).map (·.words)) := rfl
          rw [hcommas, List.append_assoc] at hpass
          obtain ⟨s₁, hinside, hpass⟩ := State.passes_append.1 hpass
          obtain ⟨s₂, hcomma, hpass⟩ := State.passes_cons.1 hpass
          obtain ⟨hcloses, hoff⟩ := closes_of_mark (p := .comma) (by simp) a.words
          rw [← hcomma.next] at hcloses hoff
          rw [hcommas] at hfits
          obtain ⟨hfitsa, hfits⟩ : Fits a.words ∧ Fits (commas ((b :: rest).map (·.words))) := by simpa using hfits
          have hclose : s₁.next ≠ some (.punct .rparen) := by
            rw [hcomma.next]
            decide
          have h₁ := hinside.length_eq
          have h₂ := hcomma.length_eq
          simp only [List.length_cons, List.length_nil] at h₂ hbound
          have hlong : s₂.tokens.length ≤ bound.length := by omega
          have hmore := (ih (List.cons_ne_nil _ _) hrest hpass hfits hlong).bind
            (q := fun xs => pure (a.value :: xs)) rfl
          exact (((ha s s₁ hinside hfitsa hcloses hoff).bind
            ((eat_else hclose).trans (expectPunct_pass hcomma))).trans hmore).iff Nat.max_le.symm

theorem leads_parenthesized {args : List Argument}
    (hrenders : ∀ a ∈ args, Renders .whole a.value a.words a.depth)
    (hargs : ∀ a ∈ args, Meets room a.value a.words a.depth .whole)
    (hpass : s.Passes (commas (args.map (·.words)) ++ [.punct .rparen]) s')
    (hfits : Fits (commas (args.map (·.words)))) :
    Leads (deepest args ≤ room) (parenthesized (expr room) s) (.ok (args.map (·.value)) s') := by
  cases args with
  | nil => exact .always (Nat.zero_le _) (eat_then hpass)
  | cons a rest =>
      have hfirst : s.next ≠ some (.punct .rparen) := by
        obtain ⟨w, us, hus, hw⟩ := (hrenders a List.mem_cons_self).begins
        obtain ⟨vs, hvs⟩ : ∃ vs, commas ((a :: rest).map (·.words)) = w :: vs := by
          cases rest with
          | nil => exact ⟨us, hus⟩
          | cons b rest => exact ⟨us ++ .punct .comma :: commas ((b :: rest).map (·.words)), congrArg (· ++ _) hus⟩
        rw [hvs, List.cons_append] at hpass
        rw [hpass.next]
        rintro ⟨rfl⟩
        cases hw
      have hrun : parenthesized (expr room) s = listed (expr room) s.tokens s := eat_else hfirst
      rw [hrun]
      exact leads_listed (List.cons_ne_nil _ _) hargs hpass hfits (Nat.le_refl _)

theorem meets_call (name : String) {args : List Argument} (ih : Meets room e ws d .suffixed)
    (hrenders : ∀ a ∈ args, Renders .whole a.value a.words a.depth)
    (hargs : ∀ a ∈ args, Meets room a.value a.words a.depth .whole) :
    Meets room (.call e name (args.map (·.value))) (ws ++ .punct .dot :: .ident name :: .punct .lparen ::
      (commas (args.map (·.words)) ++ [.punct .rparen])) (max d (deepest args)) .suffixed := by
  intro s s' hpass hfits _
  obtain ⟨hfits, hfitsa⟩ : Fits ws ∧ Fits (commas (args.map (·.words))) := by simpa using hfits
  obtain ⟨t, bound, s₁, s₂, hdot, hpass, hbound, hleads⟩ := ih.suffix hpass hfits nofun
  obtain ⟨s₃, hname, hpass⟩ := State.passes_cons.1 hpass
  obtain ⟨s₄, hopen, hpass⟩ := State.passes_cons.1 hpass
  have hmember : member (expr room) e s₂ =
      (parenthesized (expr room) >>= fun args => pure (.call e name args)) s₄ := by
    refine (identifier_pass hname).trans ((bind_of_ok (sees_eq _ _)).trans ?_)
    rw [hopen.next]
    simp only [decide_true, Bool.not_true, Bool.and_false, Bool.false_eq_true, if_false]
    exact expectPunct_pass hopen
  rw [suffixes_dot hdot] at hleads
  have hcall : Leads (deepest args ≤ room) (member (expr room) e s₂)
      (.ok (.call e name (args.map (·.value))) s') := by
    rw [hmember]
    exact (leads_parenthesized hrenders hargs hpass hfitsa).bind rfl
  exact ⟨bound, hbound, (hleads.trans (hcall.bind rfl)).iff Nat.max_le.symm⟩

theorem meets_suffixed (hrender : Renders .suffixed e ws d) (ih : Meets room e ws d .suffixed) :
    Meets room e ws d .operand := by
  intro s s' hpass hfits hcloses
  obtain ⟨bound, _, hleads⟩ := ih s s' hpass hfits hcloses.call
  rw [suffixes_stops bound hcloses] at hleads
  obtain ⟨w, us, rfl, hw⟩ := hrender.begins
  have hsign (op : UnOp) : s.next ≠ some (.punct (signOf op)) := by
    rw [hpass.next]
    rintro ⟨rfl⟩
    cases op <;> cases hw
  have hrun : operand room s =
      (primary (expr room) >>= fun b => bounded (suffixes (expr room) b)) s := by
    rw [operand_eq]
    exact (eat_else (hsign .not)).trans (eat_else (hsign .neg))
  rwa [hrun]

theorem meets_sign (op : UnOp) (ih : ∀ room, Meets room e ws d .operand) :
    Meets room (.unary op e) (.punct (signOf op) :: ws) (d + 1) .operand := by
  intro s s' hpass hfits hcloses
  obtain ⟨s₁, hop, hpass⟩ := State.passes_cons.1 hpass
  have hrun : operand room s = (below room >>= fun x => pure (.unary op x)) s₁ := by
    rw [operand_eq]
    cases op with
    | not => exact eat_then hop
    | neg =>
        have hnot : s.next ≠ some (.punct (signOf .not)) := by
          rw [hop.next]
          exact nofun
        exact (eat_else hnot).trans (eat_then hop)
  rw [hrun]
  cases room with
  | zero => exact ⟨fun h => absurd h (Nat.not_succ_le_zero d), fun _ => ⟨s₁.here, s₁, rfl⟩⟩
  | succ room =>
      have hcloses : Closes ws s'.next := hcloses.of_suffix (List.suffix_cons _ _)
      exact ((ih room s₁ s' hpass (by simpa using hfits) hcloses).bind rfl).iff Nat.succ_le_succ_iff.symm

theorem meets_tighter {ls : List (List BinOp)} (ops : List BinOp) (ih : Meets room e ws d (.levels ls)) :
    Meets room e ws d (.levels (ops :: ls)) := by
  intro hapart s s' hpass hfits hcloses hoff
  have hleads := ih.complete (List.pairwise_cons.1 hapart).2 hpass hfits hcloses hoff
  exact ⟨s'.tokens, Nat.le_refl _, hleads.bind rfl⟩

theorem meets_binary {ls : List (List BinOp)} {ops : List BinOp} {op : BinOp} (hop : op ∈ ops)
    (ih₁ : Meets room e₁ ws d (.levels (ops :: ls))) (ih₂ : Meets room e₂ us c (.levels ls)) :
    Meets room (.binary op e₁ e₂) (ws ++ .punct (markOf op) :: us) (max d c) (.levels (ops :: ls)) := by
  intro hapart s s' hpass hfits hcloses hoff
  obtain ⟨s₁, hleft, hpass⟩ := State.passes_append.1 hpass
  obtain ⟨s₂, hmark, hright⟩ := State.passes_cons.1 hpass
  obtain ⟨hfits₁, hfits₂⟩ : Fits ws ∧ Fits us := by simpa using hfits
  have hcloses₁ : Closes ws s₁.next := by
    rw [hmark.next]
    cases op <;> exact ⟨nofun, nofun, fun _ => nofun⟩
  have hoff₁ : Off ls s₁.next := hmark.next ▸ off_of_apart hapart hop
  obtain ⟨bound, hbound, hleads⟩ := ih₁ hapart s s₁ hleft hfits₁ hcloses₁ hoff₁
  have h₁ := hmark.length_eq
  have h₂ := hright.length_eq
  simp only [List.length_cons, List.length_nil] at h₁
  cases bound with
  | nil =>
      simp only [List.length_nil] at hbound
      omega
  | cons t bound =>
      have hcloses₂ : Closes us s'.next := hcloses.of_suffix ⟨ws ++ [.punct (markOf op)], by simp⟩
      have hmore := ih₂.complete (List.pairwise_cons.1 hapart).2 hright hfits₂ hcloses₂ hoff
      have hloop : chain ops (binary (operand room) ls) e₁ (t :: bound) s₁ = (binary (operand room) ls >>= fun x =>
          chain ops (binary (operand room) ls) (.binary op e₁ x) bound) s₂ := bind_of_ok (operator?_pass hop hmark)
      rw [hloop] at hleads
      refine ⟨bound, ?_, (hleads.trans (hmore.bind rfl)).iff Nat.max_le.symm⟩
      simp only [List.length_cons] at hbound
      omega

theorem meets_whole (ih : ∀ room, Meets room e ws d (.levels precedence)) : Meets room e ws (d + 1) .whole := by
  intro s s' hpass hfits hcloses hoff
  cases room with
  | zero => exact ⟨fun h => absurd h (Nat.not_succ_le_zero d), fun _ => ⟨s.here, s, rfl⟩⟩
  | succ room =>
      rw [expr, levels_eq_precedence]
      exact ((ih room).complete apart_precedence hpass hfits hcloses hoff).iff Nat.succ_le_succ_iff.symm

/-- The parser reads each expression that the grammar has, if it has room for it. -/
theorem meets {r : Rank} (h : Renders r e ws d) (room : Nat) : Meets room e ws d r := by
  induction h generalizing room with
  | int hn =>
      intro s s' hpass hfits
      obtain ⟨l, rfl⟩ := hpass.token
      obtain ⟨⟨n, hliteral⟩, _⟩ := fits_int.1 hfits
      refine .always (Nat.zero_le _) ?_
      simp only [Parser.primary, integer?_eq_some_iff.2 hliteral, hn.unique hliteral.1]
  | var | yes | no | self =>
      intro s s' hpass _
      obtain ⟨l, rfl⟩ := hpass.token
      exact .always (Nat.zero_le _) rfl
  | newArray _ ih => exact meets_newArray (ih room)
  | newObject name => exact meets_newObject name
  | group _ ih => exact meets_group (ih room)
  | primary _ ih =>
      intro s s' hpass hfits _
      exact ⟨s'.tokens, Nat.le_refl _, (ih room s s' hpass hfits).bind rfl⟩
  | index _ _ ih ihi => exact meets_index (ih room) (ihi room)
  | length _ ih => exact meets_length (ih room)
  | call name args _ hrenders ih ihargs => exact meets_call name (ih room) hrenders fun a ha => ihargs a ha room
  | suffixed hrender ih => exact meets_suffixed hrender (ih room)
  | sign op _ ih => exact meets_sign op ih
  | operand _ ih => exact ih room
  | tighter ops _ ih => exact meets_tighter ops (ih room)
  | binary hop _ _ ih₁ ih₂ => exact meets_binary hop (ih₁ room) (ih₂ room)
  | whole _ ih => exact meets_whole ih

end Parser

end Backflow
