import Backflow.Proofs.ControlFlow
import Backflow.Proofs.StatementSound

namespace Backflow

namespace Parser

open Grammar

variable {s s' : State}

theorem type_ok {ty : Ty} (h : type s = .ok ty s') : ∃ ts, s.Reads ts s' ∧ words ts = ty.lexemes := by
  rcases eat_branch h with ⟨l, s₁, hread, hrest⟩ | ⟨_, hrest⟩
  · rcases eat_branch hrest with ⟨l₁, s₂, hopen, hrest⟩ | ⟨_, hpure⟩
    · obtain ⟨l₂, s₃, hclose, hpure⟩ := expectPunct_bind hrest
      cases hpure
      exact ⟨_, hread.cons (hopen.cons hclose), rfl⟩
    · cases hpure
      exact ⟨_, hread, rfl⟩
  rcases eat_branch hrest with ⟨l, s₁, hread, hpure⟩ | ⟨_, hrest⟩
  · cases hpure
    exact ⟨_, hread, rfl⟩
  rcases eat_branch hrest with ⟨l, s₁, hread, hpure⟩ | ⟨_, hrest⟩
  · cases hpure
    exact ⟨_, hread, rfl⟩
  rcases eat_branch hrest with ⟨l, s₁, hread, hrest⟩ | ⟨_, hnamed⟩
  · obtain ⟨l₁, s₂, hopen, hrest⟩ := expectPunct_bind hrest
    obtain ⟨l₂, s₃, hclose, hpure⟩ := expectPunct_bind hrest
    cases hpure
    exact ⟨_, hread.cons (hopen.cons hclose), rfl⟩
  unfold type.named at hnamed
  split at hnamed
  case h_1 name l rest htokens =>
    cases hnamed
    exact ⟨[⟨.ident name, l⟩], htokens, rfl⟩
  case h_2 => cases hnamed

theorem type_starts {m ts : List Token} {ty : Ty} (hread : s.Reads (m ++ ts) s') (hts : words ts = ty.lexemes) :
    Starts (m ++ ts) s.here := by
  refine hread.starts fun hnil => ty.lexemes_ne_nil ?_
  rw [← hts, (List.append_eq_nil_iff.1 hnil).2, words_nil]

theorem fits_type {ts : List Token} {ty : Ty} (hts : words ts = ty.lexemes) : Fits (words ts) := by
  cases ty <;> simp [hts, Ty.lexemes]

theorem fits_declares {v : VarDecl} {ts : List Token} (h : Declares v ts) : Fits (words ts) := by
  cases h with
  | mk hts _ => simp [fits_type hts]

theorem decl_ok {v : VarDecl} (h : decl s = .ok v s') : ∃ ts, s.Reads ts s' ∧ Declares v ts := by
  obtain ⟨loc, s₁, hhere, hrest⟩ := bind_ok.1 h
  cases hhere
  obtain ⟨ty, s₂, hty, hrest⟩ := bind_ok.1 hrest
  obtain ⟨ts, hread, hts⟩ := type_ok hty
  obtain ⟨name, l, s₃, hname, hpure⟩ := identifier_bind hrest
  cases hpure
  exact ⟨_, hread.trans hname, .mk hts (type_starts (m := []) hread hts)⟩

theorem seesLocal_ok {b : Bool} (h : seesLocal s = .ok b s') :
    s' = s ∧ (b = true → s.next ≠ some (.keyword .kwVoid)) := by
  unfold seesLocal at h
  split at h
  case h_1 k l rest htokens =>
    cases h
    refine ⟨rfl, fun hk => ?_⟩
    rw [State.next, htokens]
    rintro ⟨rfl⟩
    simp at hk
  case h_2 name l name' l' rest htokens =>
    cases h
    refine ⟨rfl, fun _ => ?_⟩
    rw [State.next, htokens]
    simp
  case h_3 =>
    cases h
    simp

theorem bodyItem_ok {x : VarDecl ⊕ Stmt} (h : bodyItem s = .ok x s') :
    ∃ ts d k, s.Reads ts s' ∧ ts ≠ [] ∧
      Sound maxDepth Item (Sum.elim (fun _ => True) Stmt.NearestElse) x ts d k := by
  obtain ⟨b, s₁, hsees, hrest⟩ := bind_ok.1 h
  obtain ⟨rfl, hvoid⟩ := seesLocal_ok hsees
  clear h
  split at hrest
  case isTrue hb =>
    obtain ⟨v, s₂, hv, hrest⟩ := bind_ok.1 hrest
    obtain ⟨ts, hread, hdecl⟩ := decl_ok hv
    obtain ⟨l, s₃, hsemi, hpure⟩ := expectPunct_bind hrest
    cases hpure
    have hty : v.type ≠ .void := by
      intro hty
      apply hvoid hb
      cases hdecl with
      | @mk ts l hts _ =>
          rw [State.next, hread, words_append, words_append, hts, hty]
          rfl
    exact ⟨_, 0, 0, hread.trans hsemi, by simp, .declares hdecl hty, Nat.zero_le _, rfl,
      by simp [fits_declares hdecl], trivial⟩
  case isFalse =>
    obtain ⟨x, s₂, hx, hpure⟩ := bind_ok.1 hrest
    obtain ⟨ts, d, k, hread, hsound, _⟩ := states_stmt maxDepth s₁ x s₂ hx
    cases hpure
    exact ⟨ts, d, k, hread, hsound.derives.ne_nil, .states hsound.derives, hsound.depth_le, hsound.plain,
      hsound.fits, hsound.nearest⟩

theorem modifiers_ok {b b' : Bool} {bound : List Token} (h : modifiers b bound s = .ok b' s') :
    ∃ ms, s.Reads ms s' ∧ Modifiers ms ∧ (b' = true ↔ b = true ∨ .keyword .kwStatic ∈ words ms) := by
  induction bound generalizing s b with
  | nil =>
      cases h
      exact ⟨[], .refl _, List.forall_mem_nil _, by simp⟩
  | cons t bound ih =>
      rcases eat_branch h with ⟨l, s₁, hread, hrest⟩ | ⟨_, hrest⟩
      · obtain ⟨ms, hreads, hms, hb⟩ := ih hrest
        exact ⟨_, hread.cons hreads, List.forall_mem_cons.2 ⟨Or.inr rfl, hms⟩, by simp [hb]⟩
      rcases eat_branch hrest with ⟨l, s₁, hread, hrest⟩ | ⟨_, hpure⟩
      · obtain ⟨ms, hreads, hms, hb⟩ := ih hrest
        exact ⟨_, hread.cons hreads, List.forall_mem_cons.2 ⟨Or.inl rfl, hms⟩, by simp [hb]⟩
      · cases hpure
        exact ⟨[], .refl _, List.forall_mem_nil _, by simp⟩

theorem fits_modifiers {ms : List Token} (h : Modifiers ms) : Fits (words ms) := by
  intro digits hmem
  obtain ⟨t, ht, hlex⟩ := List.mem_map.1 hmem
  rcases h t ht with hk | hk <;> rw [hlex] at hk <;> cases hk

theorem parameters_ok {vs : List VarDecl} (h : parenthesized decl s = .ok vs s') :
    ∃ ps l, s.Reads (ps ++ [⟨.punct .rparen, l⟩]) s' ∧ Parameters vs ps ∧ Fits (words ps) := by
  have hdecl : ∀ s v s', decl s = .ok v s' → ∃ ts, s.Reads ts s' ∧ ts ≠ [] ∧ Declares v ts := by
    intro s v s' h
    obtain ⟨ts, hread, hv⟩ := decl_ok h
    exact ⟨ts, hread, by cases hv; simp, hv⟩
  obtain ⟨ps, l, hread, hlist⟩ := parenthesized_ok hdecl h
  refine ⟨ps, l, hread, ?_⟩
  rcases hlist with ⟨rfl, rfl⟩ | hlist
  · exact ⟨.none, fits_nil⟩
  · exact ⟨.some hlist, Listed.fits (fun _ _ => fits_declares) hlist⟩

theorem classMember_ok {x : VarDecl ⊕ Method} (h : classMember s = .ok x s') :
    ∃ ts d k, s.Reads ts s' ∧ ts ≠ [] ∧
      Sound maxDepth Member (Sum.elim (fun _ => True) fun m => ∀ s ∈ m.body, s.NearestElse) x ts d k := by
  obtain ⟨loc, s₁, hhere, hrest⟩ := bind_ok.1 h
  cases hhere
  obtain ⟨isStatic, s₂, hmods, hrest⟩ := bind_ok.1 hrest
  obtain ⟨ms, hreadm, hms, hstatic⟩ := modifiers_ok hmods
  obtain ⟨ty, s₃, hty, hrest⟩ := bind_ok.1 hrest
  obtain ⟨ts, hreadt, hts⟩ := type_ok hty
  obtain ⟨name, l₁, s₄, hname, hrest⟩ := identifier_bind hrest
  have hstarts := type_starts (hreadm.trans hreadt) hts
  have hmfits := fits_modifiers hms
  have htfits := fits_type hts
  rcases eat_branch hrest with ⟨l₂, s₅, hsemi, hpure⟩ | ⟨_, hrest⟩
  · cases hpure
    exact ⟨_, _, _, hreadm.trans (hreadt.trans (hname.cons hsemi)), by simp, .field hms hts hstarts, Nat.zero_le _,
      rfl, by simp [hmfits, htfits], trivial⟩
  obtain ⟨l₂, s₅, hopen, hrest⟩ := expectPunct_bind hrest
  obtain ⟨params, s₆, hparams, hrest⟩ := bind_ok.1 hrest
  obtain ⟨ps, l₃, hreadp, hps, hpfits⟩ := parameters_ok hparams
  obtain ⟨l₄, s₇, hbrace, hrest⟩ := expectPunct_bind hrest
  obtain ⟨xs, s₈, hxs, hpure⟩ := bind_ok.1 hrest
  cases hpure
  obtain ⟨items, l₅, rfl, hreads, hall⟩ := untilBrace_ok (fun s x s' => bodyItem_ok) (Nat.le_refl _) hxs
  obtain ⟨hdeep, htotal, hfits⟩ := sound_pieces hall
  have hread := hreadp.trans (hbrace.cons hreads)
  rw [List.append_assoc] at hread
  refine ⟨_, _, _, hreadm.trans (hreadt.trans (hname.cons (hopen.cons hread))), by simp,
    .method items hms (by simpa using hstatic) hts hstarts hps (fun p hp => (hall p hp).derives) rfl rfl, hdeep,
    htotal, by simp [hmfits, htfits, hpfits, hfits], ?_⟩
  exact Piece.forall_getRight?.2 fun p hp => (hall p hp).nearest

theorem parent?_ok {o : Option String} (h : classDecl.parent? s = .ok o s') : ∃ ps, s.Reads ps s' ∧ Parent o ps := by
  rcases eat_branch h with ⟨l₁, s₁, hread, hrest⟩ | ⟨_, hpure⟩
  · obtain ⟨name, l₂, s₂, hname, hpure⟩ := identifier_bind hrest
    cases hpure
    exact ⟨_, hread.cons hname, .some⟩
  · cases hpure
    exact ⟨[], .refl _, .none⟩

theorem classDecl_ok {c : Class} (h : classDecl s = .ok c s') :
    ∃ ts d k, s.Reads ts s' ∧ ts ≠ [] ∧
      Sound maxDepth ClassText (fun c => ∀ m ∈ c.methods, ∀ s ∈ m.body, s.NearestElse) c ts d k := by
  obtain ⟨loc, s₁, hhere, hrest⟩ := bind_ok.1 h
  cases hhere
  obtain ⟨l, s₂, hclass, hrest⟩ := expectKeyword_bind hrest
  obtain rfl : s.here = l := hclass.here
  obtain ⟨name, l₁, s₃, hname, hrest⟩ := identifier_bind hrest
  obtain ⟨parent, s₄, hparent, hrest⟩ := bind_ok.1 hrest
  obtain ⟨ps, hreadp, hps⟩ := parent?_ok hparent
  obtain ⟨l₂, s₅, hopen, hrest⟩ := expectPunct_bind hrest
  obtain ⟨xs, s₆, hxs, hpure⟩ := bind_ok.1 hrest
  cases hpure
  obtain ⟨members, l₃, rfl, hreads, hall⟩ := untilBrace_ok (fun s x s' => classMember_ok) (Nat.le_refl _) hxs
  obtain ⟨hdeep, htotal, hfits⟩ := sound_pieces hall
  have hpfits : Fits (words ps) := by cases hps <;> simp
  refine ⟨_, _, _, hclass.cons (hname.cons (hreadp.trans (hopen.cons hreads))), by simp,
    .mk members hps (fun p hp => (hall p hp).derives) rfl rfl, hdeep, htotal, by simp [hpfits, hfits], ?_⟩
  exact Piece.forall_getRight?.2 fun p hp => (hall p hp).nearest

theorem classes_ok {cs : List Class} {bound : List Token} (hbound : s.tokens.length ≤ bound.length)
    (h : classes bound s = .ok cs s') :
    ∃ ps : List (Piece Class), ps.map (·.value) = cs ∧ s.tokens = Piece.spelled ps ∧ ∀ p ∈ ps,
      Sound maxDepth ClassText (fun c => ∀ m ∈ c.methods, ∀ s ∈ m.body, s.NearestElse)
        p.value p.tokens p.depth p.disguises := by
  induction bound generalizing s cs with
  | nil =>
      cases h
      exact ⟨[], rfl, List.length_eq_zero_iff.1 (Nat.le_zero.1 hbound), List.forall_mem_nil _⟩
  | cons t bound ih =>
      obtain ⟨b, s₁, hend, hrest⟩ := bind_ok.1 h
      cases hend
      split at hrest
      case isTrue hempty =>
        cases hrest
        exact ⟨[], rfl, List.isEmpty_iff.1 hempty, List.forall_mem_nil _⟩
      case isFalse =>
        obtain ⟨c, s₂, hc, hrest⟩ := bind_ok.1 hrest
        obtain ⟨ts, d, k, hread, hne, hsound⟩ := classDecl_ok hc
        obtain ⟨cs', s₃, hcs, hpure⟩ := bind_ok.1 hrest
        cases hpure
        have hlong : s₂.tokens.length ≤ bound.length := by
          have h₁ := hread.length_eq
          have h₂ := List.length_pos_iff.2 hne
          simp only [List.length_cons] at hbound
          omega
        obtain ⟨ps, rfl, htokens, hall⟩ := ih hlong hcs
        refine ⟨⟨c, ts, d, k⟩ :: ps, rfl, ?_, List.forall_mem_cons.2 ⟨hsound, hall⟩⟩
        rw [Piece.spelled, List.flatMap_cons, ← Piece.spelled, ← htokens]
        exact hread

end Parser

namespace Program

open Grammar

variable {s : TokenStream} {p : Program}

theorem parse_eq_ok {source : String} :
    parse source = .ok p ↔ ∃ s, Lexer.lex source = .ok s ∧ ofTokens s = .ok p := by
  unfold parse
  cases Lexer.lex source with
  | error e => simp [bind, Except.bind]
  | ok s => simp [bind, Except.bind]

theorem pieces_of_ofTokens (h : ofTokens s = .ok p) :
    ∃ ps : List (Piece Class), p = ⟨ps.map (·.value)⟩ ∧ s.tokens = Piece.spelled ps ∧ ∀ c ∈ ps,
      Parser.Sound maxDepth ClassText (fun c => ∀ m ∈ c.methods, ∀ s ∈ m.body, s.NearestElse)
        c.value c.tokens c.depth c.disguises := by
  unfold ofTokens at h
  split at h
  case h_1 q s' hq =>
    cases h
    obtain ⟨cs, s₁, hcs, hpure⟩ := bind_ok.1 hq
    cases hpure
    obtain ⟨ps, rfl, htokens, hall⟩ := Parser.classes_ok (Nat.le_refl _) hcs
    exact ⟨ps, rfl, htokens, hall⟩
  case h_2 => cases h

theorem derives_of_ofTokens (h : ofTokens s = .ok p) : ∃ d, Derives p s.tokens d 0 ∧ d ≤ maxDepth := by
  obtain ⟨ps, rfl, htokens, hall⟩ := pieces_of_ofTokens h
  obtain ⟨hdeep, htotal, _⟩ := Parser.sound_pieces hall
  rw [htokens]
  exact ⟨_, htotal ▸ .mk ps fun c hc => (hall c hc).derives, hdeep⟩

theorem fits_of_ofTokens (h : ofTokens s = .ok p) : Fits (words s.tokens) := by
  obtain ⟨ps, _, htokens, hall⟩ := pieces_of_ofTokens h
  rw [htokens]
  exact (Parser.sound_pieces hall).2.2

theorem nearestElse_of_ofTokens (h : ofTokens s = .ok p) : p.NearestElse := by
  obtain ⟨ps, rfl, _, hall⟩ := pieces_of_ofTokens h
  exact List.forall_mem_map.2 fun c hc => (hall c hc).nearest

/-- A program that was read is derived from all of its tokens, each of them in one place: the classes, members,
declarations and statements begin where their first token stands, the expressions are spelled by their words, and
each literal is the number it denotes. Each `else` belongs to the nearest `if` that can take it. -/
theorem ofTokens_sound (h : ofTokens s = .ok p) :
    (∃ d, Derives p s.tokens d 0 ∧ d ≤ maxDepth) ∧ Fits (words s.tokens) ∧ p.NearestElse :=
  ⟨derives_of_ofTokens h, fits_of_ofTokens h, nearestElse_of_ofTokens h⟩

def danglingText : String :=
  "class A \x7b static int f(int[] a, A b) \x7b A c; if (a[0] < 1) if (!b.g(2, -a.length)) " ++
    "a[1] = 2 * (3 + 4); else c = new A(); return 0; \x7d \x7d"

/-- The outer `if` of the text is left without the `else`. -/
theorem ofTokens_sound_dangling : ∃ s p, Lexer.lex danglingText = .ok s ∧ ofTokens s = .ok p ∧
    (∃ r ∈ p.routines, ∃ x ∈ r.method.body, x.isOpen = true) ∧
      (∃ d, Derives p s.tokens d 0 ∧ d ≤ maxDepth) ∧ Fits (words s.tokens) ∧ p.NearestElse := by
  have hrun : (Lexer.lex danglingText).toOption.any (fun s => (ofTokens s).toOption.any fun p =>
      p.routines.any fun r => r.method.body.any Stmt.isOpen) = true := by
    decide +kernel
  obtain ⟨s, hs, hparse⟩ := exists_ok_of_any hrun
  obtain ⟨p, hp, hany⟩ := exists_ok_of_any hparse
  obtain ⟨r, hr, hbody⟩ := List.any_eq_true.1 hany
  obtain ⟨x, hx, hopen⟩ := List.any_eq_true.1 hbody
  exact ⟨s, p, hs, hp, ⟨r, hr, x, hx, hopen⟩, ofTokens_sound hp⟩

end Program

end Backflow
