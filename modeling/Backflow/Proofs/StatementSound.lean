import Backflow.Proofs.ExprSound
import Backflow.Proofs.ProgramGrammar

namespace Backflow.Parser

open Grammar

variable {α : Type} {s s' s₁ : State} {ts : List Token} {room : Nat}

theorem State.Reads.here {w : Lexeme} {l : Location} (h : s.Reads (⟨w, l⟩ :: ts) s') : s.here = l := by
  rw [State.here, h]
  rfl

theorem State.Reads.starts (h : s.Reads ts s') (hne : ts ≠ []) : Starts ts s.here := by
  obtain ⟨t, rest, rfl⟩ := List.exists_cons_of_ne_nil hne
  rw [h.here]
  rfl

theorem untilBrace_ok {item : Parser α} {G : α → List Token → Nat → Nat → Prop}
    (hitem : ∀ s a s', item s = .ok a s' → ∃ ts d k, s.Reads ts s' ∧ ts ≠ [] ∧ G a ts d k) {bound : List Token}
    {xs : List α} (hbound : s.tokens.length ≤ bound.length) (h : untilBrace item bound s = .ok xs s') :
    ∃ (ps : List (Piece α)) (l : Location), ps.map (·.value) = xs ∧
      s.Reads (Piece.spelled ps ++ [⟨.punct .rbrace, l⟩]) s' ∧
        ∀ p ∈ ps, G p.value p.tokens p.depth p.disguises := by
  induction bound generalizing s xs with
  | nil =>
      obtain ⟨x, s₁, hx, _⟩ := bind_ok.1 h
      obtain ⟨ts, _, _, hread, hne, _⟩ := hitem s x s₁ hx
      rw [State.Reads, List.length_eq_zero_iff.1 (Nat.le_zero.1 hbound)] at hread
      exact absurd (List.append_eq_nil_iff.1 hread.symm).1 hne
  | cons b bound ih =>
      rcases eat_branch h with ⟨l, s₁, hread, hpure⟩ | ⟨_, hmore⟩
      · cases hpure
        exact ⟨[], l, rfl, hread, List.forall_mem_nil _⟩
      · obtain ⟨x, s₁, hx, hrest⟩ := bind_ok.1 hmore
        obtain ⟨ts, d, k, hread, hne, hG⟩ := hitem s x s₁ hx
        obtain ⟨xs', s₂, hxs, hpure⟩ := bind_ok.1 hrest
        cases hpure
        have hlong : s₁.tokens.length ≤ bound.length := by
          have h₁ := hread.length_eq
          have h₂ := List.length_pos_iff.2 hne
          simp only [List.length_cons] at hbound
          omega
        obtain ⟨ps, l, rfl, hreads, hall⟩ := ih hlong hxs
        refine ⟨⟨x, ts, d, k⟩ :: ps, l, rfl, ?_, List.forall_mem_cons.2 ⟨hG, hall⟩⟩
        rw [Piece.spelled, List.flatMap_cons, List.append_assoc]
        exact hread.trans hreads

theorem eatAll_branch {xs : List Lexeme} {p q : Parser α} {a : α}
    (h : (eatAll xs >>= fun b => if b = true then p else q) s = .ok a s') :
    (∃ ts s₁, words ts = xs ∧ s.Reads ts s₁ ∧ p s₁ = .ok a s') ∨ (¬ xs <+: words s.tokens ∧ q s = .ok a s') := by
  obtain ⟨b, s₁, heat, hrest⟩ := bind_ok.1 h
  unfold eatAll at heat
  split at heat
  case isTrue hx =>
    cases heat
    exact Or.inl ⟨s.tokens.take xs.length, { s with tokens := s.tokens.drop xs.length }, hx,
      (List.take_append_drop _ _).symm, by simpa using hrest⟩
  case isFalse hx =>
    cases heat
    refine Or.inr ⟨fun hpre => hx ?_, by simpa using hrest⟩
    rw [List.map_take]
    exact (List.prefix_iff_eq_take.1 hpre).symm

theorem target?_ok {o : Option (String × Punct)} (h : target? s = .ok o s') :
    (∃ name p l₁ l₂, o = some (name, p) ∧ (p = .assign ∨ p = .lbracket) ∧
      s.Reads [⟨.ident name, l₁⟩, ⟨.punct p, l₂⟩] s') ∨
        (o = none ∧ s' = s ∧ beginsStore (words s.tokens) = false) := by
  unfold target? at h
  split at h
  case h_1 name l₁ p l₂ rest htokens =>
    split at h
    case isTrue hp =>
      cases h
      exact Or.inl ⟨name, p, l₁, l₂, rfl, by simpa using hp, htokens⟩
    case isFalse hp =>
      cases h
      refine Or.inr ⟨rfl, rfl, ?_⟩
      rw [htokens]
      cases p <;> first | rfl | simp at hp
  case h_2 hother =>
    cases h
    refine Or.inr ⟨rfl, rfl, ?_⟩
    rw [← Bool.not_eq_true]
    intro hbegins
    unfold beginsStore at hbegins
    split at hbegins
    case h_1 name rest hwords =>
      obtain ⟨l₁, us, htokens, hus⟩ := words_eq_cons hwords
      obtain ⟨l₂, vs, rfl, _⟩ := words_eq_cons hus
      exact hother name l₁ .lbracket l₂ vs htokens
    case h_2 => cases hbegins

theorem disguised_append {ws us : List Lexeme} (h : disguised ws = true) : disguised (ws ++ us) = true := by
  rw [disguised, Bool.or_eq_true] at h ⊢
  rcases h with h | h
  · left
    unfold beginsStore at h
    split at h
    · rfl
    · cases h
  · right
    rw [List.isPrefixOf_iff_prefix] at h ⊢
    exact h.trans (List.prefix_append _ _)

variable {e : Parser Expr} (he : Spells e .whole precedence room)
include he

theorem condition_ok {cond : Expr} (h : condition e s = .ok cond s') :
    ∃ ts d, s.Reads ts s' ∧ Condition cond ts d ∧ d ≤ room ∧ Fits (words ts) := by
  obtain ⟨l₁, s₁, hopen, hrest⟩ := expectPunct_bind h
  obtain ⟨x, s₂, hx, hrest⟩ := bind_ok.1 hrest
  obtain ⟨ts, d, hread, hrender, hd, hfits, _⟩ := he s₁ x s₂ hx
  obtain ⟨l₂, s₃, hclose, hpure⟩ := expectPunct_bind hrest
  cases hpure
  exact ⟨_, d, hopen.cons (hread.trans hclose), .mk hrender, hd, by simp [hfits]⟩

theorem ended_bind {q : Expr → Parser α} {a : α}
    (h : (e >>= fun x => expectPunct .semi >>= fun _ => q x) s = .ok a s') :
    ∃ x s₁ ts d, s.Reads ts s₁ ∧ Ended x ts d ∧ d ≤ room ∧ Fits (words ts) ∧ q x s₁ = .ok a s' := by
  obtain ⟨x, s₁, hx, hrest⟩ := bind_ok.1 h
  obtain ⟨ts, d, hread, hrender, hd, hfits, _⟩ := he s x s₁ hx
  obtain ⟨l, s₂, hsemi, hrest⟩ := expectPunct_bind hrest
  exact ⟨x, s₂, _, d, hread.trans hsemi, .mk hrender, hd, by simp [hfits], hrest⟩

theorem printed_ok {x : Expr} (h : printed e s = .ok x s') :
    ∃ ts d l₁ l₂ l₃, s.Reads (⟨.punct .dot, l₁⟩ :: ⟨.ident "println", l₂⟩ :: (ts ++ [⟨.punct .semi, l₃⟩])) s' ∧
      Condition x ts d ∧ d ≤ room ∧ Fits (words ts) := by
  obtain ⟨l₁, s₁, hdot, hrest⟩ := expectPunct_bind h
  obtain ⟨name, l₂, s₂, hname, hrest⟩ := identifier_bind hrest
  have hrest : name = "println" ∧ (condition e >>= fun x => expectPunct .semi >>= fun _ => pure x) s₂ = .ok x s' := by
    by_cases hn : name = "println"
    · simpa [hn] using hrest
    · simp only [hn, if_false] at hrest
      obtain ⟨_, _, hfail, _⟩ := bind_ok.1 hrest
      cases hfail
  obtain ⟨rfl, hrest⟩ := hrest
  obtain ⟨y, s₃, hy, hrest⟩ := bind_ok.1 hrest
  obtain ⟨ts, d, hread, hcond, hd, hfits⟩ := condition_ok he hy
  obtain ⟨l₃, s₄, hsemi, hpure⟩ := expectPunct_bind hrest
  cases hpure
  exact ⟨ts, d, l₁, l₂, l₃, hdot.cons (hname.cons (hread.trans hsemi)), hcond, hd, hfits⟩

omit he

/-- The tokens spell `a` within `room` levels of nesting, with no call in disguise, and each `else` is where it
belongs. -/
structure Sound (room : Nat) (G : α → List Token → Nat → Nat → Prop) (N : α → Prop) (a : α) (ts : List Token)
    (d k : Nat) : Prop where
  derives : G a ts d k
  depth_le : d ≤ room
  plain : k = 0
  fits : Fits (words ts)
  nearest : N a

theorem sound_pieces {G : α → List Token → Nat → Nat → Prop} {N : α → Prop} {ps : List (Piece α)}
    (h : ∀ p ∈ ps, Sound room G N p.value p.tokens p.depth p.disguises) :
    Piece.deepest ps ≤ room ∧ Piece.total ps = 0 ∧ Fits (words (Piece.spelled ps)) := by
  refine ⟨Piece.deepest_le.2 fun p hp => (h p hp).depth_le, Piece.total_eq_zero.2 fun p hp => (h p hp).plain,
    Piece.fits_spelled.2 fun p hp => (h p hp).fits⟩

/-- What `p` returns is spelled by the tokens that `p` reads, and it has taken an `else` that comes next. -/
def States (p : Parser Stmt) (room : Nat) : Prop :=
  ∀ s x s', p s = .ok x s' → ∃ ts d k, s.Reads ts s' ∧ Sound room Statement Stmt.NearestElse x ts d k ∧
    (x.isOpen = true → s'.next ≠ some (.keyword .kwElse))

section

variable {p : Parser Stmt} (hp : States p room) {t : Tag} {x : Stmt}
include hp

theorem block_states {ss : List Stmt} (hread : s.Reads [⟨.punct .lbrace, t.loc⟩] s₁)
    (h : block p s₁ = .ok ss s') :
    ∃ ts d k, s.Reads ts s' ∧ Sound (room + 1) Statement Stmt.NearestElse (.block t ss) ts d k := by
  have hitem : ∀ s a s', p s = .ok a s' → ∃ ts d k, s.Reads ts s' ∧ ts ≠ [] ∧
      Sound room Statement Stmt.NearestElse a ts d k := by
    intro s a s' h
    obtain ⟨ts, d, k, hread, hsound, _⟩ := hp s a s' h
    exact ⟨ts, d, k, hread, hsound.derives.ne_nil, hsound⟩
  obtain ⟨items, l, rfl, hreads, hall⟩ := untilBrace_ok hitem (Nat.le_refl _) h
  obtain ⟨hdeep, htotal, hfits⟩ := sound_pieces hall
  refine ⟨_, _, _, hread.cons hreads, .block items fun p hp => (hall p hp).derives, Nat.succ_le_succ hdeep, htotal,
    by simp [hfits], ?_⟩
  rw [Stmt.nearestElse_block, List.forall_mem_map]
  exact fun p hp => (hall p hp).nearest

include he

theorem if_states (hread : s.Reads [⟨.keyword .kwIf, t.loc⟩] s₁)
    (h : (do
      let cond ← condition e
      let yes ← p
      if ← eatKeyword .kwElse then
        let no ← p
        return .ifElse t cond yes no
      else
        return .ifThen t cond yes : Parser Stmt) s₁ = .ok x s') :
    ∃ ts d k, s.Reads ts s' ∧ Sound (room + 1) Statement Stmt.NearestElse x ts d k ∧
      (x.isOpen = true → s'.next ≠ some (.keyword .kwElse)) := by
  obtain ⟨cond, s₂, hcond, hrest⟩ := bind_ok.1 h
  obtain ⟨cs, c, hreadc, hc, hcroom, hcfits⟩ := condition_ok he hcond
  obtain ⟨yes, s₃, hyes, hrest⟩ := bind_ok.1 hrest
  obtain ⟨ts, d, k, hready, hsound, hopen⟩ := hp s₂ yes s₃ hyes
  obtain ⟨hy, hdroom, rfl, hyfits, hynear⟩ := hsound
  rcases eat_branch hrest with ⟨l, s₄, hreade, hrest⟩ | ⟨helse, hpure⟩
  · obtain ⟨no, s₅, hno, hpure⟩ := bind_ok.1 hrest
    obtain ⟨us, d', k', hreadn, ⟨hn, hdroom', rfl, hnfits, hnnear⟩, hopen'⟩ := hp s₄ no s₅ hno
    cases hpure
    have hclosed : yes.isOpen = false := by
      rw [← Bool.not_eq_true]
      intro hyopen
      refine hopen hyopen ?_
      rw [State.next, hreade]
      rfl
    refine ⟨_, _, _, hread.cons (hreadc.trans (hready.trans (hreade.cons hreadn))),
      ⟨.ifElse hc hy hn, by omega, rfl, by simp [hcfits, hyfits, hnfits], ?_⟩, hopen'⟩
    exact Stmt.nearestElse_ifElse.2 ⟨hclosed, hynear, hnnear⟩
  · cases hpure
    exact ⟨_, _, _, hread.cons (hreadc.trans hready), ⟨.ifThen hc hy, by omega, rfl, by simp [hcfits, hyfits],
      Stmt.nearestElse_ifThen.2 hynear⟩, fun _ => helse⟩

omit hp

theorem assignment_states {name : String} {mark : Punct} {l : Location} (hmark : mark = .assign ∨ mark = .lbracket)
    (hread : s.Reads [⟨.ident name, t.loc⟩, ⟨.punct mark, l⟩] s₁) (h : assignment t e name mark s₁ = .ok x s') :
    ∃ ts d k, s.Reads ts s' ∧ Sound (room + 1) Statement Stmt.NearestElse x ts d k ∧ x.isOpen = false := by
  unfold assignment at h
  rcases hmark with rfl | rfl
  · obtain ⟨value, s₂, ts, d, hreads, hended, hd, hfits, hpure⟩ := ended_bind he h
    cases hpure
    exact ⟨_, _, _, hread.trans hreads, ⟨.assign hended, Nat.succ_le_succ hd, rfl, by simp [hfits],
      .of_leaf rfl nofun⟩, rfl⟩
  · obtain ⟨i, s₂, hi, hrest⟩ := bind_ok.1 h
    obtain ⟨is, c, hreadi, hrender, hc, hfitsi, _⟩ := he s₁ i s₂ hi
    obtain ⟨l₂, s₃, hclose, hrest⟩ := expectPunct_bind hrest
    obtain ⟨l₃, s₄, hassign, hrest⟩ := expectPunct_bind hrest
    obtain ⟨value, s₅, ts, d, hreads, hended, hd, hfits, hpure⟩ := ended_bind he hrest
    cases hpure
    refine ⟨_, _, _, hread.trans (hreadi.trans (hclose.cons (hassign.cons hreads))),
      ⟨.store hrender hended, by omega, rfl, by simp [hfits, hfitsi], .of_leaf rfl nofun⟩, rfl⟩

theorem callStmt_states (hplain : disguised (words s.tokens) = false) (ht : t.loc = s.here)
    (h : callStmt t e s = .ok x s') :
    ∃ ts d k, s.Reads ts s' ∧ Sound (room + 1) Statement Stmt.NearestElse x ts d k ∧ x.isOpen = false := by
  obtain ⟨y, s₁, hy, hrest⟩ := bind_ok.1 h
  obtain ⟨ts, d, hread, hrender, hd, hfits, _⟩ := he s y s₁ hy
  clear h
  split at hrest
  case h_1 receiver method args =>
    obtain ⟨l, s₂, hsemi, hpure⟩ := expectPunct_bind hrest
    cases hpure
    have hne : ts ≠ [] := by
      rintro rfl
      exact hrender.ne_nil rfl
    have hts : disguised (words ts) = false := by
      rw [← Bool.not_eq_true] at hplain ⊢
      intro hdisguised
      apply hplain
      rw [hread, words_append]
      exact disguised_append hdisguised
    exact ⟨_, _, _, hread.trans hsemi, ⟨.call hrender (ht ▸ hread.starts hne), Nat.succ_le_succ hd, by rw [hts]; rfl,
      by simp [hfits], .of_leaf rfl nofun⟩, rfl⟩
  case h_2 => cases hrest

include hp

theorem stmtWith_states (ht : t.loc = s.here) (h : stmtWith t e p s = .ok x s') :
    ∃ ts d k, s.Reads ts s' ∧ Sound (room + 1) Statement Stmt.NearestElse x ts d k ∧
      (x.isOpen = true → s'.next ≠ some (.keyword .kwElse)) := by
  have hclosed : (∃ ts d k, s.Reads ts s' ∧ Sound (room + 1) Statement Stmt.NearestElse x ts d k ∧
      x.isOpen = false) → ∃ ts d k, s.Reads ts s' ∧ Sound (room + 1) Statement Stmt.NearestElse x ts d k ∧
        (x.isOpen = true → s'.next ≠ some (.keyword .kwElse)) := by
    rintro ⟨ts, d, k, hread, hsound, hopen⟩
    exact ⟨ts, d, k, hread, hsound, fun h => by rw [hopen] at h; cases h⟩
  rcases eat_branch h with ⟨l, s₁, hread, hrest⟩ | ⟨_, hrest⟩
  · obtain rfl : t.loc = l := ht.trans hread.here
    obtain ⟨ss, s₂, hblock, hpure⟩ := bind_ok.1 hrest
    cases hpure
    obtain ⟨ts, d, k, hreads, hsound⟩ := block_states hp hread hblock
    exact hclosed ⟨ts, d, k, hreads, hsound, rfl⟩
  rcases eat_branch hrest with ⟨l, s₁, hread, hrest⟩ | ⟨_, hrest⟩
  · obtain rfl : t.loc = l := ht.trans hread.here
    exact if_states he hp hread hrest
  rcases eat_branch hrest with ⟨l, s₁, hread, hrest⟩ | ⟨_, hrest⟩
  · obtain rfl : t.loc = l := ht.trans hread.here
    obtain ⟨cond, s₂, hcond, hrest⟩ := bind_ok.1 hrest
    obtain ⟨cs, c, hreadc, hc, hcroom, hcfits⟩ := condition_ok he hcond
    obtain ⟨body, s₃, hbody, hpure⟩ := bind_ok.1 hrest
    obtain ⟨ts, d, k, hreadb, ⟨hb, hdroom, rfl, hbfits, hbnear⟩, hopen⟩ := hp s₂ body s₃ hbody
    cases hpure
    exact ⟨_, _, _, hread.cons (hreadc.trans hreadb), ⟨.loop hc hb, by omega, rfl, by simp [hcfits, hbfits],
      Stmt.nearestElse_loop.2 hbnear⟩, hopen⟩
  rcases eat_branch hrest with ⟨l, s₁, hread, hrest⟩ | ⟨_, hrest⟩
  · obtain rfl : t.loc = l := ht.trans hread.here
    apply hclosed
    rcases eat_branch hrest with ⟨l, s₂, hsemi, hpure⟩ | ⟨_, hrest⟩
    · cases hpure
      exact ⟨_, _, _, hread.cons hsemi, ⟨.ret, by omega, rfl, by simp, .of_leaf rfl nofun⟩, rfl⟩
    · obtain ⟨value, s₂, ts, d, hreads, hended, hd, hfits, hpure⟩ := ended_bind he hrest
      cases hpure
      exact ⟨_, _, _, hread.cons hreads, ⟨.value hended, Nat.succ_le_succ hd, rfl, by simp [hfits],
        .of_leaf rfl nofun⟩, rfl⟩
  rcases eat_branch hrest with ⟨l, s₁, hread, hrest⟩ | ⟨_, hrest⟩
  · obtain rfl : t.loc = l := ht.trans hread.here
    obtain ⟨l, s₂, hsemi, hpure⟩ := expectPunct_bind hrest
    cases hpure
    exact hclosed ⟨_, _, _, hread.cons hsemi, ⟨.brk, by omega, rfl, by simp,
      .of_leaf rfl nofun⟩, rfl⟩
  rcases eat_branch hrest with ⟨l, s₁, hread, hrest⟩ | ⟨_, hrest⟩
  · obtain rfl : t.loc = l := ht.trans hread.here
    obtain ⟨l, s₂, hsemi, hpure⟩ := expectPunct_bind hrest
    cases hpure
    exact hclosed ⟨_, _, _, hread.cons hsemi, ⟨.cont, by omega, rfl, by simp,
      .of_leaf rfl nofun⟩, rfl⟩
  rcases eatAll_branch hrest with ⟨us, s₁, hus, hread, hrest⟩ | ⟨hout, hrest⟩
  · obtain ⟨value, s₂, hvalue, hpure⟩ := bind_ok.1 hrest
    obtain ⟨ts, d, l₃, l₄, l₅, hreads, hcond, hd, hfits⟩ := printed_ok he hvalue
    cases hpure
    obtain ⟨l, vs, rfl, hvs⟩ := words_eq_cons hus
    obtain ⟨l₁, xs, rfl, hxs⟩ := words_eq_cons hvs
    obtain ⟨l₂, ys, rfl, hys⟩ := words_eq_cons hxs
    obtain rfl := List.map_eq_nil_iff.1 hys
    obtain rfl : t.loc = l := ht.trans hread.here
    exact hclosed ⟨_, _, _, hread.trans hreads, ⟨.print hcond, Nat.succ_le_succ hd, rfl, by simp [hfits],
      .of_leaf rfl nofun⟩, rfl⟩
  obtain ⟨o, s₁, htarget, hlast⟩ := bind_ok.1 hrest
  apply hclosed
  rcases target?_ok htarget with ⟨name, mark, l₁, l₂, rfl, hmark, hread⟩ | ⟨rfl, rfl, hstore⟩
  · obtain rfl : t.loc = l₁ := ht.trans hread.here
    exact assignment_states he hmark hread hlast
  · refine callStmt_states he ?_ ht hlast
    rw [disguised, hstore, Bool.false_or, ← Bool.not_eq_true, List.isPrefixOf_iff_prefix]
    exact hout

end

theorem states_stmt (room : Nat) : States (stmt room) room := by
  induction room with
  | zero =>
      intro s x s' h
      obtain ⟨_, _, _, htoo⟩ := bind_ok.1 h
      cases htoo
  | succ room ih =>
      intro s x s' h
      obtain ⟨t, s₁, ht, hrest⟩ := bind_ok.1 h
      cases ht
      exact stmtWith_states (s := { s with nextId := s.nextId + 1 }) (spells_expr room) ih rfl hrest

end Backflow.Parser
