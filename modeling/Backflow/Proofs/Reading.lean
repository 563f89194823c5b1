import Backflow.Proofs.ParserCounts

namespace Backflow

def words (ts : List Token) : List Lexeme := ts.map (·.lexeme)

@[simp] theorem words_nil : words [] = [] := rfl

@[simp] theorem words_cons (t : Token) (ts : List Token) : words (t :: ts) = t.lexeme :: words ts := rfl

@[simp] theorem words_append (ts us : List Token) : words (ts ++ us) = words ts ++ words us :=
  List.map_append

@[simp] theorem length_words (ts : List Token) : (words ts).length = ts.length := List.length_map _

theorem words_eq_cons {ts : List Token} {w : Lexeme} {ws : List Lexeme} (h : words ts = w :: ws) :
    ∃ l us, ts = ⟨w, l⟩ :: us ∧ words us = ws := by
  obtain ⟨t, us, rfl, rfl, hus⟩ := List.map_eq_cons_iff.1 h
  exact ⟨t.loc, us, rfl, hus⟩

namespace Parser

def State.next (s : State) : Option Lexeme := (words s.tokens).head?

def State.Reads (s : State) (ts : List Token) (s' : State) : Prop := s.tokens = ts ++ s'.tokens

variable {α β : Type} {s s' s₁ s₂ : State} {ts us : List Token} {t : Token}

theorem State.Reads.refl (s : State) : s.Reads [] s := rfl

theorem State.Reads.trans (h₁ : s.Reads ts s₁) (h₂ : s₁.Reads us s₂) : s.Reads (ts ++ us) s₂ := by
  rw [State.Reads, h₁, h₂, List.append_assoc]

theorem State.Reads.cons (h₁ : s.Reads [t] s₁) (h₂ : s₁.Reads us s₂) : s.Reads (t :: us) s₂ := h₁.trans h₂

theorem State.Reads.length_eq (h : s.Reads ts s') : s.tokens.length = ts.length + s'.tokens.length := by
  rw [h, List.length_append]

theorem State.next_eq_none (h : s.tokens = []) : s.next = none := by rw [State.next, h]; rfl

theorem eat_branch {x : Lexeme} {p q : Parser α} {a : α}
    (h : (eat x >>= fun b => if b = true then p else q) s = .ok a s') :
    (∃ l s₁, s.Reads [⟨x, l⟩] s₁ ∧ p s₁ = .ok a s') ∨ (s.next ≠ some x ∧ q s = .ok a s') := by
  obtain ⟨b, s₁, heat, hrest⟩ := bind_ok.1 h
  unfold eat at heat
  split at heat
  case h_1 t rest htokens =>
    split at heat
    case isTrue hx =>
      cases heat
      subst hx
      exact Or.inl ⟨t.loc, { s with tokens := rest }, htokens, by simpa using hrest⟩
    case isFalse hx =>
      cases heat
      refine Or.inr ⟨?_, by simpa using hrest⟩
      rw [State.next, htokens]
      simpa using hx
  case h_2 htokens =>
    cases heat
    refine Or.inr ⟨?_, by simpa using hrest⟩
    rw [State.next_eq_none htokens]
    exact nofun

theorem expectPunct_bind {x : Punct} {q : Unit → Parser α} {a : α}
    (h : (expectPunct x >>= q) s = .ok a s') :
    ∃ l s₁, s.Reads [⟨.punct x, l⟩] s₁ ∧ q () s₁ = .ok a s' := by
  obtain ⟨_, s₁, hexpect, hrest⟩ := bind_ok.1 h
  rcases eat_branch hexpect with ⟨l, s₂, hread, hpure⟩ | ⟨_, hfail⟩
  · cases hpure
    exact ⟨l, s₁, hread, hrest⟩
  · cases hfail

theorem expectKeyword_bind {x : Keyword} {q : Unit → Parser α} {a : α}
    (h : (expectKeyword x >>= q) s = .ok a s') :
    ∃ l s₁, s.Reads [⟨.keyword x, l⟩] s₁ ∧ q () s₁ = .ok a s' := by
  obtain ⟨_, s₁, hexpect, hrest⟩ := bind_ok.1 h
  rcases eat_branch hexpect with ⟨l, s₂, hread, hpure⟩ | ⟨_, hfail⟩
  · cases hpure
    exact ⟨l, s₁, hread, hrest⟩
  · cases hfail

theorem identifier_bind {q : String → Parser α} {a : α} (h : (identifier >>= q) s = .ok a s') :
    ∃ name l s₁, s.Reads [⟨.ident name, l⟩] s₁ ∧ q name s₁ = .ok a s' := by
  obtain ⟨name, s₁, hident, hrest⟩ := bind_ok.1 h
  unfold identifier at hident
  split at hident
  case h_1 name loc rest htokens =>
    cases hident
    exact ⟨name, loc, { s with tokens := rest }, htokens, hrest⟩
  case h_2 => cases hident

def State.Passes (s : State) (ws : List Lexeme) (s' : State) : Prop :=
  ∃ ts, words ts = ws ∧ s = { s' with tokens := ts ++ s'.tokens }

variable {ws ws' : List Lexeme} {w : Lexeme}

theorem State.passes_append : s.Passes (ws ++ ws') s' ↔ ∃ s₁, s.Passes ws s₁ ∧ s₁.Passes ws' s' := by
  constructor
  · rintro ⟨ts, hts, rfl⟩
    obtain ⟨us, vs, rfl, hus, hvs⟩ := List.map_eq_append_iff.1 hts
    exact ⟨{ s' with tokens := vs ++ s'.tokens }, ⟨us, hus, by simp⟩, ⟨vs, hvs, rfl⟩⟩
  · rintro ⟨s₁, ⟨us, rfl, rfl⟩, ⟨vs, rfl, rfl⟩⟩
    exact ⟨us ++ vs, words_append us vs, by simp⟩

theorem State.passes_cons : s.Passes (w :: ws) s' ↔ ∃ s₁, s.Passes [w] s₁ ∧ s₁.Passes ws s' := by
  rw [← List.singleton_append, State.passes_append]

theorem State.passes_nil : s.Passes [] s' ↔ s = s' := by
  constructor
  · rintro ⟨ts, hts, rfl⟩
    rw [List.map_eq_nil_iff.1 hts]
    rfl
  · rintro rfl
    exact ⟨[], rfl, rfl⟩

theorem State.Passes.next (h : s.Passes (w :: ws) s') : s.next = some w := by
  obtain ⟨ts, hts, rfl⟩ := h
  obtain ⟨l, us, rfl, _⟩ := words_eq_cons hts
  rfl

theorem State.Passes.length_eq (h : s.Passes ws s') : s.tokens.length = ws.length + s'.tokens.length := by
  obtain ⟨ts, rfl, rfl⟩ := h
  simp

theorem State.Passes.token (h : s.Passes [w] s₁) : ∃ l, s = { s₁ with tokens := ⟨w, l⟩ :: s₁.tokens } := by
  obtain ⟨ts, hts, rfl⟩ := h
  obtain ⟨l, us, rfl, hus⟩ := words_eq_cons hts
  rw [List.map_eq_nil_iff.1 hus]
  exact ⟨l, rfl⟩

theorem eat_pass (h : s.Passes [w] s₁) : eat w s = .ok true s₁ := by
  obtain ⟨l, rfl⟩ := h.token
  simp [eat]

theorem eat_other (h : s.next ≠ some w) : eat w s = .ok false s := by
  unfold eat
  split
  case h_1 t rest htokens =>
    rw [State.next, htokens] at h
    exact if_neg fun ht => h (by simp [ht])
  case h_2 => rfl

theorem eat_then {p q : Parser α} (h : s.Passes [w] s₁) :
    (eat w >>= fun b => if b = true then p else q) s = p s₁ :=
  (bind_of_ok (eat_pass h)).trans rfl

theorem eat_else {p q : Parser α} (h : s.next ≠ some w) :
    (eat w >>= fun b => if b = true then p else q) s = q s :=
  (bind_of_ok (eat_other h)).trans rfl

theorem expectPunct_pass {x : Punct} {q : Unit → Parser α} (h : s.Passes [.punct x] s₁) :
    (expectPunct x >>= q) s = q () s₁ :=
  bind_of_ok (eat_then h)

theorem expectKeyword_pass {x : Keyword} {q : Unit → Parser α} (h : s.Passes [.keyword x] s₁) :
    (expectKeyword x >>= q) s = q () s₁ :=
  bind_of_ok (eat_then h)

theorem identifier_pass {name : String} {q : String → Parser α} (h : s.Passes [.ident name] s₁) :
    (identifier >>= q) s = q name s₁ := by
  obtain ⟨l, rfl⟩ := h.token
  exact bind_of_ok rfl

end Parser

end Backflow
