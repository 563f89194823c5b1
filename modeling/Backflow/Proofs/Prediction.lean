import Backflow.Proofs.ExprGrammar
import Backflow.Proofs.Reading

namespace Backflow

/-- The text `w` begins with the words `ws`, and `next` comes after them: `none` where the text ends there. -/
def Begins (ws : List Lexeme) (next : Option Lexeme) (w : List Lexeme) : Prop :=
  ∃ rest, w = ws ++ rest ∧ rest.head? = next

namespace Begins

variable {ws us w : List Lexeme} {x : Lexeme} {next : Option Lexeme}

theorem nil_iff : Begins [] next w ↔ w.head? = next := by
  constructor
  · rintro ⟨rest, rfl, hrest⟩
    exact hrest
  · exact fun h => ⟨w, rfl, h⟩

theorem append_iff : Begins (ws ++ us) next w ↔ ∃ rest, w = ws ++ rest ∧ Begins us next rest := by
  constructor
  · rintro ⟨rest, rfl, hrest⟩
    exact ⟨us ++ rest, List.append_assoc .., rest, rfl, hrest⟩
  · rintro ⟨_, rfl, rest, rfl, hrest⟩
    exact ⟨rest, (List.append_assoc ..).symm, hrest⟩

theorem of_append_left (h : Begins (ws ++ us) next (ws ++ w)) : Begins us next w := by
  obtain ⟨rest, hrest, hus⟩ := append_iff.1 h
  rwa [List.append_cancel_left hrest]

theorem of_prefix {vs x k : List Lexeme} (h : Begins ws next w) (hw : vs <+: w) (hx : vs <+: x)
    (hlong : ws.length < vs.length) : Begins ws next (x ++ k) := by
  obtain ⟨rest, rfl, rfl⟩ := h
  obtain ⟨us, rfl⟩ := List.prefix_of_prefix_length_le (List.prefix_append ws rest) hw (Nat.le_of_lt hlong)
  obtain ⟨y, rfl⟩ := hx
  cases us with
  | nil => simp at hlong
  | cons u us =>
      obtain ⟨tail, rfl⟩ := (List.prefix_append_right_inj ws).1 hw
      exact ⟨u :: us ++ (y ++ k), by simp, rfl⟩

end Begins

/-- The texts of one kind of phrase, each with what may come after it. A text that only a word after it could make
longer, like a sum before a sign, does not admit that word. -/
structure Category where
  phrase : List Lexeme → Prop
  follow : List Lexeme → Option Lexeme → Prop

namespace Category

def closed (phrase : List Lexeme → Prop) : Category := ⟨phrase, fun _ _ => True⟩

def after (C : Category) (ws : List Lexeme) : Category :=
  ⟨fun x => C.phrase (ws ++ x), fun x => C.follow (ws ++ x)⟩

def Admits (C : Category) (x k : List Lexeme) : Prop := C.phrase x ∧ C.follow x k.head?

end Category

namespace Grammar

def Braced (G : List Lexeme → Prop) (w : List Lexeme) : Prop :=
  ∃ parts : List (List Lexeme), w = parts.flatten ++ [.punct .rbrace] ∧ ∀ x ∈ parts, G x

def Tupled (G : List Lexeme → Prop) (w : List Lexeme) : Prop :=
  ∃ parts : List (List Lexeme), w = commas parts ++ [.punct .rparen] ∧ ∀ x ∈ parts, G x

inductive Listing (G : List Lexeme → Prop) : List Lexeme → Prop
  | last {x : List Lexeme} : G x → Listing G (x ++ [.punct .rparen])
  | more {x y : List Lexeme} : G x → Listing G y → Listing G (x ++ .punct .comma :: y)

variable {G : List Lexeme → Prop} {w x : List Lexeme}

theorem braced_nil : Braced G [.punct .rbrace] := ⟨[], rfl, by simp⟩

theorem Braced.ne_nil (h : Braced G w) : w ≠ [] := by
  obtain ⟨parts, rfl, _⟩ := h
  simp

theorem Braced.head?_append (h : Braced G w) (k : List Lexeme) : (w ++ k).head? = w.head? := by
  obtain ⟨y, w, rfl⟩ := List.exists_cons_of_ne_nil h.ne_nil
  rfl

theorem Braced.cons (h : Braced G w) (hx : G x) : Braced G (x ++ w) := by
  obtain ⟨parts, rfl, hparts⟩ := h
  exact ⟨x :: parts, (List.append_assoc ..).symm, List.forall_mem_cons.2 ⟨hx, hparts⟩⟩

theorem braced_closed (hfirst : ∀ x, G x → x.head? ≠ some (.punct .rbrace)) (hne : ¬ G [])
    (h : Braced G (.punct .rbrace :: w)) : w = [] := by
  obtain ⟨parts, hw, hparts⟩ := h
  cases parts with
  | nil => exact (List.cons.inj hw).2
  | cons x parts =>
      have hx := hparts x List.mem_cons_self
      cases x with
      | nil => exact absurd hx hne
      | cons y x => exact absurd (congrArg some (List.cons.inj hw).1.symm) (hfirst _ hx)

theorem Listing.exists_parts (h : Listing G w) :
    ∃ x parts, w = commas (x :: parts) ++ [.punct .rparen] ∧ ∀ y ∈ x :: parts, G y := by
  induction h with
  | @last x hx => exact ⟨x, [], rfl, by simpa using hx⟩
  | @more x y hx _ ih =>
      obtain ⟨z, parts, rfl, hparts⟩ := ih
      exact ⟨x, z :: parts, by simp [commas], List.forall_mem_cons.2 ⟨hx, hparts⟩⟩

theorem listing_commas {parts : List (List Lexeme)} (hx : G x) (hparts : ∀ y ∈ parts, G y) :
    Listing G (commas (x :: parts) ++ [.punct .rparen]) := by
  induction parts generalizing x with
  | nil => exact .last hx
  | cons z parts ih =>
      obtain ⟨hz, hparts⟩ := List.forall_mem_cons.1 hparts
      rw [commas, List.append_assoc]
      · exact .more hx (ih hz hparts)
      · exact List.cons_ne_nil _ _

theorem tupled_iff : Tupled G w ↔ w = [.punct .rparen] ∨ Listing G w := by
  constructor
  · rintro ⟨parts, rfl, hparts⟩
    cases parts with
    | nil => exact .inl rfl
    | cons x parts =>
        obtain ⟨hx, hparts⟩ := List.forall_mem_cons.1 hparts
        exact .inr (listing_commas hx hparts)
  · rintro (rfl | h)
    · exact ⟨[], rfl, by simp⟩
    · obtain ⟨x, parts, hw, hparts⟩ := h.exists_parts
      exact ⟨x :: parts, hw, hparts⟩

theorem Listing.exists_head (h : Listing G w) (hne : ¬ G []) : ∃ x, G x ∧ w.head? = x.head? := by
  have hhead {x y : List Lexeme} (hx : G x) : (x ++ y).head? = x.head? := by
    cases x with
    | nil => exact absurd hx hne
    | cons => rfl
  cases h with
  | last hx => exact ⟨_, hx, hhead hx⟩
  | more hx => exact ⟨_, hx, hhead hx⟩

end Grammar

namespace Parser

structure State.Advances (s : State) (ts : List Token) (s' : State) : Prop where
  reads : s.Reads ts s'
  stop : s'.stop = s.stop

/-- The token that a complaint about a missing `e` is about is the first of `us`. All complaints are about the
next token, but for one: a name that should have been `println` is read before it is looked at. -/
inductive State.Offends (s : State) : Expected → List Token → Prop
  | next {e : Expected} : e ≠ .println → s.Offends e s.tokens
  | last {name : String} {l : Location} : name ≠ "println" → s.Offends .println (⟨.ident name, l⟩ :: s.tokens)

/-- From `s`, the parser `p` reads a text of the category or gives the place where no such text can go on. -/
structure PredictsAt {α : Type} (p : Parser α) (C : Category) (s : State) : Prop where
  /-- What is read is a text of the category, and the only one that the next token leaves possible. -/
  takes : ∀ a s', p s = .ok a s' → ∃ ts, s.Advances ts s' ∧ C.phrase (words ts) ∧
    ∀ x k, C.Admits x k → Begins (words ts) s'.next (x ++ k) → x = words ts
  /-- What stands before the token complained about can be completed, but not with this token. -/
  blames : ∀ l e t s', p s = .error (.unexpected l e t) s' → l = s'.here ∧ t = s'.tokens.head? ∧
    ∃ ts us, s.tokens = ts ++ us ∧ s'.stop = s.stop ∧ s'.Offends e us ∧ (∃ ws, C.phrase (words ts ++ ws)) ∧
      ∀ x k, C.Admits x k → ¬ Begins (words ts) (words us).head? (x ++ k)

def Predicts {α : Type} (p : Parser α) (C : Category) : Prop := ∀ s, PredictsAt p C s

variable {α β : Type} {s s₁ s' : State} {ts us : List Token} {t : Token} {C D E : Category}

theorem State.Advances.refl (s : State) : s.Advances [] s := ⟨.refl s, rfl⟩

theorem State.Advances.trans (h : s.Advances ts s₁) (h' : s₁.Advances us s') : s.Advances (ts ++ us) s' :=
  ⟨h.reads.trans h'.reads, h'.stop.trans h.stop⟩

theorem State.Advances.length_eq (h : s.Advances ts s') : s.tokens.length = ts.length + s'.tokens.length :=
  h.reads.length_eq

theorem State.next_append (h : s.tokens = ts ++ us) : (words ts ++ words us).head? = s.next := by
  rw [State.next, h, words_append]

theorem State.begins_next {w : List Lexeme} {vs : List Token} (h : s.tokens = us ++ vs)
    (hw : Begins (words (ts ++ us)) (words vs).head? w) : Begins (words ts) s.next w := by
  rw [words_append] at hw
  obtain ⟨rest, rfl, tail, rfl, htail⟩ := Begins.append_iff.1 hw
  refine ⟨_, rfl, ?_⟩
  rw [← State.next_append h, List.head?_append, List.head?_append, htail]

theorem State.begins_head {w : List Lexeme} (h : s.tokens = ts ++ us)
    (hw : Begins (words ts) (words us).head? w) : w.head? = s.next := by
  rw [← List.nil_append ts] at hw
  exact Begins.nil_iff.1 (State.begins_next h hw)

theorem State.exists_passes {x : Lexeme} (h : s.next = some x) :
    ∃ l s₁, s.Passes [x] s₁ ∧ s.Advances [⟨x, l⟩] s₁ := by
  obtain ⟨tokens, stop, nextId⟩ := s
  cases tokens with
  | nil => cases h
  | cons t rest =>
      cases h
      exact ⟨t.loc, ⟨rest, stop, nextId⟩, ⟨[t], rfl, rfl⟩, rfl, rfl⟩

theorem State.exists_passes_of_prefix {ws : List Lexeme} (h : ws <+: words s.tokens) :
    ∃ ts s₁, words ts = ws ∧ s.Passes ws s₁ ∧ s.Advances ts s₁ := by
  obtain ⟨rest, hrest⟩ := h
  obtain ⟨ts, us, htokens, rfl, _⟩ := List.map_eq_append_iff.1 hrest.symm
  exact ⟨ts, { s with tokens := us }, rfl, ⟨ts, rfl, by rw [← htokens]⟩, htokens, rfl⟩

/-- The text departs from the tokens at a point up to which some text of `G` goes with both. -/
def State.Departs (s : State) (G : List Lexeme → Prop) (x : List Lexeme) : Prop :=
  ∃ ws w m, ws ++ [w] <+: x ∧ ¬ ws ++ [w] <+: words s.tokens ∧ G m ∧ ws <+: m

theorem State.departs_at_once {G : List Lexeme → Prop} {w : Lexeme} {x m : List Lexeme} (hnext : s.next ≠ some w)
    (hm : G m) : s.Departs G (w :: x) := by
  refine ⟨[], w, m, ⟨x, rfl⟩, ?_, hm, List.nil_prefix⟩
  rintro ⟨rest, hrest⟩
  exact hnext (congrArg List.head? hrest.symm)

theorem State.length_le_of_departs {x ws : List Lexeme} {w : Lexeme} (h : s.tokens = ts ++ us)
    (hx : Begins (words ts) (words us).head? x) (hws : ws ++ [w] <+: x) (hnot : ¬ ws ++ [w] <+: words s.tokens) :
    ts.length < ws.length := by
  by_contra hle
  obtain ⟨rest, rfl, hrest⟩ := hx
  rw [h, words_append] at hnot
  cases us with
  | nil =>
      rw [List.head?_eq_none_iff.1 hrest] at hws
      exact hnot hws
  | cons u us =>
      obtain ⟨tail, rfl⟩ := List.head?_eq_some_iff.1 hrest
      have hknown : words ts ++ [u.lexeme] <+: words ts ++ u.lexeme :: tail := ⟨tail, by simp⟩
      have hup : ws ++ [w] <+: words ts ++ [u.lexeme] := by
        refine List.prefix_of_prefix_length_le hws hknown ?_
        simp only [List.length_append, List.length_singleton, length_words]
        omega
      exact hnot (hup.trans ⟨words us, by simp⟩)

namespace PredictsAt

theorem mono {p : Parser α} (h : PredictsAt p C s) (hsub : ∀ x, C.phrase x → D.phrase x)
    (hsup : ∀ x k, D.Admits x k → (x ++ k).head? = s.next → C.Admits x k) : PredictsAt p D s := by
  refine ⟨fun a s' hrun => ?_, fun l e t s' hrun => ?_⟩
  · obtain ⟨ts, hts, hphrase, honly⟩ := h.takes a s' hrun
    refine ⟨ts, hts, hsub _ hphrase, fun x k hx hbegins => ?_⟩
    exact honly x k (hsup x k hx (State.begins_head hts.reads hbegins)) hbegins
  · obtain ⟨hl, ht, ts, us, htokens, hstop, hoffends, ⟨ws, hws⟩, hnone⟩ := h.blames l e t s' hrun
    refine ⟨hl, ht, ts, us, htokens, hstop, hoffends, ⟨ws, hsub _ hws⟩, fun x k hx hbegins => ?_⟩
    exact hnone x k (hsup x k hx (State.begins_head htokens hbegins)) hbegins

theorem of_closed {p : Parser α} {G : List Lexeme → Prop} (h : PredictsAt p (.closed G) s)
    (hG : ∀ x, C.phrase x ↔ G x) : PredictsAt p C s :=
  h.mono (fun x hx => (hG x).2 hx) fun x _ hx _ => ⟨(hG x).1 hx.1, trivial⟩

/-- A category that differs only in texts that depart from the tokens will do as well: where they depart, another
text would have gone on. -/
theorem exchange {p : Parser α} (h : PredictsAt p C s)
    (hsub : ∀ x, C.phrase x → D.phrase x ∨ s.Departs D.phrase x)
    (hsup : ∀ x k, D.Admits x k → C.Admits x k ∨ s.Departs (fun m => ∃ k, C.Admits m k) (x ++ k)) :
    PredictsAt p D s := by
  refine ⟨fun a s' hrun => ?_, fun l e t s' hrun => ?_⟩
  · obtain ⟨ts, hts, hphrase, honly⟩ := h.takes a s' hrun
    refine ⟨ts, hts, (hsub _ hphrase).resolve_right fun hdeparts => ?_, fun x k hx hbegins => ?_⟩
    · obtain ⟨ws, w, m, hws, hnot, _⟩ := hdeparts
      refine hnot (hws.trans ?_)
      rw [hts.reads, words_append]
      exact List.prefix_append _ _
    · rcases hsup x k hx with hx | ⟨ws, w, m, hws, hnot, ⟨k', hm⟩, hgoes⟩
      · exact honly x k hx hbegins
      · have hshort := State.length_le_of_departs hts.reads hbegins hws hnot
        rw [← length_words] at hshort
        have heq := honly m k' hm (hbegins.of_prefix ((List.prefix_append ws [w]).trans hws) hgoes hshort)
        have hlong := hgoes.length_le
        rw [heq] at hlong
        omega
  · obtain ⟨hl, ht, ts, us, htokens, hstop, hoffends, ⟨vs, hvs⟩, hnone⟩ := h.blames l e t s' hrun
    refine ⟨hl, ht, ts, us, htokens, hstop, hoffends, ?_, fun x k hx hbegins => ?_⟩
    · rcases hsub _ hvs with hvs | ⟨ws, w, m, hws, hnot, hm, hgoes⟩
      · exact ⟨vs, hvs⟩
      · have hupto : ws <+: words ts ++ vs := (List.prefix_append ws [w]).trans hws
        rcases Nat.lt_or_ge ws.length ts.length with hlt | hge
        · have hin : ws ++ [w] <+: words ts := by
            refine List.prefix_of_prefix_length_le hws (List.prefix_append _ _) ?_
            rwa [List.length_append, List.length_singleton, length_words]
          refine absurd (hin.trans ?_) hnot
          rw [htokens, words_append]
          exact List.prefix_append _ _
        · have hts : words ts <+: ws := by
            refine List.prefix_of_prefix_length_le (List.prefix_append _ vs) hupto ?_
            rwa [length_words]
          obtain ⟨vs', rfl⟩ := hts.trans hgoes
          exact ⟨vs', hm⟩
    · rcases hsup x k hx with hx | ⟨ws, w, m, hws, hnot, ⟨k', hm⟩, hgoes⟩
      · exact hnone x k hx hbegins
      · have hshort := State.length_le_of_departs htokens hbegins hws hnot
        rw [← length_words] at hshort
        exact hnone m k' hm (hbegins.of_prefix ((List.prefix_append ws [w]).trans hws) hgoes hshort)

theorem read {p q : Parser α} (hs : s.Advances ts s₁) (h : PredictsAt q (C.after (words ts)) s₁) (hrun : p s = q s₁)
    (hgo : ∀ x k, C.Admits x k → words ts <+: x ++ k → words ts <+: x) : PredictsAt p C s := by
  have hrest (us : List Token) (next : Option Lexeme) (x k : List Lexeme) (hx : C.Admits x k)
      (hbegins : Begins (words (ts ++ us)) next (x ++ k)) :
      ∃ y, x = words ts ++ y ∧ (C.after (words ts)).Admits y k ∧ Begins (words us) next (y ++ k) := by
    rw [words_append] at hbegins
    obtain ⟨rest, hrest, _⟩ := Begins.append_iff.1 hbegins
    obtain ⟨y, rfl⟩ := hgo x k hx ⟨rest, hrest.symm⟩
    rw [List.append_assoc] at hbegins
    exact ⟨y, rfl, hx, hbegins.of_append_left⟩
  refine ⟨fun a s' hp => ?_, fun l e t s' hp => ?_⟩
  · obtain ⟨us, hus, hphrase, honly⟩ := h.takes a s' (hrun ▸ hp)
    refine ⟨ts ++ us, hs.trans hus, by rw [words_append]; exact hphrase, fun x k hx hbegins => ?_⟩
    obtain ⟨y, rfl, hy, hbegins⟩ := hrest us _ x k hx hbegins
    rw [words_append, honly y k hy hbegins]
  · obtain ⟨hl, ht, us, vs, htokens, hstop, hoffends, ⟨ws, hws⟩, hnone⟩ := h.blames l e t s' (hrun ▸ hp)
    refine ⟨hl, ht, ts ++ us, vs, ?_, hstop.trans hs.stop, hoffends, ⟨ws, ?_⟩, fun x k hx hbegins => ?_⟩
    · rw [hs.reads, htokens, List.append_assoc]
    · rw [words_append, List.append_assoc]
      exact hws
    · obtain ⟨y, rfl, hy, hbegins⟩ := hrest us _ x k hx hbegins
      exact hnone y k hy hbegins

theorem congr {p q : Parser α} (h : PredictsAt q C s₁) (hs : s.Advances [] s₁) (hrun : p s = q s₁) :
    PredictsAt p C s :=
  read hs h hrun fun _ _ _ _ => List.nil_prefix

theorem read_one {p q : Parser α} (hs : s.Advances [t] s₁) (h : PredictsAt q (C.after [t.lexeme]) s₁)
    (hrun : p s = q s₁) (hgo : ∀ x k, C.Admits x k → (x ++ k).head? = some t.lexeme → x ≠ []) : PredictsAt p C s := by
  refine read hs h hrun fun x k hx hhead => ?_
  obtain ⟨rest, hrest⟩ := hhead
  have hhead : (x ++ k).head? = some t.lexeme := congrArg List.head? hrest.symm
  obtain ⟨w, y, rfl⟩ := List.exists_cons_of_ne_nil (hgo x k hx hhead)
  cases hhead
  exact ⟨y, rfl⟩

theorem done {p : Parser α} {a : α} (hrun : p s = .ok a s₁) (hs : s.Advances [] s₁) (hnil : C.phrase [])
    (honly : ∀ x k, C.Admits x k → (x ++ k).head? = s.next → x = []) : PredictsAt p C s := by
  refine ⟨fun b s' hp => ?_, fun l e t s' hp => ?_⟩
  · rw [hrun] at hp
    cases hp
    refine ⟨[], hs, hnil, fun x k hx hbegins => ?_⟩
    exact honly x k hx (State.begins_head hs.reads hbegins)
  · rw [hrun] at hp
    cases hp

theorem fail {e : Expected} (he : e ≠ .println) (hsome : ∃ x, C.phrase x)
    (hnone : ∀ x k, C.Admits x k → (x ++ k).head? ≠ s.next) {p : Parser α} (hrun : p s = Parser.fail e s) :
    PredictsAt p C s := by
  refine ⟨fun a s' hp => ?_, fun l e' t s' hp => ?_⟩
  · rw [hrun] at hp
    cases hp
  · rw [hrun] at hp
    cases hp
    refine ⟨rfl, rfl, [], s.tokens, rfl, rfl, .next he, hsome, fun x k hx hbegins => ?_⟩
    exact hnone x k hx (Begins.nil_iff.1 hbegins)

theorem fail_last {name : String} {l : Location} (hs : s.Advances [⟨.ident name, l⟩] s₁) (hname : name ≠ "println")
    (hsome : ∃ x, C.phrase x) (hnone : ∀ x k, C.Admits x k → (x ++ k).head? ≠ some (.ident name)) {p : Parser α}
    (hrun : p s = Parser.fail .println s₁) : PredictsAt p C s := by
  refine ⟨fun a s' hp => ?_, fun l e' t s' hp => ?_⟩
  · rw [hrun] at hp
    cases hp
  · rw [hrun] at hp
    cases hp
    refine ⟨rfl, rfl, [], _, hs.reads, hs.stop, .last hname, hsome, fun x k hx hbegins => ?_⟩
    exact hnone x k hx (Begins.nil_iff.1 hbegins)

theorem limit {p : Parser α} {e : SyntaxError} (hrun : p s = .error e s')
    (he : ∀ l x t, e ≠ .unexpected l x t) : PredictsAt p C s := by
  refine ⟨fun a s₁ hp => ?_, fun l x t s₁ hp => ?_⟩
  · rw [hrun] at hp
    cases hp
  · rw [hrun] at hp
    injection hp with he'
    exact absurd he' (he l x t)

theorem bind {p : Parser α} {q : α → Parser β} (hp : PredictsAt p C s)
    (hq : ∀ a s₁, p s = .ok a s₁ → PredictsAt (q a) D s₁) (hsome : ∃ y, D.phrase y)
    (hjoin : ∀ x y, C.phrase x → D.phrase y → E.phrase (x ++ y))
    (hsplit : ∀ w k, E.Admits w k → ∃ x y, w = x ++ y ∧ C.Admits x (y ++ k) ∧ D.Admits y k) :
    PredictsAt (p >>= q) E s := by
  refine ⟨fun b s' hrun => ?_, fun l e t s' hrun => ?_⟩
  · obtain ⟨a, s₁, hpa, hqb⟩ := bind_ok.1 hrun
    obtain ⟨ts, hts, hphrase, honly⟩ := hp.takes a s₁ hpa
    obtain ⟨us, hus, hphrase', honly'⟩ := (hq a s₁ hpa).takes b s' hqb
    refine ⟨ts ++ us, hts.trans hus, by rw [words_append]; exact hjoin _ _ hphrase hphrase', fun w k hw hbegins => ?_⟩
    obtain ⟨x, y, rfl, hx, hy⟩ := hsplit w k hw
    rw [List.append_assoc] at hbegins
    obtain rfl := honly x _ hx (State.begins_next hus.reads hbegins)
    rw [words_append] at hbegins
    rw [words_append, honly' y k hy hbegins.of_append_left]
  · rcases bind_error hrun with hpe | ⟨a, s₁, hpa, hqe⟩
    · obtain ⟨hl, ht, ts, us, htokens, hstop, hoffends, ⟨ws, hws⟩, hnone⟩ := hp.blames l e t s' hpe
      obtain ⟨y, hy⟩ := hsome
      refine ⟨hl, ht, ts, us, htokens, hstop, hoffends, ⟨ws ++ y, ?_⟩, fun w k hw hbegins => ?_⟩
      · rw [← List.append_assoc]
        exact hjoin _ _ hws hy
      · obtain ⟨x, y, rfl, hx, _⟩ := hsplit w k hw
        rw [List.append_assoc] at hbegins
        exact hnone x _ hx hbegins
    · obtain ⟨ts, hts, hphrase, honly⟩ := hp.takes a s₁ hpa
      obtain ⟨hl, ht, us, vs, htokens, hstop, hoffends, ⟨ws, hws⟩, hnone⟩ := (hq a s₁ hpa).blames l e t s' hqe
      refine ⟨hl, ht, ts ++ us, vs, ?_, hstop.trans hts.stop, hoffends, ⟨ws, ?_⟩, fun w k hw hbegins => ?_⟩
      · rw [hts.reads, htokens, List.append_assoc]
      · rw [words_append, List.append_assoc]
        exact hjoin _ _ hphrase hws
      · obtain ⟨x, y, rfl, hx, hy⟩ := hsplit w k hw
        rw [List.append_assoc] at hbegins
        obtain rfl := honly x _ hx (State.begins_next htokens hbegins)
        rw [words_append] at hbegins
        exact hnone y k hy hbegins.of_append_left

theorem map {p : Parser α} (h : PredictsAt p C s) (f : α → β) : PredictsAt (p >>= fun a => pure (f a)) C s := by
  refine ⟨fun b s' hrun => ?_, fun l e t s' hrun => ?_⟩
  · obtain ⟨a, s₁, hp, hpure⟩ := bind_ok.1 hrun
    cases hpure
    exact h.takes a _ hp
  · rcases bind_error hrun with hp | ⟨a, s₁, _, hpure⟩
    · exact h.blames l e t s' hp
    · cases hpure

theorem bounded {loop : List Token → Parser α} (h : PredictsAt (loop s.tokens) C s) :
    PredictsAt (Parser.bounded loop) C s :=
  congr h (.refl s) rfl

theorem pure (a : α) : PredictsAt (Pure.pure a : Parser α) (.closed (· = [])) s :=
  done rfl (.refl s) rfl fun _ _ hx _ => hx.1

theorem tooDeep : PredictsAt (Parser.tooDeep : Parser α) C s := limit rfl fun _ _ _ => nofun

theorem branch {x : Lexeme} {p q : Parser α}
    (hthen : ∀ l s₁, s.Advances [⟨x, l⟩] s₁ → PredictsAt p (C.after [x]) s₁)
    (hgo : ∀ w k, C.Admits w k → (w ++ k).head? = some x → w ≠ [])
    (helse : s.next ≠ some x → PredictsAt q C s) :
    PredictsAt (eat x >>= fun b => if b = true then p else q) C s := by
  by_cases hnext : s.next = some x
  · obtain ⟨l, s₁, hpass, hs⟩ := State.exists_passes hnext
    exact read_one hs (hthen l s₁ hs) (eat_then hpass) hgo
  · exact congr (helse hnext) (.refl s) (eat_else hnext)

theorem expect {x : Lexeme} {e : Expected} {p q : Parser α} (he : e ≠ .println)
    (hpass : ∀ s₁, s.Passes [x] s₁ → p s = q s₁) (hother : s.next ≠ some x → p s = Parser.fail e s)
    (hq : ∀ l s₁, s.Advances [⟨x, l⟩] s₁ → PredictsAt q (C.after [x]) s₁)
    (hsome : ∃ w, C.phrase w) (honly : ∀ w, C.phrase w → w.head? = some x) : PredictsAt p C s := by
  by_cases hnext : s.next = some x
  · obtain ⟨l, s₁, hs₁, hs⟩ := State.exists_passes hnext
    refine read_one hs (hq l s₁ hs) (hpass s₁ hs₁) ?_
    rintro w k hw _ rfl
    cases honly [] hw.1
  · refine fail he hsome (fun w k hw hhead => hnext ?_) (hother hnext)
    rw [← hhead, List.head?_append, honly w hw.1]
    rfl

theorem expectPunct {x : Punct} {q : Unit → Parser α}
    (hq : ∀ l s₁, s.Advances [⟨.punct x, l⟩] s₁ → PredictsAt (q ()) (C.after [.punct x]) s₁)
    (hsome : ∃ w, C.phrase w) (honly : ∀ w, C.phrase w → w.head? = some (.punct x)) :
    PredictsAt (Parser.expectPunct x >>= q) C s :=
  expect (e := .punct x) nofun (fun _ hpass => expectPunct_pass hpass)
    (fun hnext => bind_of_error (eat_else hnext)) hq hsome honly

theorem mark {x : Punct} (a : α) (hC : ∀ w, C.phrase w ↔ w = [.punct x]) :
    PredictsAt (Parser.expectPunct x >>= fun _ => Pure.pure a) C s := by
  refine expectPunct (fun l s₁ _ => (pure a).mono ?_ ?_) ⟨_, (hC _).2 rfl⟩ ?_
  · rintro _ rfl
    exact (hC _).2 rfl
  · rintro w k ⟨hw, _⟩ _
    exact ⟨(List.cons.inj ((hC _).1 hw)).2, trivial⟩
  · intro w hw
    rw [(hC w).1 hw]
    rfl

theorem expectKeyword {x : Keyword} {q : Unit → Parser α}
    (hq : ∀ l s₁, s.Advances [⟨.keyword x, l⟩] s₁ → PredictsAt (q ()) (C.after [.keyword x]) s₁)
    (hsome : ∃ w, C.phrase w) (honly : ∀ w, C.phrase w → w.head? = some (.keyword x)) :
    PredictsAt (Parser.expectKeyword x >>= q) C s :=
  expect (e := .keyword x) nofun (fun _ hpass => expectKeyword_pass hpass)
    (fun hnext => bind_of_error (eat_else hnext)) hq hsome honly

theorem identifier_fails {q : String → Parser α} (hnext : ¬ ∃ name, s.next = some (.ident name)) :
    (Parser.identifier >>= q) s = Parser.fail .identifier s := by
  refine bind_of_error ?_
  unfold Parser.identifier
  split
  case h_1 name l rest htokens => exact absurd ⟨name, by rw [State.next, htokens]; rfl⟩ hnext
  case h_2 => rfl

theorem identifier {q : String → Parser α}
    (hq : ∀ name l s₁, s.Advances [⟨.ident name, l⟩] s₁ → PredictsAt (q name) (C.after [.ident name]) s₁)
    (hsome : ∃ w, C.phrase w) (honly : ∀ w, C.phrase w → ∃ name, w.head? = some (.ident name)) :
    PredictsAt (Parser.identifier >>= q) C s := by
  by_cases hnext : ∃ name, s.next = some (.ident name)
  · obtain ⟨name, hname⟩ := hnext
    obtain ⟨l, s₁, hpass, hs⟩ := State.exists_passes hname
    refine read_one hs (hq name l s₁ hs) (identifier_pass hpass) ?_
    rintro w k hw _ rfl
    obtain ⟨_, hnil⟩ := honly [] hw.1
    cases hnil
  · refine fail (e := .identifier) nofun hsome (fun w k hw hhead => hnext ?_) (identifier_fails hnext)
    obtain ⟨name, hname⟩ := honly w hw.1
    refine ⟨name, ?_⟩
    rw [← hhead, List.head?_append, hname]
    rfl

theorem shorter {p : Parser α} {a : α} (h : PredictsAt p C s) (hne : ¬ C.phrase []) (hrun : p s = .ok a s₁) :
    s₁.tokens.length < s.tokens.length := by
  obtain ⟨ts, hts, hphrase, _⟩ := h.takes a s₁ hrun
  have hlong := hts.length_eq
  cases ts with
  | nil => exact absurd hphrase hne
  | cons t ts =>
      rw [List.length_cons] at hlong
      omega

end PredictsAt

section Loops

open Grammar

variable {item : Parser α} {bound : List Token}

theorem predicts_item (hitem : Predicts item C)
    (hfollow : ∀ x y, C.phrase x → Braced C.phrase y → C.follow x y.head?)
    {q : α → Parser β} (hq : ∀ a s₁, item s = .ok a s₁ → PredictsAt (q a) (.closed (Braced C.phrase)) s₁)
    (hnext : s.next ≠ some (.punct .rbrace)) : PredictsAt (item >>= q) (.closed (Braced C.phrase)) s := by
  have hitems : PredictsAt (item >>= q)
      (.closed fun w => ∃ x y, w = x ++ y ∧ C.phrase x ∧ Braced C.phrase y) s := by
    refine (hitem s).bind hq ⟨_, braced_nil⟩ (fun x y hx hy => ⟨x, y, rfl, hx, hy⟩) ?_
    rintro w k ⟨⟨x, y, rfl, hx, hy⟩, _⟩
    refine ⟨x, y, rfl, ⟨hx, ?_⟩, hy, trivial⟩
    rw [hy.head?_append]
    exact hfollow x y hx hy
  refine hitems.mono ?_ ?_
  · rintro _ ⟨x, y, rfl, hx, hy⟩
    exact hy.cons hx
  · rintro w k ⟨hw, _⟩ hhead
    refine ⟨?_, trivial⟩
    obtain ⟨parts, rfl, hparts⟩ := hw
    cases parts with
    | nil => exact absurd hhead.symm hnext
    | cons x parts =>
        obtain ⟨hx, hparts⟩ := List.forall_mem_cons.1 hparts
        exact ⟨x, _, List.append_assoc .., hx, parts, rfl, hparts⟩

theorem predicts_untilBrace (hitem : Predicts item C) (hne : ¬ C.phrase [])
    (hfirst : ∀ x, C.phrase x → x.head? ≠ some (.punct .rbrace))
    (hfollow : ∀ x y, C.phrase x → Braced C.phrase y → C.follow x y.head?)
    (hbound : s.tokens.length ≤ bound.length) :
    PredictsAt (untilBrace item bound) (.closed (Braced C.phrase)) s := by
  induction bound generalizing s with
  | nil =>
      have hnil : s.tokens = [] := List.length_eq_zero_iff.1 (Nat.le_zero.1 hbound)
      refine predicts_item hitem hfollow (fun a s₁ hrun => ?_) ?_
      · have hless := (hitem s).shorter hne hrun
        rw [hnil] at hless
        cases hless
      · rw [State.next_eq_none hnil]
        exact nofun
  | cons b bound ih =>
      rw [List.length_cons] at hbound
      refine .branch (fun l s₁ _ => ?_) ?_ fun hnext => ?_
      · refine (PredictsAt.pure _).mono ?_ ?_
        · rintro _ rfl
          exact braced_nil
        · rintro x k ⟨hx, _⟩ _
          exact ⟨braced_closed hfirst hne hx, trivial⟩
      · rintro w k ⟨hw, _⟩ _ rfl
        exact hw.ne_nil rfl
      · refine predicts_item hitem hfollow (fun a s₁ hrun => ?_) hnext
        have hless := (hitem s).shorter hne hrun
        exact (ih (by omega)).map _

theorem predicts_listed (hitem : Predicts item C) (hne : ¬ C.phrase []) (hsome : ∃ x, C.phrase x)
    (hfollow : ∀ x, C.phrase x → C.follow x (some (.punct .rparen)) ∧ C.follow x (some (.punct .comma)))
    (hbound : s.tokens.length ≤ bound.length) : PredictsAt (listed item bound) (.closed (Listing C.phrase)) s := by
  obtain ⟨x₀, hx₀⟩ := hsome
  have hitems (s : State) {q : α → Parser (List α)} (hq : ∀ a s₁, item s = .ok a s₁ → PredictsAt (q a)
      (.closed fun y => y = [.punct .rparen] ∨ ∃ z, y = .punct .comma :: z ∧ Listing C.phrase z) s₁) :
      PredictsAt (item >>= q) (.closed (Listing C.phrase)) s := by
    refine (hitem s).bind hq ⟨_, .inl rfl⟩ ?_ ?_
    · rintro x y hx (rfl | ⟨z, rfl, hz⟩)
      · exact .last hx
      · exact .more hx hz
    · rintro w k ⟨hw, _⟩
      cases hw with
      | last hx => exact ⟨_, _, rfl, ⟨hx, (hfollow _ hx).1⟩, .inl rfl, trivial⟩
      | more hx hy => exact ⟨_, _, rfl, ⟨hx, (hfollow _ hx).2⟩, .inr ⟨_, rfl, hy⟩, trivial⟩
  induction bound generalizing s with
  | nil =>
      refine hitems s fun a s₁ hrun => ?_
      have hless := (hitem s).shorter hne hrun
      rw [List.length_eq_zero_iff.1 (Nat.le_zero.1 hbound)] at hless
      cases hless
  | cons b bound ih =>
      rw [List.length_cons] at hbound
      refine hitems s fun a s₁ hrun => ?_
      have hless := (hitem s).shorter hne hrun
      refine .branch (fun l s₂ _ => ?_) ?_ fun hnext => ?_
      · refine (PredictsAt.pure _).mono ?_ ?_
        · rintro _ rfl
          exact .inl rfl
        · rintro y k ⟨hy | ⟨z, hz, _⟩, _⟩ _
          · exact ⟨(List.cons.inj hy).2, trivial⟩
          · cases hz
      · rintro w k ⟨hw | ⟨z, hw, _⟩, _⟩ _ rfl <;> cases hw
      · have hmore : PredictsAt (expectPunct .comma >>= fun _ => listed item bound >>= fun xs => pure (a :: xs))
            (.closed fun y => ∃ z, y = .punct .comma :: z ∧ Listing C.phrase z) s₁ := by
          refine .expectPunct (fun l s₂ hs => ?_) ⟨_, _, rfl, .last hx₀⟩ ?_
          · have hone := hs.length_eq
            rw [List.length_singleton] at hone
            refine ((ih (by omega)).map _).mono (fun z hz => ⟨z, rfl, hz⟩) ?_
            rintro y k ⟨⟨z, hz, hlisting⟩, _⟩ _
            cases hz
            exact ⟨hlisting, trivial⟩
          · rintro _ ⟨z, rfl, _⟩
            rfl
        refine hmore.mono (fun y hy => .inr hy) ?_
        rintro y k ⟨rfl | hy, _⟩ hhead
        · exact absurd hhead.symm hnext
        · exact ⟨hy, trivial⟩

theorem predicts_parenthesized (hitem : Predicts item C) (hne : ¬ C.phrase []) (hsome : ∃ x, C.phrase x)
    (hfirst : ∀ x, C.phrase x → x.head? ≠ some (.punct .rparen))
    (hfollow : ∀ x, C.phrase x → C.follow x (some (.punct .rparen)) ∧ C.follow x (some (.punct .comma))) :
    Predicts (parenthesized item) (.closed (Tupled C.phrase)) := by
  have hnone {w : List Lexeme} (hw : Listing C.phrase w) : w.head? ≠ some (.punct .rparen) := by
    obtain ⟨x, hx, hhead⟩ := hw.exists_head hne
    rw [hhead]
    exact hfirst x hx
  intro s
  refine .branch (fun l s₁ _ => ?_) ?_ fun hnext => ?_
  · refine (PredictsAt.pure _).mono ?_ ?_
    · rintro _ rfl
      exact tupled_iff.2 (.inl rfl)
    · rintro y k ⟨hy, _⟩ _
      rcases tupled_iff.1 hy with hy | hy
      · exact ⟨(List.cons.inj hy).2, trivial⟩
      · exact absurd rfl (hnone hy)
  · rintro w k ⟨hw, _⟩ _ rfl
    rcases tupled_iff.1 hw with hw | hw
    · cases hw
    · obtain ⟨x, parts, hnil, _⟩ := hw.exists_parts
      simp at hnil
  · refine (predicts_listed hitem hne hsome hfollow (Nat.le_refl s.tokens.length)).bounded.mono ?_ ?_
    · exact fun x hx => tupled_iff.2 (.inr hx)
    · rintro y k ⟨hy, _⟩ hhead
      rcases tupled_iff.1 hy with rfl | hy
      · exact absurd hhead.symm hnext
      · exact ⟨hy, trivial⟩

end Loops

end Parser

end Backflow
