import Backflow.Proofs.Tiling

namespace Backflow.Lexer

/-- One of the tokens stands where the text goes on in the given way. -/
def Stray (P : List Char → Prop) (text : List Char) (ts : List Token) : Prop :=
  ∃ i < text.length, P (text.drop i) ∧ ∃ t ∈ ts, t.loc = .endOf (text.take i)

instance (P : List Char → Prop) [DecidablePred P] (text : List Char) (ts : List Token) : Decidable (Stray P text ts) :=
  inferInstanceAs (Decidable (∃ i < text.length, P (text.drop i) ∧ ∃ t ∈ ts, t.loc = .endOf (text.take i)))

/-- A slash and a star in the text are read as tokens, since nothing closes the comment. -/
def OpenBlock : List Char → List Token → Prop := Stray fun y => ['/', '*'] <+: y

/-- Two slashes in the text are read as tokens, since a carriage return breaks their line off, after the text. -/
def OpenLine : List Char → List Token → Prop := Stray fun y => ['/', '/'] <+: y ∧ OnLine y

instance (text : List Char) (ts : List Token) : Decidable (OpenBlock text ts) :=
  inferInstanceAs (Decidable (Stray (fun y => ['/', '*'] <+: y) text ts))

instance (text : List Char) (ts : List Token) : Decidable (OpenLine text ts) :=
  inferInstanceAs (Decidable (Stray (fun y => ['/', '/'] <+: y ∧ OnLine y) text ts))

variable {P : List Char → Prop} {s u x y line rest after before run text : List Char} {w : Lexeme} {ts us : List Token}

theorem stray_of_mem {t : Token} (ht : t ∈ ts) (hloc : t.loc = .endOf x) (hne : y ≠ []) (hy : P y) :
    Stray P (x ++ y) ts :=
  ⟨x.length, by simpa using List.length_pos_iff.2 hne, by simpa using hy, t, ht, by simpa using hloc⟩

theorem Stray.imp {Q : List Char → Prop} (h : Stray P text ts) (hPQ : ∀ y, P y → Q y) : Stray Q text ts := by
  obtain ⟨i, hi, hP, ht⟩ := h
  exact ⟨i, hi, hPQ _ hP, ht⟩

theorem Stray.mono (h : Stray P text ts) (hts : ts ⊆ us) : Stray P text us := by
  obtain ⟨i, hi, hP, t, ht, hloc⟩ := h
  exact ⟨i, hi, hP, t, hts ht, hloc⟩

/-- Two slashes begin no comment just if no line ends behind them before a carriage return. -/
theorem clear_line_iff : Clear ('/' :: '/' :: s) ↔ ∀ line rest, line ++ rest = s → OnLine line → ¬ EndsLine rest := by
  constructor
  · rintro h line rest rfl hline hends
    exact h _ _ (.line hline hends) rfl
  · rintro h piece rest hpiece heq
    cases hpiece with
    | blank hc =>
        cases heq
        cases hc
    | line hline hends =>
        cases heq
        exact h _ _ rfl hline hends
    | block => cases heq

theorem exists_first_close (h : ¬ Unclosed s) : ∃ text rest, s = text ++ '*' :: '/' :: rest ∧ Unclosed text := by
  rw [Unclosed, not_not] at h
  induction s with
  | nil => cases List.infix_nil.1 h
  | cons c s ih =>
      by_cases hfirst : ['*', '/'] <+: c :: s
      · obtain ⟨rest, hrest⟩ := hfirst
        exact ⟨[], rest, hrest.symm, by decide⟩
      · obtain ⟨text, rest, rfl, htext⟩ := ih ((List.infix_cons_iff.1 h).resolve_left hfirst)
        refine ⟨c :: text, rest, rfl, fun hclosed => ?_⟩
        rcases List.infix_cons_iff.1 hclosed with hfront | htail
        · exact hfirst (hfront.trans ⟨'*' :: '/' :: rest, rfl⟩)
        · exact htext htail

/-- A slash and a star begin no comment just if nothing closes it. -/
theorem clear_block_iff : Clear ('/' :: '*' :: s) ↔ Unclosed s := by
  constructor
  · intro h
    by_contra hclosed
    obtain ⟨text, rest, rfl, htext⟩ := exists_first_close hclosed
    exact h _ rest (.block htext) (by simp)
  · rintro h piece rest hpiece heq
    cases hpiece with
    | blank hc =>
        cases heq
        cases hc
    | line => cases heq
    | @block text _ htext =>
        cases heq
        exact h ⟨text, rest, by simp⟩

theorem Unclosed.append (h : Unclosed s) (hrest : Unclosed rest) (hhead : rest.head? ≠ some '/') :
    Unclosed (s ++ rest) := by
  induction s with
  | nil => exact hrest
  | cons c s ih =>
      have hs : Unclosed s := fun hclosed => h (List.infix_cons hclosed)
      intro hclosed
      rcases List.infix_cons_iff.1 hclosed with hfront | htail
      · obtain ⟨hc, hfront⟩ := List.cons_prefix_cons.1 hfront
        cases s with
        | nil =>
            obtain ⟨tail, rfl⟩ := hfront
            exact hhead rfl
        | cons d s =>
            obtain ⟨hd, _⟩ := List.cons_prefix_cons.1 hfront
            exact h ⟨[], s, by rw [← hc, ← hd]; rfl⟩
      · exact ih hs htail

theorem Unclosed.prepend (h : Unclosed rest) (hs : '*' ∉ s) : Unclosed (s ++ rest) :=
  fun hclosed => h (infix_of_not_mem hs hclosed)

theorem clear_line_change (h : Clear ('/' :: '/' :: (u ++ rest))) (hu : ¬ OnLine u) (s : List Char) :
    Clear ('/' :: '/' :: (u ++ ' ' :: s)) := by
  rw [clear_line_iff] at h ⊢
  intro line r heq hline hends
  rcases List.append_eq_append_iff.1 heq with ⟨v, rfl, hr⟩ | ⟨v, rfl, hv⟩
  · subst hr
    refine h line (v ++ rest) (List.append_assoc _ _ _).symm hline ?_
    cases v with
    | nil =>
        rw [List.append_nil] at hu
        exact absurd hline hu
    | cons c v =>
        rcases hends with hnil | ⟨tail, htail⟩ | ⟨tail, htail⟩
        · cases hnil
        · cases htail
          exact Or.inr (Or.inl ⟨v ++ rest, rfl⟩)
        · cases v with
          | nil => cases htail
          | cons d v =>
              cases htail
              exact Or.inr (Or.inr ⟨v ++ rest, rfl⟩)
  · exact hu fun c hc => hline c (List.mem_append_left _ hc)

theorem clear_line_insert (h : Clear ('/' :: '/' :: (u ++ rest))) (hu : OnLine u) (hrun : '\n' ∉ run) :
    Clear ('/' :: '/' :: (u ++ (run ++ ' ' :: rest))) := by
  have hassoc : u ++ (run ++ ' ' :: rest) = u ++ run ++ [' '] ++ rest := by simp
  have hfeed : '\n' ∉ u ++ run ++ [' '] := by
    simp only [List.mem_append, not_or]
    exact ⟨⟨fun hmem => (hu _ hmem).2 rfl, hrun⟩, by decide⟩
  rw [hassoc]
  rw [clear_line_iff] at h ⊢
  intro line r heq hline hends
  rcases List.append_eq_append_iff.1 heq with ⟨v, hv, rfl⟩ | ⟨v, rfl, rfl⟩
  · rw [hv] at hfeed
    cases v with
    | nil => exact h u rest rfl hu hends
    | cons c v =>
        rcases hends with hnil | ⟨tail, htail⟩ | ⟨tail, htail⟩
        · cases hnil
        · cases htail
          exact hfeed (List.mem_append_right _ List.mem_cons_self)
        · cases v with
          | nil =>
              cases htail
              exact absurd (List.append_inj_right' hv rfl) (by decide)
          | cons d v =>
              cases htail
              exact hfeed (List.mem_append_right _ (List.mem_cons_of_mem _ List.mem_cons_self))
  · refine h (u ++ v) r (List.append_assoc _ _ _) (List.forall_mem_append.2 ⟨hu, fun c hc => ?_⟩) hends
    exact hline c (List.mem_append_right _ hc)

theorem clear_before_space (h : Clear (y ++ rest)) (hy : y ≠ [])
    (hline : ∀ u, y = '/' :: '/' :: u → Clear ('/' :: '/' :: (u ++ ' ' :: s)))
    (hblock : ∀ u, y = '/' :: '*' :: u → Clear ('/' :: '*' :: (u ++ ' ' :: s))) : Clear (y ++ ' ' :: s) := by
  obtain ⟨c, y, rfl⟩ := List.exists_cons_of_ne_nil hy
  intro piece r hpiece heq
  cases hpiece with
  | blank hc =>
      cases heq
      exact h [c] (y ++ rest) (.blank hc) rfl
  | line htext hends =>
      cases y with
      | nil => cases heq
      | cons d y =>
          obtain ⟨rfl, rfl, htail⟩ : '/' = c ∧ '/' = d ∧ _ = y ++ ' ' :: s := by simpa using heq
          exact hline y rfl _ r (.line htext hends) (by rw [← htail]; rfl)
  | block htext =>
      cases y with
      | nil => cases heq
      | cons d y =>
          obtain ⟨rfl, rfl, htail⟩ : '/' = c ∧ '*' = d ∧ _ = y ++ ' ' :: s := by simpa using heq
          exact hblock y rfl _ r (.block htext) (by rw [← htail]; simp)

theorem Trivia.append (h : Trivia run (x ++ after)) (h' : Trivia x after) : Trivia (run ++ x) after := by
  generalize hafter : x ++ after = z at h
  induction h with
  | nil => exact h'
  | cons hpiece _ ih =>
      subst hafter
      rw [List.append_assoc]
      exact .cons (by rwa [List.append_assoc]) (ih rfl)

theorem Tiles.prepend (hrun : Trivia run (y ++ after)) (h : Tiles after (before ++ run) ts y) :
    Tiles after before ts (run ++ y) := by
  generalize hbefore : before ++ run = z at h
  cases h with
  | trivia hy => exact .trivia (hrun.append hy)
  | @token _ run' rest t ts hrun' hloc hstands hrest =>
      subst hbefore
      rw [List.append_assoc, List.append_assoc] at hrun
      rw [List.append_assoc] at hloc
      rw [← List.append_assoc]
      refine .token (hrun.append hrun') hloc hstands ?_
      simpa only [List.append_assoc] using hrest

theorem Tiles.append (h : Tiles (y ++ after) before ts x) (h' : Tiles after (before ++ x) us y) :
    Tiles after before (ts ++ us) (x ++ y) := by
  induction h with
  | trivia hrun => exact h'.prepend hrun
  | @token before run rest t ts hrun hloc hstands _ ih =>
      rw [List.append_assoc, List.append_assoc]
      rw [← List.append_assoc rest] at hrun hstands
      refine .token hrun hloc hstands (ih ?_)
      simpa only [List.append_assoc] using h'

theorem Tiles.move (h : Tiles after before ts text) (x : List Char) :
    ∃ us, words us = words ts ∧ Tiles after x us text := by
  induction h generalizing x with
  | trivia hrun => exact ⟨[], rfl, .trivia hrun⟩
  | @token before run rest t ts hrun hloc hstands _ ih =>
      obtain ⟨us, hwords, hus⟩ := ih (x ++ run ++ t.lexeme.text.toList)
      exact ⟨⟨t.lexeme, .endOf (x ++ run)⟩ :: us, by simp [hwords], .token hrun rfl hstands hus⟩

theorem not_endsLine (hclear : Clear s) (hs : s ≠ []) : ¬ EndsLine s := by
  have hblank {c : Char} {u : List Char} (hc : c.isWhitespace = true) (hu : c :: u = s) : False :=
    hclear [c] u (.blank hc) hu
  rintro (hnil | ⟨u, hu⟩ | ⟨u, hu⟩)
  · exact hs hnil
  · exact hblank (c := '\n') rfl hu
  · exact hblank (c := '\r') rfl hu

theorem Trivia.change (h : Trivia run after) (hclear : Clear after) (hafter : after ≠ []) (s : List Char) :
    Trivia run s := by
  induction h with
  | nil => exact .nil
  | @cons piece run after hpiece _ ih =>
      refine .cons ?_ (ih hclear hafter)
      cases hpiece with
      | blank hc => exact .blank hc
      | block htext => exact .block htext
      | line htext hends =>
          refine .line htext ?_
          cases run with
          | nil => exact absurd hends (not_endsLine hclear hafter)
          | cons c run =>
              rcases hends with hnil | ⟨u, hu⟩ | ⟨u, hu⟩
              · cases hnil
              · cases hu
                exact Or.inr (Or.inl ⟨run ++ s, rfl⟩)
              · cases run with
                | nil =>
                    cases hu
                    exact absurd (Or.inr (Or.inl ⟨u, rfl⟩)) (not_endsLine hclear hafter)
                | cons d run =>
                    cases hu
                    exact Or.inr (Or.inr ⟨run ++ s, rfl⟩)

theorem not_prolongs_space (w : Lexeme) : ¬ Prolongs w ' ' := by
  cases w with
  | ident | keyword => rintro (h | h) <;> cases h
  | int => exact Bool.false_ne_true
  | punct p =>
      rintro ⟨q, hq⟩
      have hmem : ' ' ∈ q.chars := hq ▸ List.mem_append_right _ List.mem_cons_self
      revert hmem
      cases q <;> decide

theorem Stands.before_space (h : Stands w (rest ++ after)) (hclear : Clear (w.text.toList ++ (rest ++ ' ' :: s))) :
    Stands w (rest ++ ' ' :: s) := by
  refine ⟨h.valid, h.keyword, ?_, hclear⟩
  cases rest with
  | nil => simpa using not_prolongs_space w
  | cons c rest => exact h.longest

theorem Tiles.before_space (h : Tiles after before ts text) (hclear : Clear after) (hafter : after ≠ [])
    (hkeep : ¬ Stray (fun y => ¬ Clear (y ++ ' ' :: s)) (before ++ text) ts) : Tiles (' ' :: s) before ts text := by
  induction h with
  | trivia hrun => exact .trivia (hrun.change hclear hafter _)
  | @token before run rest t ts hrun hloc hstands _ ih =>
      have hne : t.lexeme.text.toList ≠ [] := text_ne_nil hstands.valid
      rw [← List.append_assoc] at hkeep
      refine .token (hrun.change hstands.clear (by simp [hne]) _) hloc (hstands.before_space ?_) (ih ?_)
      · by_contra hnot
        rw [← List.append_assoc] at hnot
        exact hkeep (stray_of_mem List.mem_cons_self hloc (by simp [hne]) hnot)
      · intro hrest
        rw [List.append_assoc _ _ rest] at hrest
        exact hkeep (hrest.mono (List.subset_cons_self _ _))

/-- Blanks and comments that begin with a space may be put before a token. -/
theorem lex_insert {source rest : String} {s : TokenStream} (h : lex (source ++ rest) = .ok s)
    (hplace : ∃ t ∈ s.tokens, t.loc = .endOf source.toList) (filler : String) {run : List Char}
    (hfiller : filler.toList = ' ' :: run) (hrun : Trivia (' ' :: run) rest.toList)
    (hkeep : ¬ Stray (fun y => ¬ Clear (y ++ ' ' :: (run ++ rest.toList))) source.toList s.tokens) :
    ∃ s', lex (source ++ filler ++ rest) = .ok s' ∧ words s'.tokens = words s.tokens := by
  obtain ⟨t, ht, hplace⟩ := hplace
  obtain ⟨early, late, x, y, hts, htext, hloc, hstands, hearly, hlate⟩ := (lex_eq_ok_iff.1 h).1.split ht
  rw [String.toList_append] at htext
  -- The token is the first one of `rest`, since no other beginning of the text ends at its place.
  obtain rfl := Location.eq_of_endOf_eq htext (hplace.symm.trans hloc)
  have hrest := List.append_cancel_left htext
  have hne : t.lexeme.text.toList ++ (y ++ []) ≠ [] := by simp [text_ne_nil hstands.valid]
  have hfirst : Tiles (' ' :: run ++ rest.toList ++ []) [] early source.toList := by
    rw [List.append_nil]
    exact hearly.before_space hstands.clear hne fun hstray => hkeep (hstray.mono (hts ▸ List.subset_append_left _ _))
  have hnext : Tiles [] source.toList (t :: late) rest.toList := by
    rw [hrest]
    have hnil : Trivia [] (t.lexeme.text.toList ++ (y ++ [])) := .nil
    exact .token hnil (by simpa using hloc) hstands (by simpa using hlate)
  obtain ⟨us, hwords, hus⟩ := hnext.move (source.toList ++ ' ' :: run)
  have hlast := hus.prepend (by rwa [List.append_nil])
  refine ⟨⟨early ++ us, .endOf _⟩, lex_eq_ok_iff.2 ⟨?_, rfl⟩, ?_⟩
  · simpa [hfiller] using hfirst.append hlast
  · rw [hts, words_append, words_append, hwords]

theorem not_stray_of_lex {source rest : String} {s : TokenStream} (h : lex (source ++ rest) = .ok s) (run : List Char)
    (hline : ∀ u, Stray (· = '/' :: '/' :: u) source.toList s.tokens → Clear ('/' :: '/' :: (u ++ rest.toList)) →
      Clear ('/' :: '/' :: (u ++ ' ' :: run)))
    (hblock : ∀ u, Stray (· = '/' :: '*' :: u) source.toList s.tokens → Clear ('/' :: '*' :: (u ++ rest.toList)) →
      Clear ('/' :: '*' :: (u ++ ' ' :: run))) :
    ¬ Stray (fun y => ¬ Clear (y ++ ' ' :: run)) source.toList s.tokens := by
  rintro ⟨i, hi, hnot, t, ht, hloc⟩
  obtain ⟨_, _, x, y, _, htext, hx, hstands, _, _⟩ := (lex_eq_ok_iff.1 h).1.split ht
  rw [String.toList_append, ← List.take_append_drop i source.toList, List.append_assoc] at htext
  obtain rfl := Location.eq_of_endOf_eq htext (hloc.symm.trans hx)
  have hclear : Clear (source.toList.drop i ++ rest.toList) := by
    rw [List.append_cancel_left htext]
    simpa using hstands.clear
  refine hnot (clear_before_space hclear (by simpa using hi) (fun u hu => ?_) fun u hu => ?_)
  · exact hline u ⟨i, hi, hu, t, ht, hloc⟩ (by rwa [hu] at hclear)
  · exact hblock u ⟨i, hi, hu, t, ht, hloc⟩ (by rwa [hu] at hclear)

theorem trivia_line {c : List Char} (hfeed : '\n' ∉ c) (hreturn : '\r' ∉ c.dropLast) (rest : List Char) :
    Trivia (' ' :: '/' :: '/' :: (c ++ ['\n'])) rest := by
  have hend : Trivia ['\n'] rest := .cons (.blank rfl) .nil
  refine .cons (.blank (c := ' ') rfl) ?_
  by_cases hc : '\r' ∈ c
  · obtain ⟨u, v, rfl, hu⟩ := List.eq_append_cons_of_mem hc
    obtain rfl : v = [] := by
      by_contra hv
      rw [List.dropLast_append_cons, List.dropLast_cons_of_ne_nil hv] at hreturn
      exact hreturn (List.mem_append_right _ List.mem_cons_self)
    have hline : OnLine u := fun d hd => ⟨fun hr => hu (hr ▸ hd), fun hn => hfeed (hn ▸ List.mem_append_left _ hd)⟩
    have hreturn : Trivia ['\r', '\n'] rest := .cons (.blank (c := '\r') rfl) hend
    have hpiece : Trivium ('/' :: '/' :: u) ('\r' :: '\n' :: rest) := .line hline (Or.inr (Or.inr ⟨rest, rfl⟩))
    rw [List.append_assoc]
    exact .cons hpiece hreturn
  · have hline : OnLine c := fun d hd => ⟨fun hr => hc (hr ▸ hd), fun hn => hfeed (hn ▸ hd)⟩
    have hpiece : Trivium ('/' :: '/' :: c) ('\n' :: rest) := .line hline (Or.inr (Or.inl ⟨rest, rfl⟩))
    exact .cons hpiece hend

theorem trivia_block {c : List Char} (hc : Unclosed c) (rest : List Char) :
    Trivia (' ' :: '/' :: '*' :: (c ++ ['*', '/', ' '])) rest := by
  have hend : Trivia [' '] rest := .cons (.blank rfl) .nil
  have hpiece : Trivium ('/' :: '*' :: (c ++ ['*', '/'])) (' ' :: rest) := .block hc
  have hblock : Trivia _ rest := .cons hpiece hend
  rw [List.cons_append, List.cons_append, List.append_assoc] at hblock
  exact .cons (.blank (c := ' ') rfl) hblock

theorem Stray.openLine {text : List Char} {ts : List Token} (h : Stray (· = '/' :: '/' :: u) text ts)
    (hu : OnLine u) : OpenLine text ts := by
  refine h.imp fun y hy => ?_
  subst hy
  exact ⟨⟨u, rfl⟩, by simpa [OnLine] using hu⟩

theorem Stray.openBlock (h : Stray (· = '/' :: '*' :: u) text ts) : OpenBlock text ts :=
  h.imp fun _ hy => ⟨u, hy.symm⟩

theorem clear_block_line {c : List Char} (h : Clear ('/' :: '*' :: (u ++ rest))) (hc : Unclosed c) :
    Clear ('/' :: '*' :: (u ++ ' ' :: ('/' :: '/' :: (c ++ ['\n']) ++ rest))) := by
  rw [clear_block_iff] at h ⊢
  have hu : Unclosed u := fun hclosed => h (hclosed.trans (List.prefix_append _ _).isInfix)
  have hrest : Unclosed rest := fun hclosed => h (hclosed.trans (List.suffix_append _ _).isInfix)
  have hfeed : Unclosed ('\n' :: rest) := hrest.prepend (s := ['\n']) (by decide)
  have hline : Unclosed (' ' :: '/' :: '/' :: (c ++ '\n' :: rest)) :=
    (hc.append hfeed (by simp)).prepend (s := [' ', '/', '/']) (by decide)
  simpa using hu.append hline (by simp)

/-- A comment put before a token does not change what is read, as long as it completes no earlier one. A line comment,
which has no carriage return but at its end, would complete one on the same line that a later carriage return breaks
off, and may close one that was left open. A block comment would close the latter, and may complete the former with a
line feed. -/
theorem lex_commented {source rest c : String} {s : TokenStream} (h : lex (source ++ rest) = .ok s)
    (hplace : ∃ t ∈ s.tokens, t.loc = .endOf source.toList) :
    ('\n' ∉ c.toList → '\r' ∉ c.toList.dropLast → ¬ OpenLine source.toList s.tokens →
      (OpenBlock source.toList s.tokens → ¬ ['*', '/'] <:+: c.toList) →
        ∃ s', lex (source ++ " //" ++ c ++ "\n" ++ rest) = .ok s' ∧ words s'.tokens = words s.tokens) ∧
    (¬ ['*', '/'] <:+: c.toList → ¬ OpenBlock source.toList s.tokens →
      (OpenLine source.toList s.tokens → '\n' ∉ c.toList) →
        ∃ s', lex (source ++ " /*" ++ c ++ "*/ " ++ rest) = .ok s' ∧ words s'.tokens = words s.tokens) := by
  constructor
  · intro hfeed hreturn hnone hclose
    have hrun := trivia_line hfeed hreturn rest.toList
    have hkeep := not_stray_of_lex h ('/' :: '/' :: (c.toList ++ ['\n']) ++ rest.toList)
      (fun u hu hclear => clear_line_change hclear (fun hon => hnone (hu.openLine hon)) _)
      fun u hu hclear => clear_block_line hclear (hclose hu.openBlock)
    simpa only [String.append_assoc] using lex_insert h hplace (" //" ++ c ++ "\n") (by simp) hrun hkeep
  · intro hc hnone hfeed
    have hrun := trivia_block hc rest.toList
    have hkeep := not_stray_of_lex h ('/' :: '*' :: (c.toList ++ ['*', '/', ' ']) ++ rest.toList)
      (fun u hu hclear => ?_) fun u hu _ => absurd hu.openBlock hnone
    · simpa only [String.append_assoc] using lex_insert h hplace (" /*" ++ c ++ "*/ ") (by simp) hrun hkeep
    · by_cases hon : OnLine u
      · have hline : '\n' ∉ ' ' :: '/' :: '*' :: (c.toList ++ ['*', '/']) := by
          simpa using hfeed (hu.openLine hon)
        simpa using clear_line_insert hclear hon hline
      · exact clear_line_change hclear hon _

/-- A quotient with two slashes that a carriage return keeps from being a comment. -/
def quotient : TokenStream :=
  ⟨[⟨.ident "a", ⟨1, 1⟩⟩, ⟨.punct .slash, ⟨1, 3⟩⟩, ⟨.punct .slash, ⟨1, 4⟩⟩, ⟨.ident "b", ⟨1, 5⟩⟩,
    ⟨.punct .slash, ⟨1, 7⟩⟩, ⟨.ident "c", ⟨1, 9⟩⟩], ⟨1, 10⟩⟩

theorem lex_commented_quotient : lex ("a //b\r/ " ++ "c") = .ok quotient ∧
    (∃ t ∈ quotient.tokens, t.loc = .endOf "a //b\r/ ".toList) ∧
    ¬ OpenLine "a //b\r/ ".toList quotient.tokens ∧ ¬ OpenBlock "a //b\r/ ".toList quotient.tokens ∧
    (∃ s, lex ("a //b\r/ " ++ " //" ++ "*/ d\r" ++ "\n" ++ "c") = .ok s ∧ words s.tokens = words quotient.tokens) ∧
    ∃ s, lex ("a //b\r/ " ++ " /*" ++ "// \r*\n*" ++ "*/ " ++ "c") = .ok s ∧
      words s.tokens = words quotient.tokens := by
  have hlex : lex ("a //b\r/ " ++ "c") = .ok quotient := by decide +kernel
  have hplace : ∃ t ∈ quotient.tokens, t.loc = .endOf "a //b\r/ ".toList := by decide +kernel
  have hline : ¬ OpenLine "a //b\r/ ".toList quotient.tokens := by decide +kernel
  have hblock : ¬ OpenBlock "a //b\r/ ".toList quotient.tokens := by decide +kernel
  obtain ⟨hcomment, _⟩ := lex_commented (c := "*/ d\r") hlex hplace
  obtain ⟨_, hremark⟩ := lex_commented (c := "// \r*\n*") hlex hplace
  exact ⟨hlex, hplace, hline, hblock,
    hcomment (by decide +kernel) (by decide +kernel) hline fun hopen => absurd hopen hblock,
    hremark (by decide +kernel) hblock fun hopen => absurd hopen hline⟩

/-- A line comment with a carriage return inside is read as tokens, and a block comment closes one that was open and
read as tokens before. -/
theorem lex_commented_otherwise :
    (∃ s s', lex ("" ++ "x") = .ok s ∧ (∃ t ∈ s.tokens, t.loc = .endOf "".toList) ∧ '\n' ∉ "a\rb".toList ∧
      lex ("" ++ " //" ++ "a\rb" ++ "\n" ++ "x") = .ok s' ∧ words s'.tokens ≠ words s.tokens) ∧
    ∃ s s', lex ("/* " ++ "x") = .ok s ∧ (∃ t ∈ s.tokens, t.loc = .endOf "/* ".toList) ∧
      ¬ ['*', '/'] <:+: "c".toList ∧ lex ("/* " ++ " /*" ++ "c" ++ "*/ " ++ "x") = .ok s' ∧
        words s'.tokens ≠ words s.tokens := by
  refine ⟨⟨⟨[⟨.ident "x", ⟨1, 1⟩⟩], ⟨1, 2⟩⟩, ⟨[⟨.punct .slash, ⟨1, 2⟩⟩, ⟨.punct .slash, ⟨1, 3⟩⟩, ⟨.ident "a", ⟨1, 4⟩⟩,
      ⟨.ident "b", ⟨1, 6⟩⟩, ⟨.ident "x", ⟨2, 1⟩⟩], ⟨2, 2⟩⟩, ?_⟩,
    ⟨[⟨.punct .slash, ⟨1, 1⟩⟩, ⟨.punct .star, ⟨1, 2⟩⟩, ⟨.ident "x", ⟨1, 4⟩⟩], ⟨1, 5⟩⟩,
      ⟨[⟨.ident "x", ⟨1, 11⟩⟩], ⟨1, 12⟩⟩, ?_⟩
  · decide +kernel
  · decide +kernel

end Backflow.Lexer
