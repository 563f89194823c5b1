import Backflow.Proofs.CursorParser
import Backflow.Proofs.FirstOffence

namespace Backflow

namespace Cursor

def state (c : Cursor) : Parser.State := ⟨c.tokens.drop c.pos, c.stop, c.nextId⟩

def history (c : Cursor) : List (Nat × Nat) := (c.pos, c.depth) :: c.trail

/-- At no time was the position beyond the end of the text or the depth beyond the limit, and the position never
went back. -/
structure Sane (c : Cursor) : Prop where
  within : ∀ x ∈ c.history, x.1 ≤ c.tokens.length ∧ x.2 ≤ maxDepth
  forward : (c.history.map Prod.fst).Pairwise (· ≥ ·)

/-- The cursor `c'` is what a sane run has made of `c`. -/
structure Reaches (c c' : Cursor) : Prop where
  tokens : c'.tokens = c.tokens
  stop : c'.stop = c.stop
  sane : c'.Sane
  history : c.history <:+ c'.history

variable {c c₁ c₂ : Cursor} {t : Token} {x : Lexeme}

theorem sane_ofStream (s : TokenStream) : (ofStream s).Sane := by
  refine ⟨?_, List.pairwise_singleton _ _⟩
  rintro x (_ | ⟨_, ⟨⟩⟩)
  exact ⟨Nat.zero_le _, Nat.zero_le _⟩

theorem Sane.pos_le (h : c.Sane) : c.pos ≤ c.tokens.length := (h.within _ List.mem_cons_self).1

theorem Sane.reaches (h : c.Sane) : c.Reaches c := ⟨rfl, rfl, h, List.suffix_refl _⟩

theorem Reaches.trans (h : c.Reaches c₁) (h' : c₁.Reaches c₂) : c.Reaches c₂ :=
  ⟨h'.tokens.trans h.tokens, h'.stop.trans h.stop, h'.sane, h.history.trans h'.history⟩

theorem Reaches.pos_le (h : c.Reaches c₁) : c.pos ≤ c₁.pos := by
  have hmem : (c.pos, c.depth) ∈ c₁.history := h.history.subset List.mem_cons_self
  rcases List.mem_cons.1 hmem with heq | htrail
  · exact Nat.le_of_eq (congrArg Prod.fst heq)
  · have hforward := List.pairwise_cons.1 h.sane.forward
    exact hforward.1 _ (List.mem_map_of_mem htrail)

theorem Reaches.length_le (h : c.Reaches c₁) : c₁.state.tokens.length ≤ c.state.tokens.length := by
  have hpos := h.pos_le
  simp only [state, List.length_drop, h.tokens]
  omega

theorem Sane.moved (h : c.Sane) {p d : Nat} (hpos : c.pos ≤ p) (hp : p ≤ c.tokens.length) (hd : d ≤ maxDepth) :
    c.Reaches (c.moved p d) := by
  refine ⟨rfl, rfl, ⟨List.forall_mem_cons.2 ⟨⟨hp, hd⟩, h.within⟩, ?_⟩, List.suffix_cons _ _⟩
  refine List.pairwise_cons.2 ⟨fun q hq => ?_, h.forward⟩
  rcases List.mem_cons.1 hq with rfl | hq
  · exact hpos
  · exact Nat.le_trans ((List.pairwise_cons.1 h.forward).1 q hq) hpos

theorem state_tokens_getElem? (c : Cursor) (n : Nat) : c.state.tokens[n]? = c.token? n := List.getElem?_drop

theorem state_head? (c : Cursor) : c.state.tokens.head? = c.token? 0 := by
  rw [← state_tokens_getElem?, List.head?_eq_getElem?]

theorem token?_eq_none (h : c.state.tokens = []) : c.token? 0 = none := by
  rw [← state_head?, h]
  rfl

theorem peek_eq (c : Cursor) (n : Nat) : c.peek n = (words c.state.tokens)[n]? := by
  rw [words, List.getElem?_map, state_tokens_getElem?, peek]

theorem state_here (c : Cursor) : c.state.here = c.here := by
  rw [Parser.State.here, here, ← state_head?]
  cases c.state.tokens <;> rfl

theorem state_next (c : Cursor) : c.state.next = c.peek 0 := by
  rw [Parser.State.next, words, List.head?_map, state_head?]
  rfl

theorem tokens_of_token? (h : c.token? 0 = some t) : c.state.tokens = t :: (c.skip 1).state.tokens := by
  obtain ⟨hlt, rfl⟩ := List.getElem?_eq_some_iff.1 h
  exact List.drop_eq_getElem_cons hlt

theorem Sane.skip (h : c.Sane) {n : Nat} (hn : c.pos + n ≤ c.tokens.length) : c.Reaches (c.skip n) :=
  h.moved (Nat.le_add_right _ _) hn (h.within _ List.mem_cons_self).2

theorem lt_of_token? {n : Nat} (h : c.token? n = some t) : c.pos + n < c.tokens.length :=
  (List.getElem?_eq_some_iff.1 h).1

theorem exists_token? {n : Nat} (h : c.peek n = some x) : ∃ l, c.token? n = some ⟨x, l⟩ := by
  obtain ⟨t, ht, rfl⟩ := Option.map_eq_some_iff.1 h
  exact ⟨t.loc, ht⟩

theorem peek_of_token? {n : Nat} (h : c.token? n = some t) : c.peek n = some t.lexeme := by
  rw [peek, h]
  rfl

theorem passes_skip (h : c.peek 0 = some x) : c.state.Passes [x] (c.skip 1).state := by
  obtain ⟨l, ht⟩ := exists_token? h
  refine ⟨[⟨x, l⟩], rfl, ?_⟩
  rw [List.singleton_append, ← tokens_of_token? ht]
  rfl

end Cursor

namespace CursorParser

variable {α β : Type} {c c' : Cursor} {d room : Nat} {m m' : Nat → CursorParser α} {p p' : Parser α}

/-- The run ends with `x`, however deep loops and calls may go beyond some bound. -/
def Ends (f : Nat → Cursor → Option β) (c : Cursor) (x : β) : Prop := ∃ bound, ∀ n, bound ≤ n → f n c = some x

def outcome : Except SyntaxError α × Cursor → EStateM.Result SyntaxError Parser.State α
  | (.ok a, c) => .ok a c.state
  | (.error e, c) => .error e c.state

/-- From `c`, the run of `m` ends, with the outcome of `p`, and it is sane and ends at the depth of `c`. -/
def Follows (m : Nat → CursorParser α) (p : Parser α) (c : Cursor) : Prop :=
  c.Sane → ∃ r c', Ends m c (r, c') ∧ p c.state = outcome (r, c') ∧ c.Reaches c' ∧ c'.depth = c.depth

def Tracks (d : Nat) (m : Nat → CursorParser α) (p : Parser α) : Prop := ∀ c : Cursor, c.depth = d → Follows m p c

section Runs

variable {x : CursorParser α} {k : α → CursorParser β}

theorem bind_of_ok {a : α} (h : x c = some (.ok a, c')) : (x >>= k) c = k a c' := by
  change (x c).bind _ = _
  rw [h]
  rfl

theorem bind_of_error {e : SyntaxError} (h : x c = some (.error e, c')) : (x >>= k) c = some (.error e, c') := by
  change (x c).bind _ = _
  rw [h]
  rfl

theorem nested_of_lt {r : Except SyntaxError α} (hd : c.depth < maxDepth)
    (h : x (c.moved c.pos (c.depth + 1)) = some (r, c')) : nested x c = some (r, c'.moved c'.pos (c'.depth - 1)) := by
  have henter : enter c = some (.ok (), c.moved c.pos (c.depth + 1)) := if_neg (by omega)
  refine (bind_of_ok henter).trans ?_
  change (x _).bind _ = _
  rw [h]
  rfl

theorem nested_of_eq (hd : c.depth = maxDepth) : nested x c = some (.error (.tooDeep c.here), c) :=
  bind_of_error (if_pos (Nat.le_of_eq hd.symm))

end Runs

section Ends

variable {f g : Nat → Cursor → Option β} {x : β}

theorem Ends.of_forall (h : ∀ n, f n c = some x) : Ends f c x := ⟨0, fun n _ => h n⟩

theorem Ends.congr (h : Ends g c' x) (hf : ∀ n, f n c = g n c') : Ends f c x := by
  obtain ⟨bound, hbound⟩ := h
  exact ⟨bound, fun n hn => (hf n).trans (hbound n hn)⟩

theorem Ends.succ (h : Ends (fun n => f (n + 1)) c x) : Ends f c x := by
  obtain ⟨bound, hbound⟩ := h
  refine ⟨bound + 1, fun n hn => ?_⟩
  obtain ⟨n, rfl⟩ := Nat.exists_eq_succ_of_ne_zero (Nat.ne_of_gt (Nat.lt_of_lt_of_le (Nat.succ_pos bound) hn))
  exact hbound n (Nat.le_of_succ_le_succ hn)

end Ends

theorem Ends.bind {k : α → Nat → CursorParser β} {a : α} {y : Except SyntaxError β × Cursor}
    (h : Ends m c (.ok a, c')) (hk : Ends (k a) c' y) : Ends (fun n => m n >>= fun a => k a n) c y := by
  obtain ⟨bound, hbound⟩ := h
  obtain ⟨bound', hbound'⟩ := hk
  refine ⟨max bound bound', fun n hn => ?_⟩
  have hle := Nat.max_le.1 hn
  exact (bind_of_ok (hbound n hle.1)).trans (hbound' n hle.2)

theorem Follows.bind {k : α → Nat → CursorParser β} {q : α → Parser β} (hm : Follows m p c)
    (hk : ∀ a c', c.Reaches c' → c'.depth = c.depth → p c.state = .ok a c'.state → Follows (k a) (q a) c') :
    Follows (fun n => m n >>= fun a => k a n) (p >>= q) c := by
  intro hc
  obtain ⟨r, c', hrun, hp, hreach, hdepth⟩ := hm hc
  cases r with
  | error e =>
      obtain ⟨bound, hbound⟩ := hrun
      exact ⟨.error e, c', ⟨bound, fun n hn => bind_of_error (hbound n hn)⟩, Backflow.bind_of_error hp, hreach, hdepth⟩
  | ok a =>
      obtain ⟨r, c₂, hrun₂, hq, hreach₂, hdepth₂⟩ := hk a c' hreach hdepth hp hreach.sane
      refine ⟨r, c₂, hrun.bind hrun₂, ?_, hreach.trans hreach₂, hdepth₂.trans hdepth⟩
      rw [Backflow.bind_of_ok hp, hq]

theorem Follows.succ (h : Follows (fun n => m (n + 1)) p c) : Follows m p c := by
  intro hc
  obtain ⟨r, c', hrun, hrest⟩ := h hc
  exact ⟨r, c', hrun.succ, hrest⟩

theorem Follows.congr (h : Follows m' p' c) (hm : ∀ n, m n c = m' n c) (hp : p c.state = p' c.state) :
    Follows m p c := by
  intro hc
  obtain ⟨r, c', hrun, hp', hrest⟩ := h hc
  exact ⟨r, c', hrun.congr hm, hp.trans hp', hrest⟩

theorem Follows.jump {k : Nat} (hk : c.pos + k ≤ c.tokens.length) (h : Follows m' p' (c.skip k))
    (hm : ∀ n, m n c = m' n (c.skip k)) (hp : p c.state = p' (c.skip k).state) : Follows m p c := by
  intro hc
  have hskip := hc.skip hk
  obtain ⟨r, c', hrun, hp', hreach, hdepth⟩ := h hskip.sane
  exact ⟨r, c', hrun.congr hm, hp.trans hp', hskip.trans hreach, hdepth⟩

theorem Tracks.bind {k : α → Nat → CursorParser β} {q : α → Parser β} (hm : Tracks d m p)
    (hk : ∀ a, Tracks d (k a) (q a)) : Tracks d (fun n => m n >>= fun a => k a n) (p >>= q) :=
  fun c hc => (hm c hc).bind fun a c' _ hdepth _ => hk a c' (hdepth.trans hc)

theorem Tracks.succ (h : Tracks d (fun n => m (n + 1)) p) : Tracks d m p := fun c hc => (h c hc).succ

theorem Follows.ite {b : Prop} [Decidable b] (hm : b → Follows m p c) (hm' : ¬ b → Follows m' p' c) :
    Follows (fun n => if b then m n else m' n) (if b then p else p') c := by
  by_cases hb : b
  · simpa only [if_pos hb] using hm hb
  · simpa only [if_neg hb] using hm' hb

theorem Tracks.ite {b : Prop} [Decidable b] (hm : Tracks d m p) (hm' : Tracks d m' p') :
    Tracks d (fun n => if b then m n else m' n) (if b then p else p') :=
  fun c hc => .ite (fun _ => hm c hc) fun _ => hm' c hc

theorem follows_look {a : α} (hm : ∀ n, m n c = some (.ok a, c)) (hp : p c.state = .ok a c.state) : Follows m p c :=
  fun hc => ⟨.ok a, c, .of_forall hm, hp, hc.reaches, rfl⟩

theorem follows_error {e : SyntaxError} (hm : ∀ n, m n c = some (.error e, c)) (hp : p c.state = .error e c.state) :
    Follows m p c :=
  fun hc => ⟨.error e, c, .of_forall hm, hp, hc.reaches, rfl⟩

theorem follows_step {r : Except SyntaxError α} {t : Token} (ht : c.token? 0 = some t)
    (hm : ∀ n, m n c = some (r, c.skip 1)) (hp : p c.state = outcome (r, c.skip 1)) : Follows m p c :=
  fun hc => ⟨r, c.skip 1, .of_forall hm, hp, hc.skip (Cursor.lt_of_token? ht), rfl⟩

theorem follows_pure (a : α) : Follows (fun _ => pure a) (pure a) c := follows_look (fun _ => rfl) rfl

theorem Tracks.pure (a : α) : Tracks d (fun _ => Pure.pure a) (Pure.pure a) := fun _ _ => follows_pure a

theorem Follows.cases (hnone : c.token? 0 = none → c.state.tokens = [] → Follows m p c)
    (hsome : ∀ t, c.token? 0 = some t → c.state.tokens = t :: (c.skip 1).state.tokens → Follows m p c) :
    Follows m p c := by
  cases ht : c.token? 0 with
  | none =>
      refine hnone ht (List.head?_eq_none_iff.1 ?_)
      rw [Cursor.state_head?, ht]
  | some t => exact hsome t ht (Cursor.tokens_of_token? ht)

theorem tracks_here : Tracks d (fun _ => here) Parser.here := by
  intro c _
  refine follows_look (fun _ => rfl) ?_
  rw [Parser.here, Cursor.state_here]

theorem tracks_fail (e : Expected) : Tracks d (fun _ => (fail e : CursorParser α)) (Parser.fail e) := by
  intro c _
  refine follows_error (fun _ => rfl) ?_
  rw [Parser.fail, Cursor.state_here, Cursor.state_head?]

theorem eat_step {x : Lexeme} (h : c.peek 0 = some x) : eat x c = some (.ok true, c.skip 1) := if_pos h

theorem eat_stay {x : Lexeme} (h : c.peek 0 ≠ some x) : eat x c = some (.ok false, c) := if_neg h

theorem eat_end {x : Lexeme} (h : c.state.tokens = []) : eat x c = some (.ok false, c) := by
  apply eat_stay
  rw [Cursor.peek, Cursor.token?_eq_none h]
  exact nofun

theorem eat_shorter {x : Lexeme} {s s' : Parser.State} (h : Parser.eat x s = .ok true s') :
    s'.tokens.length < s.tokens.length := by
  unfold Parser.eat at h
  split at h
  case h_1 t rest htokens =>
    split at h
    · cases h
      rw [htokens]
      exact Nat.lt_succ_self _
    · cases h
  case h_2 => cases h

theorem tracks_eat (x : Lexeme) : Tracks d (fun _ => eat x) (Parser.eat x) := by
  intro c _
  by_cases hx : c.peek 0 = some x
  · obtain ⟨l, ht⟩ := Cursor.exists_token? hx
    exact follows_step ht (fun _ => eat_step hx) (Parser.eat_pass (Cursor.passes_skip hx))
  · refine follows_look (fun _ => eat_stay hx) (Parser.eat_other ?_)
    rwa [Cursor.state_next]

theorem tracks_sees (x : Lexeme) : Tracks d (fun _ => sees x) (Parser.sees x) := by
  intro c _
  refine follows_look (fun _ => rfl) ?_
  rw [Parser.sees_eq, Cursor.state_next]

theorem tracks_expectPunct (x : Punct) : Tracks d (fun _ => expectPunct x) (Parser.expectPunct x) :=
  (tracks_eat _).bind fun _ => (Tracks.pure _).ite (tracks_fail _)

theorem tracks_expectKeyword (x : Keyword) : Tracks d (fun _ => expectKeyword x) (Parser.expectKeyword x) :=
  (tracks_eat _).bind fun _ => (Tracks.pure _).ite (tracks_fail _)

theorem tracks_identifier : Tracks d (fun _ => identifier) Parser.identifier := by
  refine fun c hc => .cases (fun ht htokens => ?_) fun t ht htokens => ?_
  · refine (tracks_fail .identifier c hc).congr (fun _ => ?_) ?_
    · simp [identifier, Cursor.peek, ht]
    · simp [Parser.identifier, htokens]
  · obtain ⟨w, l⟩ := t
    cases w with
    | ident name =>
        refine follows_step (r := .ok name) ht (fun _ => ?_) ?_
        · simp [identifier, Cursor.peek, ht]
        · simp only [Parser.identifier, htokens]
          rfl
    | _ =>
        refine (tracks_fail .identifier c hc).congr (fun _ => ?_) ?_
        · simp [identifier, Cursor.peek, ht]
        · simp [Parser.identifier, htokens]

theorem tracks_operator? (ops : List BinOp) : Tracks d (fun _ => operator? ops) (Parser.operator? ops) := by
  refine fun c _ => .cases (fun ht htokens => follows_look (a := none) (fun _ => ?_) ?_) fun t ht htokens => ?_
  · simp [operator?, Cursor.peek, ht]
  · simp [Parser.operator?, htokens]
  · obtain ⟨w, l⟩ := t
    cases w with
    | punct p =>
        cases hop : ops.find? (·.punct = p) with
        | some op =>
            refine follows_step (r := .ok (some op)) ht (fun _ => ?_) ?_
            · simp [operator?, Cursor.peek, ht, hop]
            · simp only [Parser.operator?, htokens, hop]
              rfl
        | none =>
            refine follows_look (a := none) (fun _ => ?_) ?_
            · simp [operator?, Cursor.peek, ht, hop]
            · simp [Parser.operator?, htokens, hop]
    | _ =>
        refine follows_look (a := none) (fun _ => ?_) ?_
        · simp [operator?, Cursor.peek, ht]
        · simp [Parser.operator?, htokens]

theorem operator?_shorter {ops : List BinOp} {op : BinOp} {s s' : Parser.State}
    (h : Parser.operator? ops s = .ok (some op) s') : s'.tokens.length < s.tokens.length := by
  rcases Parser.operator?_ok h with ⟨_, _, _, _, hread⟩ | ⟨hnone, _⟩
  · rw [hread.length_eq]
    exact Nat.lt_add_of_pos_left Nat.one_pos
  · cases hnone

theorem tracks_tooDeep (hd : d = maxDepth) : Tracks d (fun n => nested (m n)) Parser.tooDeep := by
  intro c hc
  refine follows_error (e := .tooDeep c.here) (fun _ => nested_of_eq (hc.trans hd)) ?_
  rw [Parser.tooDeep, Cursor.state_here]

/-- What is read one level deeper ends at the level where it began, also if it fails. -/
theorem Tracks.nested (hm : Tracks (d + 1) m p) (hd : d < maxDepth) :
    Tracks d (fun n => CursorParser.nested (m n)) p := by
  rintro c rfl hc
  have hdown : c.Reaches (c.moved c.pos (c.depth + 1)) := hc.moved (Nat.le_refl _) hc.pos_le hd
  obtain ⟨r, c', ⟨bound, hrun⟩, hp, hreach, hdepth⟩ := hm (c.moved c.pos (c.depth + 1)) rfl hdown.sane
  have hdepth : c'.depth = c.depth + 1 := hdepth
  have hup : c'.Reaches (c'.moved c'.pos (c'.depth - 1)) :=
    hreach.sane.moved (Nat.le_refl _) hreach.sane.pos_le (by omega)
  refine ⟨r, c'.moved c'.pos (c'.depth - 1), ⟨bound, fun n hn => nested_of_lt hd (hrun n hn)⟩, ?_,
    (hdown.trans hreach).trans hup, ?_⟩
  · refine hp.trans ?_
    cases r <;> rfl
  · change c'.depth - 1 = c.depth
    omega

def Consumes (p : Parser α) : Prop := ∀ s a s', p s = .ok a s' → s'.tokens.length < s.tokens.length

/-- A loop with no bound is the loop that the tokens left bound. -/
theorem tracks_bounded {loop : List Token → Parser α} (h : ∀ (bound : List Token) (c : Cursor), c.depth = d →
    c.state.tokens.length ≤ bound.length → Follows m (loop bound) c) : Tracks d m (Parser.bounded loop) :=
  fun c hc => (h c.state.tokens c hc (Nat.le_refl _)).congr (fun _ => rfl) rfl

section Loops

variable {item : Nat → CursorParser α} {q : Parser α} {loop : Nat → CursorParser (List α)}

theorem tracks_untilBrace (hitem : Tracks d item q) (hq : Consumes q)
    (hloop : ∀ n, loop (n + 1) = eatPunct .rbrace >>= fun b => if b = true then pure [] else
      item n >>= fun x => loop n >>= fun xs => pure (x :: xs)) : Tracks d loop (Parser.block q) := by
  refine tracks_bounded fun bound c hc hbound => .succ ?_
  induction bound generalizing c with
  | nil =>
      have hnil : c.state.tokens = [] := List.length_eq_zero_iff.1 (Nat.le_zero.1 hbound)
      have hitems : Follows (fun n => item n >>= fun x => loop n >>= fun xs => pure (x :: xs))
          (q >>= fun x => pure [x]) c := by
        refine (hitem c hc).bind fun a c₁ _ _ hrun => ?_
        have hless := hq _ _ _ hrun
        rw [hnil] at hless
        cases hless
      exact hitems.congr (fun n => (congrFun (hloop n) c).trans (bind_of_ok (eat_end hnil))) rfl
  | cons t bound ih =>
      simp only [hloop]
      refine (tracks_eat _ c hc).bind fun b c₁ hreach hc₁ _ => ?_
      refine .ite (fun _ => follows_pure []) fun _ => ?_
      refine (hitem c₁ (hc₁.trans hc)).bind fun a c₂ _ hc₂ hrun => ?_
      have hle := hreach.length_le
      have hless := hq _ _ _ hrun
      rw [List.length_cons] at hbound
      exact (ih c₂ (hc₂.trans (hc₁.trans hc)) (by omega)).succ.bind fun as c₃ _ _ _ => follows_pure _

theorem tracks_listed (hitem : Tracks d item q) (hq : Consumes q)
    (hloop : ∀ n, loop (n + 1) = item n >>= fun x => eatPunct .rparen >>= fun b => if b = true then pure [x] else
      expectPunct .comma >>= fun _ => loop n >>= fun xs => pure (x :: xs)) :
    Tracks d loop (Parser.bounded (Parser.listed q)) := by
  refine tracks_bounded fun bound c hc hbound => .succ ?_
  induction bound generalizing c with
  | nil =>
      simp only [hloop]
      refine (hitem c hc).bind fun a c₁ _ _ hrun => ?_
      have hless := hq _ _ _ hrun
      rw [List.length_eq_zero_iff.1 (Nat.le_zero.1 hbound)] at hless
      cases hless
  | cons t bound ih =>
      simp only [hloop]
      refine (hitem c hc).bind fun a c₁ _ hc₁ hrun => ?_
      refine (tracks_eat _ c₁ (hc₁.trans hc)).bind fun b c₂ hreach₂ hc₂ _ => ?_
      refine .ite (fun _ => follows_pure _) fun _ => ?_
      have hdepth := hc₂.trans (hc₁.trans hc)
      refine (tracks_expectPunct _ c₂ hdepth).bind fun _ c₃ hreach₃ hc₃ _ => ?_
      have hless := hq _ _ _ hrun
      have hle₂ := hreach₂.length_le
      have hle₃ := hreach₃.length_le
      rw [List.length_cons] at hbound
      exact (ih c₃ (hc₃.trans hdepth) (by omega)).succ.bind fun as c₄ _ _ _ => follows_pure _

end Loops

section Expressions

variable {inner under : Parser Expr} {ops : List BinOp} {ls : List (List BinOp)} {e : Expr}

theorem consumes_expr (room : Nat) : Consumes (Parser.expr room) :=
  fun s _ _ => (Parser.predicts_expr room s).shorter Grammar.not_worded_nil

theorem tracks_creation (hexpr : Tracks d expr inner) : Tracks d creation (Parser.primary.creation inner) := by
  refine .succ ?_
  simp only [creation]
  refine (tracks_eat _).bind fun _ => .ite ?_ ?_
  · exact (tracks_expectPunct _).bind fun _ => hexpr.bind fun _ => (tracks_expectPunct _).bind fun _ => .pure _
  · refine tracks_identifier.bind fun _ => (tracks_expectPunct _).bind fun _ => ?_
    exact (tracks_expectPunct _).bind fun _ => .pure _

theorem tracks_grouped (hexpr : Tracks d expr inner) : Tracks d grouped (Parser.primary.grouped inner) := by
  refine .succ ?_
  simp only [grouped]
  exact hexpr.bind fun _ => (tracks_expectPunct _).bind fun _ => .pure _

theorem follows_atom {w : Lexeme} {l : Location} (ht : c.token? 0 = some ⟨w, l⟩)
    (hatom : atom? c = some (.ok (some e), c.skip 1)) (hp : Parser.primary inner c.state = .ok e (c.skip 1).state) :
    Follows primary (Parser.primary inner) c := by
  refine .succ (follows_step (r := .ok e) ht (fun n => ?_) hp)
  rw [primary]
  exact bind_of_ok hatom

theorem follows_int {digits : String} {l : Location} (ht : c.token? 0 = some ⟨.int digits, l⟩)
    (htokens : c.state.tokens = ⟨.int digits, l⟩ :: (c.skip 1).state.tokens) :
    Follows primary (Parser.primary inner) c := by
  cases hint : Parser.integer? digits with
  | some n =>
      refine follows_atom (e := .int n) ht (by simp only [atom?, ht, hint]) ?_
      simp only [Parser.primary, htokens, hint]
      rfl
  | none =>
      have hatom : atom? c = some (.error (.intOverflow l digits), c.skip 1) := by
        simp only [atom?, ht, hint]
      refine .succ (follows_step (r := .error (.intOverflow l digits)) ht (fun n => ?_) ?_)
      · rw [primary]
        exact bind_of_error hatom
      · simp only [Parser.primary, htokens, hint]
        rfl

theorem follows_new (hexpr : Tracks d expr inner) {l : Location} (hc : c.depth = d)
    (ht : c.token? 0 = some ⟨.keyword .kwNew, l⟩)
    (htokens : c.state.tokens = ⟨.keyword .kwNew, l⟩ :: (c.skip 1).state.tokens) :
    Follows primary (Parser.primary inner) c := by
  have hatom : atom? c = some (.ok none, c) := by simp only [atom?, ht]
  refine .succ (.jump (Cursor.lt_of_token? ht) (tracks_creation hexpr (c.skip 1) hc) (fun n => ?_) ?_)
  · rw [primary, bind_of_ok hatom]
    exact bind_of_ok (eat_step (Cursor.peek_of_token? ht))
  · simp only [Parser.primary, htokens]
    rfl

theorem follows_paren (hexpr : Tracks d expr inner) {l : Location} (hc : c.depth = d)
    (ht : c.token? 0 = some ⟨.punct .lparen, l⟩)
    (htokens : c.state.tokens = ⟨.punct .lparen, l⟩ :: (c.skip 1).state.tokens) :
    Follows primary (Parser.primary inner) c := by
  have hatom : atom? c = some (.ok none, c) := by simp only [atom?, ht]
  have hpeek := Cursor.peek_of_token? ht
  have hnew : c.peek 0 ≠ some (.keyword .kwNew) := by simp [hpeek]
  refine .succ (.jump (Cursor.lt_of_token? ht) (tracks_grouped hexpr (c.skip 1) hc) (fun n => ?_) ?_)
  · rw [primary, bind_of_ok hatom]
    refine (bind_of_ok (eat_stay hnew)).trans ?_
    exact bind_of_ok (eat_step hpeek)
  · simp only [Parser.primary, htokens]
    rfl

theorem atom?_none (h : ∀ x, c.peek 0 = some x → Grammar.beginsPrimary x = false) : atom? c = some (.ok none, c) := by
  unfold atom?
  split
  case h_6 => rfl
  all_goals
    rename_i ht
    cases h _ (Cursor.peek_of_token? ht)

theorem follows_noExpr (h : ∀ x, c.peek 0 = some x → Grammar.beginsPrimary x = false) :
    Follows primary (Parser.primary inner) c := by
  have hnew : c.peek 0 ≠ some (.keyword .kwNew) := fun hx => by cases h _ hx
  have hparen : c.peek 0 ≠ some (.punct .lparen) := fun hx => by cases h _ hx
  refine .succ ((tracks_fail .expression c rfl).congr (fun n => ?_) (Parser.primary_fails ?_))
  · rw [primary, bind_of_ok (atom?_none h)]
    refine (bind_of_ok (eat_stay hnew)).trans ?_
    exact bind_of_ok (eat_stay hparen)
  · rwa [Cursor.state_next]

theorem tracks_primary (hexpr : Tracks d expr inner) : Tracks d primary (Parser.primary inner) := by
  refine fun c hc => .cases (fun ht _ => follows_noExpr fun x hx => ?_) fun t ht htokens => ?_
  · rw [Cursor.peek, ht] at hx
    cases hx
  obtain ⟨w, l⟩ := t
  have hother (hw : Grammar.beginsPrimary w = false) : Follows primary (Parser.primary inner) c := by
    refine follows_noExpr fun x hx => ?_
    cases (Cursor.peek_of_token? ht).symm.trans hx
    exact hw
  cases w with
  | int digits => exact follows_int ht htokens
  | ident name =>
      refine follows_atom (e := .var name) ht (by simp only [atom?, ht]) ?_
      simp only [Parser.primary, htokens]
      rfl
  | keyword k =>
      cases k with
      | kwTrue =>
          refine follows_atom (e := .bool true) ht (by simp only [atom?, ht]) ?_
          simp only [Parser.primary, htokens]
          rfl
      | kwFalse =>
          refine follows_atom (e := .bool false) ht (by simp only [atom?, ht]) ?_
          simp only [Parser.primary, htokens]
          rfl
      | kwThis =>
          refine follows_atom (e := .self) ht (by simp only [atom?, ht]) ?_
          simp only [Parser.primary, htokens]
          rfl
      | kwNew => exact follows_new hexpr hc ht htokens
      | _ => exact hother rfl
  | punct p =>
      cases p with
      | lparen => exact follows_paren hexpr hc ht htokens
      | _ => exact hother rfl

theorem tracks_arguments (hexpr : Tracks d expr inner) (hinner : Consumes inner) :
    Tracks d arguments (Parser.parenthesized inner) := by
  refine .succ ?_
  simp only [arguments]
  refine (tracks_eat _).bind fun _ => (Tracks.pure _).ite ?_
  exact tracks_listed hexpr hinner fun n => by rw [moreArguments]

theorem tracks_member (hexpr : Tracks d expr inner) (hinner : Consumes inner) (e : Expr) :
    Tracks d (fun n => member n e) (Parser.member inner e) := by
  refine .succ ?_
  simp only [member]
  refine tracks_identifier.bind fun name => (tracks_sees _).bind fun b => (Tracks.pure _).ite ?_
  exact (tracks_expectPunct _).bind fun _ => (tracks_arguments hexpr hinner).bind fun _ => .pure _

theorem tracks_suffixes (hexpr : Tracks d expr inner) (hinner : Consumes inner) (e : Expr) :
    Tracks d (fun n => suffixes n e) (Parser.bounded (Parser.suffixes inner e)) := by
  refine tracks_bounded fun bound c hc hbound => ?_
  induction bound generalizing e c with
  | nil =>
      have hnil : c.state.tokens = [] := List.length_eq_zero_iff.1 (Nat.le_zero.1 hbound)
      refine .succ (follows_look (a := e) (fun n => ?_) rfl)
      rw [suffixes]
      refine (bind_of_ok (eat_end hnil)).trans ?_
      exact bind_of_ok (eat_end hnil)
  | cons t bound ih =>
      rw [List.length_cons] at hbound
      refine .succ ?_
      simp only [suffixes]
      refine (tracks_eat _ c hc).bind fun b c₁ hreach₁ hc₁ hrun₁ => ?_
      have hdepth₁ := hc₁.trans hc
      refine .ite (fun hb => ?_) fun _ => ?_
      · subst hb
        have hless := eat_shorter hrun₁
        refine (hexpr c₁ hdepth₁).bind fun i c₂ hreach₂ hc₂ _ => ?_
        refine (tracks_expectPunct _ c₂ (hc₂.trans hdepth₁)).bind fun _ c₃ hreach₃ hc₃ _ => ?_
        have hle₂ := hreach₂.length_le
        have hle₃ := hreach₃.length_le
        exact ih (.index e i) c₃ (hc₃.trans (hc₂.trans hdepth₁)) (by omega)
      · refine (tracks_eat _ c₁ hdepth₁).bind fun b c₂ hreach₂ hc₂ hrun₂ => ?_
        refine .ite (fun hb => ?_) fun _ => follows_pure e
        subst hb
        have hless := eat_shorter hrun₂
        refine (tracks_member hexpr hinner e c₂ (hc₂.trans hdepth₁)).bind fun e' c₃ hreach₃ hc₃ _ => ?_
        have hle₁ := hreach₁.length_le
        have hle₃ := hreach₃.length_le
        exact ih e' c₃ (hc₃.trans (hc₂.trans hdepth₁)) (by omega)

theorem tracks_chain (hbinary : Tracks d (fun n => binary n ls) under) (e : Expr) :
    Tracks d (fun n => chain n ops ls e) (Parser.bounded (Parser.chain ops under e)) := by
  refine tracks_bounded fun bound c hc hbound => ?_
  induction bound generalizing e c with
  | nil =>
      have hnil : c.state.tokens = [] := List.length_eq_zero_iff.1 (Nat.le_zero.1 hbound)
      have hop : operator? ops c = some (.ok none, c) := by
        simp only [operator?, Cursor.peek, Cursor.token?_eq_none hnil, Option.map_none]
      refine .succ (follows_look (a := e) (fun n => ?_) rfl)
      rw [chain]
      exact bind_of_ok hop
  | cons t bound ih =>
      rw [List.length_cons] at hbound
      refine .succ ?_
      simp only [chain]
      refine (tracks_operator? ops c hc).bind fun op c₁ hreach₁ hc₁ hrun₁ => ?_
      have hdepth₁ := hc₁.trans hc
      cases op with
      | none => exact follows_pure e
      | some op =>
          have hless := operator?_shorter hrun₁
          refine (hbinary c₁ hdepth₁).bind fun right c₂ hreach₂ hc₂ _ => ?_
          have hle₂ := hreach₂.length_le
          exact ih (.binary op e right) c₂ (hc₂.trans hdepth₁) (by omega)

theorem tracks_binary (hunary : Tracks d unary under) :
    Tracks d (fun n => binary n ls) (Parser.binary under ls) := by
  induction ls with
  | nil =>
      refine .succ ?_
      simp only [binary]
      exact hunary
  | cons ops ls ih =>
      refine .succ ?_
      simp only [binary]
      exact ih.bind fun e => tracks_chain ih e

theorem tracks_unary (hexpr : Tracks d expr inner) (hinner : Consumes inner)
    (hbelow : Tracks d (fun n => nested (unary n)) under) : Tracks d unary (Parser.operandWith under inner) := by
  refine .succ ?_
  simp only [unary]
  refine (tracks_eat _).bind fun _ => .ite (hbelow.bind fun _ => .pure _) ?_
  refine (tracks_eat _).bind fun _ => .ite (hbelow.bind fun _ => .pure _) ?_
  exact (tracks_primary hexpr).bind fun e => tracks_suffixes hexpr hinner e

theorem tracks_whole (hunary : Tracks (d + 1) unary (Parser.operand room)) (hd : d < maxDepth) :
    Tracks d expr (Parser.expr (room + 1)) := by
  refine .succ ?_
  simp only [expr]
  exact (tracks_binary hunary).nested hd

theorem tracks_noExpr (hd : d = maxDepth) : Tracks d expr (Parser.expr 0) := by
  refine .succ ?_
  simp only [expr]
  exact tracks_tooDeep hd

theorem tracks_operand (hroom : d + room = maxDepth) : Tracks d unary (Parser.operand room) := by
  induction room generalizing d with
  | zero => exact tracks_unary (tracks_noExpr hroom) (consumes_expr 0) (tracks_tooDeep hroom)
  | succ room ih =>
      have hunary := ih (d := d + 1) (by omega)
      exact tracks_unary (tracks_whole hunary (by omega)) (consumes_expr (room + 1)) (hunary.nested (by omega))

theorem tracks_expr (hroom : d + room = maxDepth) : Tracks d expr (Parser.expr room) := by
  cases room with
  | zero => exact tracks_noExpr hroom
  | succ room => exact tracks_whole (tracks_operand (by omega)) (by omega)

end Expressions

end CursorParser

end Backflow
