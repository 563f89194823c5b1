import Backflow.Proofs.Positions
import Backflow.Proofs.Trivia

namespace Backflow.Lexer

/-- With the character after it the lexeme would be a longer one. -/
def Prolongs : Lexeme → Char → Prop
  | .ident _, c | .keyword _, c => c.isAlphanum = true ∨ c = '_'
  | .int _, c => c.isDigit = true
  | .punct p, c => ∃ q : Punct, q.chars = p.chars ++ [c]

/-- The lexeme is read where `rest` follows its text. -/
structure Stands (w : Lexeme) (rest : List Char) : Prop where
  valid : Valid w
  keyword : (∃ k, w = .keyword k) ↔ w.text ∈ Keyword.all.map Keyword.text
  longest : ∀ c ∈ rest.head?, ¬ Prolongs w c
  clear : Clear (w.text.toList ++ rest)

/-- Nothing can be read at the beginning of the text. -/
structure Halts (s : List Char) : Prop where
  clear : Clear s
  wordless : ∀ w rest, Valid w → w.text.toList ++ rest ≠ s

/-- The text between `before` and `after` consists of blanks and comments and of the tokens, in turn. Each token carries
the place where its text begins. -/
inductive Tiles (after : List Char) : List Char → List Token → List Char → Prop
  | trivia {before run : List Char} : Trivia run after → Tiles after before [] run
  | token {before run rest : List Char} {t : Token} {ts : List Token} :
      Trivia run (t.lexeme.text.toList ++ (rest ++ after)) → t.loc = .endOf (before ++ run) →
      Stands t.lexeme (rest ++ after) → Tiles after (before ++ run ++ t.lexeme.text.toList) ts rest →
      Tiles after before (t :: ts) (run ++ (t.lexeme.text.toList ++ rest))

variable {s rest after before run text : List Char} {w : Lexeme} {ts : List Token}

theorem text_wordLexeme (name : String) : (wordLexeme name).text = name := by
  unfold wordLexeme
  split
  case h_1 k hk =>
    have hfound := List.find?_some hk
    exact of_decide_eq_true hfound
  case h_2 => rfl

theorem prolongs_wordLexeme {name : String} {c : Char} : Prolongs (wordLexeme name) c ↔ isWordChar c = true := by
  unfold wordLexeme
  split <;> exact isWordChar_iff.symm

theorem lexeme?_append (h : lexeme? s = some (w, rest)) : w.text.toList ++ rest = s := by
  unfold lexeme? at h
  split at h
  case h_1 => cases h
  case h_2 c s =>
    split at h
    case isTrue =>
      cases h
      simp [Lexeme.text, List.takeWhile_append_dropWhile]
    case isFalse =>
      split at h
      case isTrue =>
        cases h
        simp [text_wordLexeme, List.takeWhile_append_dropWhile]
      case isFalse =>
        split at h
        case h_1 p hp =>
          cases h
          have hfits := List.find?_some hp
          exact List.prefix_iff_eq_append.1 (List.isPrefixOf_iff_prefix.1 hfits)
        case h_2 => cases h

theorem not_head_dropWhile {p : Char → Bool} {c : Char} (h : c ∈ (s.dropWhile p).head?) : p c = false := by
  have hnot := List.head?_dropWhile_not p s
  rwa [h] at hnot

theorem mem_punctuation (p : Punct) : p ∈ Punct.all := by cases p <;> decide

/-- The marks of two characters are tried before those of one, so the first mark that fits is the longest. -/
theorem not_prolongs_of_find? {p : Punct} {c : Char} (h : Punct.all.find? (·.chars.isPrefixOf s) = some p)
    (hs : s = p.chars ++ rest) (hc : c ∈ rest.head?) : ¬ Prolongs (.punct p) c := by
  rintro ⟨q, hq⟩
  have hlonger : p.chars.length < q.chars.length := by rw [hq]; simp
  have hfits : q.chars.isPrefixOf s = true := by
    obtain ⟨tail, rfl⟩ := List.head?_eq_some_iff.1 hc
    rw [List.isPrefixOf_iff_prefix, hs, hq]
    exact ⟨tail, by simp⟩
  obtain ⟨_, early, late, hall, hearly⟩ := List.find?_eq_some_iff_append.1 h
  have hsorted : Punct.all.Pairwise fun p q => q.chars.length ≤ p.chars.length := by decide
  have hmem := mem_punctuation q
  rw [hall] at hsorted hmem
  rcases List.mem_append.1 hmem with hq | hq
  · simpa [hfits] using hearly q hq
  · rcases List.mem_cons.1 hq with rfl | hq
    · exact Nat.lt_irrefl _ hlonger
    · have hle := (List.pairwise_cons.1 (List.pairwise_append.1 hsorted).2.1).1 q hq
      omega

theorem longest_of_lexeme? (h : lexeme? s = some (w, rest)) : ∀ c ∈ rest.head?, ¬ Prolongs w c := by
  intro c hc
  have happend := lexeme?_append h
  unfold lexeme? at h
  split at h
  case h_1 => cases h
  case h_2 d s =>
    split at h
    case isTrue =>
      cases h
      exact Bool.eq_false_iff.1 (not_head_dropWhile hc)
    case isFalse =>
      split at h
      case isTrue =>
        cases h
        simp [prolongs_wordLexeme, not_head_dropWhile hc]
      case isFalse =>
        split at h
        case h_1 p hp =>
          cases h
          exact not_prolongs_of_find? hp happend.symm hc
        case h_2 => cases h

theorem isWord_punct (p : Punct) : isWord p.text.toList = false := by
  cases p <;> decide +kernel

theorem isWord_int {digits : String} (h : Valid (.int digits)) : isWord digits.toList = false := by
  obtain ⟨c, cs, hcons⟩ := List.exists_cons_of_ne_nil h.1
  have hdigit := h.2 c (hcons ▸ List.mem_cons_self)
  have hstart : isWordStart c = false := by
    refine Bool.eq_false_iff.2 fun hstart => ?_
    rw [← isDigit_eq, isDigit_of_isWordStart hstart] at hdigit
    cases hdigit
  simp [hcons, isWord, hstart]

theorem keyword_iff_of_valid (hw : Valid w) :
    (∃ k, w = .keyword k) ↔ w.text ∈ Keyword.all.map Keyword.text := by
  constructor
  · rintro ⟨k, rfl⟩
    exact List.mem_map_of_mem (mem_keywords k)
  · intro htext
    obtain ⟨k, _, htext⟩ := List.mem_map.1 htext
    have hword : isWord w.text.toList = true := htext ▸ isWord_keyword k
    cases w with
    | keyword k => exact ⟨k, rfl⟩
    | ident name => exact absurd htext (hw.2 k)
    | int digits =>
        rw [Lexeme.text, isWord_int hw] at hword
        cases hword
    | punct p =>
        rw [Lexeme.text, isWord_punct p] at hword
        cases hword

theorem stands_of_lexeme? (h : lexeme? s = some (w, rest)) (hs : Clear s) : Stands w rest where
  valid := valid_of_lexeme? h
  keyword := keyword_iff_of_valid (valid_of_lexeme? h)
  longest := longest_of_lexeme? h
  clear := lexeme?_append h ▸ hs

theorem joins_of_not_prolongs {c : Char} (hw : w ≠ .punct .slash) (h : ¬ Prolongs w c) : joins w c = false := by
  cases w with
  | ident | keyword => exact Bool.eq_false_iff.2 fun hc => h (isWordChar_iff.1 hc)
  | int => exact Bool.eq_false_iff.2 h
  | punct p =>
      have hnot (q : Punct) {d : Char} (hq : q.chars = p.chars ++ [d]) : c ≠ d := fun hc => h ⟨q, hc ▸ hq⟩
      cases p with
      | slash => exact absurd rfl hw
      | assign => simpa [joins] using hnot .eqEq (d := '=') rfl
      | less => simpa [joins] using hnot .lessEq (d := '=') rfl
      | greater => simpa [joins] using hnot .greaterEq (d := '=') rfl
      | bang => simpa [joins] using hnot .notEq (d := '=') rfl
      | _ => rfl

theorem Stands.lexeme?_eq (h : Stands w rest) : lexeme? (w.text.toList ++ rest) = some (w, rest) := by
  by_cases hw : w = .punct .slash
  · subst hw
    rfl
  · exact lexeme?_text h.valid fun c hc => joins_of_not_prolongs hw (h.longest c hc)

theorem text_ne_nil (hw : Valid w) : w.text.toList ≠ [] := by
  cases w with
  | ident name =>
      obtain ⟨c, cs, hcons, _⟩ := cons_of_isWord (valid_ident.1 hw).1
      simp [Lexeme.text, hcons]
  | int digits => exact hw.1
  | keyword k => cases k <;> decide +kernel
  | punct p => cases p <;> decide +kernel

theorem lexeme?_ne_none (hw : Valid w) (rest : List Char) : lexeme? (w.text.toList ++ rest) ≠ none := by
  have hword {name : String} (hname : isWord name.toList = true) : lexeme? (name.toList ++ rest) ≠ none := by
    obtain ⟨c, cs, hcons, hc, _⟩ := cons_of_isWord hname
    rw [hcons, List.cons_append, lexeme?, if_neg (by simp [isDigit_of_isWordStart hc]), if_pos hc]
    exact Option.some_ne_none _
  cases w with
  | ident name => exact hword (valid_ident.1 hw).1
  | keyword k => exact hword (isWord_keyword k)
  | int digits =>
      obtain ⟨c, cs, hcons⟩ := List.exists_cons_of_ne_nil hw.1
      have hdigit : isDigit c = true := hw.2 c (hcons ▸ List.mem_cons_self)
      rw [Lexeme.text, hcons, List.cons_append, lexeme?, if_pos hdigit]
      exact Option.some_ne_none _
  | punct p =>
      obtain ⟨c, cs, hcons⟩ := List.exists_cons_of_ne_nil (text_ne_nil (w := .punct p) trivial)
      have hstop : isWordChar c = false := stops_mark p rest c (by rw [← Lexeme.text, hcons]; rfl)
      simp only [isWordChar, Bool.or_eq_false_iff] at hstop
      have hstart : isWordStart c = false := by simp [isWordStart, hstop]
      have hfits : p.chars.isPrefixOf (c :: cs ++ rest) = true := by
        rw [List.isPrefixOf_iff_prefix, ← hcons]
        exact List.prefix_append _ _
      rw [hcons, List.cons_append, lexeme?, if_neg (by simp [hstop]), if_neg (by simp [hstart])]
      split
      case h_1 => exact Option.some_ne_none _
      case h_2 hnone => exact absurd hfits (List.find?_eq_none.1 hnone p (mem_punctuation p))

theorem halts_of_lexeme? (h : lexeme? s = none) (hs : Clear s) : Halts s where
  clear := hs
  wordless _ rest hw heq := lexeme?_ne_none hw rest (heq ▸ h)

theorem Halts.lexeme?_eq (h : Halts s) : lexeme? s = none := by
  cases hs : lexeme? s with
  | none => rfl
  | some found => exact absurd (lexeme?_append hs) (h.wordless _ _ (valid_of_lexeme? hs))

/-- How the reading ends after the tokens `ts`, at the place `stop` where the rest of the text begins. -/
def outcome (ts : List Token) (stop : Location) : List Char → Except SyntaxError TokenStream
  | [] => .ok ⟨ts, stop⟩
  | c :: _ => .error (.badChar stop c)

theorem lexFrom_halt (hrun : Trivia run after) (hafter : Halts after) (loc : Location) :
    lexFrom loc (run ++ after) = outcome [] (loc.advance run) after := by
  rw [lexFrom, gap_of_trivia hrun hafter.clear]
  split
  case h_1 heq =>
    rw [hafter.lexeme?_eq] at heq
    cases heq
  case h_2 => cases after <;> rfl

theorem lexFrom_token (hrun : Trivia run (w.text.toList ++ rest)) (hw : Stands w rest) (loc : Location) :
    lexFrom loc (run ++ (w.text.toList ++ rest)) =
      (lexFrom (loc.advance (run ++ w.text.toList)) rest).map fun s => ⟨⟨w, loc.advance run⟩ :: s.tokens, s.stop⟩ := by
  rw [lexFrom, gap_of_trivia hrun hw.clear]
  split
  case h_1 heq =>
    rw [hw.lexeme?_eq] at heq
    cases heq
    rw [Location.advance_append]
    rfl
  case h_2 heq =>
    rw [hw.lexeme?_eq] at heq
    cases heq

theorem Tiles.lexFrom_eq (h : Tiles after before ts text) (hafter : Halts after) :
    lexFrom (.endOf before) (text ++ after) = outcome ts (.endOf (before ++ text)) after := by
  induction h with
  | trivia hrun => rw [lexFrom_halt hrun hafter, ← Location.endOf_append]
  | @token before run rest t ts hrun hloc hstands _ ih =>
      rw [List.append_assoc, List.append_assoc, lexFrom_token hrun hstands, ← Location.endOf_append,
        ← Location.endOf_append, ← List.append_assoc, ih, ← hloc]
      cases after <;> simp [outcome, Except.map]

/-- Every text is tiled up to a place where nothing can be read. -/
theorem exists_tiles (before s : List Char) :
    ∃ ts text after, s = text ++ after ∧ Tiles after before ts text ∧ Halts after := by
  -- A token is never empty, so the induction can be on the number of characters that are left.
  induction hn : s.length using Nat.strongRecOn generalizing before s with
  | _ n ih =>
      have hrun := trivia_gap s
      have hclear := clear_gap s
      have happend := gap_append s
      have hshort := gap_length_le s
      cases hlexeme : lexeme? (gap s).2 with
      | none => exact ⟨[], (gap s).1, (gap s).2, happend.symm, .trivia hrun, halts_of_lexeme? hlexeme hclear⟩
      | some found =>
          obtain ⟨w, rest⟩ := found
          have hstands := stands_of_lexeme? hlexeme hclear
          have htext := lexeme?_append hlexeme
          have hless := lexeme?_length_lt hlexeme
          obtain ⟨ts, text, after, rfl, htiles, hafter⟩ :=
            ih rest.length (by omega) (before ++ (gap s).1 ++ w.text.toList) rest rfl
          rw [← htext] at hrun happend
          refine ⟨⟨w, .endOf (before ++ (gap s).1)⟩ :: ts, (gap s).1 ++ (w.text.toList ++ text), after, ?_,
            .token hrun rfl hstands htiles, hafter⟩
          rw [List.append_assoc, List.append_assoc]
          exact happend.symm

theorem halts_nil : Halts [] where
  clear := clear_iff.2 rfl
  wordless _ _ hw hnil := text_ne_nil hw (List.append_eq_nil_iff.1 hnil).1

theorem Tiles.split {t : Token} (h : Tiles after before ts text) (ht : t ∈ ts) :
    ∃ early late x y, ts = early ++ t :: late ∧ text = x ++ (t.lexeme.text.toList ++ y) ∧
      t.loc = .endOf (before ++ x) ∧ Stands t.lexeme (y ++ after) ∧
      Tiles (t.lexeme.text.toList ++ (y ++ after)) before early x ∧
      Tiles after (before ++ x ++ t.lexeme.text.toList) late y := by
  induction h with
  | trivia => cases ht
  | @token before run rest u ts hrun hloc hstands hrest ih =>
      rcases List.mem_cons.1 ht with rfl | ht
      · exact ⟨[], ts, run, rest, rfl, rfl, hloc, hstands, .trivia hrun, hrest⟩
      · obtain ⟨early, late, x, y, rfl, rfl, htloc, htstands, hearly, hlate⟩ := ih ht
        rw [List.append_assoc, List.append_assoc] at hrun hstands
        refine ⟨u :: early, late, run ++ (u.lexeme.text.toList ++ x), y, rfl, ?_, ?_, htstands,
          .token hrun hloc hstands hearly, ?_⟩
        · simp only [List.append_assoc]
        · simpa only [List.append_assoc] using htloc
        · simpa only [List.append_assoc] using hlate

theorem Tiles.loc_le {t : Token} (h : Tiles after before ts text) (ht : t ∈ ts) :
    t.loc.line ≤ (before ++ text).length ∧ t.loc.col ≤ (before ++ text).length := by
  obtain ⟨_, _, x, y, _, rfl, hloc, hstands, _, _⟩ := h.split ht
  have hpos := List.length_pos_iff.2 (text_ne_nil hstands.valid)
  have hline := Location.line_endOf_le (before ++ x)
  have hcol := Location.col_endOf_le (before ++ x)
  rw [hloc]
  simp only [List.length_append] at hline hcol ⊢
  omega

theorem Tiles.pairwise_loc (h : Tiles after before ts text) : (ts.map (·.loc)).Pairwise Location.Before := by
  induction h with
  | trivia => exact .nil
  | @token before run rest t ts _ hloc hstands hrest ih =>
      refine List.pairwise_cons.2 ⟨List.forall_mem_map.2 fun u hu => ?_, ih⟩
      obtain ⟨_, _, x, _, _, _, huloc, _, _, _⟩ := hrest.split hu
      have hne : t.lexeme.text.toList ++ x ≠ [] := by simp [text_ne_nil hstands.valid]
      have hbefore := Location.before_endOf_append (before ++ run) hne
      rwa [← List.append_assoc, ← hloc, ← huloc] at hbefore

theorem Tiles.length_le (h : Tiles after before ts text) : ts.length ≤ text.length := by
  induction h with
  | trivia => exact Nat.zero_le _
  | token _ _ hstands _ ih =>
      have hpos := List.length_pos_iff.2 (text_ne_nil hstands.valid)
      simp only [List.length_cons, List.length_append]
      omega

theorem lex_eq_outcome (source : String) : ∃ ts text after, source.toList = text ++ after ∧
    Tiles after [] ts text ∧ Halts after ∧ lex source = outcome ts (.endOf text) after := by
  obtain ⟨ts, text, after, hsource, htiles, hafter⟩ := exists_tiles [] source.toList
  refine ⟨ts, text, after, hsource, htiles, hafter, ?_⟩
  rw [lex, hsource]
  exact htiles.lexFrom_eq hafter

variable {source : String}

theorem lex_eq_ok_iff {s : TokenStream} :
    lex source = .ok s ↔ Tiles [] [] s.tokens source.toList ∧ s.stop = .endOf source.toList := by
  constructor
  · intro h
    obtain ⟨ts, text, after, hsource, htiles, _, hlex⟩ := lex_eq_outcome source
    rw [h] at hlex
    cases after with
    | nil =>
        cases hlex
        rw [hsource, List.append_nil]
        exact ⟨htiles, rfl⟩
    | cons c rest => cases hlex
  · rintro ⟨htiles, hstop⟩
    have hlex := htiles.lexFrom_eq halts_nil
    rw [List.append_nil] at hlex
    exact hlex.trans (by rw [List.nil_append, ← hstop]; rfl)

end Backflow.Lexer
