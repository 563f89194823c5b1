import Backflow.Proofs.ExprGrammar
import Backflow.Proofs.Reading
import Mathlib.Data.List.TakeWhile

namespace Backflow

namespace Lexer

def joins : Lexeme → Char → Bool
  | .ident _, c | .keyword _, c => isWordChar c
  | .int _, c => isDigit c
  | .punct .assign, c | .punct .less, c | .punct .greater, c | .punct .bang, c => c = '='
  | .punct .slash, c => c = '/' || c = '*'
  | .punct _, _ => false

/-- A letter or an underscore, and then letters, digits and underscores. -/
inductive Word : List Char → Prop
  | mk {c : Char} {s : List Char} : c.isAlpha = true ∨ c = '_' → (∀ d ∈ s, d.isAlphanum = true ∨ d = '_') →
      Word (c :: s)

/-- The lexeme is what its text is read as. -/
def Valid : Lexeme → Prop
  | .ident name => Word name.toList ∧ ∀ k : Keyword, k.text ≠ name
  | .int digits => digits.toList ≠ [] ∧ ∀ c ∈ digits.toList, c.isDigit = true
  | _ => True

/-- The text is that of the words, in order, with blanks between them where two of them would join. -/
inductive Written : List Lexeme → List Char → Prop
  | nil : Written [] []
  | blank {ws : List Lexeme} {cs : List Char} (c : Char) : isBlank c = true → Written ws cs → Written ws (c :: cs)
  | word {w : Lexeme} {ws : List Lexeme} {cs : List Char} : Valid w → (∀ c ∈ cs.head?, joins w c = false) →
      Written ws cs → Written (w :: ws) (w.text.toList ++ cs)

def Stops (cs : List Char) : Prop := ∀ c ∈ cs.head?, isWordChar c = false

/-- The string is the text of the words wherever no name goes on after it. -/
def Writes (ws : List Lexeme) (s : String) : Prop :=
  ∀ ⦃us : List Lexeme⦄ ⦃cs : List Char⦄, Written us cs → Stops cs → Written (ws ++ us) (s.toList ++ cs)

theorem isDigit_eq (c : Char) : isDigit c = c.isDigit := rfl

theorem isBlank_eq (c : Char) : isBlank c = c.isWhitespace := rfl

theorem isLetter_eq (c : Char) : isLetter c = c.isAlpha := by
  rw [isLetter, Bool.or_comm, ← Bool.decide_and]
  rfl

theorem isWordStart_iff {c : Char} : isWordStart c = true ↔ c.isAlpha = true ∨ c = '_' := by
  rw [isWordStart, isLetter_eq, Bool.or_eq_true, decide_eq_true_iff]

theorem isWordChar_iff {c : Char} : isWordChar c = true ↔ c.isAlphanum = true ∨ c = '_' := by
  rw [isWordChar, isLetter_eq, isDigit_eq, Bool.or_eq_true, decide_eq_true_iff, Char.isAlphanum]

def isWord : List Char → Bool
  | [] => false
  | c :: s => isWordStart c && s.all isWordChar

theorem isWord_iff {w : List Char} : isWord w = true ↔ Word w := by
  cases w with
  | nil => exact ⟨nofun, nofun⟩
  | cons c s =>
      simp only [isWord, Bool.and_eq_true, List.all_eq_true, isWordStart_iff, isWordChar_iff]
      constructor
      · exact fun h => .mk h.1 h.2
      · rintro ⟨hc, hs⟩
        exact ⟨hc, hs⟩

theorem mem_keywords (k : Keyword) : k ∈ Keyword.all := by cases k <;> decide

theorem ofText?_eq_none_iff {name : String} : Keyword.ofText? name = none ↔ ∀ k : Keyword, k.text ≠ name := by
  simp [Keyword.ofText?, mem_keywords]

theorem valid_ident {name : String} :
    Valid (.ident name) ↔ isWord name.toList = true ∧ Keyword.ofText? name = none :=
  and_congr isWord_iff.symm ofText?_eq_none_iff.symm

instance : DecidablePred Valid
  | .ident _ => decidable_of_iff' _ valid_ident
  | .int digits => inferInstanceAs (Decidable (digits.toList ≠ [] ∧ ∀ c ∈ digits.toList, c.isDigit = true))
  | .keyword _ | .punct _ => isTrue trivial

theorem takeWhile_append_stop {p : Char → Bool} {s cs : List Char} (hs : ∀ c ∈ s, p c = true)
    (hcs : ∀ c ∈ cs.head?, p c = false) : (s ++ cs).takeWhile p = s ∧ (s ++ cs).dropWhile p = cs := by
  rw [List.takeWhile_append_of_pos hs, List.dropWhile_append_of_pos hs]
  cases cs with
  | nil => simp
  | cons c cs => simp [hcs c rfl]

theorem infix_of_not_mem {a : Char} {l s rest : List Char} (ha : a ∉ s) (h : a :: l <:+: s ++ rest) :
    a :: l <:+: rest := by
  induction s with
  | nil => exact h
  | cons c s ih =>
      rw [List.mem_cons, not_or] at ha
      rcases List.infix_cons_iff.1 h with h | h
      · exact absurd (List.cons_prefix_cons.1 h).1 ha.1
      · exact ih ha.2 h

theorem isWordStart_range {c : Char} (h : isWordStart c = true) : 65 ≤ c.toNat := by
  simp only [isWordStart, isLetter, Bool.or_eq_true, Bool.and_eq_true, decide_eq_true_eq, Char.le_def,
    UInt32.le_iff_toNat_le] at h
  rcases h with (⟨h, _⟩ | ⟨h, _⟩) | rfl
  · exact Nat.le_trans (by decide) h
  · exact h
  · decide

theorem isDigit_range {c : Char} (h : isDigit c = true) : 48 ≤ c.toNat ∧ c.toNat ≤ 57 := by
  simp only [isDigit, Bool.and_eq_true, decide_eq_true_eq, Char.le_def, UInt32.le_iff_toNat_le] at h
  exact h

theorem isBlank_range {c : Char} (h : isBlank c = true) : c.toNat ≤ 32 := by
  simp only [isBlank, Bool.or_eq_true, decide_eq_true_eq] at h
  rcases h with ((rfl | rfl) | rfl) | rfl <;> decide

theorem isDigit_of_isWordStart {c : Char} (h : isWordStart c = true) : isDigit c = false := by
  refine Bool.eq_false_iff.2 fun hd => ?_
  have hc := isWordStart_range h
  have hd := isDigit_range hd
  omega

theorem cons_of_isWord {w : List Char} (h : isWord w = true) :
    ∃ c s, w = c :: s ∧ isWordStart c = true ∧ ∀ d ∈ s, isWordChar d = true := by
  cases w with
  | nil => cases h
  | cons c s => exact ⟨c, s, rfl, by simpa [isWord] using h⟩

theorem lexeme?_word {w : String} {cs : List Char} (hw : isWord w.toList = true)
    (hcs : ∀ c ∈ cs.head?, isWordChar c = false) :
    lexeme? (w.toList ++ cs) = some (wordLexeme w, cs) := by
  obtain ⟨c, s, hcons, hc, hs⟩ := cons_of_isWord hw
  obtain ⟨htake, hdrop⟩ := takeWhile_append_stop hs hcs
  have hnot : ¬ isDigit c = true := by simp [isDigit_of_isWordStart hc]
  rw [hcons, List.cons_append, lexeme?, if_neg hnot, if_pos hc, htake, hdrop, ← hcons, String.ofList_toList]

theorem lexeme?_int {digits : String} {cs : List Char} (hne : digits.toList ≠ [])
    (hs : ∀ c ∈ digits.toList, isDigit c = true) (hcs : ∀ c ∈ cs.head?, isDigit c = false) :
    lexeme? (digits.toList ++ cs) = some (.int digits, cs) := by
  obtain ⟨c, s, hcons⟩ := List.exists_cons_of_ne_nil hne
  rw [hcons, List.forall_mem_cons] at hs
  obtain ⟨htake, hdrop⟩ := takeWhile_append_stop hs.2 hcs
  rw [hcons, List.cons_append, lexeme?, if_pos hs.1, htake, hdrop, ← hcons, String.ofList_toList]

theorem lexeme?_punct {p : Punct} {cs : List Char} (hcs : ∀ c ∈ cs.head?, joins (.punct p) c = false) :
    lexeme? (p.text.toList ++ cs) = some (.punct p, cs) := by
  cases p with
  | assign | less | greater | bang =>
      cases cs with
      | nil => rfl
      | cons c cs =>
          have hc : ¬ '=' = c := by simpa [joins, eq_comm] using hcs
          simp [lexeme?, Punct.text, Punct.all, Punct.chars, isDigit, isWordStart, isLetter, List.isPrefixOf, hc]
  | _ => rfl

theorem isWord_keyword (k : Keyword) : isWord k.text.toList = true := by
  cases k <;> decide +kernel

theorem wordLexeme_keyword (k : Keyword) : wordLexeme k.text = .keyword k := by
  cases k <;> decide

theorem lexeme?_text {w : Lexeme} {cs : List Char} (hw : Valid w) (hcs : ∀ c ∈ cs.head?, joins w c = false) :
    lexeme? (w.text.toList ++ cs) = some (w, cs) := by
  cases w with
  | ident name =>
      obtain ⟨hword, hkey⟩ := valid_ident.1 hw
      rw [Lexeme.text, lexeme?_word hword hcs, wordLexeme, hkey]
  | int digits => exact lexeme?_int hw.1 hw.2 hcs
  | keyword k => rw [Lexeme.text, lexeme?_word (isWord_keyword k) hcs, wordLexeme_keyword]
  | punct p => exact lexeme?_punct hcs

theorem trivium?_eq_none {c : Char} {s : List Char} (hc : 48 ≤ c.toNat) : trivium? (c :: s) = none := by
  have hblank : isBlank c = false := Bool.eq_false_iff.2 fun h => absurd (isBlank_range h) (by omega)
  unfold trivium?
  split
  case h_1 heq | h_2 heq =>
    cases heq
    exact absurd hc (by decide)
  case h_3 heq =>
    cases heq
    simp [hblank]
  case h_4 => rfl

theorem trivium?_text {w : Lexeme} {cs : List Char} (hw : Valid w) (hcs : ∀ c ∈ cs.head?, joins w c = false) :
    trivium? (w.text.toList ++ cs) = none := by
  have hword {w : String} (hw : isWord w.toList = true) : trivium? (w.toList ++ cs) = none := by
    obtain ⟨c, s, hcons, hc, -⟩ := cons_of_isWord hw
    rw [hcons]
    exact trivium?_eq_none (Nat.le_trans (by decide) (isWordStart_range hc))
  cases w with
  | ident name => exact hword (valid_ident.1 hw).1
  | keyword k => exact hword (isWord_keyword k)
  | int digits =>
      obtain ⟨c, s, hcons⟩ := List.exists_cons_of_ne_nil hw.1
      rw [Lexeme.text, hcons]
      exact trivium?_eq_none (isDigit_range (hw.2 c (hcons ▸ List.mem_cons_self))).1
  | punct p =>
      cases p with
      | slash => cases cs <;> simp [joins] at hcs <;> simp [Lexeme.text, Punct.text, trivium?, isBlank, hcs]
      | _ => rfl

theorem gap_of_none {s : List Char} (h : trivium? s = none) : gap s = ([], s) := by
  rw [gap]
  split
  case h_1 => rfl
  case h_2 heq => rw [h] at heq; cases heq

theorem trivium?_blank {c : Char} (hc : isBlank c = true) (s : List Char) : trivium? (c :: s) = some ([c], s) := by
  unfold trivium?
  split
  case h_1 heq | h_2 heq =>
    cases heq
    exact absurd hc (by decide)
  case h_3 heq =>
    cases heq
    exact if_pos hc
  case h_4 heq => cases heq

theorem gap_blank {c : Char} (hc : isBlank c = true) (s : List Char) :
    gap (c :: s) = (c :: (gap s).1, (gap s).2) := by
  have htriv := trivium?_blank hc s
  rw [gap]
  split
  case h_1 heq => rw [htriv] at heq; cases heq
  case h_2 heq =>
    rw [htriv] at heq
    cases heq
    rfl

theorem lexFrom_blank {c : Char} (hc : isBlank c = true) (loc : Location) (s : List Char) :
    lexFrom loc (c :: s) = lexFrom (loc.advance [c]) s := by
  rw [lexFrom, lexFrom, gap_blank hc]
  rfl

theorem lexFrom_text {w : Lexeme} {cs : List Char} (hw : Valid w) (hcs : ∀ c ∈ cs.head?, joins w c = false)
    (loc : Location) : lexFrom loc (w.text.toList ++ cs) =
      (lexFrom (loc.advance w.text.toList) cs).map fun s => ⟨⟨w, loc⟩ :: s.tokens, s.stop⟩ := by
  rw [lexFrom, gap_of_none (trivium?_text hw hcs)]
  split
  case h_1 x rest heq =>
    rw [lexeme?_text hw hcs] at heq
    cases heq
    rfl
  case h_2 heq =>
    rw [lexeme?_text hw hcs] at heq
    cases heq

/-- A written text is read as the words it was written for. -/
theorem lexFrom_written {ws : List Lexeme} {cs : List Char} (h : Written ws cs) (loc : Location) :
    ∃ s, lexFrom loc cs = .ok s ∧ words s.tokens = ws := by
  induction h generalizing loc with
  | nil =>
      refine ⟨⟨[], loc⟩, ?_, rfl⟩
      rw [lexFrom, gap_of_none rfl]
      rfl
  | blank c hc _ ih => rw [lexFrom_blank hc]; exact ih _
  | @word w _ _ hw hcs _ ih =>
      obtain ⟨s, hs, hwords⟩ := ih (loc.advance w.text.toList)
      refine ⟨⟨⟨w, loc⟩ :: s.tokens, s.stop⟩, ?_, by rw [words_cons, hwords]⟩
      rw [lexFrom_text hw hcs, hs]
      rfl

theorem valid_of_lexeme? {s rest : List Char} {w : Lexeme} (h : lexeme? s = some (w, rest)) : Valid w := by
  unfold lexeme? at h
  split at h
  case h_1 => cases h
  case h_2 c s =>
    split at h
    case isTrue hc =>
      cases h
      refine ⟨by simp, fun d hd => ?_⟩
      rcases List.mem_cons.1 (String.toList_ofList ▸ hd) with rfl | hd
      · exact hc
      · exact List.mem_takeWhile_imp hd
    case isFalse =>
      split at h
      case isTrue hc =>
        cases h
        unfold wordLexeme
        split
        case h_1 => trivial
        case h_2 hnone =>
          refine valid_ident.2 ⟨?_, hnone⟩
          rw [String.toList_ofList, isWord, hc, Bool.true_and, List.all_takeWhile]
      case isFalse =>
        split at h <;> cases h
        trivial

theorem valid_of_lexFrom {loc : Location} {cs : List Char} {s : TokenStream} (h : lexFrom loc cs = .ok s) :
    ∀ w ∈ words s.tokens, Valid w := by
  fun_induction lexFrom loc cs generalizing s with
  | case1 _ cs g loc x rest hx =>
      rename_i ih
      generalize lexFrom (loc.advance x.text.toList) rest = following at h ih
      cases following with
      | error => cases h
      | ok t =>
          cases h
          exact List.forall_mem_cons.2 ⟨valid_of_lexeme? hx, ih rfl⟩
  | case2 =>
      cases h
      exact List.forall_mem_nil _
  | case3 => cases h

theorem valid_int (n : Nat) : Valid (.int (toString n)) := by
  refine ⟨?_, fun c hc => ?_⟩
  · rw [Nat.toString_eq_ofList_toDigits, String.toList_ofList]
    exact Nat.toDigits_ne_nil
  · rw [Nat.toString_eq_ofList_toDigits, String.toList_ofList] at hc
    exact Nat.isDigit_of_mem_toDigits (by decide) (by decide) hc

variable {ws us : List Lexeme} {cs : List Char}

theorem stops_cons {c : Char} (hc : isWordChar c = false) (cs : List Char) : Stops (c :: cs) := by
  simpa [Stops] using hc

theorem stops_mark (p : Punct) (cs : List Char) : Stops (p.text.toList ++ cs) := by
  cases p <;> exact stops_cons rfl _

theorem Written.mark {p : Punct} (hp : ∀ c, joins (.punct p) c = false) (h : Written us cs) :
    Written (.punct p :: us) (p.text.toList ++ cs) :=
  .word trivial (fun c _ => hp c) h

theorem Written.spaced (p : Punct) (h : Written us cs) :
    Written (.punct p :: us) (' ' :: (p.text.toList ++ ' ' :: cs)) := by
  refine .blank ' ' rfl (.word trivial ?_ (.blank ' ' rfl h))
  cases p <;> simp [joins]

theorem Writes.mark {s : String} (hs : Writes ws s) {p : Punct} (hp : ∀ c, joins (.punct p) c = false)
    (h : Written us cs) : Written (ws ++ .punct p :: us) (s.toList ++ (p.text.toList ++ cs)) :=
  hs (.mark hp h) (stops_mark p cs)

theorem Writes.blank {s : String} (hs : Writes ws s) (h : Written us cs) :
    Written (ws ++ us) (s.toList ++ ' ' :: cs) :=
  hs (.blank ' ' rfl h) (stops_cons rfl cs)

theorem writes_ident {name : String} (h : Valid (.ident name)) : Writes [.ident name] name :=
  fun _ _ hus hcs => .word h hcs hus

theorem writes_keyword (k : Keyword) : Writes [.keyword k] k.text :=
  fun _ _ hus hcs => .word trivial hcs hus

theorem writes_int {digits : String} (h : Valid (.int digits)) : Writes [.int digits] digits := by
  refine fun _ _ hus hcs => .word h (fun c hc => ?_) hus
  have hword := hcs c hc
  simp only [isWordChar, Bool.or_eq_false_iff] at hword
  exact hword.1.2

theorem writes_commas {α : Type} {item : α → List Lexeme} {text : α → String} {xs : List α}
    (h : ∀ x ∈ xs, Writes (item x) (text x)) :
    Writes (Grammar.commas (xs.map item)) (", ".intercalate (xs.map text)) := by
  induction xs with
  | nil => exact fun _ _ hus _ => hus
  | cons x xs ih =>
      obtain ⟨hx, hxs⟩ := List.forall_mem_cons.1 h
      cases xs with
      | nil => simpa [Grammar.commas, String.toList_intercalate] using hx
      | cons y ys =>
          intro us cs hus hcs
          have hrest := ih hxs hus hcs
          rw [String.toList_intercalate] at hrest ⊢
          simp only [List.map_cons, Grammar.commas, List.intercalate_cons_cons, List.append_assoc,
            List.cons_append] at hrest ⊢
          exact hx.mark (p := .comma) (fun _ => rfl) (.blank ' ' rfl hrest)

theorem joins_space (w : Lexeme) : joins w ' ' = false := by
  cases w with
  | ident | keyword | int => rfl
  | punct p => cases p <;> rfl

theorem written_joined (h : ∀ w ∈ ws, Valid w) : Written ws (" ".intercalate (ws.map Lexeme.text)).toList := by
  rw [String.toList_intercalate]
  induction ws with
  | nil => exact .nil
  | cons w ws ih =>
      obtain ⟨hw, hws⟩ := List.forall_mem_cons.1 h
      cases ws with
      | nil =>
          have hlast : Written [w] (w.text.toList ++ []) := .word hw (fun c hc => by cases hc) .nil
          simpa using hlast
      | cons v vs =>
          simp only [List.map_cons, List.intercalate_cons_cons, List.append_assoc] at ih ⊢
          refine .word hw (fun c hc => ?_) (.blank ' ' rfl (ih hws))
          obtain rfl : ' ' = c := by simpa using hc
          exact joins_space w

/-- The texts of words with single spaces between them are read as these words and nothing more, just if each of the
words is valid. -/
theorem lex_joined (ws : List Lexeme) :
    (∃ s, lex (" ".intercalate (ws.map Lexeme.text)) = .ok s ∧ words s.tokens = ws) ↔ ∀ w ∈ ws, Valid w := by
  constructor
  · rintro ⟨s, hlex, rfl⟩
    exact valid_of_lexFrom hlex
  · intro h
    exact lexFrom_written (written_joined h) .start

end Lexer

end Backflow
