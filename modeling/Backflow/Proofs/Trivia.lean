import Backflow.Proofs.WrittenText

namespace Backflow.Lexer

/-- A line can end before the text: nothing is left, or a line feed comes next, with a carriage return or without. -/
def EndsLine (s : List Char) : Prop := s = [] ∨ ['\n'] <+: s ∨ ['\r', '\n'] <+: s

/-- The text neither ends a line nor holds a carriage return. -/
def OnLine (s : List Char) : Prop := ∀ c ∈ s, c ≠ '\r' ∧ c ≠ '\n'

-- By the list, since the instance that is found may try every character there is.
instance (s : List Char) : Decidable (OnLine s) := List.decidableBAll (fun c => c ≠ '\r' ∧ c ≠ '\n') s

def Unclosed (s : List Char) : Prop := ¬ ['*', '/'] <:+: s

instance (s : List Char) : Decidable (Unclosed s) := inferInstanceAs (Decidable (¬ ['*', '/'] <:+: s))

/-- One blank or one comment, where `after` is the text that follows. -/
inductive Trivium : List Char → List Char → Prop
  | blank {c : Char} {after : List Char} : c.isWhitespace = true → Trivium [c] after
  | line {text after : List Char} : OnLine text → EndsLine after → Trivium ('/' :: '/' :: text) after
  | block {text after : List Char} : Unclosed text → Trivium ('/' :: '*' :: (text ++ ['*', '/'])) after

/-- A run of blanks and comments, where `after` is the text that follows. -/
inductive Trivia : List Char → List Char → Prop
  | nil {after : List Char} : Trivia [] after
  | cons {piece run after : List Char} : Trivium piece (run ++ after) → Trivia run after → Trivia (piece ++ run) after

/-- No blank and no comment begins the text. -/
def Clear (s : List Char) : Prop := ∀ piece rest, Trivium piece rest → piece ++ rest ≠ s

variable {s line body piece run after rest text : List Char} {c : Char}

theorem restOfLine?_sound (h : restOfLine? s = some (line, rest)) : OnLine line ∧ EndsLine rest := by
  fun_induction restOfLine? s generalizing line rest with
  | case1 =>
      cases h
      exact ⟨List.forall_mem_nil _, Or.inl rfl⟩
  | case2 s =>
      cases h
      exact ⟨List.forall_mem_nil _, Or.inr (Or.inl ⟨s, rfl⟩)⟩
  | case3 s =>
      cases h
      exact ⟨List.forall_mem_nil _, Or.inr (Or.inr ⟨s, rfl⟩)⟩
  | case4 => cases h
  | case5 c s hn hrn hr ih =>
      obtain ⟨⟨l, r⟩, hline, heq⟩ := Option.map_eq_some_iff.1 h
      cases heq
      obtain ⟨hl, hends⟩ := ih hline
      exact ⟨List.forall_mem_cons.2 ⟨⟨hr, hn⟩, hl⟩, hends⟩

theorem restOfLine?_complete (hline : OnLine line) (hrest : EndsLine rest) :
    restOfLine? (line ++ rest) = some (line, rest) := by
  induction line with
  | nil => rcases hrest with rfl | ⟨s, rfl⟩ | ⟨s, rfl⟩ <;> rfl
  | cons c line ih =>
      obtain ⟨⟨hr, hn⟩, hline⟩ := List.forall_mem_cons.1 hline
      rw [List.cons_append, restOfLine?, ih hline]
      · rfl
      · exact hn
      · exact fun s hc => absurd hc hr
      · exact hr

theorem throughClose?_sound (h : throughClose? s = some (body, rest)) :
    ∃ text, body = text ++ ['*', '/'] ∧ Unclosed text := by
  fun_induction throughClose? s generalizing body rest with
  | case1 s =>
      cases h
      exact ⟨[], rfl, by decide⟩
  | case2 c s hclose ih =>
      obtain ⟨⟨b, r⟩, hb, heq⟩ := Option.map_eq_some_iff.1 h
      cases heq
      obtain ⟨text, rfl, htext⟩ := ih hb
      refine ⟨c :: text, rfl, fun hinfix => ?_⟩
      rcases List.infix_cons_iff.1 hinfix with ⟨u, hprefix⟩ | htail
      · cases text with
        | nil => cases hprefix
        | cons d text =>
            cases hprefix
            have happend := throughClose?_append hb
            exact hclose _ rfl happend.symm
      · exact htext htail
  | case3 => cases h

theorem throughClose?_complete (h : Unclosed text) :
    throughClose? (text ++ '*' :: '/' :: rest) = some (text ++ ['*', '/'], rest) := by
  induction text with
  | nil => rfl
  | cons c text ih =>
      have htext : Unclosed text := fun hinfix => h (List.infix_cons hinfix)
      rw [List.cons_append, throughClose?, ih htext]
      · rfl
      · rintro u rfl htail
        cases text with
        | nil => cases htail
        | cons d text =>
            cases htail
            exact h ⟨[], text, rfl⟩

theorem trivium_of_trivium? (h : trivium? s = some (piece, rest)) : Trivium piece rest := by
  unfold trivium? at h
  split at h
  case h_1 s =>
    obtain ⟨⟨l, r⟩, hline, heq⟩ := Option.map_eq_some_iff.1 h
    cases heq
    obtain ⟨hl, hr⟩ := restOfLine?_sound hline
    exact .line hl hr
  case h_2 s =>
    obtain ⟨⟨b, r⟩, hbody, heq⟩ := Option.map_eq_some_iff.1 h
    cases heq
    obtain ⟨text, rfl, htext⟩ := throughClose?_sound hbody
    exact .block htext
  case h_3 c s _ _ =>
    split at h
    case isTrue hc =>
      cases h
      rw [isBlank_eq] at hc
      exact .blank hc
    case isFalse => cases h
  case h_4 => cases h

theorem trivium?_of_trivium (h : Trivium piece rest) : trivium? (piece ++ rest) = some (piece, rest) := by
  cases h with
  | blank hc =>
      rw [← isBlank_eq] at hc
      exact trivium?_blank hc rest
  | line hl hr =>
      change (restOfLine? (_ ++ rest)).map _ = _
      rw [restOfLine?_complete hl hr]
      rfl
  | block htext =>
      change (throughClose? (_ ++ rest)).map _ = _
      rw [List.append_assoc]
      change (throughClose? (_ ++ '*' :: '/' :: rest)).map _ = _
      rw [throughClose?_complete htext]
      rfl

theorem clear_iff : Clear s ↔ trivium? s = none := by
  constructor
  · intro h
    cases htriv : trivium? s with
    | none => rfl
    | some found => exact absurd (trivium?_append htriv) (h _ _ (trivium_of_trivium? htriv))
  · rintro h piece rest hpiece rfl
    rw [trivium?_of_trivium hpiece] at h
    cases h

theorem trivia_gap (s : List Char) : Trivia (gap s).1 (gap s).2 := by
  fun_induction gap s with
  | case1 => exact .nil
  | case2 s piece rest h more after hg ih =>
      rw [hg] at ih
      have happend := gap_append rest
      rw [hg] at happend
      exact .cons (happend ▸ trivium_of_trivium? h) ih

theorem clear_gap (s : List Char) : Clear (gap s).2 := by
  fun_induction gap s with
  | case1 s h => exact clear_iff.2 h
  | case2 s piece rest h more after hg ih => rwa [hg] at ih

theorem gap_of_trivia (hrun : Trivia run after) (hafter : Clear after) : gap (run ++ after) = (run, after) := by
  induction hrun with
  | nil => exact gap_of_none (clear_iff.1 hafter)
  | @cons piece run after hpiece _ ih =>
      have htriv := trivium?_of_trivium hpiece
      rw [← List.append_assoc] at htriv
      rw [gap]
      split
      case h_1 hnone => rw [htriv] at hnone; cases hnone
      case h_2 found =>
        rw [htriv] at found
        cases found
        rw [ih hafter]

end Backflow.Lexer
