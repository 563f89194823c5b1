import Backflow.Syntax.Error

namespace Backflow.Lexer

def isBlank (c : Char) : Bool := c = ' ' || c = '\t' || c = '\r' || c = '\n'

def isDigit (c : Char) : Bool := '0' ≤ c && c ≤ '9'

def isLetter (c : Char) : Bool := ('a' ≤ c && c ≤ 'z') || ('A' ≤ c && c ≤ 'Z')

def isWordStart (c : Char) : Bool := isLetter c || c = '_'

def isWordChar (c : Char) : Bool := isLetter c || isDigit c || c = '_'

/-- The text up to the end of the line, and what follows. The line ends before a line feed, before
a carriage return with its line feed, or with the text; a lone carriage return ends no line and
there is no answer. -/
def restOfLine? : List Char → Option (List Char × List Char)
  | [] => some ([], [])
  | '\n' :: s => some ([], '\n' :: s)
  | '\r' :: '\n' :: s => some ([], '\r' :: '\n' :: s)
  | '\r' :: _ => none
  | c :: s => (restOfLine? s).map fun (line, rest) => (c :: line, rest)

/-- The text up to and with the first `*/`, and what follows. -/
def throughClose? : List Char → Option (List Char × List Char)
  | '*' :: '/' :: s => some (['*', '/'], s)
  | c :: s => (throughClose? s).map fun (body, rest) => (c :: body, rest)
  | [] => none

/-- One blank or one comment at the head of a text, and what follows. -/
def trivium? : List Char → Option (List Char × List Char)
  | '/' :: '/' :: s => (restOfLine? s).map fun (line, rest) => ('/' :: '/' :: line, rest)
  | '/' :: '*' :: s => (throughClose? s).map fun (body, rest) => ('/' :: '*' :: body, rest)
  | c :: s => if isBlank c then some ([c], s) else none
  | [] => none

theorem restOfLine?_append {s line rest : List Char} (h : restOfLine? s = some (line, rest)) :
    line ++ rest = s := by
  fun_induction restOfLine? s generalizing line rest with
  | case1 => simp_all
  | case2 => simp_all
  | case3 => simp_all
  | case4 => simp_all
  | case5 c s _ _ _ ih =>
      obtain ⟨⟨l, r⟩, hr, heq⟩ := Option.map_eq_some_iff.1 h
      simp only [Prod.mk.injEq] at heq
      simp [← heq.1, ← heq.2, ih hr]

theorem throughClose?_append {s body rest : List Char}
    (h : throughClose? s = some (body, rest)) : body ++ rest = s := by
  fun_induction throughClose? s generalizing body rest with
  | case1 s =>
      simp only [Option.some.injEq, Prod.mk.injEq] at h
      simp [← h.1, ← h.2]
  | case2 c s _ ih =>
      obtain ⟨⟨b, r⟩, hr, heq⟩ := Option.map_eq_some_iff.1 h
      simp only [Prod.mk.injEq] at heq
      simp [← heq.1, ← heq.2, ih hr]
  | case3 => simp at h

theorem trivium?_append {s piece rest : List Char} (h : trivium? s = some (piece, rest)) :
    piece ++ rest = s := by
  unfold trivium? at h
  split at h
  · obtain ⟨⟨l, r⟩, hr, heq⟩ := Option.map_eq_some_iff.1 h
    simp only [Prod.mk.injEq] at heq
    simp [← heq.1, ← heq.2, restOfLine?_append hr]
  · obtain ⟨⟨l, r⟩, hr, heq⟩ := Option.map_eq_some_iff.1 h
    simp only [Prod.mk.injEq] at heq
    simp [← heq.1, ← heq.2, throughClose?_append hr]
  · split at h
    · simp only [Option.some.injEq, Prod.mk.injEq] at h
      simp [← h.1, ← h.2]
    · simp at h
  · simp at h

theorem trivium?_ne_nil {s piece rest : List Char} (h : trivium? s = some (piece, rest)) :
    piece ≠ [] := by
  unfold trivium? at h
  split at h
  · obtain ⟨⟨l, r⟩, hr, heq⟩ := Option.map_eq_some_iff.1 h
    simp only [Prod.mk.injEq] at heq
    simp [← heq.1]
  · obtain ⟨⟨l, r⟩, hr, heq⟩ := Option.map_eq_some_iff.1 h
    simp only [Prod.mk.injEq] at heq
    simp [← heq.1]
  · split at h
    · simp only [Option.some.injEq, Prod.mk.injEq] at h
      simp [← h.1]
    · simp at h
  · simp at h

theorem trivium?_length_lt {s piece rest : List Char} (h : trivium? s = some (piece, rest)) :
    rest.length < s.length := by
  have hp := List.length_pos_iff.2 (trivium?_ne_nil h)
  have hs := congrArg List.length (trivium?_append h)
  simp only [List.length_append] at hs
  omega

/-- The blanks and comments at the head of a text, as many as there are, and what follows. -/
def gap (s : List Char) : List Char × List Char :=
  match _h : trivium? s with
  | none => ([], s)
  | some (piece, rest) =>
    let (more, after) := gap rest
    (piece ++ more, after)
termination_by s.length
decreasing_by exact trivium?_length_lt _h

def wordLexeme (w : String) : Lexeme :=
  match Keyword.ofText? w with
  | some k => .keyword k
  | none => .ident w

/-- The longest lexeme at the head of a text, and what follows. -/
def lexeme? : List Char → Option (Lexeme × List Char)
  | [] => none
  | c :: s =>
    if isDigit c then
      some (.int (String.ofList (c :: s.takeWhile isDigit)), s.dropWhile isDigit)
    else if isWordStart c then
      some (wordLexeme (String.ofList (c :: s.takeWhile isWordChar)), s.dropWhile isWordChar)
    else
      match Punct.all.find? (·.chars.isPrefixOf (c :: s)) with
      | some p => some (.punct p, (c :: s).drop p.chars.length)
      | none => none

theorem gap_append (s : List Char) : (gap s).1 ++ (gap s).2 = s := by
  fun_induction gap s with
  | case1 => simp
  | case2 s piece rest h more after hg ih =>
      simp only [hg] at ih
      simp [ih, trivium?_append h]

theorem gap_length_le (s : List Char) : (gap s).2.length ≤ s.length := by
  have h := congrArg List.length (gap_append s)
  simp only [List.length_append] at h
  omega

theorem lexeme?_length_lt {s rest : List Char} {x : Lexeme} (h : lexeme? s = some (x, rest)) :
    rest.length < s.length := by
  unfold lexeme? at h
  split at h
  · simp at h
  · rename_i c s
    have hdrop (p : Char → Bool) : (s.dropWhile p).length ≤ s.length :=
      (List.dropWhile_suffix p).length_le
    split at h
    · simp only [Option.some.injEq, Prod.mk.injEq] at h
      have := hdrop isDigit
      simp only [← h.2, List.length_cons]
      omega
    · split at h
      · simp only [Option.some.injEq, Prod.mk.injEq] at h
        have := hdrop isWordChar
        simp only [← h.2, List.length_cons]
        omega
      · split at h
        · rename_i p _
          simp only [Option.some.injEq, Prod.mk.injEq] at h
          have : 0 < p.chars.length := by cases p <;> decide
          simp only [← h.2, List.length_drop, List.length_cons]
          omega
        · simp at h

def lexFrom (loc : Location) (s : List Char) : Except SyntaxError TokenStream :=
  let g := gap s
  let loc := loc.advance g.1
  match _h : lexeme? g.2 with
  | some (x, rest) => do
    let following ← lexFrom (loc.advance x.text.toList) rest
    return ⟨⟨x, loc⟩ :: following.tokens, following.stop⟩
  | none =>
    match g.2 with
    | [] => .ok ⟨[], loc⟩
    | c :: _ => .error (.badChar loc c)
termination_by s.length
decreasing_by exact Nat.lt_of_lt_of_le (lexeme?_length_lt _h) (gap_length_le s)

/-- The tokens of a source text. -/
def lex (source : String) : Except SyntaxError TokenStream := lexFrom .start source.toList

end Backflow.Lexer
