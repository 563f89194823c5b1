import Backflow.Proofs.PrintedProgram
import Backflow.Text.Split

namespace Backflow

namespace Text

theorem splitChars_eq_splitOn (mark : Char) (cs : List Char) : splitChars mark cs = cs.splitOn mark := by
  induction cs with
  | nil => rfl
  | cons c cs ih =>
      rw [splitChars, ih, List.splitOn_eq_splitOnP, List.splitOn_eq_splitOnP, List.splitOnP_cons_eq_if_modifyHead]
      simp only [beq_iff_eq]
      congr 1
      cases hparts : List.splitOnP (· == mark) cs with
      | nil => exact absurd hparts (List.splitOnP_ne_nil _ _)
      | cons part parts => rfl

def Inline (s : String) : Prop := '\n' ∉ s.toList

instance (s : String) : Decidable (Inline s) := inferInstanceAs (Decidable ('\n' ∉ s.toList))

variable {s t : String} {ls : List String}

@[simp] theorem inline_append : Inline (s ++ t) ↔ Inline s ∧ Inline t := by
  simp [Inline]

theorem inline_intercalate {sep : String} (hsep : Inline sep) (h : ∀ l ∈ ls, Inline l) :
    Inline (sep.intercalate ls) := by
  induction ls with
  | nil => exact List.not_mem_nil
  | cons l ls ih =>
      obtain ⟨hl, hls⟩ := List.forall_mem_cons.1 h
      cases ls with
      | nil => simpa using hl
      | cons l' ls =>
          rw [String.intercalate_cons_cons]
          exact inline_append.2 ⟨inline_append.2 ⟨hl, hsep⟩, ih hls⟩

theorem split_intercalate (h : ∀ l ∈ ls, Inline l) (hne : ls ≠ []) : split '\n' ("\n".intercalate ls) = ls := by
  have hparts : ∀ cs ∈ ls.map String.toList, '\n' ∉ cs := List.forall_mem_map.2 h
  have hsplit := List.splitOn_intercalate '\n' hparts (by simpa using hne)
  rw [split, splitChars_eq_splitOn, String.toList_intercalate]
  change (List.splitOn '\n' (['\n'].intercalate _)).map String.ofList = ls
  rw [hsplit, List.map_map]
  simp [Function.comp_def]

def unindented (l : String) : String := String.ofList (l.toList.dropWhile Lexer.isBlank)

/-- The line's first characters that are no blanks are two slashes. -/
def isRemark (l : String) : Bool := ['/', '/'].isPrefixOf (unindented l).toList

theorem slashes_of_isRemark {l : String} (h : isRemark l = true) : ['/', '/'] <:+: l.toList := by
  rw [isRemark, unindented, String.toList_ofList, List.isPrefixOf_iff_prefix] at h
  exact h.isInfix.trans (List.dropWhile_suffix _).isInfix

def remarks (text : String) : List String := (split '\n' text).filter isRemark

def withoutRemarks (text : String) : String := "\n".intercalate ((split '\n' text).filter (!isRemark ·))

end Text

namespace Lexer

open Text

theorem not_mem_text {w : Lexeme} {c : Char} (hw : Valid w) (hc : isWordChar c = false)
    (hpunct : ∀ p, w = .punct p → c ∉ p.text.toList) : c ∉ w.text.toList := by
  simp only [isWordChar, Bool.or_eq_false_iff] at hc
  have hword {s : String} (hs : isWord s.toList = true) : c ∉ s.toList := by
    obtain ⟨d, cs, hcons, hd, hcs⟩ := cons_of_isWord hs
    rw [hcons, List.mem_cons]
    rintro (rfl | hmem)
    · simp [isWordStart, hc] at hd
    · have hmem := hcs c hmem
      simp [isWordChar, hc] at hmem
  cases w with
  | ident name => exact hword (valid_ident.1 hw).1
  | keyword k => exact hword (isWord_keyword k)
  | int digits => exact fun hmem => Bool.eq_false_iff.1 hc.1.2 (hw.2 c hmem)
  | punct p => exact hpunct p rfl

theorem slash_not_mem_text {w : Lexeme} (hw : Valid w) (hne : w ≠ .punct .slash) : '/' ∉ w.text.toList := by
  refine not_mem_text hw (by decide) fun p hp => ?_
  cases p with
  | slash => exact absurd hp hne
  | _ => decide

theorem Written.no_slashes {ws : List Lexeme} {cs : List Char} (h : Written ws cs) : ¬ ['/', '/'] <:+: cs := by
  induction h with
  | nil => decide
  | blank c hc _ ih =>
      rw [List.infix_cons_iff, not_or]
      refine ⟨fun hslash => ?_, ih⟩
      rw [← (List.cons_prefix_cons.1 hslash).1] at hc
      exact absurd hc (by decide)
  | @word w ws cs hw hcs _ ih =>
      by_cases hne : w = .punct .slash
      · subst hne
        change ¬ ['/', '/'] <:+: '/' :: cs
        rw [List.infix_cons_iff, not_or]
        refine ⟨fun hslash => ?_, ih⟩
        obtain ⟨rest, rfl⟩ := (List.cons_prefix_cons.1 hslash).2
        exact absurd (hcs '/' rfl) (by decide)
      · exact fun hslash => ih (infix_of_not_mem (slash_not_mem_text hw hne) hslash)

theorem inline_text {w : Lexeme} (hw : Valid w) : Inline w.text :=
  not_mem_text hw (by decide) fun p _ => by cases p <;> decide

theorem inline_name {name : String} (h : Valid (.ident name)) : Inline name := inline_text h

end Lexer

open Text

namespace Expr

theorem inline_wrap {e : Expr} {s : String} (h : Inline s) : Inline (e.wrap s) := by
  unfold wrap
  split
  · exact inline_append.2 ⟨inline_append.2 ⟨by decide, h⟩, by decide⟩
  · exact h

theorem inline_text {e : Expr} (h : e.Readable) : Inline e.text := by
  induction e using Expr.induction with
  | int n =>
      rw [text]
      exact Lexer.inline_text (w := .int (toString n)) (Lexer.valid_toString_iff.2 (readable_value.1 h).1)
  | bool b => cases b <;> decide
  | var x => exact Lexer.inline_name (readable_name.1 h)
  | self => decide
  | newObject x => simp +decide [text, Lexer.inline_name (readable_newObject.1 h)]
  | newArray e ih => simp +decide [text, ih (readable_newArray.1 h)]
  | unary op e ih =>
      have hop : Inline op.punct.text := Lexer.inline_text (w := .punct op.punct) trivial
      simp [text, hop, inline_wrap (ih (readable_unary.1 h))]
  | binary op e₁ e₂ ih₁ ih₂ =>
      obtain ⟨h₁, h₂⟩ := readable_binary.1 h
      have hop : Inline op.punct.text := Lexer.inline_text (w := .punct op.punct) trivial
      simp +decide [text, hop, inline_wrap (ih₁ h₁), inline_wrap (ih₂ h₂)]
  | index a i iha ihi =>
      obtain ⟨ha, hi⟩ := readable_index.1 h
      simp +decide [text, inline_wrap (iha ha), ihi hi]
  | length a iha => simp +decide [text, inline_wrap (iha (readable_length.1 h))]
  | call r f args ihr ihargs =>
      obtain ⟨hr, hf, hargs⟩ := readable_call.1 h
      have hlist : Inline (", ".intercalate (texts args)) := by
        rw [texts_eq_map]
        exact inline_intercalate (by decide) (List.forall_mem_map.2 fun a ha => ihargs a ha (hargs a ha))
      simp +decide [text, inline_wrap (ihr hr), Lexer.inline_name hf, hlist]

end Expr

namespace Printer

theorem inline_line {depth : Nat} {s : String} (h : Inline s) : Inline (line depth s) := by
  refine inline_append.2 ⟨?_, h⟩
  simp [Inline]

theorem inline_header {s : Stmt} (h : ∀ w ∈ s.headWords, Lexer.Readable w) : Inline s.header := by
  cases s with
  | block =>
      change Inline "\x7b ... \x7d"
      decide
  | brk =>
      change Inline "break;"
      decide
  | cont =>
      change Inline "continue;"
      decide
  | ifThen t c | ifElse t c =>
      simp only [Stmt.headWords, List.forall_mem_cons, List.forall_mem_append] at h
      change Inline ("if (" ++ c.text ++ ")")
      simp +decide [Expr.inline_text h.2.2.1]
  | loop t c =>
      simp only [Stmt.headWords, List.forall_mem_cons, List.forall_mem_append] at h
      change Inline ("while (" ++ c.text ++ ")")
      simp +decide [Expr.inline_text h.2.2.1]
  | call t r f args =>
      change Inline ((Expr.call r f args).text ++ ";")
      exact inline_append.2 ⟨Expr.inline_text (List.forall_mem_append.1 h).1, by decide⟩
  | assign t x e =>
      simp only [Stmt.headWords, List.forall_mem_cons, List.forall_mem_append] at h
      change Inline (x ++ " = " ++ e.text ++ ";")
      simp +decide [Lexer.inline_name h.1.1, Expr.inline_text h.2.2.1]
  | store t x i e =>
      simp only [Stmt.headWords, List.forall_mem_cons, List.forall_mem_append] at h
      obtain ⟨hx, _, hi, _, _, he, _⟩ := h
      change Inline (x ++ "[" ++ i.text ++ "] = " ++ e.text ++ ";")
      simp +decide [Lexer.inline_name hx.1, Expr.inline_text hi, Expr.inline_text he]
  | print t e =>
      simp only [Stmt.headWords, List.forall_mem_cons, List.forall_mem_append] at h
      obtain ⟨_, _, _, _, _, _, he, _⟩ := h
      change Inline ("System.out.println(" ++ e.text ++ ");")
      simp +decide [Expr.inline_text he]
  | ret t value =>
      cases value with
      | none =>
          change Inline "return;"
          decide
      | some e =>
          simp only [Stmt.headWords, List.forall_mem_cons, List.forall_mem_append] at h
          change Inline ("return " ++ e.text ++ ";")
          simp +decide [Expr.inline_text h.2.1]

variable {note : Note} {depth : Nat}

def InlineNotes (note : Note) : Prop := ∀ s text, note s = some text → Inline text

theorem inline_noteLines (hnote : InlineNotes note) (s : Stmt) : ∀ l ∈ noteLines note s depth, Inline l := by
  unfold noteLines
  split
  case h_1 text heq =>
    refine List.forall_mem_singleton.2 (inline_line (inline_append.2 ⟨by decide, hnote s text heq⟩))
  case h_2 => exact List.forall_mem_nil _

theorem inline_noted (hnote : InlineNotes note) {s : Stmt} (h : ∀ w ∈ s.headWords, Lexer.Readable w)
    {ls : List String} (hls : ∀ l ∈ ls, Inline l) :
    ∀ l ∈ noteLines note s depth ++ line depth s.header :: ls, Inline l :=
  List.forall_mem_append.2 ⟨inline_noteLines hnote s, List.forall_mem_cons.2 ⟨inline_line (inline_header h), hls⟩⟩

theorem inline_stmtLines (hnote : InlineNotes note) :
    (∀ s : Stmt, (∀ w ∈ s.lexemes, Lexer.Readable w) → ∀ depth, ∀ l ∈ stmtLines note s depth, Inline l) ∧
      ∀ body : List Stmt, (∀ w ∈ Stmt.lexemesList body, Lexer.Readable w) → ∀ depth,
        ∀ l ∈ stmtsLines note body depth, Inline l := by
  apply Stmt.induction
  case plain =>
    intro s hs
    apply hs.cases <;> intros <;> exact inline_noted hnote ‹_› (List.forall_mem_nil _) _ ‹_›
  case ret | brk | cont => intros; exact inline_noted hnote ‹_› (List.forall_mem_nil _) _ ‹_›
  case block =>
    intro t body ih h depth
    obtain ⟨hbody, _⟩ := List.forall_mem_append.1 (List.forall_mem_cons.1 h).2
    have hbrace {s : String} (hs : Inline s) : Inline (line depth s) := inline_line hs
    exact List.forall_mem_cons.2 ⟨hbrace (by decide), List.forall_mem_append.2
      ⟨ih hbody (depth + 1), List.forall_mem_singleton.2 (hbrace (by decide))⟩⟩
  case ifThen | loop =>
    intro t c body ih h depth
    obtain ⟨hhead, hbody⟩ := List.forall_mem_append.1 h
    exact inline_noted hnote hhead (ih hbody _)
  case ifElse =>
    intro t c yes no ihyes ihno h depth
    simp only [Stmt.lexemes, List.forall_mem_append, List.forall_mem_cons] at h
    obtain ⟨hhead, hyes, _, hno⟩ := h
    have helse : Inline (line depth "else") := inline_line (by decide)
    exact inline_noted (s := .ifElse t c yes no) hnote hhead
      (List.forall_mem_append.2 ⟨ihyes hyes _, List.forall_mem_cons.2 ⟨helse, ihno hno _⟩⟩)
  case nil => exact fun _ _ => List.forall_mem_nil _
  case cons =>
    intro s rest ihs ihrest h depth
    obtain ⟨hs, hrest⟩ := List.forall_mem_append.1 h
    exact List.forall_mem_append.2 ⟨ihs hs depth, ihrest hrest depth⟩

theorem inline_type {ty : Ty} (h : ∀ w ∈ ty.lexemes, Lexer.Readable w) : Inline ty.text := by
  cases ty with
  | named name => exact Lexer.inline_name (h _ List.mem_cons_self).1
  | _ => decide

theorem inline_declText {v : VarDecl} (h : ∀ w ∈ v.lexemes, Lexer.Readable w) : Inline (declText v) := by
  obtain ⟨htype, hname⟩ := List.forall_mem_append.1 h
  simp +decide [declText, inline_type htype, Lexer.inline_name (hname _ List.mem_cons_self).1]

theorem inline_declarations {vs : List VarDecl}
    (h : ∀ w ∈ vs.flatMap fun v => v.lexemes ++ [.punct .semi], Lexer.Readable w) :
    ∀ l ∈ vs.map fun v => line depth (declText v ++ ";"), Inline l := by
  rw [List.forall_mem_flatMap] at h
  refine List.forall_mem_map.2 fun v hv => inline_line (inline_append.2 ⟨inline_declText ?_, by decide⟩)
  exact (List.forall_mem_append.1 (h v hv)).1

theorem inline_methodHeader {m : Method} (h : ∀ w ∈ m.headWords, Lexer.Readable w) : Inline (methodHeader m) := by
  simp only [Method.headWords, List.forall_mem_cons, List.forall_mem_append,
    Expr.forall_mem_commas (Lexer.readable_punct .comma), List.forall_mem_map] at h
  obtain ⟨_, htype, hname, _, hparams, _⟩ := h
  have hstatic : Inline (if m.isStatic then "static " else "") := by split <;> decide
  have hlist : Inline (", ".intercalate (m.params.map declText)) :=
    inline_intercalate (by decide) (List.forall_mem_map.2 fun v hv => inline_declText (hparams v hv))
  simp +decide [methodHeader, hstatic, inline_type htype, Lexer.inline_name hname.1, hlist]

theorem inline_methodLines (hnote : InlineNotes note) {m : Method} (h : ∀ w ∈ m.lexemes, Lexer.Readable w) :
    ∀ l ∈ methodLines note m depth, Inline l := by
  simp only [Method.lexemes, List.forall_mem_append] at h
  obtain ⟨hhead, hlocals, hbody, _⟩ := h
  have hclose : Inline (line depth "\x7d") := inline_line (by decide)
  simp only [methodLines, List.forall_mem_cons, List.forall_mem_append]
  exact ⟨inline_line (inline_methodHeader hhead), inline_declarations hlocals,
    (inline_stmtLines hnote).2 m.body hbody (depth + 1), hclose, List.forall_mem_nil _⟩

theorem inline_classHeader {c : Class} (h : ∀ w ∈ c.headWords, Lexer.Readable w) : Inline (classHeader c) := by
  simp only [Class.headWords, List.forall_mem_cons, List.forall_mem_append] at h
  obtain ⟨_, hname, hparent, _⟩ := h
  have hname := Lexer.inline_name hname.1
  unfold classHeader
  cases hp : c.parent with
  | none => simp +decide [hname]
  | some q =>
      rw [hp] at hparent
      have hq := Lexer.inline_name (hparent _ (List.mem_cons_of_mem _ List.mem_cons_self)).1
      simp +decide [hname, hq]

theorem inline_classLines (hnote : InlineNotes note) {c : Class} (h : ∀ w ∈ c.lexemes, Lexer.Readable w) :
    ∀ l ∈ classLines note c, Inline l := by
  simp only [Class.lexemes, List.forall_mem_append, List.forall_mem_flatMap (l := c.methods)] at h
  obtain ⟨hhead, hfields, hmethods, _⟩ := h
  simp only [classLines, List.forall_mem_cons, List.forall_mem_append, List.forall_mem_flatMap]
  exact ⟨inline_classHeader hhead, inline_declarations hfields,
    fun m hm => inline_methodLines hnote (hmethods m hm), by decide, List.forall_mem_nil _⟩

theorem inline_classesLines (hnote : InlineNotes note) {cs : List Class}
    (h : ∀ c ∈ cs, ∀ w ∈ c.lexemes, Lexer.Readable w) : ∀ l ∈ classesLines note cs, Inline l := by
  induction cs with
  | nil => exact List.forall_mem_nil _
  | cons c rest ih =>
      obtain ⟨hc, hrest⟩ := List.forall_mem_cons.1 h
      cases rest with
      | nil => exact inline_classLines hnote hc
      | cons d rest =>
          have hempty : Inline "" := by decide
          exact List.forall_mem_append.2 ⟨inline_classLines hnote hc, List.forall_mem_cons.2 ⟨hempty, ih hrest⟩⟩

end Printer

end Backflow
