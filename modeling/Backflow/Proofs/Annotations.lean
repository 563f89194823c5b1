import Backflow.Proofs.Conflicts
import Backflow.Proofs.PrintedLines
import Backflow.Proofs.RoundTrip
import Backflow.Proofs.StatementOrder
import Backflow.Report.Live

namespace Backflow

open Text

namespace Printer

variable {note note' : Note} {ss ss' : List Stmt} {ls ls' ms ms' : List String}

/-- The statements begin, in order, on lines of the first list. The second list has in addition the note of each
statement, directly above the line that it begins on and with the same indentation. -/
inductive Notes (note : Note) : List Stmt → List String → List String → Prop
  | nil : Notes note [] [] []
  | other {ss : List Stmt} {ls ms : List String} (l : String) : Notes note ss ls ms → Notes note ss (l :: ls) (l :: ms)
  | silent {s : Stmt} {ss : List Stmt} {ls ms : List String} (depth : Nat) : note s = none → Notes note ss ls ms →
      Notes note (s :: ss) (line depth s.header :: ls) (line depth s.header :: ms)
  | noted {s : Stmt} {text : String} {ss : List Stmt} {ls ms : List String} (depth : Nat) : note s = some text →
      Notes note ss ls ms →
      Notes note (s :: ss) (line depth s.header :: ls) (line depth ("// " ++ text) :: line depth s.header :: ms)

namespace Notes

theorem append (h : Notes note ss ls ms) (h' : Notes note ss' ls' ms') :
    Notes note (ss ++ ss') (ls ++ ls') (ms ++ ms') := by
  induction h with
  | nil => exact h'
  | other l _ ih => exact ih.other l
  | silent depth hs _ ih => exact ih.silent depth hs
  | noted depth hs _ ih => exact ih.noted depth hs

theorem others (ls : List String) : Notes note [] ls ls := by
  induction ls with
  | nil => exact .nil
  | cons l ls ih => exact ih.other l

theorem concat (h : Notes note ss ls ms) (l : String) : Notes note ss (ls ++ [l]) (ms ++ [l]) := by
  have happend := h.append (.others [l])
  rwa [List.append_nil] at happend

theorem flatMap {α : Type} {S : α → List Stmt} {L M : α → List String} (h : ∀ x, Notes note (S x) (L x) (M x))
    (xs : List α) : Notes note (xs.flatMap S) (xs.flatMap L) (xs.flatMap M) := by
  induction xs with
  | nil => exact .nil
  | cons x xs ih => exact (h x).append ih

theorem above (s : Stmt) (depth : Nat) (h : Notes note ss ls ms) :
    Notes note (s :: ss) (line depth s.header :: ls) (noteLines note s depth ++ line depth s.header :: ms) := by
  unfold noteLines
  split
  case h_1 heq => exact h.noted depth heq
  case h_2 heq => exact h.silent depth heq

theorem congr (h : Notes note ss ls ms) (hsame : ∀ s ∈ ss, note' s = note s) : Notes note' ss ls ms := by
  induction h with
  | nil => exact .nil
  | other l _ ih => exact (ih hsame).other l
  | silent depth hs _ ih =>
      obtain ⟨hfirst, hrest⟩ := List.forall_mem_cons.1 hsame
      exact (ih hrest).silent depth (hfirst.trans hs)
  | noted depth hs _ ih =>
      obtain ⟨hfirst, hrest⟩ := List.forall_mem_cons.1 hsame
      exact (ih hrest).noted depth (hfirst.trans hs)

end Notes

theorem unindented_note (depth : Nat) (text : String) : unindented (line depth ("// " ++ text)) = "// " ++ text := by
  have hblanks : ∀ c ∈ List.replicate (4 * depth) ' ', Lexer.isBlank c = true := by
    intro c hc
    rw [List.eq_of_mem_replicate hc]
    decide
  rw [unindented, line, String.toList_append, String.toList_ofList, List.dropWhile_append_of_pos hblanks,
    String.toList_append]
  change String.ofList ("// ".toList ++ text.toList) = _
  rw [← String.toList_append, String.ofList_toList]

theorem isRemark_note (depth : Nat) (text : String) : isRemark (line depth ("// " ++ text)) = true := by
  rw [isRemark, unindented_note, String.toList_append]
  rfl

namespace Notes

theorem filter_not_isRemark (h : Notes note ss ls ms) (hls : ∀ l ∈ ls, isRemark l = false) :
    ms.filter (!isRemark ·) = ls := by
  induction h with
  | nil => rfl
  | other l _ ih | silent depth hs _ ih =>
      obtain ⟨hl, hls⟩ := List.forall_mem_cons.1 hls
      rw [List.filter_cons_of_pos (by simp [hl]), ih hls]
  | noted depth hs _ ih =>
      obtain ⟨hl, hls⟩ := List.forall_mem_cons.1 hls
      rw [List.filter_cons_of_neg (by simp [isRemark_note]), List.filter_cons_of_pos (by simp [hl]), ih hls]

theorem filter_isRemark (h : Notes note ss ls ms) (hls : ∀ l ∈ ls, isRemark l = false) :
    (ms.filter isRemark).map unindented = (ss.filterMap note).map ("// " ++ ·) := by
  induction h with
  | nil => rfl
  | other l _ ih =>
      obtain ⟨hl, hls⟩ := List.forall_mem_cons.1 hls
      rw [List.filter_cons_of_neg (by simp [hl]), ih hls]
  | silent depth hs _ ih =>
      obtain ⟨hl, hls⟩ := List.forall_mem_cons.1 hls
      rw [List.filter_cons_of_neg (by simp [hl]), ih hls, List.filterMap_cons_none hs]
  | noted depth hs _ ih =>
      obtain ⟨hl, hls⟩ := List.forall_mem_cons.1 hls
      rw [List.filter_cons_of_pos (isRemark_note _ _), List.filter_cons_of_neg (by simp [hl]), List.map_cons, ih hls,
        unindented_note, List.filterMap_cons_some hs, List.map_cons]

end Notes

theorem notes_stmt (note : Note) :
    (∀ (s : Stmt) (depth : Nat), Notes note s.actions (stmtLines (fun _ => none) s depth) (stmtLines note s depth)) ∧
      ∀ (body : List Stmt) (depth : Nat), Notes note (Stmt.actionsList body)
        (stmtsLines (fun _ => none) body depth) (stmtsLines note body depth) := by
  apply Stmt.induction
  case plain =>
    intro s hs depth
    rw [hs.actions_eq]
    apply hs.cases <;> intros <;> exact Notes.above _ depth .nil
  case ret | brk | cont => intros; exact Notes.above _ _ .nil
  case block =>
    intro t body ih depth
    rw [Stmt.actions_block]
    exact ((ih (depth + 1)).concat _).other _
  case ifThen =>
    intro t c yes ih depth
    rw [Stmt.actions_ifThen]
    exact (ih _).above _ depth
  case ifElse =>
    intro t c yes no ihyes ihno depth
    rw [Stmt.actions_ifElse]
    exact ((ihyes _).append ((ihno _).other _)).above _ depth
  case loop =>
    intro t c body ih depth
    rw [Stmt.actions_loop]
    exact (ih _).above _ depth
  case nil => exact fun _ => .nil
  case cons =>
    intro s rest ihs ihrest depth
    rw [Stmt.actionsList_cons]
    exact (ihs depth).append (ihrest depth)

theorem notes_method (note : Note) (m : Method) (depth : Nat) :
    Notes note (m.statements.filter (!·.isBlock)) (methodLines (fun _ => none) m depth) (methodLines note m depth) := by
  have hbody := (notes_stmt note).2 m.body (depth + 1)
  exact ((Notes.others _).append (hbody.concat _)).other _

theorem notes_class (note : Note) (c : Class) : Notes note (c.methods.flatMap (·.statements.filter (!·.isBlock)))
    (classLines (fun _ => none) c) (classLines note c) := by
  have hmethods := Notes.flatMap (fun m => notes_method note m 1) c.methods
  exact ((Notes.others _).append (hmethods.concat _)).other _

theorem notes_classes (note : Note) (cs : List Class) :
    Notes note (cs.flatMap fun c => c.methods.flatMap (·.statements.filter (!·.isBlock)))
      (classesLines (fun _ => none) cs) (classesLines note cs) := by
  induction cs with
  | nil => exact .nil
  | cons c rest ih =>
      cases rest with
      | nil =>
          rw [List.flatMap_cons, List.flatMap_nil, List.append_nil]
          exact notes_class note c
      | cons d rest =>
          rw [List.flatMap_cons]
          exact (notes_class note c).append (ih.other "")

theorem unlines_eq_intercalate (ls : List String) : unlines ls = "\n".intercalate (ls ++ [""]) := by
  induction ls with
  | nil => rfl
  | cons l ls ih =>
      have hunlines : unlines (l :: ls) = l ++ "\n" ++ unlines ls := by
        rw [unlines, List.map_cons, String.join_cons, unlines]
      obtain ⟨m, ms, hms⟩ := List.exists_cons_of_ne_nil (List.append_ne_nil_of_right_ne_nil ls (List.cons_ne_nil "" []))
      rw [hunlines, ih, List.cons_append, hms, String.intercalate_cons_cons]

/-- The second text is the first one with the notes of the statements: without its remarks it is the first text, the
remarks are the notes in order, and each note stands where `Notes` says. -/
structure Annotated (note : Note) (ss : List Stmt) (plain noted : String) : Prop where
  erased : withoutRemarks noted = plain
  remarks : (remarks noted).map unindented = (ss.filterMap note).map ("// " ++ ·)
  placed : Notes note ss (split '\n' plain) (split '\n' noted)

theorem Annotated.congr {plain noted : String} (h : Annotated note ss plain noted)
    (hsame : ∀ s ∈ ss, note' s = note s) : Annotated note' ss plain noted :=
  ⟨h.erased, h.remarks.trans (by rw [List.filterMap_congr hsame]), h.placed.congr hsame⟩

theorem not_isRemark_of_written {ws : List Lexeme} (h : WritesLines ws ls) : ∀ l ∈ ls, isRemark l = false := by
  have htext := (h .nil).no_slashes
  rw [List.append_nil, toList_unlines] at htext
  intro l hl
  refine Bool.eq_false_iff.2 fun hremark => htext ?_
  have hline : l.toList ++ ['\n'] <:+: ls.flatMap fun l => l.toList ++ ['\n'] :=
    List.infix_of_mem_flatten (List.mem_map_of_mem hl)
  exact (slashes_of_isRemark hremark).trans ((List.prefix_append _ _).isInfix.trans hline)

theorem annotated_unlines {ws : List Lexeme} (h : Notes note ss ls ms) (hwrites : WritesLines ws ls)
    (hls : ∀ l ∈ ls, Inline l) (hms : ∀ l ∈ ms, Inline l) : Annotated note ss (unlines ls) (unlines ms) := by
  have hempty : Inline "" := by decide
  have hsplit {ls : List String} (hls : ∀ l ∈ ls, Inline l) : split '\n' (unlines ls) = ls ++ [""] := by
    rw [unlines_eq_intercalate]
    exact split_intercalate (List.forall_mem_append.2 ⟨hls, List.forall_mem_singleton.2 hempty⟩) (by simp)
  have hplain : ∀ l ∈ ls ++ [""], isRemark l = false :=
    List.forall_mem_append.2 ⟨not_isRemark_of_written hwrites, List.forall_mem_singleton.2 rfl⟩
  have hnotes := h.concat ""
  refine ⟨?_, ?_, ?_⟩
  · rw [withoutRemarks, hsplit hms, hnotes.filter_not_isRemark hplain, unlines_eq_intercalate]
  · rw [Text.remarks, hsplit hms, hnotes.filter_isRemark hplain]
  · rwa [hsplit hls, hsplit hms]

theorem annotated_method {note : Note} (hnote : InlineNotes note) {m : Method} (h : ∀ w ∈ m.lexemes, Lexer.Readable w) :
    Annotated note (m.statements.filter (!·.isBlock)) (m.print fun _ => none) (m.print note) :=
  annotated_unlines (notes_method note m 0) (writesLines_method h 0)
    (inline_methodLines (fun _ _ hnone => by cases hnone) h) (inline_methodLines hnote h)

theorem annotated_program {note : Note} (hnote : InlineNotes note) {p : Program}
    (h : ∀ w ∈ p.lexemes, Lexer.Readable w) :
    Annotated note (p.statements.filter (!·.isBlock)) (p.print fun _ => none) (p.print note) := by
  have hclasses := List.forall_mem_flatMap.1 h
  have hstatements : p.statements.filter (!·.isBlock) =
      p.classes.flatMap fun c => c.methods.flatMap (·.statements.filter (!·.isBlock)) := by
    rw [Program.statements, List.filter_flatMap]
    exact p.flatMap_routines fun m => m.statements.filter (!·.isBlock)
  rw [hstatements]
  exact annotated_unlines (notes_classes note p.classes) (writesLines_classes hclasses)
    (inline_classesLines (fun _ _ hnone => by cases hnone) hclasses) (inline_classesLines hnote hclasses)

end Printer

open Lexer (Valid Readable)

namespace Expr

theorem readsList_eq_flatMap (es : List Expr) : readsList es = es.flatMap reads := by
  induction es with
  | nil => rfl
  | cons e es ih => rw [readsList, ih, List.flatMap_cons]

theorem valid_reads {e : Expr} (h : e.Readable) : ∀ x ∈ e.reads, Valid (.ident x) := by
  induction e using Expr.induction with
  | int | bool | self | newObject => exact List.forall_mem_nil _
  | var x => exact List.forall_mem_singleton.2 (readable_name.1 h)
  | unary op e ih => exact ih (readable_unary.1 h)
  | length a ih => exact ih (readable_length.1 h)
  | newArray e ih => exact ih (readable_newArray.1 h)
  | binary op e₁ e₂ ih₁ ih₂ =>
      obtain ⟨h₁, h₂⟩ := readable_binary.1 h
      exact List.forall_mem_append.2 ⟨ih₁ h₁, ih₂ h₂⟩
  | index a i iha ihi =>
      obtain ⟨ha, hi⟩ := readable_index.1 h
      exact List.forall_mem_append.2 ⟨iha ha, ihi hi⟩
  | call r f args ihr ihargs =>
      obtain ⟨hr, _, hargs⟩ := readable_call.1 h
      refine List.forall_mem_append.2 ⟨ihr hr, ?_⟩
      rw [readsList_eq_flatMap, List.forall_mem_flatMap]
      exact fun a ha => ihargs a ha (hargs a ha)

end Expr

namespace Stmt

theorem valid_names {s : Stmt} (h : ∀ w ∈ s.headWords, Readable w) {x : String} (hx : x ∈ s.uses ∨ x ∈ s.defs) :
    Valid (.ident x) := by
  rw [uses, defs, NameSet.mem_ofList, NameSet.mem_ofList] at hx
  cases s with
  | block | brk | cont => simp [reads, writes] at hx
  | call t r f args =>
      have hcall := Expr.valid_reads (List.forall_mem_append.1 h).1
      exact hcall x (hx.resolve_right List.not_mem_nil)
  | assign t y e =>
      simp only [headWords, List.forall_mem_cons, List.forall_mem_append] at h
      rcases hx with hx | hx
      · exact Expr.valid_reads h.2.2.1 x hx
      · exact List.mem_singleton.1 hx ▸ h.1.1
  | store t y i e =>
      simp only [headWords, List.forall_mem_cons, List.forall_mem_append] at h
      obtain ⟨hy, _, hi, _, _, he, _⟩ := h
      have hreads : ∀ x ∈ y :: (i.reads ++ e.reads), Valid (.ident x) :=
        List.forall_mem_cons.2 ⟨hy.1, List.forall_mem_append.2 ⟨Expr.valid_reads hi, Expr.valid_reads he⟩⟩
      exact hreads x (hx.resolve_right List.not_mem_nil)
  | ifThen t c | ifElse t c | loop t c =>
      simp only [headWords, List.forall_mem_cons, List.forall_mem_append] at h
      exact Expr.valid_reads h.2.2.1 x (hx.resolve_right List.not_mem_nil)
  | print t e =>
      simp only [headWords, List.forall_mem_cons, List.forall_mem_append] at h
      obtain ⟨_, _, _, _, _, _, he, _⟩ := h
      exact Expr.valid_reads he x (hx.resolve_right List.not_mem_nil)
  | ret t value =>
      cases value with
      | none => simp [reads, writes] at hx
      | some e =>
          simp only [headWords, List.forall_mem_cons, List.forall_mem_append] at h
          exact Expr.valid_reads h.2.1 x (hx.resolve_right List.not_mem_nil)

theorem headWords_subset :
    (∀ s : Stmt, ∀ x ∈ s.preorder, x.headWords ⊆ s.lexemes) ∧
      ∀ l : List Stmt, ∀ x ∈ preorderList l, x.headWords ⊆ lexemesList l := by
  apply Stmt.induction
  case plain =>
    intro s hs
    apply hs.cases <;> intros <;> rename_i hx <;> rw [List.mem_singleton.1 hx] <;> exact List.Subset.refl _
  case ret | brk | cont =>
    intros
    rename_i hx
    rw [List.mem_singleton.1 hx]
    exact List.Subset.refl _
  case block =>
    intro t body ih x hx
    rcases List.mem_cons.1 hx with rfl | hx
    · exact List.nil_subset _
    · exact List.subset_cons_of_subset _ (List.subset_append_of_subset_left _ (ih x hx))
  case ifThen | loop =>
    intro t c s ih x hx
    rcases List.mem_cons.1 hx with rfl | hx
    · exact List.subset_append_left _ _
    · exact List.subset_append_of_subset_right _ (ih x hx)
  case ifElse =>
    intro t c yes no ihyes ihno x hx
    rcases List.mem_cons.1 hx with rfl | hx
    · exact List.subset_append_left _ _
    refine List.subset_append_of_subset_right _ ?_
    rcases List.mem_append.1 hx with hx | hx
    · exact List.subset_append_of_subset_left _ (ihyes x hx)
    · exact List.subset_append_of_subset_right _ (List.subset_cons_of_subset _ (ihno x hx))
  case nil => exact fun x hx => absurd hx List.not_mem_nil
  case cons =>
    intro s rest ihs ihrest x hx
    rcases List.mem_append.1 hx with hx | hx
    · exact List.subset_append_of_subset_left _ (ihs x hx)
    · exact List.subset_append_of_subset_right _ (ihrest x hx)

end Stmt

theorem Method.valid_of_mentions {m : Method} (h : ∀ w ∈ m.lexemes, Readable w) {x : String} (hx : m.Mentions x) :
    Valid (.ident x) := by
  simp only [Method.lexemes, List.forall_mem_append] at h
  obtain ⟨hhead, hlocals, hbody, _⟩ := h
  simp only [Method.headWords, List.forall_mem_cons, List.forall_mem_append,
    Expr.forall_mem_commas (Lexer.readable_punct .comma), List.forall_mem_map] at hhead
  obtain ⟨_, _, _, _, hparams, _⟩ := hhead
  have hdecl {v : VarDecl} (hv : ∀ w ∈ v.lexemes, Readable w) : Valid (.ident v.name) :=
    ((List.forall_mem_append.1 hv).2 _ List.mem_cons_self).1
  rcases hx with ⟨v, hv, rfl⟩ | ⟨s, hs, hx⟩
  · rcases List.mem_append.1 hv with hv | hv
    · exact hdecl (hparams v hv)
    · exact hdecl (List.forall_mem_append.1 (List.forall_mem_flatMap.1 hlocals v hv)).1
  · exact Stmt.valid_names (fun w hw => hbody w (Stmt.headWords_subset.2 m.body s hs hw)) hx

namespace Liveness

variable {m : Method} {l : Liveness}

namespace Analyzes

theorem get?_map (h : l.Analyzes m) (hids : m.ids.Nodup) (id : Nat) :
    l.map.get? id = (l.flow.point? id).map fun p => l.vars.namesOf p.before := by
  have hpoints := h.nodup_points hids
  have hkeys : ((l.flow.points.map fun p => (p.stmt.id, l.vars.namesOf p.before)).map (·.1)).Nodup := by
    rw [List.map_map]
    exact hpoints
  cases hfind : l.flow.point? id with
  | some p =>
      obtain ⟨hp, rfl⟩ := Solution.mem_of_point? hfind
      exact LiveMap.get?_ofList_of_mem hkeys (List.mem_map_of_mem hp)
  | none =>
      rw [Option.map_none, ← Option.not_isSome_iff_eq_none]
      refine mt (LiveMap.isSome_get?_ofList hkeys).1 fun hid => ?_
      rw [List.map_map] at hid
      obtain ⟨p, hp, hid⟩ := List.mem_map.1 hid
      rw [← hid] at hfind
      cases hfind.symm.trans (Solution.point?_of_mem hpoints hp)

theorem exists_get?_map (h : l.Analyzes m) (hids : m.ids.Nodup) {s : Stmt} (hs : s ∈ m.statements)
    (hblock : s.isBlock = false) : ∃ names, l.map.get? s.id = some names := by
  have hgraph : s ∈ l.graph.statements := (Graph.mem_statements_of_build h.built).2 ⟨hs, hblock⟩
  rw [← h.settled.map_stmt_points] at hgraph
  obtain ⟨p, hp, rfl⟩ := List.mem_map.1 hgraph
  exact ⟨_, by rw [h.get?_map hids, Solution.point?_of_mem (h.nodup_points hids) hp, Option.map_some]⟩

theorem mentions_of_get? (h : l.Analyzes m) (hids : m.ids.Nodup) {id : Nat} {names : NameSet}
    (hget : l.map.get? id = some names) : ∀ x ∈ names, m.Mentions x := by
  rw [h.get?_map hids] at hget
  obtain ⟨p, _, rfl⟩ := Option.map_eq_some_iff.1 hget
  intro x hx
  obtain ⟨i, hi, _⟩ := Numbering.mem_namesOf.1 hx
  rw [← Numbering.mem_names_ofMethod, ← h.vars]
  exact Numbering.mem_names_of_index? hi

end Analyzes

theorem inline_liveNote {names : NameSet} (h : ∀ x ∈ names, Valid (.ident x)) : Inline (liveNote names) := by
  have hlist : Inline (", ".intercalate names.toList) :=
    inline_intercalate (by decide) fun x hx => Lexer.inline_name (h x hx)
  simp +decide [liveNote, namesText, hlist]

theorem method_of_compute {o : Options} (h : compute m o = .ok l) : l.method = m := by
  obtain ⟨g, sol, _, _, rfl⟩ := compute_eq_ok.1 h
  rfl

theorem method_of_recompute {l' : Liveness} {os : List Options} (h : os.foldlM Liveness.recompute l = .ok l') :
    l'.method = l.method := by
  induction os generalizing l with
  | nil =>
      cases h
      rfl
  | cons o os ih =>
      rw [List.foldlM_cons] at h
      obtain ⟨l₁, hl₁, h⟩ := bind_eq_ok h
      obtain ⟨sol, _, heq⟩ := bind_eq_ok hl₁
      cases heq
      have hmethod := ih h
      exact hmethod

end Liveness

namespace Program

open Printer

theorem lexemes_of_routine {p : Program} {r : Routine} (hr : r ∈ p.routines) : r.method.lexemes ⊆ p.lexemes := by
  obtain ⟨c, hc, hr⟩ := List.mem_flatMap.1 hr
  obtain ⟨m, hm, rfl⟩ := List.mem_map.1 hr
  intro w hw
  have hclass : w ∈ c.methods.flatMap Method.lexemes := List.mem_flatMap.2 ⟨m, hm, hw⟩
  refine List.mem_flatMap.2 ⟨c, hc, ?_⟩
  simp only [Class.lexemes, List.mem_append, hclass, true_or, or_true]

/-- Notes are comments. The text of a parsed program, or of one of its methods, is with notes the text without them but
for one line above each statement that is no block and has a note. In particular, the text with the live variables has
one line above each statement that is no block, with the names from the table of the analysis, the first one or a
repetition. -/
theorem annotated_of_parse {source : String} {p : Program} (h : parse source = .ok p) :
    (∀ note : Note, InlineNotes note →
      Annotated note (p.statements.filter (!·.isBlock)) (p.print fun _ => none) (p.print note) ∧
      ∀ r ∈ p.routines, Annotated note (r.method.statements.filter (!·.isBlock)) (r.method.print fun _ => none)
        (r.method.print note)) ∧
    ∀ r ∈ p.routines, ∀ (o : Options) (os : List Options) (first l : Liveness),
      Liveness.compute r.method o = .ok first → os.foldlM Liveness.recompute first = .ok l →
      ∃ names : Stmt → NameSet,
        (∀ s ∈ r.method.statements, s.isBlock = false → l.map.get? s.id = some (names s)) ∧
        Annotated (fun s => some ("live: \x7b" ++ ", ".intercalate (names s).toList ++ "\x7d"))
          (r.method.statements.filter (!·.isBlock)) (r.method.print fun _ => none) (l.annotated false) := by
  have hreadable := (facts_of_parse h).1
  have hmethod : ∀ r ∈ p.routines, ∀ w ∈ r.method.lexemes, Readable w :=
    fun r hr w hw => hreadable w (lexemes_of_routine hr hw)
  refine ⟨fun note hnote => ⟨annotated_program hnote hreadable, fun r hr => annotated_method hnote (hmethod r hr)⟩, ?_⟩
  intro r hr o os first l hfirst hl
  have hanalyzes := (Liveness.analyzes_of_compute hfirst).recompute_all hl
  have hids := ids_nodup_of_parse h hr
  have hnames (s : Stmt) (hs : s ∈ r.method.statements) (hblock : s.isBlock = false) :
      l.map.get? s.id = some ((l.map.get? s.id).getD ∅) := by
    obtain ⟨names, hget⟩ := hanalyzes.exists_get?_map hids hs hblock
    rw [hget, Option.getD_some]
  have hnote : InlineNotes fun s => (l.map.get? s.id).map Liveness.liveNote := by
    intro s text htext
    obtain ⟨names, hget, rfl⟩ := Option.map_eq_some_iff.1 htext
    have hmentions := hanalyzes.mentions_of_get? hids hget
    exact Liveness.inline_liveNote fun x hx => Method.valid_of_mentions (hmethod r hr) (hmentions x hx)
  have htext : l.annotated false = r.method.print fun s => (l.map.get? s.id).map Liveness.liveNote := by
    rw [Liveness.annotated, Liveness.method_of_recompute hl, Liveness.method_of_compute hfirst]
    rfl
  refine ⟨fun s => (l.map.get? s.id).getD ∅, hnames, ?_⟩
  rw [htext]
  refine (annotated_method hnote (hmethod r hr)).congr fun s hs => ?_
  obtain ⟨hs, hblock⟩ := List.mem_filter.1 hs
  rw [hnames s hs (by simpa using hblock)]
  rfl

def branchesText : String :=
  "class A \x7b int f(int x) \x7b while (0 < x) if (x < 5) \x7b x = x - 1; \x7b \x7d \x7d else x = x - 2; return x; " ++
    "\x7d \x7d"

theorem annotated_of_parse_branches : ∃ p r l, parse branchesText = .ok p ∧ r ∈ p.routines ∧
    withoutRemarks (p.print fun s => some (toString s.id)) = p.print (fun _ => none) ∧
    Liveness.compute r.method {} = .ok l ∧ withoutRemarks (l.annotated false) = r.method.print (fun _ => none) ∧
    (remarks (l.annotated false)).length = 5 := by
  have hrun : (parse branchesText).toOption.any (fun p => p.routines.any fun r =>
      (Stmt.straysList r.method.body).isEmpty && (r.method.statements.filter (!·.isBlock)).length == 5) = true := by
    decide +kernel
  obtain ⟨p, hp, hany⟩ := exists_ok_of_any hrun
  obtain ⟨r, hr, hrun⟩ := List.any_eq_true.1 hany
  obtain ⟨hnil, hlength⟩ := Bool.and_eq_true_iff.1 hrun
  obtain ⟨g, hg⟩ := Graph.build_of_no_strays (List.isEmpty_iff.1 hnil)
  obtain ⟨sol, hl, _⟩ := Liveness.compute_settles hg {}
  obtain ⟨hprint, hlive⟩ := annotated_of_parse hp
  have hnumbers : InlineNotes fun s => some (toString s.id) := by
    rintro s text ⟨⟩
    exact Lexer.inline_text (w := .int (toString s.id)) (Lexer.valid_int _)
  obtain ⟨names, _, hannotated⟩ := hlive r hr {} [] _ _ hl rfl
  have hremarks := congrArg List.length hannotated.remarks
  rw [List.filterMap_eq_map', List.length_map, List.length_map, List.length_map, eq_of_beq hlength] at hremarks
  exact ⟨p, r, _, hp, hr, (hprint _ hnumbers).1.erased, hl, hannotated.erased, hremarks⟩

end Program

end Backflow
