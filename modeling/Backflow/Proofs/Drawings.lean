import Backflow.Command.Run
import Backflow.Proofs.Annotations
import Backflow.Proofs.WrittenFiles

namespace Backflow

namespace Action

def touches : Action → Bool
  | makeDirs _ | write _ _ => true
  | log _ | print _ => false

end Action

namespace Disk

theorem foldlM_touching (d : Disk) (actions : List Action) :
    (actions.filter Action.touches).foldlM apply d = actions.foldlM apply d := by
  induction actions generalizing d with
  | nil => rfl
  | cons a actions ih =>
      cases a with
      | log m | print m => exact ih d
      | makeDirs path | write path text =>
          rw [List.filter_cons_of_pos rfl, List.foldlM_cons, List.foldlM_cons]
          exact congrArg _ (funext ih)

end Disk

namespace Plan

variable {limit : Option Level} {failure : Option Failure} {d d' : Disk}

theorem perform_cons (limit : Option Level) (failure : Option Failure) {a : Action} (h : d.apply a = .ok d')
    (actions : List Action) :
    (perform limit failure d (a :: actions)).failure = (perform limit failure d' actions).failure ∧
      (perform limit failure d (a :: actions)).disk = (perform limit failure d' actions).disk := by
  rw [perform, h]
  cases a with
  | log m =>
      by_cases hm : m.kept limit = true
      · simp [hm]
      · simp [hm]
  | _ => exact ⟨rfl, rfl⟩

theorem perform_of_ok {actions : List Action} (h : actions.foldlM Disk.apply d = .ok d') :
    (perform limit failure d actions).failure = failure ∧ (perform limit failure d actions).disk = d' := by
  induction actions generalizing d with
  | nil =>
      cases h
      exact ⟨rfl, rfl⟩
  | cons a actions ih =>
      obtain ⟨d₁, hd₁, hrest⟩ := bind_eq_ok h
      obtain ⟨hfailure, hdisk⟩ := perform_cons limit failure hd₁ actions
      rw [hfailure, hdisk]
      exact ih hrest

theorem foldlM_of_perform {actions : List Action}
    (h : ∀ e, (perform limit failure d actions).failure ≠ some (.file e)) :
    actions.foldlM Disk.apply d = .ok (perform limit failure d actions).disk := by
  induction actions generalizing d with
  | nil => rfl
  | cons a actions ih =>
      cases happly : d.apply a with
      | error e =>
          rw [perform, happly] at h
          exact absurd rfl (h e)
      | ok d₁ =>
          obtain ⟨hfailure, hdisk⟩ := perform_cons limit failure happly actions
          rw [hfailure] at h
          rw [hdisk, List.foldlM_cons, happly]
          exact ih h

end Plan

/-- The methods that are asked for and can be analyzed, each with its analysis. -/
def Settings.drawn (s : Settings) (selection : Selection) (p : Program) : List (Routine × Liveness) :=
  (selection.select p).filterMap fun r => (Liveness.compute r.method s.options).toOption.map fun l => (r, l)

namespace Tool

variable {s : Settings} {dir : String} {selection : Selection}

def drawing (dir : String) (x : Routine × Liveness) : List Action :=
  [.makeDirs (Path.join dir x.1.owner.name), .write (Liveness.dotPath dir x.1) x.2.dot]

theorem touching_log (ms : List Message) : (ms.map Action.log).filter Action.touches = [] :=
  List.filter_eq_nil_iff.2 (List.forall_mem_map.2 fun _ _ => Bool.false_ne_true)

theorem touching_method (hdir : s.output = some dir) (r : Routine) :
    (graphActions s (.run s.options r)).filter Action.touches =
      ((Liveness.compute r.method s.options).toOption.map fun l => (r, l)).toList.flatMap (drawing dir) := by
  cases hl : Liveness.compute r.method s.options with
  | error e => simp [graphActions, Analyzed.run, hl, Except.toOption]
  | ok l =>
      have hstats : (if s.stats then [Action.printIndented (Stats.ofLiveness l).lines] else []).filter
          Action.touches = [] := by
        split <;> rfl
      simp only [graphActions, Analyzed.run, hl, hdir, Liveness.draw, List.cons_append, List.nil_append]
      simp [List.filter_cons, Action.touches, hstats, Except.toOption, drawing]

theorem touching_graphs (hdir : s.output = some dir)
    (hselection : Selection.ofTexts? s.filterClass s.filterMethod = some selection) (p : Program) :
    (Tool.graphs.planProgram s p).actions.filter Action.touches =
      (s.drawn selection p).flatMap (drawing dir) := by
  have hrest : (if s.stats then [Action.print "[*] total\n",
      .printIndented (total ((selection.select p).map (.run s.options))).lines] else []).filter
        Action.touches = [] := by
    split <;> rfl
  simp only [planProgram, hselection, planMethods, planGraphs, Analyzed.close, List.filter_append, touching_log,
    hrest, List.nil_append, List.append_nil]
  rw [List.flatMap_map, List.filter_flatMap, Settings.drawn]
  induction selection.select p with
  | nil => rfl
  | cons r rs ih =>
      rw [List.flatMap_cons, ih, touching_method hdir, List.filterMap_cons]
      cases (Liveness.compute r.method s.options).toOption <;> simp

theorem touching_text {text : String} {p : Program} (hp : Program.parse text = .ok p) :
    (Tool.graphs.planText s text).actions.filter Action.touches =
      (Tool.graphs.planProgram s p).actions.filter Action.touches := by
  obtain ⟨tokens, hlex, htokens⟩ := Program.parse_eq_ok.1 hp
  simp only [planText, hlex, htokens, List.filter_append, touching_log, List.nil_append]

theorem writes_drawing (xs : List (Routine × Liveness)) :
    Disk.writes (xs.flatMap (drawing dir)) = xs.map fun x => (Liveness.dotPath dir x.1, x.2.dot) := by
  induction xs with
  | nil => rfl
  | cons x xs ih =>
      rw [List.flatMap_cons, List.map_cons, ← ih]
      rfl

end Tool

theorem Lexer.isWordChar_of_valid {name : String} (h : Valid (.ident name)) :
    ∀ c ∈ name.toList, isWordChar c = true := by
  obtain ⟨c, cs, hcons, hc, hcs⟩ := cons_of_isWord (valid_ident.1 h).1
  rw [hcons, List.forall_mem_cons]
  refine ⟨?_, hcs⟩
  simp only [isWordStart, Bool.or_eq_true] at hc
  rcases hc with hc | hc <;> simp [isWordChar, hc]

namespace Path

variable {name : String}

theorem single_of_valid (h : Lexer.Valid (.ident name)) : Single name := by
  have hchars := Lexer.isWordChar_of_valid h
  refine ⟨fun hslash => absurd (hchars _ hslash) (by decide), fun hmem => ?_⟩
  simp only [List.mem_cons, List.not_mem_nil, or_false] at hmem
  rcases hmem with rfl | rfl | rfl
  · cases h.1
  · exact absurd (hchars '.' (by decide)) (by decide)
  · exact absurd (hchars '.' (by decide)) (by decide)

theorem single_dot (h : Lexer.Valid (.ident name)) : Single (name ++ ".dot") := by
  have hchars := Lexer.isWordChar_of_valid h
  constructor
  · rw [String.toList_append, List.mem_append]
    rintro (hslash | hslash)
    · exact absurd (hchars _ hslash) (by decide)
    · exact absurd hslash (by decide)
  · intro hmem
    have hd : 'd' ∈ (name ++ ".dot").toList := by simp
    simp only [List.mem_cons, List.not_mem_nil, or_false] at hmem
    rcases hmem with h | h | h <;> (rw [h] at hd; exact absurd hd (by decide))

end Path

def Routine.names (r : Routine) : String × String := (r.owner.name, r.method.name)

theorem Program.valid_names {source : String} {p : Program} {r : Routine} (h : parse source = .ok p)
    (hr : r ∈ p.routines) : Lexer.Valid (.ident r.owner.name) ∧ Lexer.Valid (.ident r.method.name) := by
  have hreadable := (facts_of_parse h).1
  constructor
  · obtain ⟨c, hc, hr⟩ := List.mem_flatMap.1 hr
    obtain ⟨m, _, rfl⟩ := List.mem_map.1 hr
    refine (hreadable (.ident c.name) (List.mem_flatMap.2 ⟨c, hc, ?_⟩)).1
    simp [Class.lexemes, Class.headWords]
  · refine (hreadable (.ident r.method.name) (lexemes_of_routine hr ?_)).1
    simp [Method.lexemes, Method.headWords]

namespace Liveness

theorem exists_dotPlace (dir : String) : ∃ file : String × String → List String, Function.Injective file ∧
    ∀ r : Routine, Lexer.Valid (.ident r.owner.name) → Lexer.Valid (.ident r.method.name) →
      ∀ q, Path.ofText? (dotPath dir r) = some q → q.place = file r.names := by
  obtain ⟨parts, hparts⟩ := Path.split_join_join dir
  refine ⟨fun n => Path.place ⟨parts.head? = some "", (parts.filter (· ≠ "")).filter (· ≠ "."), .plain⟩ ++
    [n.1, n.2 ++ ".dot"], fun n n' hn => ?_, fun r howner hmethod q hq => ?_⟩
  · have hsame := List.append_cancel_left hn
    simp only [List.cons.injEq, and_true] at hsame
    exact Prod.ext hsame.1 (by simpa using hsame.2)
  · have hdir := Path.single_of_valid howner
    have hfile := Path.single_dot hmethod
    have hpath := Path.ofText?_of_split hdir hfile (hparts _ _ hdir hfile)
    obtain rfl := Option.some.inj (hq.symm.trans hpath)
    exact Path.place_of_split hdir hfile _

end Liveness

namespace Disk

/-- Each drawing has a file of its own. -/
def HasDrawings (d : Disk) (xs : List (Routine × Liveness)) : Prop :=
  ∃ files : List (List String), files.Nodup ∧ List.Forall₂ (fun x file => d.node? file = some (.file x.2.dot)) xs files

variable {d d' : Disk} {dir : String} {xs : List (Routine × Liveness)}
  (hvalid : ∀ x ∈ xs, Lexer.Valid (.ident x.1.owner.name) ∧ Lexer.Valid (.ident x.1.method.name))
  (h : (xs.flatMap (Tool.drawing dir)).foldlM apply d = .ok d')
include hvalid h

theorem hasDrawings_of_nodup (hnames : (xs.map (·.1.names)).Nodup) :
    d'.HasDrawings xs ∧ ∀ x ∈ xs, d'.read (Liveness.dotPath dir x.1) = .ok x.2.dot := by
  obtain ⟨file, hinjective, hplace⟩ := Liveness.exists_dotPlace dir
  have hplaced {x : Routine × Liveness} {q : Path} (hx : x ∈ xs)
      (hq : Path.ofText? (Liveness.dotPath dir x.1) = some q) : q.place = file x.1.names :=
    hplace x.1 (hvalid x hx).1 (hvalid x hx).2 q hq
  have hapart : (writes (xs.flatMap (Tool.drawing dir))).Pairwise fun v w =>
      ∀ p q, Path.ofText? v.1 = some p → Path.ofText? w.1 = some q → p.place ≠ q.place := by
    rw [Tool.writes_drawing, List.pairwise_map]
    refine (List.pairwise_map.1 hnames).imp_of_mem fun hx hy hne p q hp hq hsame => hne (hinjective ?_)
    rw [← hplaced hx hp, ← hplaced hy hq, hsame]
  have hwritten := foldlM_writes h hapart
  rw [Tool.writes_drawing, List.forall_mem_map] at hwritten
  refine ⟨⟨xs.map fun x => file x.1.names, ?_, ?_⟩, fun x hx => ?_⟩
  · have hmap := hnames.map hinjective
    rwa [List.map_map] at hmap
  · rw [List.forall₂_map_right_iff, List.forall₂_same]
    intro x hx
    obtain ⟨q, hq, hnode, _⟩ := hwritten x hx
    rwa [hplaced hx hq] at hnode
  · obtain ⟨_, _, _, hread⟩ := hwritten x hx
    exact hread

theorem nodup_of_hasDrawings (hblank : ∀ q text, d.node? q ≠ some (.file text)) (hdrawings : d'.HasDrawings xs) :
    (xs.map (·.1.names)).Nodup := by
  obtain ⟨file, _, hplace⟩ := Liveness.exists_dotPlace dir
  obtain ⟨files, hnodup, hfiles⟩ := hdrawings
  have hsubset : files ⊆ (xs.map (·.1.names)).map file := by
    intro q hq
    obtain ⟨i, rfl⟩ := List.mem_iff_get.1 hq
    have hnode := (List.forall₂_iff_get.1 hfiles).2 i (by rw [hfiles.length_eq]; exact i.2) i.2
    rcases foldlM_file h hnode with ⟨old, hold⟩ | ⟨w, hw, p, hp, hfile⟩
    · exact absurd hold (hblank _ old)
    · rw [Tool.writes_drawing] at hw
      obtain ⟨x, hx, rfl⟩ := List.mem_map.1 hw
      rw [List.map_map]
      exact List.mem_map.2 ⟨x, hx, (hplace x.1 (hvalid x hx).1 (hvalid x hx).2 p hp).symm.trans hfile⟩
  have hlength : ((xs.map (·.1.names)).map file).length ≤ files.length := by
    rw [List.length_map, List.length_map, hfiles.length_eq]
  have hperm := (List.subperm_of_subset hnodup hsubset).perm_of_length_le hlength
  exact .of_map file (hperm.nodup hnodup)

end Disk

namespace Settings

theorem mem_drawn {s : Settings} {selection : Selection} {p : Program} {x : Routine × Liveness}
    (h : x ∈ s.drawn selection p) : x.1 ∈ p.routines := by
  obtain ⟨r, hr, hx⟩ := List.mem_filterMap.1 h
  obtain ⟨l, _, rfl⟩ := Option.map_eq_some_iff.1 hx
  exact (List.mem_filter.1 hr).1

end Settings

namespace Request

def text (r : Request) (given : ByteArray) (d : Disk) : Except FileError String :=
  if r.settings.source = "-" then decodeText given else d.read r.settings.source

variable {r : Request} {limit : Option Level} {given : ByteArray} {d : Disk} {source dir : String} {p : Program}
  {selection : Selection}

theorem run_graphs (htool : r.tool = .graphs) (hsource : r.text given d = .ok source) :
    run (some r) limit given d = (Tool.graphs.planText r.settings source).run (r.settings.limit limit) d := by
  rw [text] at hsource
  simp only [run, hsource, htool, Tool.plan]

theorem foldlM_run (htool : r.tool = .graphs) (hdir : r.settings.output = some dir)
    (hsource : r.text given d = .ok source) (hp : Program.parse source = .ok p)
    (hselection : Selection.ofTexts? r.settings.filterClass r.settings.filterMethod = some selection)
    (hdisk : ∀ e, (run (some r) limit given d).failure ≠ some (.file e)) :
    ((r.settings.drawn selection p).flatMap (Tool.drawing dir)).foldlM Disk.apply d =
      .ok (run (some r) limit given d).disk := by
  rw [run_graphs htool hsource] at hdisk ⊢
  rw [← Tool.touching_graphs hdir hselection, ← Tool.touching_text hp, Disk.foldlM_touching]
  exact Plan.foldlM_of_perform hdisk

theorem valid_drawn {s : Settings} (hp : Program.parse source = .ok p) : ∀ x ∈ s.drawn selection p,
    Lexer.Valid (.ident x.1.owner.name) ∧ Lexer.Valid (.ident x.1.method.name) :=
  fun _ hx => Program.valid_names hp (Settings.mem_drawn hx)

/-- A run that draws graphs into a directory, where all can be written, leaves each drawing in a file of its own if no
two of the methods have the same name in classes of the same name; on a disk without files, only then. -/
theorem drawings_kept (htool : r.tool = .graphs) (hdir : r.settings.output = some dir)
    (hsource : r.text given d = .ok source) (hp : Program.parse source = .ok p)
    (hselection : Selection.ofTexts? r.settings.filterClass r.settings.filterMethod = some selection)
    (hdisk : ∀ e, (run (some r) limit given d).failure ≠ some (.file e)) :
    (((r.settings.drawn selection p).map (·.1.names)).Nodup →
      (run (some r) limit given d).disk.HasDrawings (r.settings.drawn selection p) ∧
        ∀ x ∈ r.settings.drawn selection p,
          (run (some r) limit given d).disk.read (Liveness.dotPath dir x.1) = .ok x.2.dot) ∧
    ((∀ q text, d.node? q ≠ some (.file text)) →
      (run (some r) limit given d).disk.HasDrawings (r.settings.drawn selection p) →
        ((r.settings.drawn selection p).map (·.1.names)).Nodup) := by
  have hfold := foldlM_run htool hdir hsource hp hselection hdisk
  exact ⟨Disk.hasDrawings_of_nodup (valid_drawn hp) hfold, Disk.nodup_of_hasDrawings (valid_drawn hp) hfold⟩

theorem no_file_error (limit : Option Level) {d' : Disk} (htool : r.tool = .graphs)
    (hdir : r.settings.output = some dir) (hsource : r.text given d = .ok source) (hp : Program.parse source = .ok p)
    (hselection : Selection.ofTexts? r.settings.filterClass r.settings.filterMethod = some selection)
    (h : ((r.settings.drawn selection p).flatMap (Tool.drawing dir)).foldlM Disk.apply d = .ok d') (e : FileError) :
    (run (some r) limit given d).failure ≠ some (.file e) := by
  rw [← Tool.touching_graphs hdir hselection, ← Tool.touching_text hp, Disk.foldlM_touching] at h
  rw [run_graphs htool hsource, Plan.run, (Plan.perform_of_ok h).1]
  obtain ⟨tokens, hlex, htokens⟩ := Program.parse_eq_ok.1 hp
  simp only [Tool.planText, hlex, htokens, Tool.planProgram, hselection, Tool.planMethods, Tool.planGraphs,
    Analyzed.close]
  split <;> simp

theorem decodeText_toByteArray (text : String) : decodeText text.toByteArray = .ok text := by
  simp [decodeText, String.fromUTF8?, text.isValidUTF8]
  rfl

def drawAll : Request := ⟨.graphs, { output := some "x" }⟩

theorem text_drawAll (source : String) (d : Disk) : drawAll.text source.toByteArray d = .ok source :=
  decodeText_toByteArray source

theorem exists_drawn (source : String) (names : List (String × String))
    (h : (Program.parse source).toOption.any (fun p => p.routines.map Routine.names == names &&
      p.routines.all fun r => (Stmt.straysList r.method.body).isEmpty) = true) :
    ∃ p, Program.parse source = .ok p ∧ (drawAll.settings.drawn {} p).map (·.1.names) = names := by
  obtain ⟨p, hp, hrun⟩ := exists_ok_of_any h
  obtain ⟨hnames, hall⟩ := Bool.and_eq_true_iff.1 hrun
  refine ⟨p, hp, ?_⟩
  have hselect : Selection.select {} p = p.routines := List.filter_eq_self.2 fun _ _ => rfl
  rw [← eq_of_beq hnames, Settings.drawn, hselect]
  rw [List.all_eq_true] at hall
  generalize p.routines = rs at hall
  induction rs with
  | nil => rfl
  | cons r rs ih =>
      obtain ⟨hnil, hrest⟩ := List.forall_mem_cons.1 hall
      obtain ⟨g, hg⟩ := Graph.build_of_no_strays (List.isEmpty_iff.1 hnil)
      obtain ⟨sol, hl, _⟩ := Liveness.compute_settles hg drawAll.settings.options
      rw [List.filterMap_cons, hl, List.map_cons, ← ih hrest]
      rfl

def namesakesText : String :=
  "class A \x7b int f() \x7b return 1; \x7d int g(int x) \x7b return x; \x7d \x7d " ++
    "class B \x7b int f() \x7b return 2; \x7d \x7d"

theorem drawings_kept_namesakes : ∃ p, Program.parse namesakesText = .ok p ∧
    (drawAll.settings.drawn {} p).map (·.1.names) = [("A", "f"), ("A", "g"), ("B", "f")] ∧
      (run (some drawAll) none namesakesText.toByteArray {}).disk.HasDrawings (drawAll.settings.drawn {} p) := by
  obtain ⟨p, hp, hnames⟩ := exists_drawn namesakesText [("A", "f"), ("A", "g"), ("B", "f")] (by decide +kernel)
  have hdrawn : ∃ d', ((drawAll.settings.drawn {} p).flatMap (Tool.drawing "x")).foldlM Disk.apply {} = .ok d' := by
    generalize drawAll.settings.drawn {} p = xs at hnames
    obtain ⟨a, as, rfl, ha, has⟩ := List.map_eq_cons_iff.1 hnames
    obtain ⟨b, bs, rfl, hb, hbs⟩ := List.map_eq_cons_iff.1 has
    obtain ⟨c, cs, rfl, hc, hcs⟩ := List.map_eq_cons_iff.1 hbs
    obtain rfl := List.map_eq_nil_iff.1 hcs
    simp only [Routine.names, Prod.mk.injEq] at ha hb hc
    simp only [List.flatMap_cons, List.flatMap_nil, Tool.drawing, Liveness.dotPath, ha, hb, hc]
    exact ⟨_, rfl⟩
  obtain ⟨d', hd'⟩ := hdrawn
  have hkept := drawings_kept rfl rfl (text_drawAll namesakesText {}) hp rfl
    (no_file_error none rfl rfl (text_drawAll namesakesText {}) hp rfl hd')
  exact ⟨p, hp, hnames, (hkept.1 (by rw [hnames]; decide)).1⟩

def overloadsText : String := "class A \x7b int f() \x7b return 1; \x7d int f(int x) \x7b return x; \x7d \x7d"

/-- All can be written, but one of the two drawings has no file. -/
theorem overloads_not_kept : ∃ p, Program.parse overloadsText = .ok p ∧
    (drawAll.settings.drawn {} p).map (·.1.names) = [("A", "f"), ("A", "f")] ∧
      (∀ e, (run (some drawAll) none overloadsText.toByteArray {}).failure ≠ some (.file e)) ∧
        ¬ (run (some drawAll) none overloadsText.toByteArray {}).disk.HasDrawings (drawAll.settings.drawn {} p) := by
  obtain ⟨p, hp, hnames⟩ := exists_drawn overloadsText [("A", "f"), ("A", "f")] (by decide +kernel)
  have hdrawn : ∃ d', ((drawAll.settings.drawn {} p).flatMap (Tool.drawing "x")).foldlM Disk.apply {} = .ok d' := by
    generalize drawAll.settings.drawn {} p = xs at hnames
    obtain ⟨a, as, rfl, ha, has⟩ := List.map_eq_cons_iff.1 hnames
    obtain ⟨b, bs, rfl, hb, hbs⟩ := List.map_eq_cons_iff.1 has
    obtain rfl := List.map_eq_nil_iff.1 hbs
    simp only [Routine.names, Prod.mk.injEq] at ha hb
    simp only [List.flatMap_cons, List.flatMap_nil, Tool.drawing, Liveness.dotPath, ha, hb]
    exact ⟨_, rfl⟩
  obtain ⟨d', hd'⟩ := hdrawn
  have hdisk := no_file_error none rfl rfl (text_drawAll overloadsText {}) hp rfl hd'
  refine ⟨p, hp, hnames, hdisk, fun hkept => ?_⟩
  have hfold := foldlM_run rfl rfl (text_drawAll overloadsText {}) hp rfl hdisk
  have hblank : ∀ q text, (Disk.node? {} q) ≠ some (.file text) := by
    intro q text hq
    unfold Disk.node? at hq
    split at hq <;> cases hq
  have hnodup := Disk.nodup_of_hasDrawings (valid_drawn hp) hfold hblank hkept
  rw [hnames] at hnodup
  exact absurd hnodup (by decide)

end Request

end Backflow
