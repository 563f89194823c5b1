import Backflow.Command.Plan
import Backflow.Proofs.Construction
import Backflow.Proofs.PrintedLines

namespace Backflow

namespace Text

theorem splitChars_ne_nil (mark : Char) (cs : List Char) : splitChars mark cs ≠ [] := by
  rw [splitChars_eq_splitOn]
  exact List.splitOn_ne_nil mark cs

theorem splitChars_append (mark : Char) (as bs : List Char) :
    splitChars mark (as ++ mark :: bs) = splitChars mark as ++ splitChars mark bs := by
  induction as with
  | nil => simp [splitChars]
  | cons c as ih =>
      by_cases hc : c = mark
      · simp [splitChars, hc, ih]
      · obtain ⟨part, parts, hparts⟩ := List.exists_cons_of_ne_nil (splitChars_ne_nil mark as)
        simp [splitChars, hc, ih, hparts]

theorem splitChars_of_not_mem {mark : Char} {cs : List Char} (h : mark ∉ cs) : splitChars mark cs = [cs] := by
  induction cs with
  | nil => rfl
  | cons c cs ih =>
      obtain ⟨hc, hcs⟩ := List.ne_and_not_mem_of_not_mem_cons h
      simp [splitChars, hc.symm, ih hcs]

end Text

namespace Path

def Single (name : String) : Prop := '/' ∉ name.toList ∧ name ∉ ["", ".", ".."]

theorem split_slash (base : String) {name : String} (h : Single name) :
    Text.split '/' (base ++ "/" ++ name) = Text.split '/' base ++ [name] := by
  have htext : (base ++ "/" ++ name).toList = base.toList ++ '/' :: name.toList := by simp
  rw [Text.split, htext, Text.splitChars_append, Text.splitChars_of_not_mem h.1, List.map_append, ← Text.split]
  simp

theorem split_join (base : String) :
    ∃ parts, ∀ name, Single name → Text.split '/' (join base name) = parts ++ [name] := by
  by_cases hslash : base = "" ∨ base.toList.getLast? = some '/'
  · rcases hslash with rfl | hslash
    · refine ⟨[], fun name h => ?_⟩
      have hjoin : join "" name = name := by simp [join]
      rw [hjoin, Text.split, Text.splitChars_of_not_mem h.1]
      simp
    · obtain ⟨cs, hcs⟩ := List.getLast?_eq_some_iff.1 hslash
      have hbase : base = String.ofList cs ++ "/" := by
        rw [← String.toList_inj, hcs]
        simp
      refine ⟨Text.split '/' (String.ofList cs), fun name h => ?_⟩
      rw [join, if_pos (Or.inr hslash), hbase, split_slash _ h]
  · refine ⟨Text.split '/' base, fun name h => ?_⟩
    rw [join, if_neg hslash, split_slash base h]

theorem split_join_join (base : String) : ∃ parts, ∀ dir name, Single dir → Single name →
    Text.split '/' (join (join base dir) name) = parts ++ [dir, name] := by
  obtain ⟨parts, hparts⟩ := split_join base
  refine ⟨parts, fun dir name hdir hname => ?_⟩
  have hlast : (join base dir).toList.getLast? = dir.toList.getLast? := by
    obtain ⟨before, hbefore⟩ : ∃ before, (join base dir).toList = before ++ dir.toList := by
      unfold join
      split
      · exact ⟨base.toList, by simp⟩
      · exact ⟨(base ++ "/").toList, by simp⟩
    have hne : dir.toList ≠ [] := by simpa using fun h => hdir.2 (by simp [h])
    rw [hbefore, List.getLast?_append_of_ne_nil _ hne]
  have hopen : ¬ (join base dir = "" ∨ (join base dir).toList.getLast? = some '/') := by
    rw [hlast]
    rintro (h | h)
    · rw [h] at hlast
      have hnil : dir.toList = [] := by simpa using hlast.symm
      exact hdir.2 (by simp [String.toList_eq_nil_iff.1 hnil])
    · exact hdir.1 (List.mem_of_getLast? h)
  rw [join, if_neg hopen, split_slash _ hname, hparts dir hdir, List.append_assoc]
  rfl

def place (p : Path) : List String :=
  p.names.foldl (fun place name => if name = ".." then Disk.up place else place ++ [name]) (Disk.root p.absolute)

theorem ofText?_of_split {text dir name : String} {parts : List String} (hdir : Single dir) (hname : Single name)
    (h : Text.split '/' text = parts ++ [dir, name]) :
    ofText? text = some ⟨parts.head? = some "", (parts.filter (· ≠ "")).filter (· ≠ ".") ++ [dir, name], .plain⟩ := by
  have htext : text ≠ "" := by
    rintro rfl
    have hlength := congrArg List.length h
    simp [Text.split, Text.splitChars] at hlength
  simp only [Single, List.mem_cons, List.not_mem_nil, or_false, not_or] at hdir hname
  have hhead : parts.head?.getD dir = "" ↔ parts.head? = some "" := by
    cases parts with
    | nil => simp [hdir]
    | cons part parts => simp
  simp [ofText?, htext, h, hhead, List.filter_append, hdir, hname]

theorem place_of_split {parts : List String} {dir name : String} (hdir : Single dir) (hname : Single name)
    (absolute : Bool) :
    place ⟨absolute, parts ++ [dir, name], .plain⟩ = place ⟨absolute, parts, .plain⟩ ++ [dir, name] := by
  simp only [Single, List.mem_cons, List.not_mem_nil, or_false, not_or] at hdir hname
  simp [place, hdir, hname]

end Path

namespace Disk

variable {d d' : Disk} {place q : List String} {n : Node}

theorem isAbove_of_node? (h : d.node? place ≠ some .directory) : isAbove place = false := by
  rw [← Bool.not_eq_true]
  exact fun habove => h (if_pos habove)

theorem node?_put (h : isAbove place = false) :
    (d.put place n).node? q = if q = place then some n else d.node? q := by
  by_cases hq : q = place
  · simp [node?, put, hq, h]
  · have hfind : (d.nodes.filter (·.1 ≠ place)).find? (·.1 = q) = d.nodes.find? (·.1 = q) := by
      rw [List.find?_filter]
      congr 1
      funext x
      by_cases hx : x.1 = q <;> simp [hx, hq]
    simp only [node?, put, List.find?_cons, hfind, hq, if_false, Ne.symm hq, decide_false]

theorem unless_ok {α : Type} {c : Prop} [Decidable c] {e : FileError} {k : Unit → Except FileError α} {a : α}
    (h : (if c then throw e >>= k else k ()) = .ok a) : ¬ c ∧ k () = .ok a := by
  by_cases hc : c
  · rw [if_pos hc] at h
    cases h
  · rw [if_neg hc] at h
    exact ⟨hc, h⟩

theorem step_ok {name : String} (h : d.step place name = .ok q) :
    d.enter place = .ok () ∧ q = if name = ".." then up place else place ++ [name] := by
  obtain ⟨_, henter, hrest⟩ := bind_eq_ok h
  refine ⟨henter, ?_⟩
  by_cases hname : name = ".."
  · rw [if_pos hname] at hrest ⊢
    cases hrest
    rfl
  · rw [if_neg hname] at hrest ⊢
    obtain ⟨_, hpure⟩ := unless_ok hrest
    cases hpure
    rfl

theorem follow_ok {p : Path} (h : d.follow p.absolute p.names = .ok place) : place = p.place := by
  unfold follow at h
  unfold Path.place
  generalize root p.absolute = start at h ⊢
  generalize p.names = names at h ⊢
  induction names generalizing start with
  | nil => cases h; rfl
  | cons name names ih =>
      rw [List.foldlM_cons] at h
      obtain ⟨next, hstep, hrest⟩ := bind_eq_ok h
      rw [List.foldl_cons, ← (step_ok hstep).2]
      exact ih next hrest

theorem follow_concat {absolute : Bool} {names : List String} {name : String}
    (hdir : d.follow absolute names = .ok place) (hstep : d.step place name = .ok q) :
    d.follow absolute (names ++ [name]) = .ok q := by
  unfold follow at hdir ⊢
  rw [List.foldlM_append, hdir]
  simp [bind, Except.bind, hstep]
  rfl

theorem write_ok {path text : String} (h : d.write path text = .ok d') : ∃ p, Path.ofText? path = some p ∧
    p.ending = .plain ∧ d.follow p.absolute p.names = .ok p.place ∧ d.node? p.place ≠ some .directory ∧
      d' = d.put p.place (.file text) := by
  unfold write at h
  split at h
  case h_1 => cases h
  case h_2 p hp =>
    refine ⟨p, hp, ?_⟩
    split at h
    case h_1 => cases h
    case h_2 =>
      obtain ⟨_, _, hrest⟩ := bind_eq_ok h
      obtain ⟨_, _, hthrow⟩ := bind_eq_ok hrest
      cases hthrow
    case h_3 hending =>
      rename_i name hlast
      obtain ⟨dir, hdir, hrest⟩ := bind_eq_ok h
      obtain ⟨_, _, hrest⟩ := bind_eq_ok hrest
      obtain ⟨hname, hrest⟩ := unless_ok hrest
      obtain ⟨place, hstep, hrest⟩ := bind_eq_ok hrest
      obtain ⟨hnode, hpure⟩ := unless_ok hrest
      cases hpure
      have hfollow := follow_concat hdir hstep
      rw [List.dropLast_append_getLast? _ hlast] at hfollow
      obtain rfl := follow_ok hfollow
      refine ⟨?_, hfollow, hnode, rfl⟩
      cases hp : p.ending with
      | plain => rfl
      | slash => exact absurd (Or.inl hp) hname
      | dot => exact absurd hp hending

structure Widens (d d' : Disk) : Prop where
  keeps : ∀ place n, d.node? place = some n → d'.node? place = some n
  files : ∀ place text, d'.node? place = some (.file text) → d.node? place = some (.file text)

theorem Widens.refl (d : Disk) : d.Widens d := ⟨fun _ _ h => h, fun _ _ h => h⟩

theorem Widens.trans {d₁ : Disk} (h : d.Widens d₁) (h' : d₁.Widens d') : d.Widens d' :=
  ⟨fun q n hq => h'.keeps q n (h.keeps q n hq), fun q t hq => h.files q t (h'.files q t hq)⟩

theorem widens_makeDir {absolute : Bool} {names : List String} (h : d.makeDir absolute names = .ok d') :
    d.Widens d' := by
  obtain ⟨place, _, hrest⟩ := bind_eq_ok h
  obtain ⟨hfree, hpure⟩ := unless_ok hrest
  cases hpure
  have hnone : d.node? place = none := by simpa using hfree
  have habove : isAbove place = false := isAbove_of_node? (d := d) (by simp [hnone])
  constructor
  · intro q n hq
    rw [node?_put habove]
    by_cases hplace : q = place
    · rw [hplace, hnone] at hq
      cases hq
    · rwa [if_neg hplace]
  · intro q text hq
    rw [node?_put habove] at hq
    by_cases hplace : q = place
    · rw [if_pos hplace] at hq
      cases hq
    · rwa [if_neg hplace] at hq

theorem widens_makeDirs {absolute : Bool} {names : List String} (h : d.makeDirs absolute names = .ok d') :
    d.Widens d' := by
  induction names generalizing d' with
  | nil =>
      cases h
      exact .refl d
  | cons name above ih =>
      unfold makeDirs at h
      dsimp only at h
      split at h
      case h_1 hmake =>
        cases h
        exact widens_makeDir hmake
      case h_2 =>
        obtain ⟨d₁, habove, hrest⟩ := bind_eq_ok h
        split at hrest
        case h_1 hmake =>
          cases hrest
          exact (ih habove).trans (widens_makeDir hmake)
        case h_2 =>
          split at hrest <;> cases hrest
          exact ih habove
      case h_3 =>
        split at h <;> cases h
        exact .refl d

theorem widens_makeAll {path : String} (h : d.makeAll path = .ok d') : d.Widens d' := by
  unfold makeAll at h
  split at h
  · cases h
    exact .refl d
  · exact widens_makeDirs h

/-- What an action can do: nothing but new directories, or a file at the place of a path where no directory is. -/
theorem apply_cases {a : Action} (h : d.apply a = .ok d') : d.Widens d' ∨ ∃ path text p, a = .write path text ∧
    Path.ofText? path = some p ∧ d.node? p.place ≠ some .directory ∧
      ∀ q, d'.node? q = if q = p.place then some (.file text) else d.node? q := by
  cases a with
  | log m | print m =>
      cases h
      exact Or.inl (.refl d)
  | makeDirs path => exact Or.inl (widens_makeAll h)
  | write path text =>
      obtain ⟨p, hp, _, _, hnode, rfl⟩ := write_ok h
      exact Or.inr ⟨path, text, p, rfl, hp, hnode, fun q => node?_put (isAbove_of_node? hnode)⟩

def writes (actions : List Action) : List (String × String) :=
  actions.filterMap fun
    | .write path text => some (path, text)
    | _ => none

variable {actions : List Action}

theorem foldlM_directory (h : actions.foldlM apply d = .ok d') (hq : d.node? q = some .directory) :
    d'.node? q = some .directory := by
  induction actions generalizing d with
  | nil =>
      cases h
      exact hq
  | cons a actions ih =>
      obtain ⟨d₁, hd₁, hrest⟩ := bind_eq_ok h
      apply ih hrest
      rcases apply_cases hd₁ with hwidens | ⟨_, _, p, _, _, hnode, hd₁⟩
      · exact hwidens.keeps q _ hq
      · have hne : q ≠ p.place := fun hplace => hnode (hplace ▸ hq)
        rw [hd₁, if_neg hne, hq]

theorem foldlM_node (h : actions.foldlM apply d = .ok d') (hq : d.node? q = some n)
    (hother : ∀ w ∈ writes actions, ∀ p, Path.ofText? w.1 = some p → q ≠ p.place) : d'.node? q = some n := by
  induction actions generalizing d with
  | nil =>
      cases h
      exact hq
  | cons a actions ih =>
      obtain ⟨d₁, hd₁, hrest⟩ := bind_eq_ok h
      rcases apply_cases hd₁ with hwidens | ⟨path, text, p, rfl, hp, _, hd₁⟩
      · refine ih hrest (hwidens.keeps q n hq) fun w hw => hother w ?_
        cases a with
        | write path text => exact List.mem_cons_of_mem _ hw
        | _ => exact hw
      · have hne := hother (path, text) List.mem_cons_self p hp
        refine ih hrest ?_ fun w hw => hother w (List.mem_cons_of_mem _ hw)
        rw [hd₁, if_neg hne, hq]

theorem foldlM_file {text : String} (h : actions.foldlM apply d = .ok d') (hq : d'.node? q = some (.file text)) :
    (∃ old, d.node? q = some (.file old)) ∨ ∃ w ∈ writes actions, ∃ p, Path.ofText? w.1 = some p ∧ p.place = q := by
  induction actions generalizing d with
  | nil =>
      cases h
      exact Or.inl ⟨text, hq⟩
  | cons a actions ih =>
      obtain ⟨d₁, hd₁, hrest⟩ := bind_eq_ok h
      rcases apply_cases hd₁ with hwidens | ⟨path, new, p, rfl, hp, _, hd₁⟩
      · rcases ih hrest with ⟨old, hold⟩ | ⟨w, hw, hplace⟩
        · exact Or.inl ⟨old, hwidens.files q old hold⟩
        · refine Or.inr ⟨w, ?_, hplace⟩
          cases a with
          | write path text => exact List.mem_cons_of_mem _ hw
          | _ => exact hw
      · by_cases hplace : q = p.place
        · exact Or.inr ⟨(path, new), List.mem_cons_self, p, hp, hplace.symm⟩
        · rcases ih hrest with ⟨old, hold⟩ | ⟨w, hw, hwplace⟩
          · rw [hd₁, if_neg hplace] at hold
            exact Or.inl ⟨old, hold⟩
          · exact Or.inr ⟨w, List.mem_cons_of_mem _ hw, hwplace⟩

theorem enter_eq_ok : d.enter place = .ok () ↔ d.node? place = some .directory := by
  unfold enter
  split
  case h_1 h => simp [h]
  case h_2 h => simp [h]
  case h_3 h => simp [h]

theorem follow_mono {absolute : Bool} {names : List String}
    (hd : ∀ q, d.node? q = some .directory → d'.node? q = some .directory)
    (h : d.follow absolute names = .ok place) : d'.follow absolute names = .ok place := by
  unfold follow at h ⊢
  generalize root absolute = start at h ⊢
  induction names generalizing start with
  | nil => exact h
  | cons name names ih =>
      rw [List.foldlM_cons] at h ⊢
      obtain ⟨next, hstep, hrest⟩ := bind_eq_ok h
      have hopen : d'.enter start = d.enter start := by
        have henter := (step_ok hstep).1
        rw [henter, enter_eq_ok.2 (hd _ (enter_eq_ok.1 henter))]
      have hstep' : d'.step start name = .ok next := by
        rw [← hstep, step, step, hopen]
      rw [hstep']
      exact ih next hrest

theorem read_of_node {path text : String} {p : Path} (hp : Path.ofText? path = some p) (hplain : p.ending = .plain)
    (hfollow : d.follow p.absolute p.names = .ok place) (hnode : d.node? place = some (.file text)) :
    d.read path = .ok text := by
  simp [read, hp, hplain, hfollow, hnode, bind, Except.bind]
  rfl

/-- After actions that write to different places only, each of the files holds the text that was written. -/
theorem foldlM_writes (h : actions.foldlM apply d = .ok d')
    (hapart : (writes actions).Pairwise fun v w =>
      ∀ p q, Path.ofText? v.1 = some p → Path.ofText? w.1 = some q → p.place ≠ q.place) :
    ∀ w ∈ writes actions, ∃ p, Path.ofText? w.1 = some p ∧ d'.node? p.place = some (.file w.2) ∧
      d'.read w.1 = .ok w.2 := by
  induction actions generalizing d with
  | nil => exact List.forall_mem_nil _
  | cons a actions ih =>
      obtain ⟨d₁, hd₁, hrest⟩ := bind_eq_ok h
      cases a with
      | write path text =>
          obtain ⟨hfirst, hlater⟩ := List.pairwise_cons.1 hapart
          refine List.forall_mem_cons.2 ⟨?_, ih hrest hlater⟩
          obtain ⟨p, hp, hplain, hfollow, hnode, rfl⟩ := write_ok hd₁
          have hput := fun q => node?_put (d := d) (q := q) (n := .file text) (isAbove_of_node? hnode)
          have hfile : d'.node? p.place = some (.file text) := by
            refine foldlM_node hrest ?_ fun w hw q hq => hfirst w hw p q hp hq
            rw [hput, if_pos rfl]
          refine ⟨p, hp, hfile, read_of_node hp hplain (follow_mono (fun q hq => ?_) hfollow) hfile⟩
          have hne : q ≠ p.place := fun hplace => hnode (hplace ▸ hq)
          apply foldlM_directory hrest
          rw [hput, if_neg hne, hq]
      | _ => exact ih hrest hapart

end Disk

end Backflow
