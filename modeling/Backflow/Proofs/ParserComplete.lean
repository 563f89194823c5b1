import Backflow.Proofs.ElseBinding
import Backflow.Proofs.ParserSound
import Backflow.Proofs.StatementComplete

namespace Backflow

namespace Parser

open Grammar

variable {s s' s₁ : State} {d k : Nat} {ts : List Token}

theorem lexemes_begin (ty : Ty) : ∃ w us, ty.lexemes = w :: us ∧ w ≠ .punct .rbrace ∧ w ≠ .keyword .kwElse ∧
    w ≠ .keyword .kwStatic ∧ w ≠ .keyword .kwPublic ∧ w ≠ .punct .rparen := by
  cases ty <;> exact ⟨_, _, rfl, nofun, nofun, nofun, nofun, nofun⟩

theorem type_pass {ty : Ty} {name : String} (h : s.Passes ty.lexemes s') (hnext : s'.next = some (.ident name)) :
    type s = .ok ty s' := by
  cases ty with
  | int =>
      exact Eq.trans (eat_then h) (eat_skip hnext (by exact nofun))
  | intArray =>
      obtain ⟨s₁, hint, h⟩ := State.passes_cons.1 h
      obtain ⟨s₂, hopen, hclose⟩ := State.passes_cons.1 h
      calc type s
        _ = _ := eat_then hint
        _ = _ := eat_then hopen
        _ = _ := expectPunct_pass hclose
  | boolean => exact Eq.trans (eat_skip h.next (by decide)) (eat_then h)
  | void =>
      calc type s
        _ = _ := eat_skip h.next (by decide)
        _ = _ := eat_skip h.next (by decide)
        _ = _ := eat_then h
  | stringArray =>
      obtain ⟨s₁, hstring, h⟩ := State.passes_cons.1 h
      obtain ⟨s₂, hopen, hclose⟩ := State.passes_cons.1 h
      calc type s
        _ = _ := eat_skip hstring.next (by decide)
        _ = _ := eat_skip hstring.next (by decide)
        _ = _ := eat_skip hstring.next (by decide)
        _ = _ := eat_then hstring
        _ = _ := expectPunct_pass hopen
        _ = _ := expectPunct_pass hclose
  | named n =>
      calc type s
        _ = _ := eat_skip h.next (by exact nofun)
        _ = _ := eat_skip h.next (by exact nofun)
        _ = _ := eat_skip h.next (by exact nofun)
        _ = type.named s := eat_skip h.next (by exact nofun)
        _ = _ := by
          obtain ⟨l, rfl⟩ := h.token
          rfl

theorem decl_pass {v : VarDecl} (h : Declares v ts) (hpass : s.Passes (words ts) s') :
    decl s = .ok ⟨v.type, v.name, s.here⟩ s' := by
  cases h with
  | mk hts _ =>
      rw [words_append, hts] at hpass
      obtain ⟨s₁, htype, hname⟩ := State.passes_append.1 hpass
      calc decl s
        _ = _ := bind_of_ok rfl
        _ = _ := bind_of_ok (type_pass htype hname.next)
        _ = _ := identifier_pass hname

theorem Declares.begins {v : VarDecl} (h : Declares v ts) : ∃ w us, words ts = w :: us ∧ w ≠ .punct .rbrace ∧
    w ≠ .keyword .kwElse ∧ w ≠ .keyword .kwStatic ∧ w ≠ .keyword .kwPublic ∧ w ≠ .punct .rparen := by
  cases h with
  | mk hts _ =>
      obtain ⟨w, us, hus, hw⟩ := lexemes_begin v.type
      exact ⟨w, us ++ [.ident v.name], by rw [words_append, hts, hus]; rfl, hw⟩

theorem listed_pass {vs : List VarDecl} (h : Listed (fun t : Token => t.lexeme = .punct .comma) Declares vs ts)
    {bound : List Token} (hpass : s.Passes (words ts ++ [.punct .rparen]) s')
    (hbound : s.tokens.length ≤ bound.length) :
    ∃ vs', listed decl bound s = .ok vs' s' ∧ vs'.map VarDecl.unplaced = vs.map VarDecl.unplaced := by
  have hlong := hpass.length_eq
  rw [List.length_append, List.length_singleton] at hlong
  obtain ⟨b, bound, rfl⟩ := List.exists_cons_of_length_pos (l := bound) (by omega)
  rw [List.length_cons] at hbound
  induction h generalizing s b bound with
  | one hv =>
      obtain ⟨s₁, hdecl, hclose⟩ := State.passes_append.1 hpass
      exact ⟨_, (bind_of_ok (decl_pass hv hdecl)).trans (eat_then hclose), rfl⟩
  | @more v vs _ _ _ hv ht _ ih =>
      rw [words_append, words_cons, ht, List.append_assoc, List.cons_append] at hpass
      obtain ⟨s₁, hdecl, hpass⟩ := State.passes_append.1 hpass
      obtain ⟨s₂, hcomma, hpass⟩ := State.passes_cons.1 hpass
      have h₁ := hdecl.length_eq
      have h₂ := hcomma.length_eq
      have h₃ := hpass.length_eq
      rw [List.length_singleton] at h₂
      rw [List.length_append, List.length_singleton] at h₃
      obtain ⟨b', bound, rfl⟩ := List.exists_cons_of_length_pos (l := bound) (by omega)
      rw [List.length_cons] at hbound
      obtain ⟨vs', hvs', hsame⟩ := ih hpass h₃ b' bound (by omega)
      refine ⟨⟨v.type, v.name, s.here⟩ :: vs', ?_, congrArg (v.unplaced :: ·) hsame⟩
      calc listed decl (b :: b' :: bound) s
        _ = _ := bind_of_ok (decl_pass hv hdecl)
        _ = _ := eat_skip hcomma.next (by decide)
        _ = _ := expectPunct_pass hcomma
        _ = _ := bind_of_ok hvs'

theorem parameters_pass {vs : List VarDecl} (h : Parameters vs ts)
    (hpass : s.Passes (words ts ++ [.punct .rparen]) s') :
    ∃ vs', parenthesized decl s = .ok vs' s' ∧ vs'.map VarDecl.unplaced = vs.map VarDecl.unplaced := by
  cases h with
  | none => exact ⟨[], eat_then hpass, rfl⟩
  | some hlist =>
      obtain ⟨vs', hvs', hsame⟩ := listed_pass hlist hpass (Nat.le_refl _)
      have hfirst : s.next ≠ some (.punct .rparen) := by
        obtain ⟨w, us, hus, hw⟩ : ∃ w us, words ts = w :: us ∧ w ≠ .punct .rparen := by
          cases hlist with
          | one hv =>
              obtain ⟨w, us, hus, hw⟩ := Declares.begins hv
              exact ⟨w, us, hus, hw.2.2.2.2⟩
          | more hv =>
              obtain ⟨w, us, hus, hw⟩ := Declares.begins hv
              exact ⟨w, us ++ _, by rw [words_append, hus]; rfl, hw.2.2.2.2⟩
        rw [hus] at hpass
        rw [hpass.next]
        exact fun heq => hw (Option.some.inj heq)
      exact ⟨vs', Eq.trans (eat_else hfirst) hvs', hsame⟩

def beginsLocal : List Lexeme → Bool
  | .keyword k :: _ => k = .kwInt || k = .kwBoolean || k = .kwString
  | .ident _ :: .ident _ :: _ => true
  | _ => false

theorem seesLocal_eq (s : State) : seesLocal s = .ok (beginsLocal (words s.tokens)) s := by
  obtain ⟨tokens, stop, nextId⟩ := s
  cases tokens with
  | nil => rfl
  | cons t rest =>
      obtain ⟨w, l⟩ := t
      cases w with
      | int | keyword | punct => rfl
      | ident name =>
          cases rest with
          | nil => rfl
          | cons t rest =>
              obtain ⟨w, l⟩ := t
              cases w <;> rfl

theorem beginsLocal_declares {v : VarDecl} (h : Declares v ts) (hty : v.type ≠ .void) (us : List Lexeme) :
    beginsLocal (words ts ++ us) = true := by
  cases h with
  | mk hts _ =>
      rw [words_append, hts]
      cases hv : v.type with
      | void => exact absurd hv hty
      | _ => rfl

theorem beginsLocal_statement {x : Stmt} (h : Statement x ts d k) (us : List Lexeme) :
    beginsLocal (words ts ++ us) = false := by
  cases h with
  | @call t receiver method args ts d l h =>
      rw [words_append, List.append_assoc]
      obtain ⟨w, vs, hvs, hw⟩ := h.begins
      rw [hvs]
      cases w with
      | int | punct => rfl
      | keyword k => cases k <;> first | rfl | cases hw
      | ident name =>
          rcases h.afterName hvs with rfl | hafter
          · rfl
          · cases hafter <;> rfl
  | _ => rfl

def bareItem : VarDecl ⊕ Stmt → VarDecl ⊕ Stmt := Sum.map VarDecl.unplaced (Stmt.retag Tag.bare)

theorem yields_bodyItem {x : VarDecl ⊕ Stmt} (h : Item x ts d k)
    (hnear : Sum.elim (fun _ => True) Stmt.NearestElse x) (hpass : s.Passes (words ts) s') (hfits : Fits (words ts))
    (hnext : s'.next ≠ some (.keyword .kwElse)) :
    Yields (k = 0 ∧ d ≤ maxDepth) (bodyItem s) fun y s₁ => bareItem y = bareItem x ∧ s₁.tokens = s'.tokens := by
  have hsees := seesLocal_eq s
  rw [hpass.words_eq] at hsees
  cases h with
  | declares hv hty =>
      rw [words_append, List.append_assoc, beginsLocal_declares hv hty] at hsees
      rw [words_append] at hpass
      obtain ⟨s₁, hdecl, hsemi⟩ := State.passes_append.1 hpass
      have hrun : bodyItem s = _ :=
        calc bodyItem s
          _ = _ := bind_of_ok hsees
          _ = _ := bind_of_ok (decl_pass hv hdecl)
          _ = _ := expectPunct_pass hsemi
      rw [hrun]
      exact .ok ⟨rfl, Nat.zero_le _⟩ ⟨rfl, rfl⟩
  | states h =>
      rw [beginsLocal_statement h] at hsees
      have hrun : bodyItem s = (stmt maxDepth >>= fun x => pure (.inr x)) s := bind_of_ok hsees
      rw [hrun]
      refine ((completes h hnear maxDepth s s' hpass hfits fun _ => hnext).bind fun y s₁ hres =>
        .ok trivial ⟨?_, hres.2⟩).iff (by rw [and_true])
      exact congrArg Sum.inr hres.1

theorem modifiers_pass {ms : List Token} (h : Modifiers ms) {b : Bool} {bound : List Token} {w : Lexeme}
    (hpass : s.Passes (words ms) s') (hnext : s'.next = some w) (hstatic : w ≠ .keyword .kwStatic)
    (hpublic : w ≠ .keyword .kwPublic) (hbound : s.tokens.length ≤ bound.length) :
    modifiers b bound s = .ok (b || (words ms).contains (.keyword .kwStatic)) s' := by
  induction ms generalizing s b bound with
  | nil =>
      obtain rfl := State.passes_nil.1 hpass
      rw [words_nil, List.contains_nil, Bool.or_false]
      cases bound with
      | nil => rfl
      | cons t bound => exact Eq.trans (eat_skip hnext hstatic) (eat_skip hnext hpublic)
  | cons t ms ih =>
      obtain ⟨ht, hms⟩ := List.forall_mem_cons.1 h
      rw [words_cons] at hpass
      obtain ⟨s₁, hmod, hpass⟩ := State.passes_cons.1 hpass
      have hlong := hmod.length_eq
      rw [List.length_singleton] at hlong
      obtain ⟨b', bound, rfl⟩ := List.exists_cons_of_length_pos (l := bound) (by omega)
      rw [List.length_cons] at hbound
      have hlong₁ : s₁.tokens.length ≤ bound.length := by omega
      rcases ht with ht | ht
      · rw [ht] at hmod
        refine Eq.trans (Eq.trans (eat_skip hmod.next (by decide)) (eat_then hmod)) ((ih hms hpass hlong₁).trans ?_)
        simp [ht]
      · rw [ht] at hmod
        refine Eq.trans (eat_then hmod) ((ih hms hpass hlong₁).trans ?_)
        simp [ht]

theorem map_getLeft? {α β α' β' : Type} {f : α → α'} {g : β → β'} (l : List (α ⊕ β)) :
    (l.filterMap Sum.getLeft?).map f = (l.map (Sum.map f g)).filterMap Sum.getLeft? := by
  rw [List.map_filterMap, List.filterMap_map]
  congr 1
  funext x
  cases x <;> rfl

theorem map_getRight? {α β α' β' : Type} {f : α → α'} {g : β → β'} (l : List (α ⊕ β)) :
    (l.filterMap Sum.getRight?).map g = (l.map (Sum.map f g)).filterMap Sum.getRight? := by
  rw [List.map_filterMap, List.filterMap_map]
  congr 1
  funext x
  cases x <;> rfl

def bareMember : VarDecl ⊕ Method → VarDecl ⊕ Method := Sum.map VarDecl.unplaced (Method.retag Tag.bare)

theorem Item.begins {x : VarDecl ⊕ Stmt} (h : Item x ts d k) :
    ∃ w us, words ts = w :: us ∧ w ≠ .punct .rbrace ∧ w ≠ .keyword .kwElse := by
  cases h with
  | declares hv =>
      obtain ⟨w, us, hus, hw⟩ := Declares.begins hv
      exact ⟨w, us ++ _, by rw [words_append, hus]; rfl, hw.1, hw.2.1⟩
  | states h => exact Statement.begins h

theorem yields_body {items : List (Piece (VarDecl ⊕ Stmt))}
    (hitems : ∀ p ∈ items, Item p.value p.tokens p.depth p.disguises)
    (hnear : ∀ p ∈ items, Sum.elim (fun _ => True) Stmt.NearestElse p.value)
    (hpass : s.Passes (words (Piece.spelled items) ++ [.punct .rbrace]) s')
    (hfits : Fits (words (Piece.spelled items))) :
    Yields (Piece.total items = 0 ∧ Piece.deepest items ≤ maxDepth) (block bodyItem s) fun xs s₁ =>
      xs.map bareItem = (items.map (·.value)).map bareItem ∧ s₁.tokens = s'.tokens := by
  refine (yields_untilBrace (fun p hp => Item.begins (hitems p hp)) (fun p hp s s' hpass hnext => ?_) hpass
    (Nat.le_refl _)).iff Piece.limits
  exact yields_bodyItem (hitems p hp) (hnear p hp) hpass (Piece.fits_spelled.1 hfits p hp) hnext

theorem yields_classMember {x : VarDecl ⊕ Method} (h : Member x ts d k)
    (hnear : Sum.elim (fun _ => True) (fun m => ∀ s ∈ m.body, s.NearestElse) x) (hpass : s.Passes (words ts) s')
    (hfits : Fits (words ts)) :
    Yields (k = 0 ∧ d ≤ maxDepth) (classMember s) fun y s₁ =>
      bareMember y = bareMember x ∧ s₁.tokens = s'.tokens := by
  cases h with
  | @field v ms ts l₁ l₂ hms hts =>
      rw [words_append, words_append, hts] at hpass
      obtain ⟨s₁, hmods, hpass⟩ := State.passes_append.1 hpass
      obtain ⟨s₂, htype, hpass⟩ := State.passes_append.1 hpass
      obtain ⟨s₃, hname, hsemi⟩ := State.passes_cons.1 hpass
      obtain ⟨w, us, hus, _, _, hstatic, hpublic, _⟩ := lexemes_begin v.type
      have hrun : classMember s = .ok (.inl ⟨v.type, v.name, s.here⟩) s' :=
        calc classMember s
          _ = _ := bind_of_ok rfl
          _ = _ := bind_of_ok (modifiers_pass hms hmods (hus ▸ htype).next hstatic hpublic (Nat.le_refl _))
          _ = _ := bind_of_ok (type_pass htype hname.next)
          _ = _ := identifier_pass hname
          _ = _ := eat_then hsemi
      rw [hrun]
      exact .ok ⟨rfl, Nat.zero_le _⟩ ⟨rfl, rfl⟩
  | @method m ms ts ps l₁ l₂ l₃ l₄ l₅ items hms hisStatic hts _ hps hitems hlocals hbody =>
      rw [words_append, words_append, hts, words_cons, words_cons, words_append, words_cons, words_cons,
        words_append] at hpass
      obtain ⟨s₁, hmods, hpass⟩ := State.passes_append.1 hpass
      obtain ⟨s₂, htype, hpass⟩ := State.passes_append.1 hpass
      obtain ⟨s₃, hname, hpass⟩ := State.passes_cons.1 hpass
      obtain ⟨s₄, hopen, hpass⟩ := State.passes_cons.1 hpass
      rw [List.append_cons] at hpass
      obtain ⟨s₅, hparams, hpass⟩ := State.passes_append.1 hpass
      obtain ⟨s₆, hbrace, hpass⟩ := State.passes_cons.1 hpass
      obtain ⟨w, us, hus, _, _, hstatic, hpublic, _⟩ := lexemes_begin m.returns
      obtain ⟨params, hrunp, hsame⟩ := parameters_pass hps hparams
      have hrun : classMember s = (block bodyItem >>= fun xs => pure (.inr {
          name := m.name, isStatic := false || (words ms).contains (.keyword .kwStatic), returns := m.returns,
          params, loc := s.here, locals := xs.filterMap Sum.getLeft?, body := xs.filterMap Sum.getRight? })) s₆ :=
        calc classMember s
          _ = _ := bind_of_ok rfl
          _ = _ := bind_of_ok (modifiers_pass hms hmods (hus ▸ htype).next hstatic hpublic (Nat.le_refl _))
          _ = _ := bind_of_ok (type_pass htype hname.next)
          _ = _ := identifier_pass hname
          _ = _ := eat_skip hopen.next (by exact nofun)
          _ = _ := expectPunct_pass hopen
          _ = _ := bind_of_ok hrunp
          _ = _ := expectPunct_pass hbrace
      rw [hrun]
      refine ((yields_body hitems (Piece.forall_getRight?.1 (hbody ▸ hnear)) hpass (by simp at hfits; tauto)).bind
        fun xs s₇ hres => ?_).iff (and_iff_left trivial)
      obtain ⟨hxs, hs₇⟩ := hres
      refine .ok trivial ⟨congrArg Sum.inr (Method.retag_congr rfl ?_ rfl hsame ?_ ?_), hs₇⟩
      · rw [Bool.false_or, Bool.eq_iff_iff, List.contains_iff_mem, hisStatic]
      · rw [map_getLeft?, hlocals, map_getLeft?]
        exact congrArg _ hxs
      · rw [map_getRight?, hbody, map_getRight?]
        exact congrArg _ hxs

theorem Member.begins {x : VarDecl ⊕ Method} (h : Member x ts d k) :
    ∃ w us, words ts = w :: us ∧ w ≠ .punct .rbrace ∧ w ≠ .keyword .kwElse := by
  have hfirst : ∀ {ms ts : List Token} {ty : Ty} (us : List Token), Modifiers ms → words ts = ty.lexemes →
      ∃ w vs, words (ms ++ (ts ++ us)) = w :: vs ∧ w ≠ .punct .rbrace ∧ w ≠ .keyword .kwElse := by
    intro ms ts ty us hms hts
    cases ms with
    | nil =>
        obtain ⟨w, vs, hvs, hbrace, helse, _⟩ := lexemes_begin ty
        exact ⟨w, vs ++ words us, by simp [hts, hvs], hbrace, helse⟩
    | cons m ms =>
        refine ⟨m.lexeme, _, rfl, ?_⟩
        rcases hms m List.mem_cons_self with hm | hm <;> rw [hm] <;> exact ⟨nofun, nofun⟩
  cases h with
  | field hms hts => exact hfirst _ hms hts
  | method _ hms _ hts => exact hfirst _ hms hts

theorem parent?_pass {o : Option String} (h : Parent o ts) (hpass : s.Passes (words ts) s')
    (hnext : s'.next = some (.punct .lbrace)) : classDecl.parent? s = .ok o s' := by
  cases h with
  | none =>
      obtain rfl := State.passes_nil.1 hpass
      exact eat_skip hnext (by decide)
  | some =>
      obtain ⟨s₁, hextends, hname⟩ := State.passes_cons.1 hpass
      exact Eq.trans (eat_then hextends) (identifier_pass hname)

theorem yields_classDecl {c : Class} (h : ClassText c ts d k)
    (hnear : ∀ m ∈ c.methods, ∀ s ∈ m.body, s.NearestElse) (hpass : s.Passes (words ts) s')
    (hfits : Fits (words ts)) :
    Yields (k = 0 ∧ d ≤ maxDepth) (classDecl s) fun c' s₁ =>
      c'.retag Tag.bare = c.retag Tag.bare ∧ s₁.tokens = s'.tokens := by
  cases h with
  | @mk ps l₁ l₂ l₃ members hparent hmembers hfields hmethods =>
      rw [words_cons, words_cons, words_append, words_cons, words_append] at hpass
      obtain ⟨s₁, hclass, hpass⟩ := State.passes_cons.1 hpass
      obtain ⟨s₂, hname, hpass⟩ := State.passes_cons.1 hpass
      obtain ⟨s₃, hextends, hpass⟩ := State.passes_append.1 hpass
      obtain ⟨s₄, hopen, hpass⟩ := State.passes_cons.1 hpass
      have hfits : Fits (words (Piece.spelled members)) := by
        simp only [words_cons, words_append, fits_append, fits_keyword, fits_ident, fits_punct] at hfits
        exact hfits.2.1
      have hrun : classDecl s = (block classMember >>= fun xs => pure {
          name := c.name, parent := c.parent, loc := s.here
          fields := xs.filterMap Sum.getLeft?, methods := xs.filterMap Sum.getRight? }) s₄ :=
        calc classDecl s
          _ = _ := bind_of_ok rfl
          _ = _ := expectKeyword_pass hclass
          _ = _ := identifier_pass hname
          _ = _ := bind_of_ok (parent?_pass hparent hextends hopen.next)
          _ = _ := expectPunct_pass hopen
      have hblock : Yields (Piece.total members = 0 ∧ Piece.deepest members ≤ maxDepth) (block classMember s₄)
          fun xs s₁ => xs.map bareMember = (members.map (·.value)).map bareMember ∧ s₁.tokens = s'.tokens := by
        refine (yields_untilBrace (fun p hp => Member.begins (hmembers p hp)) (fun p hp s s' hpass _ => ?_) hpass
          (Nat.le_refl _)).iff Piece.limits
        exact yields_classMember (hmembers p hp) (Piece.forall_getRight?.1 (hmethods ▸ hnear) p hp) hpass
          (Piece.fits_spelled.1 hfits p hp)
      rw [hrun]
      refine (hblock.bind fun xs s₅ hres => ?_).iff (and_iff_left trivial)
      obtain ⟨hxs, hs₅⟩ := hres
      refine .ok trivial ⟨Class.retag_congr rfl rfl ?_ ?_, hs₅⟩
      · rw [map_getLeft?, hfields, map_getLeft?]
        exact congrArg _ hxs
      · rw [map_getRight?, hmethods, map_getRight?]
        exact congrArg _ hxs

theorem yields_classes {ps : List (Piece Class)} (hclasses : ∀ p ∈ ps, ClassText p.value p.tokens p.depth p.disguises)
    (hnear : ∀ p ∈ ps, ∀ m ∈ p.value.methods, ∀ s ∈ m.body, s.NearestElse) {bound : List Token}
    (htokens : words s.tokens = words (Piece.spelled ps)) (hfits : Fits (words (Piece.spelled ps)))
    (hbound : s.tokens.length ≤ bound.length) :
    Yields (∀ p ∈ ps, p.disguises = 0 ∧ p.depth ≤ maxDepth) (classes bound s) fun cs _ =>
      cs.map (Class.retag Tag.bare) = (ps.map (·.value)).map (Class.retag Tag.bare) := by
  induction ps generalizing s bound with
  | nil =>
      have hnil : s.tokens = [] := List.map_eq_nil_iff.1 htokens
      have hrun : classes bound s = .ok [] s := by
        cases bound with
        | nil => rfl
        | cons b bound =>
            refine (bind_of_ok rfl).trans ?_
            simp [hnil]
            rfl
      rw [hrun]
      exact .ok (List.forall_mem_nil _) rfl
  | cons p ps ih =>
      obtain ⟨hp, hps⟩ := List.forall_mem_cons.1 hclasses
      obtain ⟨hpnear, hpsnear⟩ := List.forall_mem_cons.1 hnear
      obtain ⟨hpfits, hpsfits⟩ := List.forall_mem_cons.1 (Piece.fits_spelled.1 hfits)
      rw [Piece.spelled, List.flatMap_cons, words_append] at htokens
      obtain ⟨us, vs, hsplit, hus, hvs⟩ := List.map_eq_append_iff.1 htokens
      have hpass : s.Passes (words p.tokens) { s with tokens := vs } := ⟨us, hus, by rw [← hsplit]⟩
      have hlong := hpass.length_eq
      have hne : 0 < (words p.tokens).length := by simpa [List.length_pos_iff] using hp.ne_nil
      obtain ⟨b, bound, rfl⟩ := List.exists_cons_of_length_pos (l := bound) (by omega)
      rw [List.length_cons] at hbound
      have hrun : classes (b :: bound) s = (classDecl >>= fun c => classes bound >>= fun cs => pure (c :: cs)) s := by
        refine (bind_of_ok rfl).trans ?_
        have hempty : s.tokens.isEmpty = false := by
          rw [List.isEmpty_eq_false_iff, ← List.length_pos_iff]
          omega
        simp [hempty]
      have hcons : ((p.disguises = 0 ∧ p.depth ≤ maxDepth) ∧ ∀ q ∈ ps, q.disguises = 0 ∧ q.depth ≤ maxDepth) ↔
          ∀ q ∈ p :: ps, q.disguises = 0 ∧ q.depth ≤ maxDepth := by rw [List.forall_mem_cons]
      rw [hrun]
      refine ((yields_classDecl hp hpnear hpass hpfits).bind fun c s₁ hres => ?_).iff hcons
      obtain ⟨hc, hs₁⟩ := hres
      change s₁.tokens = vs at hs₁
      have hlong₁ : s₁.tokens.length ≤ bound.length := by
        rw [hs₁]
        change s.tokens.length = _ + vs.length at hlong
        omega
      refine ((ih hps hpsnear (hs₁ ▸ hvs) (Piece.fits_spelled.2 hpsfits) hlong₁).bind fun cs s₂ hcs => ?_).iff
        (and_iff_left trivial)
      refine .ok trivial ?_
      rw [List.map_cons, hc, hcs]
      rfl

end Parser

namespace Program

open Grammar

variable {s : TokenStream} {p : Program} {ts : List Token} {d k : Nat}

/-- What the parser does with tokens that say what the tokens of a program say. -/
theorem ofTokens_of_derives (h : Derives p ts d k) (hnear : p.NearestElse) (hwords : words s.tokens = words ts)
    (hfits : Fits (words ts)) :
    (k = 0 ∧ d ≤ maxDepth → ∃ q, ofTokens s = .ok q ∧ q.retag Tag.bare = p.retag Tag.bare) ∧
      (¬ (k = 0 ∧ d ≤ maxDepth) → ∃ e, ofTokens s = .error e) := by
  cases h with
  | mk classes hclasses =>
      have hyields := Parser.yields_classes (s := .ofStream s) hclasses (List.forall_mem_map.1 hnear) hwords hfits
        (Nat.le_refl _)
      rw [← Piece.limits]
      constructor
      · intro hlimits
        obtain ⟨cs, s', hcs, hsame⟩ := hyields.1 hlimits
        have hprogram : Parser.program (.ofStream s) = .ok ⟨cs⟩ s' := bind_of_ok hcs
        refine ⟨⟨cs⟩, by rw [ofTokens, hprogram], ?_⟩
        rw [Program.retag, Program.retag, hsame]
      · intro hlimits
        obtain ⟨e, s', he⟩ := hyields.2 hlimits
        have hprogram : Parser.program (.ofStream s) = .error e s' := bind_of_error he
        exact ⟨e, by rw [ofTokens, hprogram]⟩

theorem ofTokens_ok_iff (h : Derives p s.tokens d k) (hnear : p.NearestElse) (hfits : Fits (words s.tokens)) :
    (∃ q, ofTokens s = .ok q) ↔ k = 0 ∧ d ≤ maxDepth := by
  obtain ⟨hok, herror⟩ := ofTokens_of_derives h hnear rfl hfits
  constructor
  · rintro ⟨q, hq⟩
    by_contra hlimits
    obtain ⟨e, he⟩ := herror hlimits
    rw [hq] at he
    cases he
  · intro hlimits
    obtain ⟨q, hq, _⟩ := hok hlimits
    exact ⟨q, hq⟩

/-- Tokens that the grammar derives, with literals that can be read, are also derived with each `else` at the
nearest `if`. The parser accepts them just if no call statement is in disguise and if, in that derivation, not
too many levels are nested. -/
theorem ofTokens_complete (h : Derives p s.tokens d k) (hfits : Fits (words s.tokens)) :
    (∃ p' d', Derives p' s.tokens d' k ∧ p'.NearestElse) ∧
      ∀ p' d' k', Derives p' s.tokens d' k' → p'.NearestElse →
        ((∃ q, ofTokens s = .ok q) ↔ k' = 0 ∧ d' ≤ maxDepth) :=
  ⟨h.exists_nearest, fun _ _ _ h' hnear => ofTokens_ok_iff h' hnear hfits⟩

/-- The parser accepts the text with two `if`s and one `else`, and so its tokens have such a derivation. -/
theorem ofTokens_complete_dangling : ∃ s p d, Lexer.lex danglingText = .ok s ∧ Derives p s.tokens d 0 ∧
    Fits (words s.tokens) ∧ (∃ p' d', Derives p' s.tokens d' 0 ∧ p'.NearestElse) ∧
      ∀ p' d' k', Derives p' s.tokens d' k' → p'.NearestElse →
        ((∃ q, ofTokens s = .ok q) ↔ k' = 0 ∧ d' ≤ maxDepth) := by
  have hrun : (Lexer.lex danglingText).toOption.any (fun s => (ofTokens s).toOption.any fun _ => true) = true := by
    decide +kernel
  obtain ⟨s, hs, hparse⟩ := exists_ok_of_any hrun
  obtain ⟨p, hp, _⟩ := exists_ok_of_any hparse
  obtain ⟨d, hd, _⟩ := derives_of_ofTokens hp
  have hfits := fits_of_ofTokens hp
  exact ⟨s, p, d, hs, hd, hfits, ofTokens_complete hd hfits⟩

def elementCallText : String := "class A \x7b void f() \x7b a[0].g(); \x7d \x7d"

def elementCall : List Token :=
  [⟨.ident "a", ⟨1, 22⟩⟩, ⟨.punct .lbracket, ⟨1, 23⟩⟩, ⟨.int "0", ⟨1, 24⟩⟩, ⟨.punct .rbracket, ⟨1, 25⟩⟩,
    ⟨.punct .dot, ⟨1, 26⟩⟩, ⟨.ident "g", ⟨1, 27⟩⟩, ⟨.punct .lparen, ⟨1, 28⟩⟩, ⟨.punct .rparen, ⟨1, 29⟩⟩]

theorem literal_zero : Literal "0" 0 := integer?_eq_some_iff.1 (by decide +kernel)

theorem renders_elementCall :
    Renders .whole (.call (.index (.var "a") (.int 0)) "g" []) (words elementCall) 2 := by
  have hzero : Renders .whole (.int 0) [.int "0"] 1 :=
    .whole ((Renders.suffixed (.primary (.int literal_zero.1))).at_levels _)
  have helement : Renders .suffixed (.index (.var "a") (.int 0))
      [.ident "a", .punct .lbracket, .int "0", .punct .rbracket] 1 := .index (.primary (.var "a")) hzero
  exact .whole ((Renders.suffixed (.call "g" [] helement (List.forall_mem_nil _))).at_levels _)

def elementCallMethod : Method where
  name := "f"
  isStatic := false
  returns := .void
  params := []
  locals := []
  body := [.call ⟨0, ⟨1, 22⟩⟩ (.index (.var "a") (.int 0)) "g" []]
  loc := ⟨1, 11⟩

def elementCallProgram : Program :=
  ⟨[{ name := "A", parent := none, fields := [], methods := [elementCallMethod], loc := ⟨1, 1⟩ }]⟩

def elementCallTokens : List Token :=
  [⟨.keyword .kwClass, ⟨1, 1⟩⟩, ⟨.ident "A", ⟨1, 7⟩⟩, ⟨.punct .lbrace, ⟨1, 9⟩⟩, ⟨.keyword .kwVoid, ⟨1, 11⟩⟩,
    ⟨.ident "f", ⟨1, 16⟩⟩, ⟨.punct .lparen, ⟨1, 17⟩⟩, ⟨.punct .rparen, ⟨1, 18⟩⟩, ⟨.punct .lbrace, ⟨1, 20⟩⟩] ++
      elementCall ++ [⟨.punct .semi, ⟨1, 30⟩⟩, ⟨.punct .rbrace, ⟨1, 32⟩⟩, ⟨.punct .rbrace, ⟨1, 34⟩⟩]

theorem derives_elementCall : Derives elementCallProgram elementCallTokens 3 1 := by
  have hstmt : Item (.inr (.call ⟨0, ⟨1, 22⟩⟩ (.index (.var "a") (.int 0)) "g" []))
      (elementCall ++ [⟨.punct .semi, ⟨1, 30⟩⟩]) 3 1 := .states (.call renders_elementCall rfl)
  have hmember : Member (.inr elementCallMethod)
      ([⟨.keyword .kwVoid, ⟨1, 11⟩⟩, ⟨.ident "f", ⟨1, 16⟩⟩, ⟨.punct .lparen, ⟨1, 17⟩⟩, ⟨.punct .rparen, ⟨1, 18⟩⟩,
        ⟨.punct .lbrace, ⟨1, 20⟩⟩] ++ elementCall ++ [⟨.punct .semi, ⟨1, 30⟩⟩, ⟨.punct .rbrace, ⟨1, 32⟩⟩]) 3 1 :=
    @Member.method elementCallMethod [] [⟨.keyword .kwVoid, ⟨1, 11⟩⟩] [] _ _ _ _ _ [⟨_, _, 3, 1⟩]
      (List.forall_mem_nil _) (by decide) rfl rfl .none (List.forall_mem_singleton.2 hstmt) rfl rfl
  have hclass : ClassText { name := "A", parent := none, fields := [], methods := [elementCallMethod], loc := ⟨1, 1⟩ }
      elementCallTokens 3 1 :=
    @ClassText.mk _ [] _ _ _ [⟨_, _, 3, 1⟩] .none (List.forall_mem_singleton.2 hmember) rfl rfl
  exact .mk [⟨_, _, 3, 1⟩] (List.forall_mem_singleton.2 hclass)

/-- The grammar has a call on an element of an array as a statement, and the parser refuses it. -/
theorem elementCall_refused : ∃ s, Lexer.lex elementCallText = .ok s ∧ Derives elementCallProgram s.tokens 3 1 ∧
    3 ≤ maxDepth ∧ Fits (words s.tokens) ∧ elementCallProgram.NearestElse ∧ ∃ e, ofTokens s = .error e := by
  have hrun : (Lexer.lex elementCallText).toOption.any (fun s => s.tokens = elementCallTokens) = true := by
    decide +kernel
  obtain ⟨s, hs, htokens⟩ := exists_ok_of_any hrun
  have hderives : Derives elementCallProgram s.tokens 3 1 := of_decide_eq_true htokens ▸ derives_elementCall
  have hfits : Fits (words s.tokens) := by
    rw [of_decide_eq_true htokens]
    simp [elementCallTokens, elementCall]
    exact ⟨0, literal_zero⟩
  have hnear : elementCallProgram.NearestElse := by
    refine List.forall_mem_singleton.2 (List.forall_mem_singleton.2 (List.forall_mem_singleton.2 ?_))
    exact .of_leaf rfl nofun
  exact ⟨s, hs, hderives, by decide, hfits, hnear, (ofTokens_of_derives hderives hnear rfl hfits).2 (by decide)⟩

end Program

end Backflow
