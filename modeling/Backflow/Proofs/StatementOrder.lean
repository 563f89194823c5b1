import Backflow.Proofs.ParserSound
import Backflow.Proofs.StatementNumbers
import Backflow.Proofs.Tiling
import Mathlib.Data.List.Flatten
import Mathlib.Data.List.Pairwise

namespace Backflow

namespace Stmt

def places (s : Stmt) : List Location := s.preorder.map Stmt.loc

theorem flatMap_places (l : List Stmt) : l.flatMap places = (preorderList l).map Stmt.loc := by
  rw [preorderList_eq_flatMap, List.map_flatMap]
  rfl

theorem places_ifElse (t : Tag) (c : Expr) (yes no : Stmt) :
    (ifElse t c yes no).places = t.loc :: (yes.places ++ no.places) := by
  rw [places, places, places, ← List.map_append]
  rfl

theorem preorder_eq_cons (s : Stmt) : s.preorder = s :: s.preorder.tail := by cases s <;> rfl

theorem preorder_sublist :
    (∀ s : Stmt, ∀ x ∈ s.preorder, x.preorder.Sublist s.preorder) ∧
      ∀ l : List Stmt, ∀ x ∈ preorderList l, x.preorder.Sublist (preorderList l) := by
  apply Stmt.induction
  case plain =>
    intro s hs x hx
    rw [hs.preorder_eq, List.mem_singleton] at hx
    rw [hx]
  case ret | brk | cont =>
    intros
    rename_i hx
    rw [List.mem_singleton.1 hx]
  case block =>
    intro t body ih x hx
    rcases List.mem_cons.1 hx with rfl | hx
    · exact .refl _
    · exact (ih x hx).cons _
  case ifThen | loop =>
    intro t c s ih x hx
    rcases List.mem_cons.1 hx with rfl | hx
    · exact .refl _
    · exact (ih x hx).cons _
  case ifElse =>
    intro t c yes no ihyes ihno x hx
    rcases List.mem_cons.1 hx with rfl | hx
    · exact .refl _
    rcases List.mem_append.1 hx with hx | hx
    · exact ((ihyes x hx).trans (List.sublist_append_left _ _)).cons _
    · exact ((ihno x hx).trans (List.sublist_append_right _ _)).cons _
  case nil => exact fun x hx => absurd hx List.not_mem_nil
  case cons =>
    intro s rest ihs ihrest x hx
    rcases List.mem_append.1 hx with hx | hx
    · exact (ihs x hx).trans (List.sublist_append_left _ _)
    · exact (ihrest x hx).trans (List.sublist_append_right _ _)

end Stmt

def Method.places (m : Method) : List Location := m.statements.map Stmt.loc

namespace Grammar

variable {α : Type} {ts : List Token} {d k : Nat}

def Covers (ts : List Token) (ls : List Location) : Prop := ls.Sublist (ts.map (·.loc))

variable {us : List Token} {t : Token} {l : Location} {ls ms : List Location}

theorem covers_nil (ts : List Token) : Covers ts [] := List.nil_sublist _

theorem Covers.append (h : Covers ts ls) (h' : Covers us ms) : Covers (ts ++ us) (ls ++ ms) := by
  rw [Covers, List.map_append]
  exact List.Sublist.append h h'

theorem Covers.left (h : Covers ts ls) (us : List Token) : Covers (ts ++ us) ls := by
  have happend := h.append (covers_nil us)
  rwa [List.append_nil] at happend

theorem Covers.right (h : Covers us ls) (ts : List Token) : Covers (ts ++ us) ls := (covers_nil ts).append h

theorem Covers.skip (h : Covers ts ls) (t : Token) : Covers (t :: ts) ls := h.right [t]

theorem Covers.cons (h : Covers ts ls) (w : Lexeme) (l : Location) : Covers (⟨w, l⟩ :: ts) (l :: ls) :=
  List.Sublist.cons_cons l h

theorem covers_spelled {f : α → List Location} {ps : List (Piece α)} (h : ∀ p ∈ ps, Covers p.tokens (f p.value)) :
    Covers (Piece.spelled ps) ((ps.map (·.value)).flatMap f) := by
  rw [Covers, Piece.spelled, List.map_flatMap, List.flatMap_map]
  exact List.Sublist.flatMap_right _ h

theorem Starts.covers (h : Starts ts l) : Covers ts [l] := by
  obtain ⟨t, ht, rfl⟩ := Option.map_eq_some_iff.1 h
  exact List.singleton_sublist.2 (List.mem_map_of_mem (List.mem_of_mem_head? ht))

theorem Statement.covers {s : Stmt} (h : Statement s ts d k) : Covers ts s.places := by
  induction h with
  | assign | store | print | ret | value | brk | cont => exact (covers_nil _).cons _ _
  | call _ hstarts => exact hstarts.covers.left _
  | block body _ ih =>
      have hbody := covers_spelled ih
      rw [Stmt.flatMap_places] at hbody
      exact (hbody.left _).cons _ _
  | ifThen _ _ ih | loop _ _ ih => exact (ih.right _).cons _ _
  | ifElse _ _ _ ihyes ihno =>
      rw [Stmt.places_ifElse]
      exact ((ihyes.append (ihno.skip _)).right _).cons _ _

theorem Item.covers {x : VarDecl ⊕ Stmt} (h : Item x ts d k) : Covers ts (Sum.elim (fun _ => []) Stmt.places x) := by
  cases h with
  | declares => exact covers_nil _
  | states h => exact h.covers

theorem Member.covers {x : VarDecl ⊕ Method} (h : Member x ts d k) :
    Covers ts (Sum.elim (fun _ => []) Method.places x) := by
  cases h with
  | field => exact covers_nil _
  | @method m _ _ _ _ _ _ _ _ items _ _ _ _ _ hitems _ hbody =>
      have hplaces := covers_spelled fun p hp => (hitems p hp).covers
      rw [Parser.flatMap_getRight?, ← hbody, Stmt.flatMap_places] at hplaces
      exact (((((hplaces.left _).skip _).skip _).right _).skip _).skip _ |>.right _ |>.right _

theorem ClassText.covers {c : Class} (h : ClassText c ts d k) : Covers ts (c.methods.flatMap Method.places) := by
  cases h with
  | mk members _ hmembers _ hmethods =>
      have hplaces := covers_spelled fun p hp => (hmembers p hp).covers
      rw [Parser.flatMap_getRight?, ← hmethods] at hplaces
      exact ((((hplaces.left _).skip _).right _).skip _).skip _

theorem Derives.covers {p : Program} (h : Derives p ts d k) :
    Covers ts (p.classes.flatMap fun c => c.methods.flatMap Method.places) := by
  cases h with
  | mk classes hclasses => exact covers_spelled fun c hc => (hclasses c hc).covers

end Grammar

namespace Program

/-- The statements of a program, method by method and in reading order. -/
def statements (p : Program) : List Stmt := p.routines.flatMap (·.method.statements)

theorem map_statements {γ : Type} (p : Program) (f : Stmt → γ) :
    p.statements.map f = p.classes.flatMap fun c => c.methods.flatMap fun m => m.statements.map f := by
  rw [statements, List.map_flatMap]
  exact p.flatMap_routines fun m => m.statements.map f

theorem preorder_sublist_statements {p : Program} {s : Stmt} (hs : s ∈ p.statements) :
    s.preorder.Sublist p.statements := by
  obtain ⟨r, hr, hs⟩ := List.mem_flatMap.1 hs
  exact (Stmt.preorder_sublist.2 _ s hs).trans (List.sublist_flatten_of_mem (List.mem_map_of_mem hr))

variable {source : String} {p : Program}

theorem covers_of_parse (h : parse source = .ok p) :
    ∃ s, Lexer.lex source = .ok s ∧ Grammar.Covers s.tokens (p.statements.map Stmt.loc) := by
  obtain ⟨s, hlex, hp⟩ := parse_eq_ok.1 h
  obtain ⟨d, hderives, _⟩ := derives_of_ofTokens hp
  refine ⟨s, hlex, ?_⟩
  rw [map_statements]
  exact hderives.covers

theorem ids_eq_range (h : parse source = .ok p) : p.statements.map Stmt.id = List.range p.statements.length := by
  obtain ⟨n, hn⟩ := ids_of_parse h
  have hids : p.statements.map Stmt.id = List.range n := by
    rw [statements, List.map_flatMap]
    exact hn
  have hlength := congrArg List.length hids
  rw [List.length_map, List.length_range] at hlength
  rw [hids, hlength]

/-- Later statements have greater numbers and stand farther on in the text. -/
theorem pairwise_statements (h : parse source = .ok p) :
    p.statements.Pairwise fun s x => s.id < x.id ∧ s.loc.Before x.loc := by
  obtain ⟨s, hlex, hcovers⟩ := covers_of_parse h
  have hids : (p.statements.map Stmt.id).Pairwise (· < ·) := ids_eq_range h ▸ List.pairwise_lt_range
  have hlocs := List.Pairwise.sublist hcovers (Lexer.lex_eq_ok_iff.1 hlex).1.pairwise_loc
  exact (List.pairwise_map.1 hids).and (List.pairwise_map.1 hlocs)

/-- The statements of a program that was read are numbered from zero on, in the order in which they stand in the text:
method by method, and each before the statements inside it. No number, line or column exceeds the number of
characters. -/
theorem statements_in_order (h : parse source = .ok p) :
    p.statements.map Stmt.id = List.range p.statements.length ∧ (p.statements.map Stmt.id).Nodup ∧
    (∀ s ∈ p.statements, ∀ x ∈ s.preorder.tail, s.id < x.id) ∧
    (∀ s ∈ p.statements, ∀ x ∈ p.statements, s.id < x.id ↔ s.loc.Before x.loc) ∧
    p.statements.length ≤ source.length ∧
    ∀ s ∈ p.statements, s.loc.line ≤ source.length ∧ s.loc.col ≤ source.length := by
  have hpairs := pairwise_statements h
  obtain ⟨tokens, hlex, hcovers⟩ := covers_of_parse h
  have htiles := (Lexer.lex_eq_ok_iff.1 hlex).1
  refine ⟨ids_eq_range h, ids_eq_range h ▸ List.nodup_range, fun s hs x hx => ?_, ?_, ?_, fun s hs => ?_⟩
  · have hinside := hpairs.sublist (preorder_sublist_statements hs)
    rw [s.preorder_eq_cons] at hinside
    exact ((List.pairwise_cons.1 hinside).1 x hx).1
  · have hfirst : p.statements.Pairwise fun s x => s.id < x.id ↔ s.loc.Before x.loc :=
      hpairs.imp fun hsx => iff_of_true hsx.1 hsx.2
    have hlast : p.statements.Pairwise fun s x => x.id < s.id ↔ x.loc.Before s.loc :=
      hpairs.imp fun hsx => iff_of_false (Nat.not_lt.2 (Nat.le_of_lt hsx.1)) hsx.2.asymm
    have hself : ∀ s ∈ p.statements, s.id < s.id ↔ s.loc.Before s.loc :=
      fun s _ => iff_of_false (Nat.lt_irrefl _) (Location.not_before_self _)
    exact List.Pairwise.forall_of_forall_of_flip hself hfirst hlast
  · have hlength := hcovers.length_le
    rw [List.length_map, List.length_map] at hlength
    exact hlength.trans htiles.length_le
  · obtain ⟨t, ht, hloc⟩ := List.mem_map.1 (hcovers.subset (List.mem_map_of_mem hs))
    rw [← hloc]
    exact htiles.loc_le ht

def scatteredText : String :=
  "class A \x7b int f(int x) \x7b while (x < 3) \x7b x = x + 1; if (x < 2) break; \x7d return x; \x7d int n; \x7d\n" ++
    "class B \x7b int g() \x7b int y; y = 1; return y; \x7d \x7d"

theorem statements_in_order_scattered : ∃ p, parse scatteredText = .ok p ∧
    p.statements.map Stmt.id = [0, 1, 2, 3, 4, 5, 6, 7] ∧
    ∀ s ∈ p.statements, ∀ x ∈ p.statements, s.id < x.id ↔ s.loc.Before x.loc := by
  have hrun : (parse scatteredText).toOption.any (fun p => p.statements.length == 8) = true := by decide +kernel
  obtain ⟨p, hp, hlength⟩ := exists_ok_of_any hrun
  obtain ⟨hids, _, _, horder, _⟩ := statements_in_order hp
  rw [eq_of_beq hlength] at hids
  exact ⟨p, hp, hids, horder⟩

end Program

end Backflow
