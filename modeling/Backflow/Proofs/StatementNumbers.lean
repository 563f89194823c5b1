import Backflow.Proofs.ParserCounts
import Backflow.Proofs.Statements
import Mathlib.Data.List.Nodup

namespace Backflow

namespace Parser

variable {α : Type}

def Consecutive (k : Nat) (ids : List Nat) (l : Nat) : Prop :=
  ids = List.range' k ids.length ∧ l = k + ids.length

theorem Consecutive.nil (k : Nat) : Consecutive k [] k := ⟨rfl, rfl⟩

theorem Consecutive.cons {k l : Nat} {ids : List Nat} (h : Consecutive (k + 1) ids l) :
    Consecutive k (k :: ids) l := by
  refine ⟨?_, ?_⟩
  · rw [List.length_cons, List.range'_succ, ← h.1]
  · rw [h.2, List.length_cons]; omega

theorem Consecutive.append {k l m : Nat} {ids more : List Nat} (h : Consecutive k ids l)
    (h' : Consecutive l more m) : Consecutive k (ids ++ more) m := by
  obtain ⟨hids, rfl⟩ := h
  obtain ⟨hmore, rfl⟩ := h'
  refine ⟨?_, ?_⟩
  · rw [List.length_append, ← List.range'_append_1, ← hids, ← hmore]
  · rw [List.length_append]; omega

def Numbers (p : Parser α) (ids : α → List Nat) : Prop :=
  ∀ k, Counts k p fun a l => Consecutive k (ids a) l

theorem numbers_untilBrace {item : Parser α} {ids : α → List Nat} (h : Numbers item ids)
    (bound : List Token) : Numbers (untilBrace item bound) (List.flatMap ids) := by
  induction bound with
  | nil =>
      intro k
      refine Counts.bind ((h k).mono fun x l hx => Counts.pure ?_)
      simpa using hx
  | cons t bound ih =>
      intro k
      refine (silent_eatPunct _).next fun _ => Counts.ite (Counts.pure (Consecutive.nil k)) ?_
      refine Counts.bind ((h k).mono fun x l hx => ?_)
      refine Counts.bind ((ih l).mono fun xs m hxs => Counts.pure ?_)
      rw [List.flatMap_cons]
      exact hx.append hxs

theorem numbers_block {item : Parser α} {ids : α → List Nat} (h : Numbers item ids) :
    Numbers (block item) (List.flatMap ids) :=
  fun k s => numbers_untilBrace h s.tokens k s

end Parser

namespace Stmt

def ids (s : Stmt) : List Nat := s.preorder.map Stmt.id

theorem flatMap_ids (l : List Stmt) : l.flatMap ids = (preorderList l).map Stmt.id := by
  induction l with
  | nil => rfl
  | cons s rest ih => rw [List.flatMap_cons, ih, preorderList, List.map_append, ids]

end Stmt

namespace Parser

theorem counts_tag {β : Type} {k : Nat} {q : Tag → Parser β} {Q : β → Nat → Prop}
    (h : ∀ loc, Counts (k + 1) (q ⟨k, loc⟩) Q) : Counts k (tag >>= q) Q := by
  apply Counts.bind
  intro s t s' hk ht
  cases ht
  subst hk
  exact h s.here

theorem silent_condition {e : Parser Expr} (h : Silent e) : Silent (condition e) :=
  (silent_expectPunct _).bind fun _ => h.bind fun _ => (silent_expectPunct _).bind fun _ => Silent.pure _

theorem silent_printed {e : Parser Expr} (h : Silent e) : Silent (printed e) := by
  have hrest : Silent (do
      let e ← condition e
      expectPunct .semi
      return e) :=
    (silent_condition h).bind fun _ => (silent_expectPunct _).bind fun _ => Silent.pure _
  refine (silent_expectPunct _).bind fun _ => silent_identifier.bind fun name => ?_
  split
  · exact hrest
  · exact (silent_fail _).bind fun _ => hrest

def Sole (t : Tag) (s : Stmt) : Prop := s.ids = [t.id]

theorem sole_assignment (t : Tag) {e : Parser Expr} (h : Silent e) (name : String) (mark : Punct) (k : Nat) :
    Counts k (assignment t e name mark) fun s l => l = k ∧ Sole t s := by
  refine Counts.ite ?_ ?_
  · refine h.next fun _ => (silent_expectPunct _).next fun _ => (silent_expectPunct _).next fun _ => ?_
    exact h.next fun _ => (silent_expectPunct _).next fun _ => Counts.pure ⟨rfl, rfl⟩
  · exact h.next fun _ => (silent_expectPunct _).next fun _ => Counts.pure ⟨rfl, rfl⟩

theorem sole_callStmt (t : Tag) {e : Parser Expr} (h : Silent e) (k : Nat) :
    Counts k (callStmt t e) fun s l => l = k ∧ Sole t s := by
  refine h.next fun x => ?_
  split
  · exact (silent_expectPunct _).next fun _ => Counts.pure ⟨rfl, rfl⟩
  · intro s a s' _ h
    cases h

theorem Consecutive.sole {k l : Nat} {loc : Location} {s : Stmt} (h : l = k + 1 ∧ Sole ⟨k, loc⟩ s) :
    Consecutive k s.ids l := by
  rw [h.1, h.2]
  exact (Consecutive.nil _).cons

theorem numbers_stmtWith {e : Parser Expr} {inner : Parser Stmt} (he : Silent e)
    (hs : Numbers inner Stmt.ids) (k : Nat) (loc : Location) :
    Counts (k + 1) (stmtWith ⟨k, loc⟩ e inner) fun s l => Consecutive k s.ids l := by
  unfold stmtWith
  refine (silent_eatPunct _).next fun _ => Counts.ite ?_ ?_
  · refine Counts.bind ((numbers_block hs _).mono fun body l hbody => Counts.pure ?_)
    rw [Stmt.flatMap_ids] at hbody
    exact hbody.cons
  refine (silent_eatKeyword _).next fun _ => Counts.ite ?_ ?_
  · refine (silent_condition he).next fun c => Counts.bind ((hs _).mono fun yes l hyes => ?_)
    refine (silent_eatKeyword _).next fun _ => Counts.ite ?_ (Counts.pure hyes.cons)
    refine Counts.bind ((hs _).mono fun no m hno => Counts.pure ?_)
    have h := (hyes.append hno).cons
    rwa [Stmt.ids, Stmt.ids, ← List.map_append] at h
  refine (silent_eatKeyword _).next fun _ => Counts.ite ?_ ?_
  · refine (silent_condition he).next fun c => Counts.bind ((hs _).mono fun body l hbody => ?_)
    exact Counts.pure hbody.cons
  refine (silent_eatKeyword _).next fun _ => Counts.ite ?_ ?_
  · have hret (value : Option Expr) : Consecutive k (Stmt.ret ⟨k, loc⟩ value).ids (k + 1) :=
      (Consecutive.nil _).cons
    refine (silent_eatPunct _).next fun _ => Counts.ite (Counts.pure (hret none)) ?_
    exact he.next fun value => (silent_expectPunct _).next fun _ => Counts.pure (hret (some value))
  refine (silent_eatKeyword _).next fun _ => Counts.ite ?_ ?_
  · exact (silent_expectPunct _).next fun _ => Counts.pure (Consecutive.nil _).cons
  refine (silent_eatKeyword _).next fun _ => Counts.ite ?_ ?_
  · exact (silent_expectPunct _).next fun _ => Counts.pure (Consecutive.nil _).cons
  refine (silent_eatAll _).next fun _ => Counts.ite ?_ ?_
  · exact (silent_printed he).next fun _ => Counts.pure (Consecutive.nil _).cons
  refine silent_target?.next fun target => ?_
  split
  · exact (sole_assignment _ he _ _ _).mono fun s l h => Consecutive.sole h
  · exact (sole_callStmt _ he _).mono fun s l h => Consecutive.sole h

theorem numbers_stmt (room : Nat) : Numbers (stmt room) Stmt.ids := by
  induction room with
  | zero => exact fun k => counts_tag fun loc => counts_tooDeep _ _
  | succ room ih => exact fun k => counts_tag fun loc => numbers_stmtWith (silent_expr room) ih k loc

theorem silent_type : Silent type := by
  have hnamed : Silent type.named := by
    intro k s a s' hk h
    unfold type.named at h
    split at h
    · cases h; exact hk
    · cases h
  unfold type
  refine (silent_eatKeyword _).bind fun _ => Silent.ite ?_ ?_
  · refine (silent_eatPunct _).bind fun _ => Silent.ite ?_ (Silent.pure _)
    exact (silent_expectPunct _).bind fun _ => Silent.pure _
  refine (silent_eatKeyword _).bind fun _ => (Silent.pure _).ite ?_
  refine (silent_eatKeyword _).bind fun _ => (Silent.pure _).ite ?_
  refine (silent_eatKeyword _).bind fun _ => Silent.ite ?_ hnamed
  exact (silent_expectPunct _).bind fun _ => (silent_expectPunct _).bind fun _ => Silent.pure _

theorem silent_decl : Silent decl :=
  silent_here.bind fun _ => silent_type.bind fun _ => silent_identifier.bind fun _ => Silent.pure _

theorem silent_modifiers (isStatic : Bool) (bound : List Token) : Silent (modifiers isStatic bound) := by
  induction bound generalizing isStatic with
  | nil => exact Silent.pure _
  | cons t bound ih =>
      refine (silent_eatKeyword _).bind fun _ => (ih true).ite ?_
      exact (silent_eatKeyword _).bind fun _ => (ih isStatic).ite (Silent.pure _)

theorem flatMap_getRight? {α β γ : Type} (f : β → List γ) (l : List (α ⊕ β)) :
    l.flatMap (Sum.elim (fun _ => []) f) = (l.filterMap Sum.getRight?).flatMap f := by
  induction l with
  | nil => rfl
  | cons x l ih =>
      cases x with
      | inl a => exact ih
      | inr b =>
          rw [List.flatMap_cons, ih, List.filterMap_cons]
          rfl

theorem numbers_bodyItem : Numbers bodyItem (Sum.elim (fun _ => []) Stmt.ids) := by
  intro k
  refine silent_seesLocal.next fun _ => Counts.ite ?_ ?_
  · exact silent_decl.next fun _ => (silent_expectPunct _).next fun _ => Counts.pure (Consecutive.nil k)
  · exact Counts.bind ((numbers_stmt maxDepth k).mono fun s l hs => Counts.pure hs)

end Parser

/-- The numbers of the statements of a method, in reading order. -/
def Method.ids (m : Method) : List Nat := m.statements.map Stmt.id

namespace Parser

theorem numbers_classMember : Numbers classMember (Sum.elim (fun _ => []) Method.ids) := by
  intro k
  refine silent_here.next fun loc => (Silent.bounded (silent_modifiers false)).next fun isStatic => ?_
  refine silent_type.next fun ty => silent_identifier.next fun name => ?_
  refine (silent_eatPunct _).next fun _ => Counts.ite (Counts.pure (Consecutive.nil k)) ?_
  refine (silent_expectPunct _).next fun _ => (silent_parenthesized silent_decl).next fun params => ?_
  refine (silent_expectPunct _).next fun _ => ?_
  refine Counts.bind ((numbers_block numbers_bodyItem k).mono fun items l hitems => Counts.pure ?_)
  rwa [flatMap_getRight?, Stmt.flatMap_ids] at hitems

theorem numbers_classDecl : Numbers classDecl fun c => c.methods.flatMap Method.ids := by
  have hparent : Silent classDecl.parent? :=
    (silent_eatKeyword _).bind fun _ =>
      Silent.ite (silent_identifier.bind fun _ => Silent.pure _) (Silent.pure _)
  intro k
  refine silent_here.next fun loc => (silent_expectKeyword _).next fun _ => ?_
  refine silent_identifier.next fun name => hparent.next fun parent => ?_
  refine (silent_expectPunct _).next fun _ => ?_
  refine Counts.bind ((numbers_block numbers_classMember k).mono fun members l h => Counts.pure ?_)
  rwa [flatMap_getRight?] at h

theorem numbers_classes (bound : List Token) :
    Numbers (classes bound) (List.flatMap fun c => c.methods.flatMap Method.ids) := by
  induction bound with
  | nil => exact fun k => Counts.pure (Consecutive.nil k)
  | cons t bound ih =>
      intro k
      refine silent_atEnd.next fun _ => Counts.ite (Counts.pure (Consecutive.nil k)) ?_
      refine Counts.bind ((numbers_classDecl k).mono fun c l hc => ?_)
      refine Counts.bind ((ih l).mono fun cs m hcs => Counts.pure ?_)
      rw [List.flatMap_cons]
      exact hc.append hcs

end Parser

namespace Program

theorem flatMap_routines {γ : Type} (p : Program) (f : Method → List γ) :
    p.routines.flatMap (fun r => f r.method) = p.classes.flatMap fun c => c.methods.flatMap f := by
  simp only [routines, List.flatMap_assoc, List.flatMap_map]

/-- The statements of a program that was read are numbered in reading order, from zero on. -/
theorem ids_of_parse {source : String} {p : Program} (h : parse source = .ok p) :
    ∃ n, p.routines.flatMap (·.method.ids) = List.range n := by
  unfold parse at h
  cases hl : Lexer.lex source with
  | error e => rw [hl] at h; cases h
  | ok tokens =>
      rw [hl] at h
      change ofTokens tokens = .ok p at h
      unfold ofTokens at h
      split at h
      · rename_i q s' hq
        cases h
        obtain ⟨cs, _, hcs, hp⟩ := bind_ok.1 hq
        cases hp
        have hids := (Parser.numbers_classes tokens.tokens 0 _ cs s' rfl hcs).1
        rw [← List.range_eq_range', ← flatMap_routines ⟨cs⟩ Method.ids] at hids
        exact ⟨_, hids⟩
      · cases h

theorem ids_nodup_of_parse {source : String} {p : Program} (h : parse source = .ok p) {r : Routine}
    (hr : r ∈ p.routines) : r.method.ids.Nodup := by
  obtain ⟨n, hn⟩ := ids_of_parse h
  have hall : (p.routines.flatMap (·.method.ids)).Nodup := hn ▸ List.nodup_range
  exact (List.nodup_flatMap.1 hall).1 r hr

end Backflow.Program
