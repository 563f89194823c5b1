import Backflow.Proofs.ProgramGrammar

namespace Backflow.Grammar

theorem Statement.attach {x no : Stmt} {ts us : List Token} {d c k m : Nat} (h : Statement x ts d k)
    (hopen : x.isOpen = true) (hnear : x.NearestElse) (hno : Statement no us c m) (hnonear : no.NearestElse)
    (l : Location) :
    ∃ x' d', Statement x' (ts ++ ⟨.keyword .kwElse, l⟩ :: us) d' (k + m) ∧ x'.NearestElse := by
  induction h with
  | @ifThen t cond yes cs ts e d k hcond hyes ih =>
      have hyesnear := Stmt.nearestElse_ifThen.1 hnear
      rw [List.cons_append, List.append_assoc]
      cases hyesopen : yes.isOpen with
      | true =>
          obtain ⟨x', d', hx', hnear'⟩ := ih hyesopen hyesnear
          exact ⟨_, _, .ifThen hcond hx', Stmt.nearestElse_ifThen.2 hnear'⟩
      | false =>
          exact ⟨_, _, .ifElse hcond hyes hno, Stmt.nearestElse_ifElse.2 ⟨hyesopen, hyesnear, hnonear⟩⟩
  | @ifElse t cond yes no cs ts vs e d₁ d₂ k₁ k₂ l' hcond hyes hlast _ ih =>
      obtain ⟨hclosed, hyesnear, hlastnear⟩ := Stmt.nearestElse_ifElse.1 hnear
      obtain ⟨x', d', hx', hnear'⟩ := ih hopen hlastnear
      rw [List.cons_append, List.append_assoc, List.append_assoc, List.cons_append, Nat.add_assoc]
      exact ⟨_, _, .ifElse hcond hyes hx', Stmt.nearestElse_ifElse.2 ⟨hclosed, hyesnear, hnear'⟩⟩
  | loop hcond _ ih =>
      obtain ⟨x', d', hx', hnear'⟩ := ih hopen (Stmt.nearestElse_loop.1 hnear)
      rw [List.cons_append, List.append_assoc]
      exact ⟨_, _, .loop hcond hx', Stmt.nearestElse_loop.2 hnear'⟩
  | block | assign | store | print | call | ret | value | brk | cont => cases hopen

theorem exists_pieces {α : Type} {G : α → List Token → Nat → Nat → Prop} {N : α → Prop} {ps : List (Piece α)}
    (h : ∀ p ∈ ps, ∃ a d, G a p.tokens d p.disguises ∧ N a) :
    ∃ qs : List (Piece α), Piece.spelled qs = Piece.spelled ps ∧ Piece.total qs = Piece.total ps ∧
      ∀ q ∈ qs, G q.value q.tokens q.depth q.disguises ∧ N q.value := by
  induction ps with
  | nil => exact ⟨[], rfl, rfl, List.forall_mem_nil _⟩
  | cons p ps ih =>
      obtain ⟨⟨a, d, ha, hN⟩, hps⟩ := List.forall_mem_cons.1 h
      obtain ⟨qs, hspelled, htotal, hall⟩ := ih hps
      refine ⟨⟨a, p.tokens, d, p.disguises⟩ :: qs, ?_, ?_, List.forall_mem_cons.2 ⟨⟨ha, hN⟩, hall⟩⟩
      · exact congrArg (p.tokens ++ ·) hspelled
      · exact congrArg (p.disguises + ·) htotal

/-- Tokens that spell a statement also spell one where each `else` belongs to the nearest `if`. -/
theorem Statement.exists_nearest {x : Stmt} {ts : List Token} {d k : Nat} (h : Statement x ts d k) :
    ∃ x' d', Statement x' ts d' k ∧ x'.NearestElse := by
  induction h with
  | @block t l body _ ih =>
      obtain ⟨body', hspelled, htotal, hall⟩ := exists_pieces ih
      rw [← hspelled, ← htotal]
      refine ⟨.block t (body'.map (·.value)), _, .block body' fun q hq => (hall q hq).1, ?_⟩
      rw [Stmt.nearestElse_block, List.forall_mem_map]
      exact fun q hq => (hall q hq).2
  | ifThen hcond _ ih =>
      obtain ⟨yes, d', hyes, hnear⟩ := ih
      exact ⟨_, _, .ifThen hcond hyes, Stmt.nearestElse_ifThen.2 hnear⟩
  | @ifElse t cond _ _ _ _ _ _ _ _ _ _ l hcond _ _ ihyes ihno =>
      obtain ⟨yes, d₁, hyes, hyesnear⟩ := ihyes
      obtain ⟨no, d₂, hno, hnonear⟩ := ihno
      cases hopen : yes.isOpen with
      | true =>
          obtain ⟨x', d', hx', hnear⟩ := hyes.attach hopen hyesnear hno hnonear l
          exact ⟨_, _, .ifThen hcond hx', Stmt.nearestElse_ifThen.2 hnear⟩
      | false => exact ⟨_, _, .ifElse hcond hyes hno, Stmt.nearestElse_ifElse.2 ⟨hopen, hyesnear, hnonear⟩⟩
  | loop hcond _ ih =>
      obtain ⟨body, d', hbody, hnear⟩ := ih
      exact ⟨_, _, .loop hcond hbody, Stmt.nearestElse_loop.2 hnear⟩
  | @assign t _ _ _ _ _ h => exact ⟨_, _, .assign (t := t) h, .of_leaf rfl nofun⟩
  | @store t _ _ _ _ _ _ _ _ _ _ hi h => exact ⟨_, _, .store (t := t) hi h, .of_leaf rfl nofun⟩
  | @print t _ _ _ _ _ _ _ _ h => exact ⟨_, _, .print (t := t) h, .of_leaf rfl nofun⟩
  | @call t _ _ _ _ _ _ h hstarts => exact ⟨_, _, .call (t := t) h hstarts, .of_leaf rfl nofun⟩
  | @ret t => exact ⟨_, _, .ret (t := t), .of_leaf rfl nofun⟩
  | @value t _ _ _ h => exact ⟨_, _, .value (t := t) h, .of_leaf rfl nofun⟩
  | @brk t => exact ⟨_, _, .brk (t := t), .of_leaf rfl nofun⟩
  | @cont t => exact ⟨_, _, .cont (t := t), .of_leaf rfl nofun⟩

theorem Item.exists_nearest {x : VarDecl ⊕ Stmt} {ts : List Token} {d k : Nat} (h : Item x ts d k) :
    ∃ x' d', Item x' ts d' k ∧ Sum.elim (fun _ => True) Stmt.NearestElse x' := by
  cases h with
  | declares hv hty => exact ⟨_, _, .declares hv hty, trivial⟩
  | states h =>
      obtain ⟨x', d', hx', hnear⟩ := h.exists_nearest
      exact ⟨_, _, .states hx', hnear⟩

theorem Member.exists_nearest {x : VarDecl ⊕ Method} {ts : List Token} {d k : Nat} (h : Member x ts d k) :
    ∃ x' d', Member x' ts d' k ∧ Sum.elim (fun _ => True) (fun m => ∀ s ∈ m.body, s.NearestElse) x' := by
  cases h with
  | field hms hts hstarts => exact ⟨_, _, .field hms hts hstarts, trivial⟩
  | @method m _ _ _ _ _ _ _ _ items hms hstatic hts hstarts hps hitems =>
      obtain ⟨items', hspelled, htotal, hall⟩ := exists_pieces fun p hp => (hitems p hp).exists_nearest
      rw [← hspelled, ← htotal]
      refine ⟨.inr { m with
          locals := (items'.map (·.value)).filterMap Sum.getLeft?
          body := (items'.map (·.value)).filterMap Sum.getRight? }, _,
        .method items' hms hstatic hts hstarts hps (fun q hq => (hall q hq).1) rfl rfl, ?_⟩
      exact Piece.forall_getRight?.2 fun q hq => (hall q hq).2

theorem ClassText.exists_nearest {c : Class} {ts : List Token} {d k : Nat} (h : ClassText c ts d k) :
    ∃ c' d', ClassText c' ts d' k ∧ ∀ m ∈ c'.methods, ∀ s ∈ m.body, s.NearestElse := by
  cases h with
  | mk members hps hmembers =>
      obtain ⟨members', hspelled, htotal, hall⟩ := exists_pieces fun p hp => (hmembers p hp).exists_nearest
      rw [← hspelled, ← htotal]
      refine ⟨{ c with
          fields := (members'.map (·.value)).filterMap Sum.getLeft?
          methods := (members'.map (·.value)).filterMap Sum.getRight? }, _,
        .mk members' hps (fun q hq => (hall q hq).1) rfl rfl, ?_⟩
      exact Piece.forall_getRight?.2 fun q hq => (hall q hq).2

/-- Tokens that spell a program also spell one where each `else` belongs to the nearest `if`. -/
theorem Derives.exists_nearest {p : Program} {ts : List Token} {d k : Nat} (h : Derives p ts d k) :
    ∃ p' d', Derives p' ts d' k ∧ p'.NearestElse := by
  cases h with
  | mk classes hclasses =>
      obtain ⟨classes', hspelled, htotal, hall⟩ := exists_pieces fun c hc => (hclasses c hc).exists_nearest
      rw [← hspelled, ← htotal]
      exact ⟨_, _, .mk classes' fun c hc => (hall c hc).1, List.forall_mem_map.2 fun c hc => (hall c hc).2⟩

end Backflow.Grammar
