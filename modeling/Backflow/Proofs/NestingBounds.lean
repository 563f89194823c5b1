import Backflow.Proofs.RoundTrip
import Mathlib.Data.List.MinMax
import Mathlib.Order.Nat

namespace Backflow

open Grammar

namespace Expr

mutual

/-- The number of nodes on a longest path from the root to a leaf. -/
def height : Expr → Nat
  | unary _ e | length e | newArray e => e.height + 1
  | binary _ e₁ e₂ | index e₁ e₂ => max e₁.height e₂.height + 1
  | call receiver _ args => max receiver.height (heightList args) + 1
  | _ => 1

def heightList : List Expr → Nat
  | [] => 0
  | e :: es => max e.height (heightList es)

end

/-- The suffixes that the expression ends with. -/
def suffixRun : Expr → Nat
  | index a _ | length a => a.suffixRun + 1
  | call receiver _ _ => receiver.suffixRun + 1
  | _ => 0

/-- The operators of the list that follow each other at the expression's root and on to the left. -/
def operatorRun (ops : List BinOp) : Expr → Nat
  | binary op e₁ _ => if op ∈ ops then e₁.operatorRun ops + 1 else 0
  | _ => 0

/-- The suffixes, or the operators of one level, that follow each other at the expression's root. -/
def run (e : Expr) : Nat := max e.suffixRun ((precedence.map e.operatorRun).foldr max 0)

mutual

/-- The length of the longest chain of suffixes, or of operators of one level, anywhere in the expression. -/
def chain : Expr → Nat
  | unary op e => max (unary op e).run e.chain
  | length e => max (length e).run e.chain
  | newArray e => max (newArray e).run e.chain
  | binary op e₁ e₂ => max (binary op e₁ e₂).run (max e₁.chain e₂.chain)
  | index e₁ e₂ => max (index e₁ e₂).run (max e₁.chain e₂.chain)
  | call receiver method args => max (call receiver method args).run (max receiver.chain (chainList args))
  | _ => 0

def chainList : List Expr → Nat
  | [] => 0
  | e :: es => max e.chain (chainList es)

end

theorem heightList_le {es : List Expr} {n : Nat} : heightList es ≤ n ↔ ∀ e ∈ es, e.height ≤ n := by
  induction es with
  | nil => simp [heightList]
  | cons e es ih => rw [heightList, Nat.max_le, ih, List.forall_mem_cons]

theorem chainList_le {es : List Expr} {n : Nat} : chainList es ≤ n ↔ ∀ e ∈ es, e.chain ≤ n := by
  induction es with
  | nil => simp [chainList]
  | cons e es ih => rw [chainList, Nat.max_le, ih, List.forall_mem_cons]

theorem run_le_chain (e : Expr) : e.run ≤ e.chain := by
  cases e with
  | int | bool | var | self | newObject => exact Nat.le_refl 0
  | unary | length | newArray | binary | index | call => exact Nat.le_max_left _ _

theorem suffixRun_le_chain (e : Expr) : e.suffixRun ≤ e.chain := (Nat.le_max_left _ _).trans e.run_le_chain

theorem operatorRun_le_chain {ops : List BinOp} (h : ops ∈ precedence) (e : Expr) : e.operatorRun ops ≤ e.chain :=
  (le_max_of_le_right (List.le_max_of_le (List.mem_map_of_mem h) (Nat.le_refl _))).trans e.run_le_chain

end Expr

namespace Grammar

/-- What the height of an expression is at most if it stands at a rank, with `d` levels of nesting in it and with chains
no longer than `c`. On each level a chain goes down `c` nodes for each of the six ranks of operators and for the
suffixes, and one node is left for the primary expression or the sign. -/
def heightBound (c : Nat) (e : Expr) (d : Nat) : Rank → Nat
  | .primary => (7 * c + 1) * d + 1
  | .suffixed => (7 * c + 1) * d + 1 + e.suffixRun
  | .operand | .levels [] => (7 * c + 1) * d + 1 + c
  | .levels (ops :: ls) => (7 * c + 1) * d + 1 + c + ls.length * c + e.operatorRun ops
  | .whole => (7 * c + 1) * d

def Rank.Usual : Rank → Prop
  | .levels ls => ls <:+ precedence
  | _ => True

variable {c d : Nat} {e : Expr} {ws : List Lexeme}

theorem heightBound_levels_le {ls : List (List BinOp)} (hls : ls <:+ precedence) (hc : e.chain ≤ c) :
    heightBound c e d (.levels ls) ≤ (7 * c + 1) * d + 1 + c + ls.length * c := by
  cases ls with
  | nil => simp [heightBound]
  | cons ops ls =>
      have hrun := (Expr.operatorRun_le_chain (hls.subset List.mem_cons_self) e).trans hc
      rw [heightBound, List.length_cons, Nat.succ_mul ls.length]
      omega

theorem le_deepest {args : List Argument} {a : Argument} (ha : a ∈ args) : a.depth ≤ deepest args := by
  induction args with
  | nil => cases ha
  | cons b args ih =>
      rcases List.mem_cons.1 ha with rfl | ha
      · exact Nat.le_max_left _ _
      · exact le_max_of_le_right (ih ha)

theorem height_le_bound {r : Rank} (h : Renders r e ws d) (hr : r.Usual) (hc : e.chain ≤ c) :
    e.height ≤ heightBound c e d r := by
  induction h with
  | int | var | yes | no | self | newObject => exact Nat.le_refl 1
  | newArray _ ih => exact Nat.succ_le_succ (ih trivial (Nat.max_le.1 hc).2)
  | group _ ih => exact Nat.le_succ_of_le (ih trivial hc)
  | primary _ ih => exact Nat.le_add_right_of_le (ih trivial hc)
  | @index e i ws us d c' _ _ ih ihi =>
      obtain ⟨hbase, hplace⟩ := Nat.max_le.1 (Nat.max_le.1 hc).2
      have h₁ := ih trivial hbase
      have h₂ := ihi trivial hplace
      simp only [heightBound, Expr.height, Expr.suffixRun, ← Nat.mul_max_mul_left] at h₁ h₂ ⊢
      omega
  | length _ ih =>
      have h := ih trivial (Nat.max_le.1 hc).2
      simp only [heightBound, Expr.height, Expr.suffixRun] at h ⊢
      omega
  | @call e ws d name args _ _ ih ihargs =>
      obtain ⟨hbase, hvalues⟩ := Nat.max_le.1 (Nat.max_le.1 hc).2
      rw [Expr.chainList_le, List.forall_mem_map] at hvalues
      have h₁ := ih trivial hbase
      have h₂ : Expr.heightList (args.map (·.value)) ≤ (7 * c + 1) * deepest args :=
        Expr.heightList_le.2 (List.forall_mem_map.2 fun a ha =>
          (ihargs a ha trivial (hvalues a ha)).trans (Nat.mul_le_mul_left _ (le_deepest ha)))
      simp only [heightBound, Expr.height, Expr.suffixRun, ← Nat.mul_max_mul_left] at h₁ ⊢
      omega
  | suffixed _ ih =>
      have h := ih trivial hc
      have hrun := (Expr.suffixRun_le_chain _).trans hc
      simp only [heightBound] at h ⊢
      omega
  | sign op _ ih =>
      have h := ih trivial (Nat.max_le.1 hc).2
      simp only [heightBound, Expr.height, Nat.mul_succ] at h ⊢
      omega
  | operand _ ih => exact ih trivial hc
  | tighter ops _ ih =>
      have htail : _ <:+ precedence := (List.suffix_cons ops _).trans hr
      exact (ih htail hc).trans ((heightBound_levels_le htail hc).trans (Nat.le_add_right _ _))
  | @binary e₁ e₂ ws us d c' ops ls op hop _ _ ih₁ ih₂ =>
      obtain ⟨hleft, hright⟩ := Nat.max_le.1 (Nat.max_le.1 hc).2
      have htail : ls <:+ precedence := (List.suffix_cons ops _).trans hr
      have h₁ := ih₁ hr hleft
      have h₂ := (ih₂ htail hright).trans (heightBound_levels_le htail hright)
      simp only [heightBound, Expr.height, Expr.operatorRun, if_pos hop, ← Nat.mul_max_mul_left] at h₁ ⊢
      omega
  | whole _ ih =>
      have h := (ih (List.suffix_refl _) hc).trans (heightBound_levels_le (List.suffix_refl _) hc)
      rw [show precedence.length = 6 from rfl] at h
      simp only [heightBound, Nat.mul_succ]
      omega

/-- The height of an expression is bounded by its levels of nesting and its longest chain. -/
theorem height_le {e : Expr} {ws : List Lexeme} {d : Nat} (h : Renders .whole e ws d) :
    e.height ≤ (7 * e.chain + 1) * d :=
  height_le_bound h trivial (Nat.le_refl _)

end Grammar

namespace Stmt

mutual

def height : Stmt → Nat
  | block _ body => heightList body + 1
  | ifThen _ _ s | loop _ _ s => s.height + 1
  | ifElse _ _ yes no => max yes.height no.height + 1
  | _ => 1

def heightList : List Stmt → Nat
  | [] => 0
  | s :: rest => max s.height (heightList rest)

end

theorem heightList_le {l : List Stmt} {n : Nat} : heightList l ≤ n ↔ ∀ s ∈ l, s.height ≤ n := by
  induction l with
  | nil => simp [heightList]
  | cons s l ih => rw [heightList, Nat.max_le, ih, List.forall_mem_cons]

def allExprs (s : Stmt) : List Expr := s.preorder.flatMap exprs

theorem allExprs_block (t : Tag) (body : List Stmt) : (block t body).allExprs = body.flatMap allExprs := by
  rw [allExprs, preorder, preorderList_eq_flatMap, List.flatMap_cons, List.flatMap_assoc]
  rfl

theorem allExprs_ifElse (t : Tag) (c : Expr) (yes no : Stmt) :
    (ifElse t c yes no).allExprs = c :: (yes.allExprs ++ no.allExprs) := by
  rw [allExprs, preorder, List.flatMap_cons, List.flatMap_append]
  rfl

end Stmt

namespace Grammar

variable {s : Stmt} {ts : List Token} {d k n : Nat}

theorem Statement.height_le (h : Statement s ts d k) : s.height ≤ d := by
  induction h with
  | block body _ ih =>
      refine Nat.succ_le_succ (Stmt.heightList_le.2 (List.forall_mem_map.2 fun p hp => ?_))
      exact (ih p hp).trans (Piece.deepest_le.1 (Nat.le_refl _) p hp)
  | ifThen _ _ ih | loop _ _ ih => exact Nat.succ_le_succ (le_max_of_le_right ih)
  | ifElse _ _ _ ihyes ihno => exact Nat.succ_le_succ (le_max_of_le_right (max_le_max ihyes ihno))
  | assign | store | print | call | ret | value | brk | cont => exact Nat.succ_le_succ (Nat.zero_le _)

def Within (n : Nat) (e : Expr) : Prop := ∃ ws d, d ≤ n ∧ Renders .whole e ws d

theorem Ended.within (h : Ended e ts d) (hd : d ≤ n) : Within n e := by
  cases h with
  | mk h => exact ⟨_, d, hd, h⟩

theorem Condition.within (h : Condition e ts d) (hd : d ≤ n) : Within n e := by
  cases h with
  | mk h => exact ⟨_, d, hd, h⟩

theorem Statement.within (h : Statement s ts d k) (hd : d ≤ n) : ∀ e ∈ s.allExprs, Within n e := by
  induction h with
  | ret | brk | cont => exact List.forall_mem_nil _
  | block body _ ih =>
      rw [Stmt.allExprs_block, List.forall_mem_flatMap, List.forall_mem_map]
      exact fun p hp => ih p hp (Piece.deepest_le.1 (Nat.le_of_succ_le hd) p hp)
  | assign h | print h | value h => exact List.forall_mem_singleton.2 (h.within (Nat.le_of_succ_le hd))
  | call h => exact List.forall_mem_singleton.2 ⟨_, _, Nat.le_of_succ_le hd, h⟩
  | store hi h =>
      obtain ⟨hc, hd⟩ := Nat.max_le.1 (Nat.le_of_succ_le hd)
      exact List.forall_mem_cons.2 ⟨⟨_, _, hc, hi⟩, List.forall_mem_singleton.2 (h.within hd)⟩
  | ifThen hcond _ ih | loop hcond _ ih =>
      obtain ⟨hc, hd⟩ := Nat.max_le.1 (Nat.le_of_succ_le hd)
      exact List.forall_mem_cons.2 ⟨hcond.within hc, ih hd⟩
  | ifElse hcond _ _ ihyes ihno =>
      obtain ⟨hc, hd⟩ := Nat.max_le.1 (Nat.le_of_succ_le hd)
      obtain ⟨hyes, hno⟩ := Nat.max_le.1 hd
      rw [Stmt.allExprs_ifElse, List.forall_mem_cons, List.forall_mem_append]
      exact ⟨hcond.within hc, ihyes hyes, ihno hno⟩

/-- At most `n` statements are nested in each other, and the expressions are spelled with at most `n` levels. -/
def Shallow (n : Nat) (s : Stmt) : Prop := s.height ≤ n ∧ ∀ e ∈ s.allExprs, Within n e

theorem Item.shallow {x : VarDecl ⊕ Stmt} (h : Item x ts d k) (hd : d ≤ n) :
    Sum.elim (fun _ => True) (Shallow n) x := by
  cases h with
  | declares => trivial
  | states h => exact ⟨h.height_le.trans hd, h.within hd⟩

theorem Member.shallow {x : VarDecl ⊕ Method} (h : Member x ts d k) (hd : d ≤ n) :
    Sum.elim (fun _ => True) (fun m => ∀ s ∈ m.body, Shallow n s) x := by
  cases h with
  | field => trivial
  | @method m _ _ _ _ _ _ _ _ items _ _ _ _ _ hitems _ hbody =>
      change ∀ s ∈ m.body, Shallow n s
      rw [hbody]
      exact Piece.forall_getRight?.2 fun p hp => (hitems p hp).shallow (Piece.deepest_le.1 hd p hp)

theorem ClassText.shallow {c : Class} (h : ClassText c ts d k) (hd : d ≤ n) :
    ∀ m ∈ c.methods, ∀ s ∈ m.body, Shallow n s := by
  cases h with
  | mk members _ hmembers _ hmethods =>
      rw [hmethods]
      exact Piece.forall_getRight?.2 fun p hp => (hmembers p hp).shallow (Piece.deepest_le.1 hd p hp)

theorem Derives.shallow {p : Program} (h : Derives p ts d k) (hd : d ≤ n) :
    ∀ c ∈ p.classes, ∀ m ∈ c.methods, ∀ s ∈ m.body, Shallow n s := by
  cases h with
  | mk classes hclasses =>
      exact List.forall_mem_map.2 fun c hc => (hclasses c hc).shallow (Piece.deepest_le.1 hd c hc)

end Grammar

namespace Program

/-- In a program that was read, at most `maxDepth` statements are nested in each other. The height of an expression is
bounded by the limit and its longest chain of suffixes or of operators of one level. -/
theorem parse_bounds_height {source : String} {p : Program} (h : parse source = .ok p) :
    ∀ c ∈ p.classes, ∀ m ∈ c.methods, ∀ s ∈ m.body,
      s.height ≤ maxDepth ∧ ∀ e ∈ s.allExprs, e.height ≤ (7 * e.chain + 1) * maxDepth := by
  obtain ⟨ts, _, hp⟩ := parse_eq_ok.1 h
  obtain ⟨d, hderives, hd⟩ := derives_of_ofTokens hp
  intro c hc m hm s hs
  obtain ⟨hheight, hexprs⟩ := hderives.shallow hd c hc m hm s hs
  refine ⟨hheight, fun e he => ?_⟩
  obtain ⟨ws, d', hd', hrenders⟩ := hexprs e he
  exact (Grammar.height_le hrenders).trans (Nat.mul_le_mul_left _ hd')

/-- A text with statements in each other and with operators of several levels. -/
theorem parse_bounds_height_dangling : ∃ p, parse danglingText = .ok p ∧
    (∃ c ∈ p.classes, ∃ m ∈ c.methods, ∃ s ∈ m.body, s.height = 3 ∧ ∃ e ∈ s.allExprs, e.height = 5 ∧ e.chain = 1) ∧
    ∀ c ∈ p.classes, ∀ m ∈ c.methods, ∀ s ∈ m.body,
      s.height ≤ maxDepth ∧ ∀ e ∈ s.allExprs, e.height ≤ (7 * e.chain + 1) * maxDepth := by
  have hrun : (parse danglingText).toOption.any (fun p => decide (∃ c ∈ p.classes, ∃ m ∈ c.methods, ∃ s ∈ m.body,
      s.height = 3 ∧ ∃ e ∈ s.allExprs, e.height = 5 ∧ e.chain = 1)) = true := by
    decide +kernel
  obtain ⟨p, hp, hdeep⟩ := exists_ok_of_any hrun
  exact ⟨p, hp, of_decide_eq_true hdeep, parse_bounds_height hp⟩

end Program

namespace Expr

def calls : Nat → Expr
  | 0 => var "a"
  | n + 1 => call (calls n) "next" []

theorem height_calls (n : Nat) : (calls n).height = n + 1 := by
  induction n with
  | zero => rfl
  | succ n ih => rw [calls, height, ih, heightList, Nat.max_zero]

theorem nesting_calls (n : Nat) : (calls n).nesting = 0 := by
  induction n with
  | zero => rfl
  | succ n ih => cases n <;> simp_all [calls, nesting, nestingList, isBinary]

theorem regular_calls (n : Nat) : (calls n).regular = true := by
  induction n with
  | zero => rfl
  | succ n ih => cases n <;> simp_all [calls, regular, regularList, isUnary]

theorem readable_calls (n : Nat) : (calls n).Readable := by
  induction n with
  | zero => exact readable_name.2 (by decide +kernel)
  | succ n ih => exact readable_call.2 ⟨ih, by decide +kernel, List.forall_mem_nil _⟩

end Expr

theorem Stmt.allExprs_retag (f : Tag → Tag) (s : Stmt) : (s.retag f).allExprs = s.allExprs := by
  rw [allExprs, (preorder_retag f).1, List.flatMap_map]
  exact congrArg (List.flatMap · _) (funext exprs_retag)

namespace Program

open Grammar

variable {p q : Program}

def Low (n : Nat) (p : Program) : Prop :=
  ∀ c ∈ p.classes, ∀ m ∈ c.methods, ∀ s ∈ m.body, ∀ e ∈ s.allExprs, e.height ≤ n

theorem low_retag {n : Nat} {f : Tag → Tag} : (p.retag f).Low n ↔ p.Low n := by
  simp only [Low, Program.retag, Class.retag, Method.retag, List.forall_mem_map, Stmt.allExprs_retag]

def fluent (n : Nat) : Program :=
  ⟨[{ name := "A", parent := none, fields := [], loc := .start
      methods := [{
        name := "f", isStatic := false, returns := .void, params := [], locals := [], loc := .start
        body := [.assign ⟨0, .start⟩ "x" (.calls n)] }] }]⟩

theorem forall_fluent {P : Stmt → Prop} {n : Nat} :
    (∀ c ∈ (fluent n).classes, ∀ m ∈ c.methods, ∀ s ∈ m.body, P s) ↔ P (.assign ⟨0, .start⟩ "x" (.calls n)) := by
  simp only [fluent, List.forall_mem_singleton]

theorem readable_fluent (n : Nat) : ∀ w ∈ (fluent n).lexemes, Lexer.Readable w := by
  have hclass : Lexer.Valid (.ident "A") := by decide +kernel
  have hmethod : Lexer.Valid (.ident "f") := by decide +kernel
  have htarget : Lexer.Valid (.ident "x") := by decide +kernel
  simpa [fluent, lexemes, Class.lexemes, Class.headWords, parentWords, Method.lexemes, Method.headWords,
    Method.modifiers, Ty.lexemes, commas, Stmt.lexemesList, Stmt.lexemes, Stmt.headWords, or_imp, forall_and, hclass,
    hmethod, htarget, Expr.Readable] using Expr.readable_calls n

/-- The text of the program is read, however many calls stand in a row. -/
theorem parse_fluent (n : Nat) :
    ∃ p, parse ((fluent n).print fun _ => none) = .ok p ∧ p.retag Tag.bare = (fluent n).retag Tag.bare := by
  have hregular : ∀ c ∈ (fluent n).classes, ∀ m ∈ c.methods, ∀ s ∈ m.body, s.Regular :=
    forall_fluent.2 ((Stmt.regular_leaf rfl).2 (List.forall_mem_singleton.2 (Expr.regular_calls n)))
  have htype : ∀ c ∈ (fluent n).classes, ∀ m ∈ c.methods, ∀ v ∈ m.locals, v.type ≠ .void := by
    simp [fluent]
  have hsits : ∀ c ∈ (fluent n).classes, ∀ m ∈ c.methods, ∀ s ∈ m.body, Sits s :=
    forall_fluent.2 ⟨rfl, by simp [Stmt.nesting, Stmt.exprs, Expr.nestingList, Expr.nesting_calls, maxDepth]⟩
  have hnear : (fluent n).NearestElse := forall_fluent.2 (Stmt.NearestElse.of_leaf rfl (by simp))
  obtain ⟨s, hlex, hwords⟩ := lex_print (readable_fluent n)
  obtain ⟨ts, d, k, hts, hderives, hlimits⟩ := derives_lexemes htype hregular
  have hfits := fits_of_readable (readable_fluent n)
  rw [← hts] at hwords hfits
  obtain ⟨q, hq, hbare⟩ := (ofTokens_of_derives hderives hnear hwords hfits).1 (hlimits.2 hsits)
  exact ⟨q, parse_eq_ok.2 ⟨s, hlex, hq⟩, hbare⟩

theorem parse_unbounded (n : Nat) : ∃ p, parse ((fluent n).print fun _ => none) = .ok p ∧ ¬ p.Low n := by
  obtain ⟨p, hp, hbare⟩ := parse_fluent n
  refine ⟨p, hp, ?_⟩
  rw [← low_retag, hbare, low_retag]
  intro hlow
  have hheight := forall_fluent.1 hlow (.calls n) (List.mem_singleton.2 rfl)
  rw [Expr.height_calls] at hheight
  exact absurd hheight (Nat.not_succ_le_self n)

/-- The limit on nesting is not one on the height of expressions: calls in a row open no level. -/
theorem fluent_too_high : ∃ p, parse ((fluent (8 * maxDepth)).print fun _ => none) = .ok p ∧
    ∃ c ∈ p.classes, ∃ m ∈ c.methods, ∃ s ∈ m.body, ∃ e ∈ s.allExprs, 8 * maxDepth < e.height := by
  obtain ⟨p, hp, hnot⟩ := parse_unbounded (8 * maxDepth)
  refine ⟨p, hp, ?_⟩
  simpa only [Low, not_forall, exists_prop, Nat.not_le] using hnot

end Program

end Backflow
