import Backflow.Proofs.ExprGrammar
import Backflow.Proofs.Reading

namespace Backflow

namespace Stmt

/-- The statement ends with an `if` that has no `else`, so that an `else` after it would be taken by that `if`. -/
def isOpen : Stmt → Bool
  | ifThen _ _ _ => true
  | ifElse _ _ _ no => no.isOpen
  | loop _ _ body => body.isOpen
  | _ => false

/-- Each `else` belongs to the nearest `if` that can take it. -/
def NearestElse (s : Stmt) : Prop := ∀ t c yes no, .ifElse t c yes no ∈ s.preorder → yes.isOpen = false

theorem NearestElse.of_leaf {s : Stmt} (h : s.preorder = [s]) (hs : ∀ t c yes no, s ≠ .ifElse t c yes no) :
    s.NearestElse := by
  intro t c yes no hmem
  rw [h, List.mem_singleton] at hmem
  exact absurd hmem.symm (hs t c yes no)

theorem preorderList_eq_flatMap (l : List Stmt) : preorderList l = l.flatMap preorder := by
  induction l with
  | nil => rfl
  | cons s rest ih => rw [preorderList, ih, List.flatMap_cons]

theorem nearestElse_block {t : Tag} {body : List Stmt} :
    (block t body).NearestElse ↔ ∀ s ∈ body, s.NearestElse := by
  simp only [NearestElse, preorder, List.mem_cons, reduceCtorEq, false_or, preorderList_eq_flatMap,
    List.mem_flatMap]
  constructor
  · intro h s hs t c yes no hin
    exact h t c yes no ⟨s, hs, hin⟩
  · rintro h t c yes no ⟨s, hs, hin⟩
    exact h s hs t c yes no hin

theorem nearestElse_ifThen {t : Tag} {c : Expr} {yes : Stmt} :
    (ifThen t c yes).NearestElse ↔ yes.NearestElse := by
  simp [NearestElse, preorder]

theorem nearestElse_ifElse {t : Tag} {c : Expr} {yes no : Stmt} :
    (ifElse t c yes no).NearestElse ↔ yes.isOpen = false ∧ yes.NearestElse ∧ no.NearestElse := by
  simp only [NearestElse, preorder, List.mem_cons, List.mem_append, ifElse.injEq]
  constructor
  · intro h
    exact ⟨h t c yes no (Or.inl ⟨rfl, rfl, rfl, rfl⟩), fun t c y n hin => h t c y n (Or.inr (Or.inl hin)),
      fun t c y n hin => h t c y n (Or.inr (Or.inr hin))⟩
  · rintro ⟨hopen, hyes, hno⟩ t c y n (⟨_, _, rfl, _⟩ | hin | hin)
    · exact hopen
    · exact hyes t c y n hin
    · exact hno t c y n hin

theorem nearestElse_loop {t : Tag} {c : Expr} {body : Stmt} :
    (loop t c body).NearestElse ↔ body.NearestElse := by
  simp [NearestElse, preorder]

end Stmt

def Program.NearestElse (p : Program) : Prop :=
  ∀ c ∈ p.classes, ∀ m ∈ c.methods, ∀ s ∈ m.body, s.NearestElse

def Ty.lexemes : Ty → List Lexeme
  | int => [.keyword .kwInt]
  | intArray => [.keyword .kwInt, .punct .lbracket, .punct .rbracket]
  | boolean => [.keyword .kwBoolean]
  | void => [.keyword .kwVoid]
  | stringArray => [.keyword .kwString, .punct .lbracket, .punct .rbracket]
  | named name => [.ident name]

theorem Ty.lexemes_ne_nil (ty : Ty) : ty.lexemes ≠ [] := by
  cases ty <;> exact List.cons_ne_nil _ _

namespace Grammar

def beginsStore : List Lexeme → Bool
  | .ident _ :: .punct .lbracket :: _ => true
  | _ => false

/-- The words begin like a statement that is no call: like the assignment of an array element or like a print
statement. -/
def disguised (ws : List Lexeme) : Bool :=
  beginsStore ws || [.ident "System", .punct .dot, .ident "out"].isPrefixOf ws

/-- A part of a program with its tokens, the levels of nesting in it and the number of its calls in disguise. -/
structure Piece (α : Type) where
  value : α
  tokens : List Token
  depth : Nat
  disguises : Nat

namespace Piece

variable {α : Type}

def spelled (ps : List (Piece α)) : List Token := ps.flatMap (·.tokens)

def deepest (ps : List (Piece α)) : Nat := (ps.map (·.depth)).foldr max 0

def total (ps : List (Piece α)) : Nat := (ps.map (·.disguises)).foldr (· + ·) 0

theorem deepest_le {ps : List (Piece α)} {n : Nat} : deepest ps ≤ n ↔ ∀ p ∈ ps, p.depth ≤ n := by
  induction ps with
  | nil => simp [deepest]
  | cons p ps ih =>
      rw [List.forall_mem_cons, ← ih]
      exact Nat.max_le

theorem total_eq_zero {ps : List (Piece α)} : total ps = 0 ↔ ∀ p ∈ ps, p.disguises = 0 := by
  induction ps with
  | nil => simp [total]
  | cons p ps ih =>
      rw [List.forall_mem_cons, ← ih]
      exact Nat.add_eq_zero_iff

theorem fits_spelled {ps : List (Piece α)} : Fits (words (spelled ps)) ↔ ∀ p ∈ ps, Fits (words p.tokens) := by
  induction ps with
  | nil => simp [spelled]
  | cons p ps ih => rw [List.forall_mem_cons, ← ih, spelled, List.flatMap_cons, words_append, fits_append, ← spelled]

theorem limits {ps : List (Piece α)} {room : Nat} :
    (∀ p ∈ ps, p.disguises = 0 ∧ p.depth ≤ room) ↔ total ps = 0 ∧ deepest ps ≤ room := by
  rw [total_eq_zero, deepest_le]
  exact ⟨fun h => ⟨fun p hp => (h p hp).1, fun p hp => (h p hp).2⟩, fun h p hp => ⟨h.1 p hp, h.2 p hp⟩⟩

theorem forall_getRight? {β : Type} {ps : List (Piece (α ⊕ β))} {N : β → Prop} :
    (∀ b ∈ (ps.map (·.value)).filterMap Sum.getRight?, N b) ↔ ∀ p ∈ ps, Sum.elim (fun _ => True) N p.value := by
  rw [List.filterMap_map]
  constructor
  · intro h p hp
    cases hvalue : p.value with
    | inl a => trivial
    | inr b => exact h b (List.mem_filterMap.2 ⟨p, hp, by simp [hvalue]⟩)
  · intro h b hb
    obtain ⟨p, hp, hright⟩ := List.mem_filterMap.1 hb
    have hvalue : p.value = .inr b := Sum.getRight?_eq_some_iff.1 hright
    have hN := h p hp
    rwa [hvalue] at hN

end Piece

/-- The first of the tokens stands at `l`. -/
def Starts (ts : List Token) (l : Location) : Prop := ts.head?.map (·.loc) = some l

inductive Condition : Expr → List Token → Nat → Prop
  | mk {e : Expr} {ts : List Token} {d : Nat} {l₁ l₂ : Location} : Renders .whole e (words ts) d →
      Condition e (⟨.punct .lparen, l₁⟩ :: (ts ++ [⟨.punct .rparen, l₂⟩])) d

inductive Ended : Expr → List Token → Nat → Prop
  | mk {e : Expr} {ts : List Token} {d : Nat} {l : Location} : Renders .whole e (words ts) d →
      Ended e (ts ++ [⟨.punct .semi, l⟩]) d

/-- The tokens spell the statement. The numbers tell how many levels are nested, the statement's own included,
and how many call statements are in disguise. An `else` may belong to any `if` that can take it. -/
inductive Statement : Stmt → List Token → Nat → Nat → Prop
  | block {t : Tag} {l : Location} (body : List (Piece Stmt)) :
      (∀ p ∈ body, Statement p.value p.tokens p.depth p.disguises) →
      Statement (.block t (body.map (·.value)))
        (⟨.punct .lbrace, t.loc⟩ :: (Piece.spelled body ++ [⟨.punct .rbrace, l⟩]))
        (Piece.deepest body + 1) (Piece.total body)
  | assign {t : Tag} {name : String} {e : Expr} {ts : List Token} {d : Nat} {l : Location} : Ended e ts d →
      Statement (.assign t name e) (⟨.ident name, t.loc⟩ :: ⟨.punct .assign, l⟩ :: ts) (d + 1) 0
  | store {t : Tag} {name : String} {i e : Expr} {is ts : List Token} {c d : Nat} {l₁ l₂ l₃ : Location} :
      Renders .whole i (words is) c → Ended e ts d →
      Statement (.store t name i e)
        (⟨.ident name, t.loc⟩ :: ⟨.punct .lbracket, l₁⟩ ::
          (is ++ ⟨.punct .rbracket, l₂⟩ :: ⟨.punct .assign, l₃⟩ :: ts)) (max c d + 1) 0
  | ifThen {t : Tag} {cond : Expr} {yes : Stmt} {cs ts : List Token} {c d k : Nat} : Condition cond cs c →
      Statement yes ts d k →
      Statement (.ifThen t cond yes) (⟨.keyword .kwIf, t.loc⟩ :: (cs ++ ts)) (max c d + 1) k
  | ifElse {t : Tag} {cond : Expr} {yes no : Stmt} {cs ts us : List Token} {c d₁ d₂ k₁ k₂ : Nat}
      {l : Location} : Condition cond cs c → Statement yes ts d₁ k₁ → Statement no us d₂ k₂ →
      Statement (.ifElse t cond yes no)
        (⟨.keyword .kwIf, t.loc⟩ :: (cs ++ (ts ++ ⟨.keyword .kwElse, l⟩ :: us)))
        (max c (max d₁ d₂) + 1) (k₁ + k₂)
  | loop {t : Tag} {cond : Expr} {body : Stmt} {cs ts : List Token} {c d k : Nat} : Condition cond cs c →
      Statement body ts d k →
      Statement (.loop t cond body) (⟨.keyword .kwWhile, t.loc⟩ :: (cs ++ ts)) (max c d + 1) k
  | print {t : Tag} {e : Expr} {ts : List Token} {d : Nat} {l₁ l₂ l₃ l₄ l₅ : Location} : Condition e ts d →
      Statement (.print t e)
        (⟨.ident "System", t.loc⟩ :: ⟨.punct .dot, l₁⟩ :: ⟨.ident "out", l₂⟩ :: ⟨.punct .dot, l₃⟩ ::
          ⟨.ident "println", l₄⟩ :: (ts ++ [⟨.punct .semi, l₅⟩])) (d + 1) 0
  | call {t : Tag} {receiver : Expr} {method : String} {args : List Expr} {ts : List Token} {d : Nat}
      {l : Location} : Renders .whole (.call receiver method args) (words ts) d → Starts ts t.loc →
      Statement (.call t receiver method args) (ts ++ [⟨.punct .semi, l⟩]) (d + 1) (disguised (words ts)).toNat
  | ret {t : Tag} {l : Location} :
      Statement (.ret t none) [⟨.keyword .kwReturn, t.loc⟩, ⟨.punct .semi, l⟩] 1 0
  | value {t : Tag} {e : Expr} {ts : List Token} {d : Nat} : Ended e ts d →
      Statement (.ret t (some e)) (⟨.keyword .kwReturn, t.loc⟩ :: ts) (d + 1) 0
  | brk {t : Tag} {l : Location} : Statement (.brk t) [⟨.keyword .kwBreak, t.loc⟩, ⟨.punct .semi, l⟩] 1 0
  | cont {t : Tag} {l : Location} :
      Statement (.cont t) [⟨.keyword .kwContinue, t.loc⟩, ⟨.punct .semi, l⟩] 1 0

theorem Statement.ne_nil {x : Stmt} {ts : List Token} {d k : Nat} (h : Statement x ts d k) : ts ≠ [] := by
  cases h <;> simp

inductive Declares : VarDecl → List Token → Prop
  | mk {v : VarDecl} {ts : List Token} {l : Location} : words ts = v.type.lexemes → Starts ts v.loc →
      Declares v (ts ++ [⟨.ident v.name, l⟩])

/-- A declaration of a local variable, which is never of type `void`, or a statement. -/
inductive Item : VarDecl ⊕ Stmt → List Token → Nat → Nat → Prop
  | declares {v : VarDecl} {ts : List Token} {l : Location} : Declares v ts → v.type ≠ .void →
      Item (.inl v) (ts ++ [⟨.punct .semi, l⟩]) 0 0
  | states {s : Stmt} {ts : List Token} {d k : Nat} : Statement s ts d k → Item (.inr s) ts d k

inductive Parameters : List VarDecl → List Token → Prop
  | none : Parameters [] []
  | some {vs : List VarDecl} {ts : List Token} :
      Listed (fun t : Token => t.lexeme = .punct .comma) Declares vs ts → Parameters vs ts

def Modifiers (ts : List Token) : Prop :=
  ∀ t ∈ ts, t.lexeme = .keyword .kwPublic ∨ t.lexeme = .keyword .kwStatic

inductive Member : VarDecl ⊕ Method → List Token → Nat → Nat → Prop
  | field {v : VarDecl} {ms ts : List Token} {l₁ l₂ : Location} : Modifiers ms → words ts = v.type.lexemes →
      Starts (ms ++ ts) v.loc →
      Member (.inl v) (ms ++ (ts ++ [⟨.ident v.name, l₁⟩, ⟨.punct .semi, l₂⟩])) 0 0
  | method {m : Method} {ms ts ps : List Token} {l₁ l₂ l₃ l₄ l₅ : Location} (items : List (Piece (VarDecl ⊕ Stmt))) :
      Modifiers ms → (m.isStatic = true ↔ .keyword .kwStatic ∈ words ms) → words ts = m.returns.lexemes →
      Starts (ms ++ ts) m.loc → Parameters m.params ps →
      (∀ p ∈ items, Item p.value p.tokens p.depth p.disguises) →
      m.locals = (items.map (·.value)).filterMap Sum.getLeft? →
      m.body = (items.map (·.value)).filterMap Sum.getRight? →
      Member (.inr m)
        (ms ++ (ts ++ ⟨.ident m.name, l₁⟩ :: ⟨.punct .lparen, l₂⟩ ::
          (ps ++ ⟨.punct .rparen, l₃⟩ :: ⟨.punct .lbrace, l₄⟩ :: (Piece.spelled items ++ [⟨.punct .rbrace, l₅⟩]))))
        (Piece.deepest items) (Piece.total items)

inductive Parent : Option String → List Token → Prop
  | none : Parent none []
  | some {name : String} {l₁ l₂ : Location} :
      Parent (some name) [⟨.keyword .kwExtends, l₁⟩, ⟨.ident name, l₂⟩]

inductive ClassText : Class → List Token → Nat → Nat → Prop
  | mk {c : Class} {ps : List Token} {l₁ l₂ l₃ : Location} (members : List (Piece (VarDecl ⊕ Method))) :
      Parent c.parent ps → (∀ p ∈ members, Member p.value p.tokens p.depth p.disguises) →
      c.fields = (members.map (·.value)).filterMap Sum.getLeft? →
      c.methods = (members.map (·.value)).filterMap Sum.getRight? →
      ClassText c
        (⟨.keyword .kwClass, c.loc⟩ :: ⟨.ident c.name, l₁⟩ ::
          (ps ++ ⟨.punct .lbrace, l₂⟩ :: (Piece.spelled members ++ [⟨.punct .rbrace, l₃⟩])))
        (Piece.deepest members) (Piece.total members)

theorem ClassText.ne_nil {c : Class} {ts : List Token} {d k : Nat} (h : ClassText c ts d k) : ts ≠ [] := by
  cases h
  exact List.cons_ne_nil _ _

inductive Derives : Program → List Token → Nat → Nat → Prop
  | mk (classes : List (Piece Class)) : (∀ p ∈ classes, ClassText p.value p.tokens p.depth p.disguises) →
      Derives ⟨classes.map (·.value)⟩ (Piece.spelled classes) (Piece.deepest classes) (Piece.total classes)

end Grammar

end Backflow
