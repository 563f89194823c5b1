import Backflow.Proofs.Numerals
import Mathlib.Data.List.Infix

namespace Backflow.Grammar

/-- Where an expression may stand without parentheses. `levels ls` joins operands by the binary operators
of `ls`, the loosest level first; `whole` is an expression that opens a level of nesting of its own. -/
inductive Rank where
  | primary
  | suffixed
  | operand
  | levels (ls : List (List BinOp))
  | whole

def signOf : UnOp → Punct
  | .not => .bang
  | .neg => .minus

def markOf : BinOp → Punct
  | .or => .orOr
  | .and => .andAnd
  | .eq => .eqEq
  | .ne => .notEq
  | .lt => .less
  | .le => .lessEq
  | .gt => .greater
  | .ge => .greaterEq
  | .add => .plus
  | .sub => .minus
  | .mul => .star
  | .div => .slash
  | .rem => .percent

/-- The six levels of binary operators, the loosest one first. -/
def precedence : List (List BinOp) :=
  [[.or], [.and], [.eq, .ne], [.lt, .le, .gt, .ge], [.add, .sub], [.mul, .div, .rem]]

/-- An argument of a call with its words and the levels of nesting in it. -/
structure Argument where
  value : Expr
  words : List Lexeme
  depth : Nat

def commas : List (List Lexeme) → List Lexeme
  | [] => []
  | [ws] => ws
  | ws :: rest => ws ++ .punct .comma :: commas rest

def deepest : List Argument → Nat
  | [] => 0
  | a :: rest => max a.depth (deepest rest)

/-- The words `ws` spell the expression at a rank, with `d` levels of nesting inside. -/
inductive Renders : Rank → Expr → List Lexeme → Nat → Prop
  | int {text : String} {n : Int} : Numeral text.toList n → Renders .primary (.int n) [.int text] 0
  | var (name : String) : Renders .primary (.var name) [.ident name] 0
  | yes : Renders .primary (.bool true) [.keyword .kwTrue] 0
  | no : Renders .primary (.bool false) [.keyword .kwFalse] 0
  | self : Renders .primary .self [.keyword .kwThis] 0
  | newArray {size : Expr} {ws : List Lexeme} {d : Nat} : Renders .whole size ws d →
      Renders .primary (.newArray size)
        (.keyword .kwNew :: .keyword .kwInt :: .punct .lbracket :: (ws ++ [.punct .rbracket])) d
  | newObject (name : String) : Renders .primary (.newObject name)
      [.keyword .kwNew, .ident name, .punct .lparen, .punct .rparen] 0
  | group {e : Expr} {ws : List Lexeme} {d : Nat} : Renders .whole e ws d →
      Renders .primary e (.punct .lparen :: (ws ++ [.punct .rparen])) d
  | primary {e : Expr} {ws : List Lexeme} {d : Nat} : Renders .primary e ws d → Renders .suffixed e ws d
  | index {e i : Expr} {ws us : List Lexeme} {d c : Nat} : Renders .suffixed e ws d → Renders .whole i us c →
      Renders .suffixed (.index e i) (ws ++ .punct .lbracket :: (us ++ [.punct .rbracket])) (max d c)
  | length {e : Expr} {ws : List Lexeme} {d : Nat} : Renders .suffixed e ws d →
      Renders .suffixed (.length e) (ws ++ [.punct .dot, .ident "length"]) d
  | call {e : Expr} {ws : List Lexeme} {d : Nat} (name : String) (args : List Argument) :
      Renders .suffixed e ws d → (∀ a ∈ args, Renders .whole a.value a.words a.depth) →
      Renders .suffixed (.call e name (args.map (·.value)))
        (ws ++ .punct .dot :: .ident name :: .punct .lparen ::
          (commas (args.map (·.words)) ++ [.punct .rparen])) (max d (deepest args))
  | suffixed {e : Expr} {ws : List Lexeme} {d : Nat} : Renders .suffixed e ws d → Renders .operand e ws d
  | sign {e : Expr} {ws : List Lexeme} {d : Nat} (op : UnOp) : Renders .operand e ws d →
      Renders .operand (.unary op e) (.punct (signOf op) :: ws) (d + 1)
  | operand {e : Expr} {ws : List Lexeme} {d : Nat} : Renders .operand e ws d → Renders (.levels []) e ws d
  | tighter {e : Expr} {ws : List Lexeme} {d : Nat} {ls : List (List BinOp)} (ops : List BinOp) :
      Renders (.levels ls) e ws d → Renders (.levels (ops :: ls)) e ws d
  | binary {e₁ e₂ : Expr} {ws us : List Lexeme} {d c : Nat} {ops : List BinOp} {ls : List (List BinOp)}
      {op : BinOp} : op ∈ ops → Renders (.levels (ops :: ls)) e₁ ws d → Renders (.levels ls) e₂ us c →
      Renders (.levels (ops :: ls)) (.binary op e₁ e₂) (ws ++ .punct (markOf op) :: us) (max d c)
  | whole {e : Expr} {ws : List Lexeme} {d : Nat} : Renders (.levels precedence) e ws d →
      Renders .whole e ws (d + 1)

/-- One or more items with commas between them. -/
inductive Listed {α τ : Type} (comma : τ → Prop) (item : α → List τ → Prop) : List α → List τ → Prop
  | one {a : α} {ts : List τ} : item a ts → Listed comma item [a] ts
  | more {a : α} {as : List α} {ts us : List τ} {t : τ} : item a ts → comma t → Listed comma item as us →
      Listed comma item (a :: as) (ts ++ t :: us)

/-- Each literal is a number of 64 bits. -/
def Fits (ws : List Lexeme) : Prop := ∀ text, .int text ∈ ws → ∃ n, Literal text n

/-- The word after `ws` does not go on with a suffix. -/
structure Closes (ws : List Lexeme) (next : Option Lexeme) : Prop where
  bracket : next ≠ some (.punct .lbracket)
  dot : next ≠ some (.punct .dot)
  call : [.punct .dot, .ident "length"] <:+ ws → next ≠ some (.punct .lparen)

/-- The next word is none of the operators. -/
def Off (ls : List (List BinOp)) (next : Option Lexeme) : Prop :=
  ∀ ops ∈ ls, ∀ op ∈ ops, next ≠ some (.punct (markOf op))

theorem punct_eq_signOf (op : UnOp) : op.punct = signOf op := by cases op <;> rfl

theorem punct_eq_markOf (op : BinOp) : op.punct = markOf op := by cases op <;> rfl

theorem levels_eq_precedence : BinOp.levels = precedence := rfl

theorem Off.cons {ops : List BinOp} {ls : List (List BinOp)} {next : Option Lexeme}
    (hops : ∀ op ∈ ops, next ≠ some (.punct (markOf op))) (hls : Off ls next) : Off (ops :: ls) next :=
  List.forall_mem_cons.2 ⟨hops, hls⟩

@[simp] theorem fits_nil : Fits [] := fun _ h => absurd h List.not_mem_nil

@[simp] theorem fits_append {ws us : List Lexeme} : Fits (ws ++ us) ↔ Fits ws ∧ Fits us := by
  simp only [Fits, List.mem_append, or_imp, forall_and]

theorem fits_cons {w : Lexeme} {ws : List Lexeme} :
    Fits (w :: ws) ↔ (∀ text, w = .int text → ∃ n, Literal text n) ∧ Fits ws := by
  simp only [Fits, List.mem_cons, or_imp, forall_and, eq_comm]

@[simp] theorem fits_int {text : String} {ws : List Lexeme} :
    Fits (.int text :: ws) ↔ (∃ n, Literal text n) ∧ Fits ws := by
  simp [fits_cons]

@[simp] theorem fits_ident {name : String} {ws : List Lexeme} : Fits (.ident name :: ws) ↔ Fits ws := by
  simp [fits_cons]

@[simp] theorem fits_keyword {k : Keyword} {ws : List Lexeme} : Fits (.keyword k :: ws) ↔ Fits ws := by
  simp [fits_cons]

@[simp] theorem fits_punct {p : Punct} {ws : List Lexeme} : Fits (.punct p :: ws) ↔ Fits ws := by
  simp [fits_cons]

theorem Closes.of_suffix {ws us : List Lexeme} {next : Option Lexeme} (h : Closes us next)
    (hs : ws <:+ us) : Closes ws next :=
  ⟨h.bracket, h.dot, fun hl => h.call (hl.trans hs)⟩

theorem suffix_of_suffix_append_cons {α : Type} {l ws us : List α} {x : α} (hx : x ∉ l)
    (h : l <:+ ws ++ x :: us) : l <:+ us := by
  rcases List.suffix_or_suffix_of_suffix h (List.suffix_append ws (x :: us)) with h | h
  · rcases List.suffix_cons_iff.1 h with rfl | h
    · exact absurd List.mem_cons_self hx
    · exact h
  · exact absurd (h.subset List.mem_cons_self) hx

theorem Closes.after {ws us : List Lexeme} {w : Lexeme} {next : Option Lexeme} (h : Closes us next)
    (hw : w ∉ [.punct .dot, .ident "length"]) : Closes (ws ++ w :: us) next :=
  ⟨h.bracket, h.dot, fun hl => h.call (suffix_of_suffix_append_cons hw hl)⟩

theorem mark_not_mem_length (op : BinOp) : Lexeme.punct (markOf op) ∉ [.punct .dot, .ident "length"] := by
  cases op <;> decide

theorem Renders.ne_nil {r : Rank} {e : Expr} {ws : List Lexeme} {d : Nat} (h : Renders r e ws d) : ws ≠ [] := by
  induction h with
  | primary _ ih | suffixed _ ih | operand _ ih | tighter _ _ ih | whole _ ih => exact ih
  | _ => simp

theorem Renders.not_length {e : Expr} {ws : List Lexeme} {d : Nat} (h : Renders .primary e ws d) :
    ¬ [.punct .dot, .ident "length"] <:+ ws := by
  rintro ⟨pre, hpre⟩
  have hlast := congrArg List.getLast? hpre
  have hlong := congrArg List.length hpre
  cases h <;> simp [List.getLast?_cons] at hlast hlong

theorem Renders.at_levels {e : Expr} {ws : List Lexeme} {d : Nat} (h : Renders .operand e ws d)
    (ls : List (List BinOp)) : Renders (.levels ls) e ws d := by
  induction ls with
  | nil => exact .operand h
  | cons ops ls ih => exact .tighter ops ih

theorem Listed.exists_arguments {τ : Type} {comma : τ → Prop} {kind : τ → Lexeme}
    {item : Expr → List τ → Prop} {room : Nat} {es : List Expr} {ts : List τ}
    (hcomma : ∀ t, comma t → kind t = .punct .comma)
    (hitem : ∀ e ts, item e ts → ∃ d, Renders .whole e (ts.map kind) d ∧ d ≤ room)
    (h : Listed comma item es ts) : ∃ args : List Argument, args ≠ [] ∧ args.map (·.value) = es ∧
      commas (args.map (·.words)) = ts.map kind ∧ deepest args ≤ room ∧
        ∀ a ∈ args, Renders .whole a.value a.words a.depth := by
  induction h with
  | @one e ts he =>
      obtain ⟨d, hd, hroom⟩ := hitem e ts he
      refine ⟨[⟨e, ts.map kind, d⟩], List.cons_ne_nil _ _, rfl, rfl, ?_, by simpa using hd⟩
      simpa [deepest] using hroom
  | @more e es ts us t he ht _ ih =>
      obtain ⟨d, hd, hroom⟩ := hitem e ts he
      obtain ⟨args, hne, hvalues, hwords, hdeep, hall⟩ := ih
      obtain ⟨a, rest, rfl⟩ := List.exists_cons_of_ne_nil hne
      refine ⟨⟨e, ts.map kind, d⟩ :: a :: rest, List.cons_ne_nil _ _, ?_, ?_, ?_, ?_⟩
      · rw [List.map_cons, hvalues]
      · rw [List.map_cons, List.map_cons, commas, ← List.map_cons, hwords, List.map_append, List.map_cons,
          hcomma t ht]
        exact List.cons_ne_nil _ _
      · rw [deepest]
        exact Nat.max_le.2 ⟨hroom, hdeep⟩
      · exact List.forall_mem_cons.2 ⟨hd, hall⟩

end Backflow.Grammar
