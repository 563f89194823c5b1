import Backflow.Proofs.Sequencing
import Backflow.Syntax.Parser.Program

namespace Backflow.Parser

variable {α β : Type}

/-- Whenever `p` starts with the next free number `k` and succeeds, its result and the number that is
free then are related by `Q`. -/
def Counts (k : Nat) (p : Parser α) (Q : α → Nat → Prop) : Prop :=
  ∀ s a s', s.nextId = k → p s = .ok a s' → Q a s'.nextId

def Silent (p : Parser α) : Prop := ∀ k, Counts k p fun _ l => l = k

theorem Counts.bind {k : Nat} {p : Parser α} {q : α → Parser β} {Q : β → Nat → Prop}
    (h : Counts k p fun a l => Counts l (q a) Q) : Counts k (p >>= q) Q := by
  intro s b s' hk hb
  obtain ⟨a, s₁, hp, hq⟩ := bind_ok.1 hb
  exact h s a s₁ hk hp s₁ b s' rfl hq

theorem Counts.pure {k : Nat} {a : α} {Q : α → Nat → Prop} (h : Q a k) :
    Counts k (pure a : Parser α) Q := by
  intro s b s' hk hb
  cases hb
  exact hk ▸ h

theorem Counts.mono {k : Nat} {p : Parser α} {Q R : α → Nat → Prop} (h : Counts k p Q)
    (hQ : ∀ a l, Q a l → R a l) : Counts k p R :=
  fun s a s' hk hp => hQ a s'.nextId (h s a s' hk hp)

theorem Counts.ite {k : Nat} {c : Prop} [Decidable c] {p q : Parser α} {Q : α → Nat → Prop}
    (hp : Counts k p Q) (hq : Counts k q Q) : Counts k (if c then p else q) Q := by
  split
  · exact hp
  · exact hq

theorem Silent.next {k : Nat} {p : Parser α} {q : α → Parser β} {Q : β → Nat → Prop}
    (hp : Silent p) (hq : ∀ a, Counts k (q a) Q) : Counts k (p >>= q) Q :=
  Counts.bind ((hp k).mono fun a _ hl => hl ▸ hq a)

theorem Silent.bind {p : Parser α} {q : α → Parser β} (hp : Silent p) (hq : ∀ a, Silent (q a)) :
    Silent (p >>= q) := fun k => hp.next fun a => hq a k

theorem Silent.pure (a : α) : Silent (pure a : Parser α) := fun _ => Counts.pure rfl

theorem Silent.ite {c : Prop} [Decidable c] {p q : Parser α} (hp : Silent p) (hq : Silent q) :
    Silent (if c then p else q) := fun k => (hp k).ite (hq k)

theorem Silent.bounded {loop : List Token → Parser α} (h : ∀ bound, Silent (loop bound)) :
    Silent (bounded loop) := fun k s => h s.tokens k s

theorem silent_fail (e : Expected) : Silent (fail e : Parser α) := by
  intro k s a s' _ h
  cases h

theorem counts_tooDeep (k : Nat) (Q : α → Nat → Prop) : Counts k (tooDeep : Parser α) Q := by
  intro s a s' _ h
  cases h

theorem silent_here : Silent here := by
  intro k s a s' hk h
  cases h
  exact hk

theorem silent_atEnd : Silent atEnd := by
  intro k s a s' hk h
  cases h
  exact hk

theorem silent_sees (x : Lexeme) : Silent (sees x) := by
  intro k s a s' hk h
  unfold sees at h
  split at h <;> cases h <;> exact hk

theorem silent_eat (x : Lexeme) : Silent (eat x) := by
  intro k s a s' hk h
  unfold eat at h
  split at h
  · split at h <;> cases h <;> exact hk
  · cases h; exact hk

theorem silent_eatPunct (x : Punct) : Silent (eatPunct x) := silent_eat _

theorem silent_eatKeyword (x : Keyword) : Silent (eatKeyword x) := silent_eat _

theorem silent_expectPunct (x : Punct) : Silent (expectPunct x) :=
  (silent_eatPunct x).bind fun _ => (Silent.pure _).ite (silent_fail _)

theorem silent_expectKeyword (x : Keyword) : Silent (expectKeyword x) :=
  (silent_eatKeyword x).bind fun _ => (Silent.pure _).ite (silent_fail _)

theorem silent_identifier : Silent identifier := by
  intro k s a s' hk h
  unfold identifier at h
  split at h
  · cases h; exact hk
  · cases h

theorem silent_eatAll (xs : List Lexeme) : Silent (eatAll xs) := by
  intro k s a s' hk h
  unfold eatAll at h
  split at h <;> cases h <;> exact hk

theorem silent_target? : Silent target? := by
  intro k s a s' hk h
  unfold target? at h
  split at h
  · split at h <;> cases h <;> exact hk
  · cases h; exact hk

theorem silent_operator? (ops : List BinOp) : Silent (operator? ops) := by
  intro k s a s' hk h
  unfold operator? at h
  split at h
  · split at h <;> cases h <;> exact hk
  · cases h; exact hk

theorem silent_seesLocal : Silent seesLocal := by
  intro k s a s' hk h
  unfold seesLocal at h
  split at h <;> cases h <;> exact hk

theorem silent_chain {ops : List BinOp} {operand : Parser Expr} (h : Silent operand) (left : Expr)
    (bound : List Token) : Silent (chain ops operand left bound) := by
  induction bound generalizing left with
  | nil => exact Silent.pure _
  | cons t bound ih =>
      unfold chain
      refine (silent_operator? ops).bind fun op => ?_
      cases op with
      | none => exact Silent.pure _
      | some op => exact h.bind fun right => ih _

theorem silent_binary {operand : Parser Expr} (h : Silent operand) (levels : List (List BinOp)) :
    Silent (binary operand levels) := by
  induction levels with
  | nil => exact h
  | cons ops tighter ih => exact ih.bind fun left => Silent.bounded (silent_chain ih left)

theorem silent_listed {item : Parser α} (h : Silent item) (bound : List Token) :
    Silent (listed item bound) := by
  induction bound with
  | nil => exact h.bind fun x => Silent.pure _
  | cons t bound ih =>
      refine h.bind fun x => (silent_eatPunct _).bind fun b => ?_
      exact (Silent.pure _).ite ((silent_expectPunct _).bind fun _ => ih.bind fun xs => Silent.pure _)

theorem silent_parenthesized {item : Parser α} (h : Silent item) : Silent (parenthesized item) :=
  (silent_eatPunct _).bind fun _ => (Silent.pure _).ite (Silent.bounded (silent_listed h))

theorem silent_primary {inner : Parser Expr} (h : Silent inner) : Silent (primary inner) := by
  have hcreation : Silent (primary.creation inner) := by
    refine (silent_eatKeyword _).bind fun b => Silent.ite ?_ ?_
    · exact (silent_expectPunct _).bind fun _ => h.bind fun _ =>
        (silent_expectPunct _).bind fun _ => Silent.pure _
    · exact silent_identifier.bind fun _ => (silent_expectPunct _).bind fun _ =>
        (silent_expectPunct _).bind fun _ => Silent.pure _
  have hgrouped : Silent (primary.grouped inner) :=
    h.bind fun _ => (silent_expectPunct _).bind fun _ => Silent.pure _
  intro k s a s' hk hp
  unfold primary at hp
  split at hp
  · split at hp
    · cases hp; exact hk
    · cases hp
  · cases hp; exact hk
  · cases hp; exact hk
  · cases hp; exact hk
  · cases hp; exact hk
  · exact hcreation k _ a s' (by exact hk) hp
  · exact hgrouped k _ a s' (by exact hk) hp
  · cases hp

theorem silent_member {inner : Parser Expr} (h : Silent inner) (e : Expr) :
    Silent (member inner e) := by
  refine silent_identifier.bind fun _ => (silent_sees _).bind fun _ => Silent.ite (Silent.pure _) ?_
  exact (silent_expectPunct _).bind fun _ => (silent_parenthesized h).bind fun _ => Silent.pure _

theorem silent_suffixes {inner : Parser Expr} (h : Silent inner) (e : Expr) (bound : List Token) :
    Silent (suffixes inner e bound) := by
  induction bound generalizing e with
  | nil => exact Silent.pure _
  | cons t bound ih =>
      refine (silent_eatPunct _).bind fun _ => Silent.ite ?_ ?_
      · exact h.bind fun _ => (silent_expectPunct _).bind fun _ => ih _
      · refine (silent_eatPunct _).bind fun _ => Silent.ite ?_ (Silent.pure _)
        exact (silent_member h e).bind fun e => ih e

theorem silent_operandWith {unary inner : Parser Expr} (hu : Silent unary) (hi : Silent inner) :
    Silent (operandWith unary inner) := by
  refine (silent_eatPunct _).bind fun _ => Silent.ite (hu.bind fun _ => Silent.pure _) ?_
  refine (silent_eatPunct _).bind fun _ => Silent.ite (hu.bind fun _ => Silent.pure _) ?_
  exact (silent_primary hi).bind fun e => Silent.bounded (silent_suffixes hi e)

theorem silent_operand (room : Nat) : Silent (operand room) := by
  induction room with
  | zero => exact silent_operandWith (fun k => counts_tooDeep k _) (fun k => counts_tooDeep k _)
  | succ room ih => exact silent_operandWith ih (silent_binary ih _)

theorem silent_expr (room : Nat) : Silent (expr room) := by
  cases room with
  | zero => exact fun k => counts_tooDeep k _
  | succ room => exact silent_binary (silent_operand room) _

end Backflow.Parser
