import Backflow.Syntax.Parser.Expr
import Mathlib.Data.List.Induction
import Mathlib.Data.Nat.Digits.Defs

namespace Backflow.Grammar

/-- The number that decimal digits say, the last one for the ones. -/
def valueOf (cs : List Char) : Nat := Nat.ofDigits 10 (cs.reverse.map fun c => c.toNat - '0'.toNat)

/-- The text says the number in decimal digits, with or without a sign before them. -/
inductive Numeral : List Char → Int → Prop
  | plain {cs : List Char} : cs ≠ [] → (∀ c ∈ cs, c.isDigit = true) → Numeral cs (valueOf cs)
  | plus {cs : List Char} : cs ≠ [] → (∀ c ∈ cs, c.isDigit = true) → Numeral ('+' :: cs) (valueOf cs)
  | minus {cs : List Char} : cs ≠ [] → (∀ c ∈ cs, c.isDigit = true) → Numeral ('-' :: cs) (-valueOf cs)

/-- The text says the number, and the number is one of 64 bits with its sign. -/
def Literal (text : String) (n : Int) : Prop := Numeral text.toList n ∧ -2 ^ 63 ≤ n ∧ n < 2 ^ 63

variable {cs : List Char} {text : String} {k : Nat} {n n' : Int}

theorem valueOf_concat (cs : List Char) (c : Char) :
    valueOf (cs ++ [c]) = 10 * valueOf cs + (c.toNat - '0'.toNat) := by
  rw [valueOf, List.reverse_concat, List.map_cons, Nat.ofDigits_cons, ← valueOf]
  exact Nat.add_comm _ _

theorem valueOf_toDigits (k : Nat) : valueOf (Nat.toDigits 10 k) = k := by
  have hfold (cs : List Char) : valueOf cs = Nat.ofDigitChars 10 cs 0 := by
    rw [Nat.ofDigitChars_eq_foldl]
    induction cs using List.reverseRecOn with
    | nil => rfl
    | append_singleton cs c ih => rw [valueOf_concat, ih, List.foldl_append, List.foldl_cons, List.foldl_nil]
  rw [hfold, Nat.ofDigitChars_ten_toDigits]

theorem foldlM_shift? : cs.foldlM Parser.shift? 0 = some k ↔ (∀ c ∈ cs, c.isDigit = true) ∧ valueOf cs = k := by
  induction cs using List.reverseRecOn generalizing k with
  | nil => simp [valueOf]
  | append_singleton cs c ih =>
      rw [List.foldlM_append, Option.bind_eq_bind, Option.bind_eq_some_iff, List.forall_mem_append,
        List.forall_mem_singleton, valueOf_concat]
      simp only [ih, List.foldlM_cons, List.foldlM_nil, bind_pure]
      constructor
      · rintro ⟨_, ⟨hcs, rfl⟩, hc⟩
        obtain ⟨hdigit, heq⟩ := Option.ite_none_right_eq_some.1 hc
        exact ⟨⟨hcs, hdigit⟩, Option.some.inj heq⟩
      · rintro ⟨⟨hcs, hdigit⟩, rfl⟩
        exact ⟨_, ⟨hcs, rfl⟩, if_pos hdigit⟩

theorem digits?_eq_some_iff :
    Parser.digits? cs = some k ↔ cs ≠ [] ∧ (∀ c ∈ cs, c.isDigit = true) ∧ valueOf cs = k := by
  unfold Parser.digits?
  split
  case isTrue h => simp [List.isEmpty_iff.1 h]
  case isFalse h => simp [foldlM_shift?, List.isEmpty_iff.not.1 h]

theorem Numeral.signed?_eq (h : Numeral cs n) : Parser.signed? cs = some n := by
  cases h with
  | plus hne hdigits | minus hne hdigits =>
      rw [Parser.signed?, digits?_eq_some_iff.2 ⟨hne, hdigits, rfl⟩]
      rfl
  | plain hne hdigits =>
      unfold Parser.signed?
      split
      case h_1 => exact absurd (hdigits '+' List.mem_cons_self) (by decide)
      case h_2 => exact absurd (hdigits '-' List.mem_cons_self) (by decide)
      case h_3 =>
        rw [digits?_eq_some_iff.2 ⟨hne, hdigits, rfl⟩]
        rfl

theorem numeral_of_signed? (h : Parser.signed? cs = some n) : Numeral cs n := by
  unfold Parser.signed? at h
  split at h
  all_goals
    obtain ⟨k, hk, rfl⟩ := Option.map_eq_some_iff.1 h
    obtain ⟨hne, hdigits, rfl⟩ := digits?_eq_some_iff.1 hk
  case h_1 => exact .plus hne hdigits
  case h_2 => exact .minus hne hdigits
  case h_3 => exact .plain hne hdigits

theorem integer?_eq_some_iff : Parser.integer? text = some n ↔ Literal text n := by
  rw [Parser.integer?, Option.filter_eq_some_iff, decide_eq_true_iff]
  exact and_congr ⟨numeral_of_signed?, Numeral.signed?_eq⟩ Iff.rfl

theorem Numeral.unique (h : Numeral cs n) (h' : Numeral cs n') : n = n' :=
  Option.some.inj (h.signed?_eq.symm.trans h'.signed?_eq)

theorem Numeral.nonneg (h : Numeral cs n) (hdigits : ∀ c ∈ cs, c.isDigit = true) : 0 ≤ n := by
  cases h with
  | plain | plus => exact Int.natCast_nonneg _
  | minus => exact absurd (hdigits '-' List.mem_cons_self) (by decide)

theorem numeral_toString (n : Int) : Numeral (toString n).toList n := by
  have hdigits (k : Nat) : ∀ c ∈ Nat.toDigits 10 k, c.isDigit = true :=
    fun c hc => Nat.isDigit_of_mem_toDigits (by decide) (by decide) hc
  cases n with
  | ofNat k =>
      have hk := Numeral.plain Nat.toDigits_ne_nil (hdigits k)
      rw [valueOf_toDigits] at hk
      change Numeral (toString k).toList k
      rwa [Nat.toString_eq_ofList_toDigits, String.toList_ofList]
  | negSucc k =>
      have hk := Numeral.minus Nat.toDigits_ne_nil (hdigits (k + 1))
      rw [valueOf_toDigits] at hk
      change Numeral ("-" ++ toString (k + 1)).toList (-(k + 1 : Nat))
      rw [String.toList_append, Nat.toString_eq_ofList_toDigits, String.toList_ofList (l := Nat.toDigits 10 (k + 1))]
      exact hk

end Backflow.Grammar
