import Backflow.Proofs.RoundTrip

namespace Backflow

open Grammar

namespace Parser

/-- Where `depth` levels are open, an expression is read up to `s'` if and only if the tokens before `s'` spell it, the
next token goes on neither with a suffix nor with an operator, and its levels fit on top of the open ones. -/
theorem expr_eq_ok_iff (depth : Nat) (s s' : State) (e : Expr) :
    expr (maxDepth - depth) s = .ok e s' ↔
      ∃ ts d, s = { s' with tokens := ts ++ s'.tokens } ∧ Renders .whole e (words ts) d ∧ Fits (words ts) ∧
        Closes (words ts) s'.next ∧ Off precedence s'.next ∧ depth + d ≤ maxDepth := by
  constructor
  · intro h
    obtain ⟨ts, d, hreads, hrenders, hd, hfits, hcloses, hoff⟩ := spells_expr _ s e s' h
    have hdepth : depth + d ≤ maxDepth := by
      cases hrenders
      omega
    -- Reading leaves all but the tokens as it was: the completed reading ends in `s` with the tokens of `s'`.
    have hpass : s.Passes (words ts) { s with tokens := s'.tokens } := ⟨ts, rfl, by rw [← hreads]⟩
    have hrun := (meets hrenders _ s _ hpass hfits hcloses hoff).1 hd
    rw [h] at hrun
    have hstate : s' = { s with tokens := s'.tokens } := by
      injection hrun
    refine ⟨ts, d, ?_, hrenders, hfits, hcloses, hoff, hdepth⟩
    rw [hstate, ← hreads]
  · rintro ⟨ts, d, rfl, hrenders, hfits, hcloses, hoff, hdepth⟩
    exact (meets hrenders _ _ s' ⟨ts, rfl, rfl⟩ hfits hcloses hoff).1 (by omega)

end Parser

namespace Expr

mutual

def identifiers : Expr → List String
  | int _ | bool _ | self => []
  | var name | newObject name => [name]
  | unary _ e | length e | newArray e => e.identifiers
  | binary _ e₁ e₂ | index e₁ e₂ => e₁.identifiers ++ e₂.identifiers
  | call receiver method args => receiver.identifiers ++ method :: identifiersList args

def identifiersList : List Expr → List String
  | [] => []
  | e :: es => e.identifiers ++ identifiersList es

end

mutual

def literals : Expr → List Int
  | bool _ | self | var _ | newObject _ => []
  | int value => [value]
  | unary _ e | length e | newArray e => e.literals
  | binary _ e₁ e₂ | index e₁ e₂ => e₁.literals ++ e₂.literals
  | call receiver _ args => receiver.literals ++ literalsList args

def literalsList : List Expr → List Int
  | [] => []
  | e :: es => e.literals ++ literalsList es

end

theorem identifiersList_eq_flatMap (es : List Expr) : identifiersList es = es.flatMap identifiers := by
  induction es with
  | nil => rfl
  | cons e es ih => rw [identifiersList, ih, List.flatMap_cons]

theorem literalsList_eq_flatMap (es : List Expr) : literalsList es = es.flatMap literals := by
  induction es with
  | nil => rfl
  | cons e es ih => rw [literalsList, ih, List.flatMap_cons]

theorem readable_of_names {e : Expr} (hnames : ∀ x ∈ e.identifiers, Lexer.Valid (.ident x))
    (hnumbers : ∀ n ∈ e.literals, 0 ≤ n ∧ n < 2 ^ 63) : e.Readable := by
  induction e using Expr.induction with
  | int n => exact readable_value.2 (hnumbers n List.mem_cons_self)
  | var x => exact readable_name.2 (hnames x List.mem_cons_self)
  | newObject x => exact readable_newObject.2 (hnames x List.mem_cons_self)
  | bool b => cases b <;> exact List.forall_mem_singleton.2 (Lexer.readable_keyword _)
  | self => exact List.forall_mem_singleton.2 (Lexer.readable_keyword _)
  | unary op e ih => exact readable_unary.2 (ih hnames hnumbers)
  | length e ih => exact readable_length.2 (ih hnames hnumbers)
  | newArray e ih => exact readable_newArray.2 (ih hnames hnumbers)
  | binary op e₁ e₂ ih₁ ih₂ =>
      rw [identifiers, List.forall_mem_append] at hnames
      rw [literals, List.forall_mem_append] at hnumbers
      exact readable_binary.2 ⟨ih₁ hnames.1 hnumbers.1, ih₂ hnames.2 hnumbers.2⟩
  | index e₁ e₂ ih₁ ih₂ =>
      rw [identifiers, List.forall_mem_append] at hnames
      rw [literals, List.forall_mem_append] at hnumbers
      exact readable_index.2 ⟨ih₁ hnames.1 hnumbers.1, ih₂ hnames.2 hnumbers.2⟩
  | call r f args ihr ihargs =>
      rw [identifiers, List.forall_mem_append, List.forall_mem_cons, identifiersList_eq_flatMap,
        List.forall_mem_flatMap] at hnames
      rw [literals, List.forall_mem_append, literalsList_eq_flatMap, List.forall_mem_flatMap] at hnumbers
      exact readable_call.2 ⟨ihr hnames.1 hnumbers.1, hnames.2.1,
        fun a ha => ihargs a ha (hnames.2.2 a ha) (hnumbers.2 a ha)⟩

theorem wrap_of_not_binary {e : Expr} (h : e.isBinary = false) (t : String) : e.wrap t = t :=
  if_neg (by simp [h])

theorem text_hoist {suffix : Expr → Expr} {t : String} (hbinary : ∀ b, (suffix b).isBinary = false)
    (hsuffix : ∀ b : Expr, (suffix b).text = b.wrap b.text ++ t) (e : Expr) :
    (e.hoist suffix).text = e.wrap e.text ++ t := by
  fun_induction hoist suffix e with
  | case1 op e ih =>
      rw [text, wrap_of_not_binary (isBinary_hoist hbinary e), ih, wrap_of_not_binary (e := unary op e) rfl, text,
        String.append_assoc]
  | case2 e hnot => exact hsuffix e

theorem wrap_norm {e : Expr} (h : e.norm.text = e.text) : e.norm.wrap e.norm.text = e.wrap e.text := by
  rw [wrap, isBinary_norm, h, ← wrap]

theorem text_norm (e : Expr) : e.norm.text = e.text := by
  induction e using Expr.induction with
  | int | bool | var | self | newObject => rfl
  | unary op e ih => rw [norm, text, text, wrap_norm ih]
  | newArray e ih => rw [norm, text, text, ih]
  | binary op e₁ e₂ ih₁ ih₂ => rw [norm, text, text, wrap_norm ih₁, wrap_norm ih₂]
  | index a i iha ihi =>
      have hsuffix : ∀ b : Expr, (index b i.norm).text = b.wrap b.text ++ ("[" ++ (i.text ++ "]")) := by
        intro b
        simp only [text, ihi, String.append_assoc]
      rw [norm, text_hoist (fun _ => rfl) hsuffix, wrap_norm iha]
      simp only [text, String.append_assoc]
  | length a iha => rw [norm, text_hoist (fun _ => rfl) (fun _ => rfl), wrap_norm iha, text]
  | call r f args ihr ihargs =>
      have hargs : texts (normList args) = texts args := by
        rw [texts_eq_map, texts_eq_map, normList_eq_map, List.map_map]
        exact List.map_congr_left ihargs
      have hsuffix : ∀ b : Expr, (call b f (normList args)).text =
          b.wrap b.text ++ ("." ++ (f ++ ("(" ++ (", ".intercalate (texts args) ++ ")")))) := by
        intro b
        simp only [text, hargs, String.append_assoc]
      rw [norm, text_hoist (fun _ => rfl) hsuffix, wrap_norm ihr]
      simp only [text, String.append_assoc]

theorem lex_text {e : Expr} (h : e.Readable) : ∃ ts, Lexer.lex e.text = .ok ts ∧ words ts.tokens = e.lexemes := by
  have hwritten := writes_text h .nil nofun
  rw [List.append_nil, List.append_nil] at hwritten
  exact Lexer.lexFrom_written hwritten .start

end Expr

namespace Parser

/-- The text of a readable expression is read to its end as the expression's normal form, unless that nests too many
levels. -/
theorem leads_text {e : Expr} (h : e.Readable) {ts : TokenStream} (hts : words ts.tokens = e.lexemes) :
    Leads (e.norm.nesting < maxDepth) (expr maxDepth (.ofStream ts))
      (.ok e.norm { tokens := [], stop := ts.stop }) := by
  have hrenders : Renders .whole e.norm (words ts.tokens) (e.norm.nesting + 1) := by
    rw [hts, ← Expr.lexemes_norm]
    exact Expr.renders_whole (Expr.renders_lexemes (Expr.regular_norm e))
  have hfits : Fits (words ts.tokens) := hts ▸ Program.fits_of_readable h
  refine meets hrenders maxDepth _ _ ⟨ts.tokens, rfl, ?_⟩ hfits ?_ ?_
  · rw [List.append_nil]
    rfl
  · constructor <;> simp [State.next]
  · simp [Off, State.next]

/-- The text of an expression with names and numbers that can be written is read to its end as the expression's normal
form, which has the same text, or nests too many levels. The normal form is the expression itself if and only if no
index, length or call has a unary base. -/
theorem expr_text (e : Expr) (hnames : ∀ x ∈ e.identifiers, Lexer.Valid (.ident x))
    (hnumbers : ∀ n ∈ e.literals, 0 ≤ n ∧ n < 2 ^ 63) :
    (∃ ts, Lexer.lex e.text = .ok ts ∧
      (e.norm.nesting < maxDepth → expr maxDepth (.ofStream ts) = .ok e.norm { tokens := [], stop := ts.stop }) ∧
      (maxDepth ≤ e.norm.nesting → ∃ loc s, expr maxDepth (.ofStream ts) = .error (.tooDeep loc) s)) ∧
    e.norm.text = e.text ∧ (e.norm = e ↔ e.regular = true) := by
  have hreadable := Expr.readable_of_names hnames hnumbers
  obtain ⟨ts, hlex, hts⟩ := Expr.lex_text hreadable
  have hread := leads_text hreadable hts
  exact ⟨⟨ts, hlex, hread.1, fun hdeep => hread.2 (Nat.not_lt.2 hdeep)⟩, Expr.text_norm e, Expr.norm_eq_self_iff⟩

def signedBases : Expr :=
  .call (.unary .not (.index (.unary .neg (.var "a")) (.binary .add (.int 1) (.int 20)))) "get"
    [.length (.unary .neg (.unary .not .self)), .newObject "A"]

/-- All signs come out of the bases, and the text is read as that. -/
theorem expr_text_signed : signedBases.text = "!-a[1 + 20].get(-!this.length, new A())" ∧
    ∃ ts, Lexer.lex signedBases.text = .ok ts ∧
      expr maxDepth (.ofStream ts) = .ok
        (.unary .not (.unary .neg (.call (.index (.var "a") (.binary .add (.int 1) (.int 20))) "get"
          [.unary .neg (.unary .not (.length .self)), .newObject "A"]))) { tokens := [], stop := ts.stop } ∧
      signedBases.norm ≠ signedBases := by
  have hnames : ∀ x ∈ signedBases.identifiers, Lexer.Valid (.ident x) := by decide +kernel
  have hnumbers : ∀ n ∈ signedBases.literals, 0 ≤ n ∧ n < 2 ^ 63 := by decide +kernel
  obtain ⟨⟨ts, hlex, hread, _⟩, _, hnorm⟩ := expr_text signedBases hnames hnumbers
  refine ⟨by decide +kernel, ts, hlex, hread (by decide), ?_⟩
  rw [Ne, hnorm]
  decide

end Parser

end Backflow
