import Backflow.Proofs.WrittenText
import Backflow.Syntax.Printer

namespace Backflow

open Grammar

namespace Expr

/-- Induction over expressions, with the arguments of a call all at once. -/
theorem induction {P : Expr → Prop} (int : ∀ n, P (.int n)) (bool : ∀ b, P (.bool b)) (var : ∀ x, P (.var x))
    (self : P .self) (unary : ∀ op e, P e → P (.unary op e))
    (binary : ∀ op e₁ e₂, P e₁ → P e₂ → P (.binary op e₁ e₂))
    (index : ∀ a i, P a → P i → P (.index a i)) (length : ∀ a, P a → P (.length a))
    (call : ∀ r f args, P r → (∀ a ∈ args, P a) → P (.call r f args))
    (newArray : ∀ e, P e → P (.newArray e)) (newObject : ∀ x, P (.newObject x)) (e : Expr) : P e := by
  apply @Expr.rec P (fun args => ∀ a ∈ args, P a)
  case nil => exact fun a ha => absurd ha List.not_mem_nil
  case cons => exact fun e es he hes => List.forall_mem_cons.2 ⟨he, hes⟩
  all_goals assumption

def isUnary : Expr → Bool
  | unary _ _ => true
  | _ => false

def enclose (e : Expr) (ws : List Lexeme) : List Lexeme :=
  if e.isBinary then .punct .lparen :: (ws ++ [.punct .rparen]) else ws

mutual

def lexemes : Expr → List Lexeme
  | int value => [.int (toString value)]
  | bool true => [.keyword .kwTrue]
  | bool false => [.keyword .kwFalse]
  | var name => [.ident name]
  | self => [.keyword .kwThis]
  | unary op e => .punct (signOf op) :: e.enclose e.lexemes
  | binary op e₁ e₂ => e₁.enclose e₁.lexemes ++ .punct (markOf op) :: e₂.enclose e₂.lexemes
  | index a i => a.enclose a.lexemes ++ .punct .lbracket :: (i.lexemes ++ [.punct .rbracket])
  | length a => a.enclose a.lexemes ++ [.punct .dot, .ident "length"]
  | call receiver method args => receiver.enclose receiver.lexemes ++
      .punct .dot :: .ident method :: .punct .lparen :: (commas (lexemesList args) ++ [.punct .rparen])
  | newArray size => .keyword .kwNew :: .keyword .kwInt :: .punct .lbracket :: (size.lexemes ++ [.punct .rbracket])
  | newObject name => [.keyword .kwNew, .ident name, .punct .lparen, .punct .rparen]

def lexemesList : List Expr → List (List Lexeme)
  | [] => []
  | e :: es => e.lexemes :: lexemesList es

end

mutual

/-- The levels of nesting that an expression's text opens. -/
def nesting : Expr → Nat
  | unary _ e => e.nesting + e.isBinary.toNat + 1
  | binary _ e₁ e₂ => max (e₁.nesting + e₁.isBinary.toNat) (e₂.nesting + e₂.isBinary.toNat)
  | index a i => max (a.nesting + a.isBinary.toNat) (i.nesting + 1)
  | length a => a.nesting + a.isBinary.toNat
  | call receiver _ args => max (receiver.nesting + receiver.isBinary.toNat) (nestingList args)
  | newArray size => size.nesting + 1
  | _ => 0

def nestingList : List Expr → Nat
  | [] => 0
  | e :: es => max (e.nesting + 1) (nestingList es)

end

mutual

/-- No index, length or call has a unary expression as its base. -/
def regular : Expr → Bool
  | unary _ e | newArray e => e.regular
  | binary _ e₁ e₂ => e₁.regular && e₂.regular
  | index a i => !a.isUnary && a.regular && i.regular
  | length a => !a.isUnary && a.regular
  | call receiver _ args => !receiver.isUnary && receiver.regular && regularList args
  | _ => true

def regularList : List Expr → Bool
  | [] => true
  | e :: es => e.regular && regularList es

end

/-- The expression with a suffix, which binds tighter than a unary operator. -/
def hoist (suffix : Expr → Expr) : Expr → Expr
  | unary op e => unary op (e.hoist suffix)
  | e => suffix e

mutual

/-- The expression that an expression's text is read as. -/
def norm : Expr → Expr
  | unary op e => unary op e.norm
  | binary op e₁ e₂ => binary op e₁.norm e₂.norm
  | index a i => a.norm.hoist (index · i.norm)
  | length a => a.norm.hoist length
  | call receiver method args => receiver.norm.hoist (call · method (normList args))
  | newArray size => newArray size.norm
  | e => e

def normList : List Expr → List Expr
  | [] => []
  | e :: es => e.norm :: normList es

end

theorem texts_eq_map (es : List Expr) : texts es = es.map text := by
  induction es with
  | nil => rfl
  | cons e es ih => rw [texts, ih, List.map_cons]

theorem lexemesList_eq_map (es : List Expr) : lexemesList es = es.map lexemes := by
  induction es with
  | nil => rfl
  | cons e es ih => rw [lexemesList, ih, List.map_cons]

theorem normList_eq_map (es : List Expr) : normList es = es.map norm := by
  induction es with
  | nil => rfl
  | cons e es ih => rw [normList, ih, List.map_cons]

theorem regularList_eq_true {es : List Expr} : regularList es = true ↔ ∀ e ∈ es, e.regular = true := by
  induction es with
  | nil => simp [regularList]
  | cons e es ih => simp [regularList, ih]

variable {suffix : Expr → Expr}

theorem isBinary_hoist (hsuffix : ∀ b, (suffix b).isBinary = false) (e : Expr) :
    (e.hoist suffix).isBinary = false := by
  cases e with
  | unary => rfl
  | _ => exact hsuffix _

theorem hoist_of_not_unary {e : Expr} (h : e.isUnary = false) : e.hoist suffix = suffix e := by
  cases e with
  | unary => cases h
  | _ => rfl

theorem regular_hoist {e : Expr}
    (hsuffix : ∀ b : Expr, b.isUnary = false → b.regular = true → (suffix b).regular = true)
    (he : e.regular = true) : (e.hoist suffix).regular = true := by
  fun_induction hoist suffix e with
  | case1 op e ih => exact ih he
  | case2 e hnot => exact hsuffix e (by cases e <;> simp_all [isUnary]) he

theorem lexemes_hoist {us : List Lexeme} (hbinary : ∀ b, (suffix b).isBinary = false)
    (hsuffix : ∀ b : Expr, (suffix b).lexemes = b.enclose b.lexemes ++ us) (e : Expr) :
    (e.hoist suffix).lexemes = e.enclose e.lexemes ++ us := by
  fun_induction hoist suffix e with
  | case1 op e ih =>
      have hne : (e.hoist suffix).enclose (e.hoist suffix).lexemes = (e.hoist suffix).lexemes :=
        if_neg (by simp [isBinary_hoist hbinary])
      rw [lexemes, hne, ih]
      rfl
  | case2 e hnot => exact hsuffix e

theorem isBinary_norm (e : Expr) : e.norm.isBinary = e.isBinary := by
  cases e with
  | index | length | call => exact isBinary_hoist (fun _ => rfl) _
  | _ => rfl

theorem regular_norm (e : Expr) : e.norm.regular = true := by
  induction e using Expr.induction with
  | int | bool | var | self | newObject => rfl
  | unary op e ih | newArray e ih => exact ih
  | binary op e₁ e₂ ih₁ ih₂ => simp [norm, regular, ih₁, ih₂]
  | index a i iha ihi => exact regular_hoist (fun b hb hreg => by simp [regular, hb, hreg, ihi]) iha
  | length a iha => exact regular_hoist (fun b hb hreg => by simp [regular, hb, hreg]) iha
  | call r f args ihr ihargs =>
      have hargs : regularList (normList args) = true := by
        rw [regularList_eq_true, normList_eq_map]
        simpa using ihargs
      exact regular_hoist (fun b hb hreg => by simp [regular, hb, hreg, hargs]) ihr

theorem norm_of_regular {e : Expr} (h : e.regular = true) : e.norm = e := by
  induction e using Expr.induction with
  | int | bool | var | self | newObject => rfl
  | unary op e ih | newArray e ih => rw [norm, ih h]
  | binary op e₁ e₂ ih₁ ih₂ =>
      simp only [regular, Bool.and_eq_true] at h
      rw [norm, ih₁ h.1, ih₂ h.2]
  | index a i iha ihi =>
      simp only [regular, Bool.and_eq_true, Bool.not_eq_true'] at h
      rw [norm, iha h.1.2, ihi h.2, hoist_of_not_unary h.1.1]
  | length a iha =>
      simp only [regular, Bool.and_eq_true, Bool.not_eq_true'] at h
      rw [norm, iha h.2, hoist_of_not_unary h.1]
  | call r f args ihr ihargs =>
      simp only [regular, Bool.and_eq_true, Bool.not_eq_true', regularList_eq_true] at h
      have hargs : normList args = args := by
        rw [normList_eq_map]
        exact (List.map_congr_left fun a ha => ihargs a ha (h.2 a ha)).trans (List.map_id args)
      rw [norm, ihr h.1.2, hargs, hoist_of_not_unary h.1.1]

theorem norm_eq_self_iff {e : Expr} : e.norm = e ↔ e.regular = true :=
  ⟨fun h => h ▸ regular_norm e, norm_of_regular⟩

theorem enclose_norm {e : Expr} (h : e.norm.lexemes = e.lexemes) :
    e.norm.enclose e.norm.lexemes = e.enclose e.lexemes := by
  rw [enclose, isBinary_norm, h, ← enclose]

theorem lexemes_norm (e : Expr) : e.norm.lexemes = e.lexemes := by
  induction e using Expr.induction with
  | int | bool | var | self | newObject => rfl
  | unary op e ih => rw [norm, lexemes, lexemes, enclose_norm ih]
  | newArray e ih => rw [norm, lexemes, lexemes, ih]
  | binary op e₁ e₂ ih₁ ih₂ => rw [norm, lexemes, lexemes, enclose_norm ih₁, enclose_norm ih₂]
  | index a i iha ihi =>
      rw [norm, lexemes_hoist (fun _ => rfl) (fun _ => rfl), enclose_norm iha, lexemes, ihi]
  | length a iha =>
      rw [norm, lexemes_hoist (fun _ => rfl) (fun _ => rfl), enclose_norm iha, lexemes]
  | call r f args ihr ihargs =>
      have hargs : lexemesList (normList args) = lexemesList args := by
        rw [lexemesList_eq_map, lexemesList_eq_map, normList_eq_map, List.map_map]
        exact List.map_congr_left ihargs
      rw [norm, lexemes_hoist (fun _ => rfl) (fun _ => rfl), enclose_norm ihr, lexemes, hargs]

def rank : Expr → Rank
  | binary _ _ _ => .levels precedence
  | unary _ _ => .operand
  | _ => .suffixed

variable {e : Expr} {ws : List Lexeme} {d : Nat}

theorem renders_whole (h : Renders e.rank e ws d) : Renders .whole e ws (d + 1) := by
  cases e with
  | binary => exact .whole h
  | unary => exact .whole (h.at_levels _)
  | _ => exact .whole (Renders.at_levels (.suffixed h) _)

theorem renders_base (h : Renders e.rank e ws d) (he : e.isUnary = false) :
    Renders .suffixed e (e.enclose ws) (d + e.isBinary.toNat) := by
  cases e with
  | binary => exact .primary (.group (renders_whole h))
  | unary => cases he
  | _ => exact h

theorem renders_operand (h : Renders e.rank e ws d) : Renders .operand e (e.enclose ws) (d + e.isBinary.toNat) := by
  cases e with
  | unary => exact h
  | _ => exact .suffixed (renders_base h rfl)

theorem renders_looser {ls ls' : List (List BinOp)} (h : Renders (.levels ls) e ws d) (hs : ls <:+ ls') :
    Renders (.levels ls') e ws d := by
  induction ls' with
  | nil => rwa [List.suffix_nil.1 hs] at h
  | cons ops ls' ih =>
      rcases List.suffix_cons_iff.1 hs with rfl | hs
      · exact h
      · exact .tighter ops (ih hs)

theorem exists_level (op : BinOp) : ∃ ops ls, op ∈ ops ∧ ops :: ls <:+ precedence := by
  have hlevel : ∃ ops ∈ precedence, op ∈ ops := by cases op <;> decide
  obtain ⟨ops, hops, hop⟩ := hlevel
  obtain ⟨looser, ls, hsplit⟩ := List.append_of_mem hops
  exact ⟨ops, ls, hop, looser, hsplit.symm⟩

def argument (e : Expr) : Argument := ⟨e, e.lexemes, e.nesting + 1⟩

theorem nestingList_eq_deepest (es : List Expr) : nestingList es = deepest (es.map argument) := by
  induction es with
  | nil => rfl
  | cons e es ih => rw [nestingList, ih, List.map_cons, deepest, argument]

theorem renders_lexemes (h : e.regular = true) : Renders e.rank e e.lexemes e.nesting := by
  induction e using Expr.induction with
  | int n => exact .primary (.int (numeral_toString n))
  | bool b => cases b <;> exact .primary (by constructor)
  | var x => exact .primary (.var x)
  | self => exact .primary .self
  | newObject x => exact .primary (.newObject x)
  | newArray e ih => exact .primary (.newArray (renders_whole (ih h)))
  | unary op e ih => exact .sign op (renders_operand (ih h))
  | binary op e₁ e₂ ih₁ ih₂ =>
      simp only [regular, Bool.and_eq_true] at h
      obtain ⟨ops, ls, hop, hs⟩ := exists_level op
      have h₁ := (renders_operand (ih₁ h.1)).at_levels (ops :: ls)
      have h₂ := (renders_operand (ih₂ h.2)).at_levels ls
      exact renders_looser (.binary hop h₁ h₂) hs
  | index a i iha ihi =>
      simp only [regular, Bool.and_eq_true, Bool.not_eq_true'] at h
      exact .index (renders_base (iha h.1.2) h.1.1) (renders_whole (ihi h.2))
  | length a iha =>
      simp only [regular, Bool.and_eq_true, Bool.not_eq_true'] at h
      exact .length (renders_base (iha h.2) h.1)
  | call r f args ihr ihargs =>
      simp only [regular, Bool.and_eq_true, Bool.not_eq_true', regularList_eq_true] at h
      have hargs : ∀ a ∈ args.map argument, Renders .whole a.value a.words a.depth := by
        simpa [argument] using fun a ha => renders_whole (ihargs a ha (h.2 a ha))
      have hvalues : (args.map argument).map (·.value) = args := by
        rw [List.map_map]
        exact List.map_id args
      have hwords : (args.map argument).map (·.words) = lexemesList args := by
        rw [List.map_map, lexemesList_eq_map]
        rfl
      have hcall := Renders.call f (args.map argument) (renders_base (ihr h.1.2) h.1.1) hargs
      rwa [hvalues, hwords, ← nestingList_eq_deepest] at hcall

end Expr

namespace Lexer

def Readable (w : Lexeme) : Prop := Valid w ∧ Fits [w]

@[simp] theorem readable_punct (p : Punct) : Readable (.punct p) := ⟨trivial, by simp⟩

@[simp] theorem readable_keyword (k : Keyword) : Readable (.keyword k) := ⟨trivial, by simp⟩

@[simp] theorem readable_ident {name : String} : Readable (.ident name) ↔ Valid (.ident name) := by
  simp [Readable]

theorem valid_toString_iff {n : Int} : Valid (.int (toString n)) ↔ 0 ≤ n := by
  constructor
  · exact fun h => (numeral_toString n).nonneg h.2
  · intro hn
    obtain ⟨k, rfl⟩ := Int.eq_ofNat_of_zero_le hn
    exact valid_int k

theorem readable_int {n : Int} : Readable (.int (toString n)) ↔ 0 ≤ n ∧ n < 2 ^ 63 := by
  rw [Readable, valid_toString_iff, fits_int, and_iff_left fits_nil]
  refine and_congr_right fun hn => ⟨?_, fun hlimit => ⟨n, numeral_toString n, ?_, hlimit⟩⟩
  · rintro ⟨m, hm, _, hlimit⟩
    rwa [(numeral_toString n).unique hm]
  · omega

end Lexer

namespace Expr

def Readable (e : Expr) : Prop := ∀ w ∈ e.lexemes, Lexer.Readable w

theorem forall_mem_enclose {P : Lexeme → Prop} (hP : ∀ p, P (.punct p)) {e : Expr} {ws : List Lexeme} :
    (∀ w ∈ e.enclose ws, P w) ↔ ∀ w ∈ ws, P w := by
  unfold enclose
  split <;> simp [or_imp, forall_and, hP]

theorem forall_mem_commas {P : Lexeme → Prop} (hP : P (.punct .comma)) {wss : List (List Lexeme)} :
    (∀ w ∈ commas wss, P w) ↔ ∀ ws ∈ wss, ∀ w ∈ ws, P w := by
  fun_induction commas wss with
  | case1 => simp
  | case2 ws => simp
  | case3 ws rest hrest ih =>
      rw [List.forall_mem_append, List.forall_mem_cons, List.forall_mem_cons, ih]
      simp [hP]

theorem readable_unary {op : UnOp} {e : Expr} : (unary op e).Readable ↔ e.Readable := by
  simp [Readable, lexemes, forall_mem_enclose Lexer.readable_punct]

theorem readable_binary {op : BinOp} {e₁ e₂ : Expr} : (binary op e₁ e₂).Readable ↔ e₁.Readable ∧ e₂.Readable := by
  simp [Readable, lexemes, or_imp, forall_and, forall_mem_enclose Lexer.readable_punct]

theorem readable_index {a i : Expr} : (index a i).Readable ↔ a.Readable ∧ i.Readable := by
  simp [Readable, lexemes, or_imp, forall_and, forall_mem_enclose Lexer.readable_punct]

theorem valid_length : Lexer.Valid (.ident "length") := by decide +kernel

theorem readable_length {a : Expr} : (length a).Readable ↔ a.Readable := by
  simp [Readable, lexemes, or_imp, forall_and, forall_mem_enclose Lexer.readable_punct, valid_length]

theorem readable_call {r : Expr} {f : String} {args : List Expr} :
    (call r f args).Readable ↔ r.Readable ∧ Lexer.Valid (.ident f) ∧ ∀ a ∈ args, a.Readable := by
  simp [Readable, lexemes, or_imp, forall_and, forall_mem_enclose Lexer.readable_punct, lexemesList_eq_map,
    forall_mem_commas (Lexer.readable_punct .comma)]

theorem readable_newArray {e : Expr} : (newArray e).Readable ↔ e.Readable := by
  simp [Readable, lexemes, or_imp, forall_and]

theorem readable_name {name : String} : (var name).Readable ↔ Lexer.Valid (.ident name) := by
  simp [Readable, lexemes]

theorem readable_newObject {name : String} : (newObject name).Readable ↔ Lexer.Valid (.ident name) := by
  simp [Readable, lexemes]

theorem readable_value {n : Int} : (int n).Readable ↔ 0 ≤ n ∧ n < 2 ^ 63 := by
  simp only [Readable, lexemes, List.forall_mem_singleton, Lexer.readable_int]

/-- An expression that is spelled by words of a source text is readable. -/
theorem readable_of_renders {r : Rank} {e : Expr} {ws : List Lexeme} {d : Nat} (h : Renders r e ws d)
    (hws : ∀ w ∈ ws, Lexer.Readable w) : e.Readable := by
  induction h with
  | int hn =>
      obtain ⟨hvalid, hfits⟩ := hws _ List.mem_cons_self
      obtain ⟨⟨m, hm, _, hlimit⟩, _⟩ := fits_int.1 hfits
      exact readable_value.2 ⟨hn.nonneg hvalid.2, hn.unique hm ▸ hlimit⟩
  | var | yes | no | self | newObject => exact hws
  | primary _ ih | suffixed _ ih | operand _ ih | tighter _ _ ih | whole _ ih => exact ih hws
  | newArray _ ih =>
      simp only [List.forall_mem_cons, List.forall_mem_append] at hws
      exact readable_newArray.2 (ih hws.2.2.2.1)
  | group _ ih =>
      simp only [List.forall_mem_cons, List.forall_mem_append] at hws
      exact ih hws.2.1
  | index _ _ ih₁ ih₂ =>
      simp only [List.forall_mem_cons, List.forall_mem_append] at hws
      exact readable_index.2 ⟨ih₁ hws.1, ih₂ hws.2.2.1⟩
  | length _ ih => exact readable_length.2 (ih (List.forall_mem_append.1 hws).1)
  | call name args _ _ ih ihargs =>
      simp only [List.forall_mem_cons, List.forall_mem_append] at hws
      obtain ⟨hbase, _, hname, _, hcommas, _⟩ := hws
      rw [forall_mem_commas (Lexer.readable_punct .comma), List.forall_mem_map] at hcommas
      refine readable_call.2 ⟨ih hbase, hname.1, List.forall_mem_map.2 fun a ha => ?_⟩
      exact ihargs a ha (hcommas a ha)
  | sign op _ ih => exact readable_unary.2 (ih (List.forall_mem_cons.1 hws).2)
  | binary _ _ _ ih₁ ih₂ =>
      simp only [List.forall_mem_cons, List.forall_mem_append] at hws
      exact readable_binary.2 ⟨ih₁ hws.1, ih₂ hws.2.2⟩

def BeginsApart (s : String) : Prop := ∃ c cs, s.toList = c :: cs ∧ c ≠ '='

theorem BeginsApart.append {s : String} (h : BeginsApart s) (t : String) : BeginsApart (s ++ t) := by
  obtain ⟨c, cs, hs, hc⟩ := h
  exact ⟨c, cs ++ t.toList, by rw [String.toList_append, hs, List.cons_append], hc⟩

theorem BeginsApart.wrap {e : Expr} {s : String} (h : BeginsApart s) : BeginsApart (e.wrap s) := by
  unfold Expr.wrap
  split
  · have hparen : BeginsApart "(" := ⟨'(', [], rfl, by decide⟩
    exact (hparen.append s).append ")"
  · exact h

theorem beginsApart_text {e : Expr} (h : e.Readable) : BeginsApart e.text := by
  induction e using Expr.induction with
  | int n =>
      obtain ⟨hne, hdigits⟩ := Lexer.valid_toString_iff.2 (readable_value.1 h).1
      obtain ⟨c, cs, hcs⟩ := List.exists_cons_of_ne_nil hne
      refine ⟨c, cs, hcs, ?_⟩
      rintro rfl
      exact absurd (hdigits '=' (hcs ▸ List.mem_cons_self)) (by decide)
  | bool b => cases b <;> exact ⟨_, _, rfl, by decide⟩
  | var x =>
      obtain ⟨c, cs, hcs, hc, -⟩ := Lexer.cons_of_isWord (Lexer.valid_ident.1 (readable_name.1 h)).1
      refine ⟨c, cs, hcs, ?_⟩
      rintro rfl
      exact absurd hc (by decide)
  | self => exact ⟨_, _, rfl, by decide⟩
  | newObject x =>
      have hnew : BeginsApart "new " := ⟨_, _, rfl, by decide⟩
      exact (hnew.append x).append "()"
  | newArray e =>
      have hnew : BeginsApart "new int[" := ⟨_, _, rfl, by decide⟩
      exact (hnew.append e.text).append "]"
  | unary op e =>
      have hop : BeginsApart op.punct.text := by cases op <;> exact ⟨_, _, rfl, by decide⟩
      exact hop.append _
  | binary op e₁ e₂ ih₁ =>
      have hleft : BeginsApart (e₁.wrap e₁.text) := (ih₁ (readable_binary.1 h).1).wrap
      exact (((hleft.append _).append _).append _).append _
  | index a i iha => exact (((iha (readable_index.1 h).1).wrap.append _).append _).append _
  | length a iha => exact (iha (readable_length.1 h)).wrap.append _
  | call r f args ihr =>
      have hbase : BeginsApart (r.wrap r.text) := (ihr (readable_call.1 h).1).wrap
      exact ((((hbase.append _).append _).append _).append _).append _

open Lexer

theorem writes_wrap {e : Expr} (h : Writes e.lexemes e.text) : Writes (e.enclose e.lexemes) (e.wrap e.text) := by
  unfold enclose Expr.wrap
  split
  · intro us cs hus _
    simp only [String.toList_append, List.append_assoc, List.cons_append, List.nil_append]
    exact .mark (p := .lparen) (fun _ => rfl) (h.mark (p := .rparen) (fun _ => rfl) hus)
  · exact h

theorem joins_sign {op : UnOp} {c : Char} (hc : c ≠ '=') : joins (.punct (signOf op)) c = false := by
  cases op <;> simp [joins, signOf, hc]

/-- The text of a readable expression is that of its words. -/
theorem writes_text {e : Expr} (h : e.Readable) : Writes e.lexemes e.text := by
  induction e using Expr.induction with
  | int n => exact writes_int (valid_toString_iff.2 (readable_value.1 h).1)
  | bool b => cases b <;> exact writes_keyword _
  | var x => exact writes_ident (readable_name.1 h)
  | self => exact writes_keyword _
  | newObject x =>
      intro us cs hus hcs
      have hname := writes_ident (readable_newObject.1 h)
      simp only [text, lexemes, String.toList_append, List.append_assoc, List.cons_append, List.nil_append]
      exact (writes_keyword .kwNew).blank
        (hname.mark (p := .lparen) (fun _ => rfl) (.mark (p := .rparen) (fun _ => rfl) hus))
  | newArray e ih =>
      intro us cs hus hcs
      have hsize := (ih (readable_newArray.1 h)).mark (p := .rbracket) (fun _ => rfl) hus
      simp only [text, lexemes, String.toList_append, List.append_assoc, List.cons_append, List.nil_append]
      exact (writes_keyword .kwNew).blank ((writes_keyword .kwInt).mark (p := .lbracket) (fun _ => rfl) hsize)
  | unary op e ih =>
      intro us cs hus hcs
      have hoperand := readable_unary.1 h
      obtain ⟨c, rest, hrest, hc⟩ := (beginsApart_text hoperand).wrap (e := e)
      simp only [text, lexemes, punct_eq_signOf, String.toList_append, List.append_assoc, List.cons_append]
      refine .word trivial (fun d hd => ?_) (writes_wrap (ih hoperand) hus hcs)
      rw [hrest] at hd
      cases hd
      exact joins_sign hc
  | binary op e₁ e₂ ih₁ ih₂ =>
      intro us cs hus hcs
      obtain ⟨h₁, h₂⟩ := readable_binary.1 h
      have hright := writes_wrap (ih₂ h₂) hus hcs
      simp only [text, lexemes, punct_eq_markOf, String.toList_append, List.append_assoc, List.cons_append]
      exact writes_wrap (ih₁ h₁) (.spaced (markOf op) hright) (stops_cons rfl _)
  | index a i iha ihi =>
      intro us cs hus hcs
      obtain ⟨ha, hi⟩ := readable_index.1 h
      have hplace := (ihi hi).mark (p := .rbracket) (fun _ => rfl) hus
      simp only [text, lexemes, String.toList_append, List.append_assoc, List.cons_append, List.nil_append]
      exact (writes_wrap (iha ha)).mark (p := .lbracket) (fun _ => rfl) hplace
  | length a iha =>
      intro us cs hus hcs
      have ha := iha (readable_length.1 h)
      simp only [text, lexemes, String.toList_append, List.append_assoc, List.cons_append, List.nil_append]
      exact (writes_wrap ha).mark (p := .dot) (fun _ => rfl) (writes_ident valid_length hus hcs)
  | call r f args ihr ihargs =>
      intro us cs hus hcs
      obtain ⟨hr, hf, hargs⟩ := readable_call.1 h
      have hlist := writes_commas fun a ha => ihargs a ha (hargs a ha)
      simp only [text, lexemes, texts_eq_map, lexemesList_eq_map, String.toList_append, List.append_assoc,
        List.cons_append, List.nil_append]
      exact (writes_wrap (ihr hr)).mark (p := .dot) (fun _ => rfl)
        ((writes_ident hf).mark (p := .lparen) (fun _ => rfl) (hlist.mark (p := .rparen) (fun _ => rfl) hus))

end Expr

end Backflow
