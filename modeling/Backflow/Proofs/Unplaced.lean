import Backflow.Proofs.Placement
import Backflow.Proofs.StatementNumbers
import Backflow.Proofs.Statements

namespace Backflow

def Tag.unplaced (t : Tag) : Tag := { t with loc := .start }

def Program.unplaced (p : Program) : Program := p.retag Tag.unplaced

namespace Stmt

variable {f : Tag → Tag}

theorem preorder_retag (f : Tag → Tag) :
    (∀ s : Stmt, (s.retag f).preorder = s.preorder.map (retag f)) ∧
      ∀ l : List Stmt, preorderList (retagList f l) = (preorderList l).map (retag f) := by
  apply Stmt.induction
  case plain => intro s hs; apply hs.cases <;> intros <;> rfl
  case ret | brk | cont => intros; rfl
  case nil => rfl
  case block =>
    intro t body ih
    rw [retag, preorder, ih, preorder, List.map_cons, retag]
  case ifThen | loop =>
    intro t c s ih
    rw [retag, preorder, ih, preorder, List.map_cons, retag]
  case ifElse =>
    intro t c yes no ihyes ihno
    rw [retag, preorder, ihyes, ihno, preorder, List.map_cons, List.map_append, retag]
  case cons =>
    intro s rest ihs ihrest
    rw [retagList, preorderList, ihs, ihrest, preorderList, List.map_append]

theorem retag_retag (f g : Tag → Tag) :
    (∀ s : Stmt, (s.retag f).retag g = s.retag (g ∘ f)) ∧
      ∀ l : List Stmt, retagList g (retagList f l) = retagList (g ∘ f) l := by
  apply Stmt.induction
  case plain => intro s hs; apply hs.cases <;> intros <;> rfl
  case ret | brk | cont => intros; rfl
  case nil => rfl
  case block =>
    intro t body ih
    rw [retag, retag, ih, retag]
    rfl
  case ifThen | loop =>
    intro t c s ih
    rw [retag, retag, ih, retag]
    rfl
  case ifElse =>
    intro t c yes no ihyes ihno
    rw [retag, retag, ihyes, ihno, retag]
    rfl
  case cons =>
    intro s rest ihs ihrest
    rw [retagList, retagList, ihs, ihrest, retagList]

theorem length_ids {s s' : Stmt} (h : s.retag f = s'.retag f) : s.ids.length = s'.ids.length := by
  have hlen := congrArg (fun x => x.preorder.length) h
  simp only [(preorder_retag f).1, List.length_map] at hlen
  rwa [ids, ids, List.length_map, List.length_map]

end Stmt

theorem map_eq_of_flatMap_eq {α β γ δ : Type} {f : α → β} {g : α → γ} {ids : α → List δ}
    (hlen : ∀ a a', f a = f a' → (ids a).length = (ids a').length) {l l' : List α}
    (hone : ∀ a ∈ l, ∀ a', f a = f a' → ids a = ids a' → g a = g a') (hf : l.map f = l'.map f)
    (hids : l.flatMap ids = l'.flatMap ids) : l.map g = l'.map g := by
  induction l generalizing l' with
  | nil => rw [List.map_eq_nil_iff.1 hf.symm]
  | cons a l ih =>
      cases l' with
      | nil => cases hf
      | cons a' l' =>
          obtain ⟨ha, hl⟩ := List.cons.inj hf
          obtain ⟨hidsa, hidsl⟩ := List.append_inj hids (hlen a a' ha)
          obtain ⟨hhead, htail⟩ := List.forall_mem_cons.1 hone
          rw [List.map_cons, List.map_cons, hhead a' ha hidsa, ih htail hl hidsl]

namespace Stmt

theorem head_unplaced {t t' : Tag} {ns ns' : List Nat} (h : t.id :: ns = t'.id :: ns') :
    t.unplaced = t'.unplaced := by
  rw [Tag.unplaced, Tag.unplaced, (List.cons.inj h).1]

theorem unplaced_of_bare :
    (∀ s s' : Stmt, s.retag Tag.bare = s'.retag Tag.bare → s.ids = s'.ids →
      s.retag Tag.unplaced = s'.retag Tag.unplaced) ∧
    ∀ l : List Stmt, ∀ s ∈ l, ∀ s' : Stmt, s.retag Tag.bare = s'.retag Tag.bare → s.ids = s'.ids →
      s.retag Tag.unplaced = s'.retag Tag.unplaced := by
  apply Stmt.induction
  case plain =>
    intro s hs
    apply hs.cases
    · intro t x e s' h hids
      cases s' <;> cases h
      exact congrArg (assign · x e) (head_unplaced hids)
    · intro t x i e s' h hids
      cases s' <;> cases h
      exact congrArg (store · x i e) (head_unplaced hids)
    · intro t e s' h hids
      cases s' <;> cases h
      exact congrArg (print · e) (head_unplaced hids)
    · intro t r f args s' h hids
      cases s' <;> cases h
      exact congrArg (call · r f args) (head_unplaced hids)
  case ret =>
    intro t value s' h hids
    cases s' <;> cases h
    exact congrArg (ret · value) (head_unplaced hids)
  case brk =>
    intro t s' h hids
    cases s' <;> cases h
    exact congrArg brk (head_unplaced hids)
  case cont =>
    intro t s' h hids
    cases s' <;> cases h
    exact congrArg cont (head_unplaced hids)
  case block =>
    intro t body ih s' h hids
    cases s' with
    | block t' body' =>
        obtain ⟨_, hbody⟩ := block.inj h
        rw [retagList_eq_map, retagList_eq_map] at hbody
        have htag : t.unplaced = t'.unplaced := head_unplaced hids
        have hids := (List.cons.inj hids).2
        rw [← flatMap_ids, ← flatMap_ids] at hids
        rw [retag, retag, retagList_eq_map, retagList_eq_map, htag,
          map_eq_of_flatMap_eq (fun _ _ => length_ids) ih hbody hids]
    | _ => cases h
  case ifThen =>
    intro t c yes ih s' h hids
    cases s' with
    | ifThen t' c' yes' =>
        obtain ⟨_, rfl, hyes⟩ := ifThen.inj h
        have htag : t.unplaced = t'.unplaced := head_unplaced hids
        rw [retag, retag, htag, ih yes' hyes (List.cons.inj hids).2]
    | _ => cases h
  case ifElse =>
    intro t c yes no ihyes ihno s' h hids
    cases s' with
    | ifElse t' c' yes' no' =>
        obtain ⟨_, rfl, hyes, hno⟩ := ifElse.inj h
        have htag : t.unplaced = t'.unplaced := head_unplaced hids
        have hids := (List.cons.inj hids).2
        rw [List.map_append, List.map_append] at hids
        obtain ⟨hyesids, hnoids⟩ := List.append_inj hids (length_ids hyes)
        rw [retag, retag, htag, ihyes yes' hyes hyesids, ihno no' hno hnoids]
    | _ => cases h
  case loop =>
    intro t c body ih s' h hids
    cases s' with
    | loop t' c' body' =>
        obtain ⟨_, rfl, hbody⟩ := loop.inj h
        have htag : t.unplaced = t'.unplaced := head_unplaced hids
        rw [retag, retag, htag, ih body' hbody (List.cons.inj hids).2]
    | _ => cases h
  case nil => exact List.forall_mem_nil _
  case cons => exact fun s rest hs hrest => List.forall_mem_cons.2 ⟨hs, hrest⟩

end Stmt

theorem length_flatMap_eq {α β δ : Type} {f : α → β} {ids : α → List δ}
    (hlen : ∀ a a', f a = f a' → (ids a).length = (ids a').length) {l l' : List α} (hf : l.map f = l'.map f) :
    (l.flatMap ids).length = (l'.flatMap ids).length := by
  induction l generalizing l' with
  | nil => rw [List.map_eq_nil_iff.1 hf.symm]
  | cons a l ih =>
      cases l' with
      | nil => cases hf
      | cons a' l' =>
          obtain ⟨ha, hl⟩ := List.cons.inj hf
          rw [List.flatMap_cons, List.flatMap_cons, List.length_append, List.length_append, hlen a a' ha, ih hl]

namespace Method

variable {m m' : Method}

theorem ids_eq_flatMap (m : Method) : m.ids = m.body.flatMap Stmt.ids := (Stmt.flatMap_ids m.body).symm

theorem length_ids (h : m.retag Tag.bare = m'.retag Tag.bare) : m.ids.length = m'.ids.length := by
  rw [ids_eq_flatMap, ids_eq_flatMap]
  exact length_flatMap_eq (fun _ _ => Stmt.length_ids) (congrArg Method.body h)

theorem unplaced_of_bare (h : m.retag Tag.bare = m'.retag Tag.bare) (hids : m.ids = m'.ids) :
    m.retag Tag.unplaced = m'.retag Tag.unplaced := by
  rw [ids_eq_flatMap, ids_eq_flatMap] at hids
  obtain ⟨hname, hstatic, hreturns, hparams, hlocals, hbody, _⟩ := Method.mk.inj h
  refine retag_congr hname hstatic hreturns hparams hlocals ?_
  exact map_eq_of_flatMap_eq (fun _ _ => Stmt.length_ids) (fun s _ => Stmt.unplaced_of_bare.1 s) hbody hids

theorem retag_retag (f g : Tag → Tag) (m : Method) : (m.retag f).retag g = m.retag (g ∘ f) := by
  simp only [Method.retag, List.map_map, Function.comp_def, (Stmt.retag_retag f g).1]
  rfl

end Method

namespace Class

variable {c c' : Class}

theorem length_ids (h : c.retag Tag.bare = c'.retag Tag.bare) :
    (c.methods.flatMap Method.ids).length = (c'.methods.flatMap Method.ids).length :=
  length_flatMap_eq (fun _ _ => Method.length_ids) (congrArg Class.methods h)

theorem unplaced_of_bare (h : c.retag Tag.bare = c'.retag Tag.bare)
    (hids : c.methods.flatMap Method.ids = c'.methods.flatMap Method.ids) :
    c.retag Tag.unplaced = c'.retag Tag.unplaced := by
  obtain ⟨hname, hparent, hfields, hmethods, _⟩ := Class.mk.inj h
  refine retag_congr hname hparent hfields ?_
  exact map_eq_of_flatMap_eq (fun _ _ => Method.length_ids) (fun _ _ _ => Method.unplaced_of_bare) hmethods hids

theorem retag_retag (f g : Tag → Tag) (c : Class) : (c.retag f).retag g = c.retag (g ∘ f) := by
  simp only [Class.retag, List.map_map, Function.comp_def, Method.retag_retag]
  rfl

end Class

namespace Program

variable {p q : Program}

/-- Two programs that were read, and that are alike but for tags, have the same numbers too. -/
theorem unplaced_of_bare {source source' : String} (hp : parse source = .ok p) (hq : parse source' = .ok q)
    (h : q.retag Tag.bare = p.retag Tag.bare) : q.unplaced = p.unplaced := by
  have hclasses : q.classes.map (Class.retag Tag.bare) = p.classes.map (Class.retag Tag.bare) :=
    congrArg Program.classes h
  obtain ⟨n, hn⟩ := ids_of_parse hp
  obtain ⟨k, hk⟩ := ids_of_parse hq
  rw [flatMap_routines] at hn hk
  have hlen := length_flatMap_eq (fun _ _ => Class.length_ids) hclasses
  rw [hn, hk, List.length_range, List.length_range] at hlen
  have hids := hk.trans (hlen ▸ hn.symm)
  rw [unplaced, unplaced, retag, retag,
    map_eq_of_flatMap_eq (fun _ _ => Class.length_ids) (fun _ _ _ => Class.unplaced_of_bare) hclasses hids]

theorem retag_retag (f g : Tag → Tag) (p : Program) : (p.retag f).retag g = p.retag (g ∘ f) := by
  simp only [Program.retag, List.map_map, Function.comp_def, Class.retag_retag]

theorem bare_of_unplaced (h : q.unplaced = p.unplaced) : q.retag Tag.bare = p.retag Tag.bare := by
  have hbare := congrArg (Program.retag Tag.bare) h
  rwa [unplaced, unplaced, retag_retag, retag_retag] at hbare

end Program

end Backflow
