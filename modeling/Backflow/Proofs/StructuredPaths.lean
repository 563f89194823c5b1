import Backflow.Proofs.StructuredLiveness

namespace Backflow

def Transition.Joins (flow : List Transition) (s t : Stmt) : Prop := ∃ o, ⟨some s, o, some t⟩ ∈ flow

def liveInto (flow : List Transition) : Option Stmt → Set String
  | none => ∅
  | some s => {v | LiveAlong (Transition.Joins flow) v s}

variable {flow : List Transition} {s : Stmt} {o : Option Bool} {t : Option Stmt}

theorem uses_subset_liveInto (flow : List Transition) (s : Stmt) :
    {v | v ∈ s.uses} ⊆ liveInto flow (some s) :=
  fun _ hv => liveAlong_iff.2 (Or.inl hv)

theorem sdiff_subset_liveInto (h : ⟨some s, o, t⟩ ∈ flow) :
    liveInto flow t \ {v | v ∈ s.defs} ⊆ liveInto flow (some s) := by
  rintro v ⟨hv, hs⟩
  cases t with
  | none => exact absurd hv (Set.notMem_empty v)
  | some u => exact liveAlong_iff.2 (Or.inr ⟨hs, u, ⟨o, h⟩, hv⟩)

theorem liveInto_subset (hs : s.writes = []) (h : ⟨some s, o, t⟩ ∈ flow) :
    liveInto flow t ⊆ liveInto flow (some s) := by
  refine fun v hv => sdiff_subset_liveInto h ⟨hv, ?_⟩
  change v ∉ NameSet.ofList s.writes
  rw [hs]
  exact NameSet.not_mem_empty v

namespace Stmt

/-- What is assumed to be live where control goes on is live there. -/
structure LiveTargets.Below (K : LiveTargets) (flow : List Transition) (k : Targets) : Prop where
  next : K.next ⊆ liveInto flow k.next
  brk : K.brk ⊆ liveInto flow k.brk
  cont : K.cont ⊆ liveInto flow k.cont

/-- The computation finds live variables only. -/
theorem liveValues_subset_liveInto :
    (∀ s : Stmt, ∀ (k : Targets) (K : LiveTargets), (∀ tr ∈ s.flow k, tr ∈ flow) → K.Below flow k →
      s.liveBefore K ⊆ liveInto flow (s.first k.next) ∧
        ∀ x ∈ s.liveValues K, x.2 ⊆ liveInto flow (some x.1)) ∧
    ∀ l, ∀ (k : Targets) (K : LiveTargets), (∀ tr ∈ flowList k l, tr ∈ flow) → K.Below flow k →
      liveBeforeList K l ⊆ liveInto flow (firstList k.next l) ∧
        ∀ x ∈ liveValuesList K l, x.2 ⊆ liveInto flow (some x.1) := by
  apply Stmt.induction
  case plain =>
    intro s hs k K hflow hK
    rw [hs.flow_eq] at hflow
    have hstep := hflow _ List.mem_cons_self
    have hbefore : s.liveThrough K.next ⊆ liveInto flow (some s) :=
      Set.union_subset (uses_subset_liveInto flow s)
        ((Set.sdiff_subset_sdiff_left hK.next).trans (sdiff_subset_liveInto hstep))
    rw [hs.liveBefore_eq, first_eq_some hs.1, hs.liveValues_eq]
    exact ⟨hbefore, fun x hx => List.mem_singleton.1 hx ▸ hbefore⟩
  case block =>
    intro t body ih k K hflow hK
    rw [Stmt.flow] at hflow
    rw [liveBefore, first, liveValues]
    exact ih k K hflow hK
  case ifThen =>
    intro t c yes ih k K hflow hK
    rw [Stmt.flow] at hflow
    obtain ⟨hyes, hno, hinside⟩ := List.forall_mem_cons.1 hflow |>.imp_right List.forall_mem_cons.1
    obtain ⟨hbefore, hvalues⟩ := ih k K hinside hK
    have htest : (Stmt.ifThen t c yes).liveBefore K ⊆ liveInto flow (some (.ifThen t c yes)) := by
      rw [liveBefore]
      refine Set.union_subset (uses_subset_liveInto flow _) (Set.union_subset ?_ ?_)
      · exact hbefore.trans (liveInto_subset rfl hyes)
      · exact hK.next.trans (liveInto_subset rfl hno)
    rw [liveValues]
    exact ⟨htest, List.forall_mem_cons.2 ⟨htest, hvalues⟩⟩
  case ifElse =>
    intro t c yes no ihyes ihno k K hflow hK
    rw [Stmt.flow] at hflow
    obtain ⟨hyes, hno, hinside⟩ := List.forall_mem_cons.1 hflow |>.imp_right List.forall_mem_cons.1
    rw [List.forall_mem_append] at hinside
    obtain ⟨hbefore, hvalues⟩ := ihyes k K hinside.1 hK
    obtain ⟨hbefore', hvalues'⟩ := ihno k K hinside.2 hK
    have htest : (Stmt.ifElse t c yes no).liveBefore K ⊆ liveInto flow (some (.ifElse t c yes no)) := by
      rw [liveBefore]
      refine Set.union_subset (uses_subset_liveInto flow _) (Set.union_subset ?_ ?_)
      · exact hbefore.trans (liveInto_subset rfl hyes)
      · exact hbefore'.trans (liveInto_subset rfl hno)
    rw [liveValues]
    exact ⟨htest, List.forall_mem_cons.2 ⟨htest, List.forall_mem_append.2 ⟨hvalues, hvalues'⟩⟩⟩
  case loop =>
    intro t c body ih k K hflow hK
    rw [Stmt.flow] at hflow
    obtain ⟨hyes, hno, hinside⟩ := List.forall_mem_cons.1 hflow |>.imp_right List.forall_mem_cons.1
    have htest : (Stmt.loop t c body).liveBefore K ⊆ liveInto flow (some (.loop t c body)) := by
      rw [liveBefore]
      apply liveLoop_subset (monotone_loopBody body K.next)
      refine Set.union_subset (Set.union_subset (uses_subset_liveInto flow _) ?_) ?_
      · exact hK.next.trans (liveInto_subset rfl hno)
      · exact (ih _ _ hinside ⟨subset_rfl, hK.next, subset_rfl⟩).1.trans (liveInto_subset rfl hyes)
    rw [liveValues]
    exact ⟨htest, List.forall_mem_cons.2 ⟨htest, (ih _ _ hinside ⟨htest, hK.next, htest⟩).2⟩⟩
  case ret =>
    intro t value k K hflow hK
    have huses := uses_subset_liveInto flow (.ret t value)
    exact ⟨huses, fun x hx => List.mem_singleton.1 hx ▸ huses⟩
  case brk =>
    intro t k K hflow hK
    have hbefore := hK.brk.trans (liveInto_subset (s := .brk t) rfl (hflow _ List.mem_cons_self))
    exact ⟨hbefore, fun x hx => List.mem_singleton.1 hx ▸ hbefore⟩
  case cont =>
    intro t k K hflow hK
    have hbefore := hK.cont.trans (liveInto_subset (s := .cont t) rfl (hflow _ List.mem_cons_self))
    exact ⟨hbefore, fun x hx => List.mem_singleton.1 hx ▸ hbefore⟩
  case nil => exact fun k K _ hK => ⟨hK.next, fun x hx => absurd hx List.not_mem_nil⟩
  case cons =>
    intro s rest ihs ihrest k K hflow hK
    rw [flowList, List.forall_mem_append] at hflow
    obtain ⟨hbefore, hvalues⟩ := ihrest k K hflow.2 hK
    obtain ⟨hfirst, hinside⟩ := ihs _ { K with next := liveBeforeList K rest } hflow.1
      ⟨hbefore, hK.brk, hK.cont⟩
    rw [liveBeforeList, firstList, liveValuesList]
    exact ⟨hfirst, List.forall_mem_append.2 ⟨hinside, hvalues⟩⟩

/-- A labelling of the places that control can come to, which has the assumed sets where control goes on. -/
structure LiveTargets.Labels (K : LiveTargets) (label : Option Stmt → Set String) (k : Targets) : Prop where
  next : label k.next = K.next
  brk : label k.brk = K.brk
  cont : label k.cont = K.cont
  stop : label none = ∅

def Carries (label : Option Stmt → Set String) (tr : Transition) : Prop :=
  ∀ s, tr.source = some s → label tr.target \ {v | v ∈ s.defs} ⊆ label (some s)

theorem carries_of_subset {label : Option Stmt → Set String} {s : Stmt} {o : Option Bool} {t : Option Stmt}
    (h : label t ⊆ label (some s)) : Carries label ⟨some s, o, t⟩ := by
  rintro _ ⟨⟩
  exact Set.sdiff_subset.trans h

/-- The values of the computation carry live variables back along every transition. -/
theorem carries_liveValues {label : Option Stmt → Set String} :
    (∀ s : Stmt, ∀ (k : Targets) (K : LiveTargets), K.Labels label k →
      (∀ x ∈ s.liveValues K, label (some x.1) = x.2) →
        label (s.first k.next) = s.liveBefore K ∧ ∀ tr ∈ s.flow k, Carries label tr) ∧
    ∀ l, ∀ (k : Targets) (K : LiveTargets), K.Labels label k →
      (∀ x ∈ liveValuesList K l, label (some x.1) = x.2) →
        label (firstList k.next l) = liveBeforeList K l ∧ ∀ tr ∈ flowList k l, Carries label tr := by
  apply Stmt.induction
  case plain =>
    intro s hs k K hK hlabel
    rw [hs.liveValues_eq] at hlabel
    have hs' := hlabel _ List.mem_cons_self
    rw [first_eq_some hs.1, hs.liveBefore_eq, hs.flow_eq]
    refine ⟨hs', fun tr htr => ?_⟩
    rw [List.mem_singleton.1 htr]
    rintro _ ⟨⟩
    rw [hs', hK.next]
    exact Set.subset_union_right
  case block =>
    intro t body ih k K hK hlabel
    rw [liveValues] at hlabel
    rw [first, liveBefore, Stmt.flow]
    exact ih k K hK hlabel
  case ifThen =>
    intro t c yes ih k K hK hlabel
    rw [liveValues, List.forall_mem_cons] at hlabel
    obtain ⟨htest, hinside⟩ := hlabel
    obtain ⟨hyes, hcarries⟩ := ih k K hK hinside
    refine ⟨htest, ?_⟩
    rw [liveBefore] at htest
    rw [Stmt.flow, List.forall_mem_cons, List.forall_mem_cons]
    refine ⟨carries_of_subset ?_, carries_of_subset ?_, hcarries⟩
    · rw [hyes, htest]
      exact Set.subset_union_left.trans Set.subset_union_right
    · rw [hK.next, htest]
      exact Set.subset_union_right.trans Set.subset_union_right
  case ifElse =>
    intro t c yes no ihyes ihno k K hK hlabel
    rw [liveValues, List.forall_mem_cons, List.forall_mem_append] at hlabel
    obtain ⟨htest, hinside, hinside'⟩ := hlabel
    obtain ⟨hyes, hcarries⟩ := ihyes k K hK hinside
    obtain ⟨hno, hcarries'⟩ := ihno k K hK hinside'
    refine ⟨htest, ?_⟩
    rw [liveBefore] at htest
    rw [Stmt.flow, List.forall_mem_cons, List.forall_mem_cons, List.forall_mem_append]
    refine ⟨carries_of_subset ?_, carries_of_subset ?_, hcarries, hcarries'⟩
    · rw [hyes, htest]
      exact Set.subset_union_left.trans Set.subset_union_right
    · rw [hno, htest]
      exact Set.subset_union_right.trans Set.subset_union_right
  case loop =>
    intro t c body ih k K hK hlabel
    rw [liveValues, List.forall_mem_cons] at hlabel
    obtain ⟨htest, hinside⟩ := hlabel
    obtain ⟨hbody, hcarries⟩ := ih ⟨some (.loop t c body), k.next, some (.loop t c body)⟩ _
      ⟨htest, hK.next, htest, hK.stop⟩ hinside
    refine ⟨htest, ?_⟩
    change label _ = (Stmt.loop t c body).liveBefore K at htest
    rw [liveBefore_loop] at htest
    rw [Stmt.flow, List.forall_mem_cons, List.forall_mem_cons]
    refine ⟨carries_of_subset ?_, carries_of_subset ?_, hcarries⟩
    · rw [hbody, htest]
      exact Set.subset_union_right
    · rw [hK.next, htest]
      exact Set.subset_union_right.trans Set.subset_union_left
  case ret =>
    intro t value k K hK hlabel
    refine ⟨hlabel _ List.mem_cons_self, fun tr htr => ?_⟩
    rw [List.mem_singleton.1 htr]
    apply carries_of_subset
    rw [hK.stop]
    exact Set.empty_subset _
  case brk =>
    intro t k K hK hlabel
    have hs := hlabel _ List.mem_cons_self
    refine ⟨hs, fun tr htr => ?_⟩
    rw [List.mem_singleton.1 htr]
    exact carries_of_subset (hK.brk.trans hs.symm).subset
  case cont =>
    intro t k K hK hlabel
    have hs := hlabel _ List.mem_cons_self
    refine ⟨hs, fun tr htr => ?_⟩
    rw [List.mem_singleton.1 htr]
    exact carries_of_subset (hK.cont.trans hs.symm).subset
  case nil => exact fun k K hK _ => ⟨hK.next, fun tr htr => absurd htr List.not_mem_nil⟩
  case cons =>
    intro s rest ihs ihrest k K hK hlabel
    rw [liveValuesList, List.forall_mem_append] at hlabel
    obtain ⟨hbefore, hcarries⟩ := ihrest k K hK hlabel.2
    obtain ⟨hfirst, hinside⟩ := ihs { k with next := firstList k.next rest }
      { K with next := liveBeforeList K rest } ⟨hbefore, hK.brk, hK.cont, hK.stop⟩ hlabel.1
    rw [firstList, liveBeforeList, flowList]
    exact ⟨hfirst, List.forall_mem_append.2 ⟨hinside, hcarries⟩⟩

def labelIn (values : List (Stmt × Set String)) : Option Stmt → Set String
  | none => ∅
  | some s => {v | ∀ X, (s, X) ∈ values → v ∈ X}

theorem labelIn_eq {values : List (Stmt × Set String)} (h : (values.map Prod.fst).Nodup)
    {x : Stmt × Set String} (hx : x ∈ values) : labelIn values (some x.1) = x.2 := by
  refine Set.Subset.antisymm (fun v hv => hv x.2 hx) fun v hv X hX => ?_
  rw [List.inj_on_of_nodup_map h hx hX rfl] at hv
  exact hv

end Stmt

/-- The computation without a graph gives a statement exactly the variables that are live before it. -/
theorem Method.mem_liveValues_iff {m : Method} (hm : (Stmt.actionsList m.body).Nodup)
    {x : Stmt × Set String} (hx : x ∈ Stmt.liveValuesList ⟨∅, ∅, ∅⟩ m.body) {v : String} :
    v ∈ x.2 ↔ LiveAlong (Transition.Joins m.flow) v x.1 := by
  have hkeys : ((Stmt.liveValuesList ⟨∅, ∅, ∅⟩ m.body).map Prod.fst).Nodup := by
    rwa [Stmt.map_fst_liveValues.2]
  have hflow : ∀ tr ∈ Stmt.flowList ⟨none, none, none⟩ m.body, tr ∈ m.flow :=
    fun tr htr => List.mem_cons_of_mem _ htr
  have hsubset := (Stmt.liveValues_subset_liveInto.2 m.body _ ⟨∅, ∅, ∅⟩ hflow
    ⟨subset_rfl, subset_rfl, subset_rfl⟩).2
  have hcarries := (Stmt.carries_liveValues.2 m.body ⟨none, none, none⟩ _ ⟨rfl, rfl, rfl, rfl⟩
    fun x hx => Stmt.labelIn_eq hkeys hx).2
  refine ⟨fun hv => hsubset x hx hv, fun hlive => ?_⟩
  rw [← Stmt.labelIn_eq hkeys hx]
  refine hlive.induction (P := fun s => v ∈ Stmt.labelIn _ (some s)) ?_ ?_
  · exact fun s hs X hX => Stmt.uses_subset_liveValues.2 m.body _ (s, X) hX hs
  · rintro s t hs ⟨o, ho⟩ ht
    have htr := (List.mem_cons.1 ho).resolve_left nofun
    exact hcarries _ htr s rfl ⟨ht, hs⟩

end Backflow
