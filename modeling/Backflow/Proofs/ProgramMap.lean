import Backflow.Proofs.ExactLiveness

namespace Backflow

namespace LiveMap

theorem isSome_get?_iff {m : LiveMap} {k : Nat} : (m.get? k).isSome ↔ k ∈ m.toList.map (·.1) := by
  rw [get?]
  induction m.toList with
  | nil => simp
  | cons p l ih =>
      rw [lookup_cons]
      by_cases hk : k = p.1 <;> simp_all

theorem addAll_of_disjoint {m : LiveMap} {l : List (Nat × NameSet)} (hl : (l.map (·.1)).Nodup)
    (hm : ∀ k ∈ l.map (·.1), m.get? k = none) :
    ∃ m', m.addAll l = .ok m' ∧ ∀ k, m'.get? k = (l.lookup k).or (m.get? k) := by
  induction l generalizing m with
  | nil => exact ⟨m, rfl, fun k => rfl⟩
  | cons p l ih =>
      rw [List.map_cons, List.nodup_cons] at hl
      have hfree : m.get? p.1 = none := hm p.1 List.mem_cons_self
      have hrest : ∀ k ∈ l.map (·.1), (m.insert p.1 p.2).get? k = none := by
        intro k hk
        rw [get?_insert, if_neg (fun he : k = p.1 => hl.1 (he ▸ hk))]
        exact hm k (List.mem_cons_of_mem _ hk)
      obtain ⟨m', hadd, hget⟩ := ih hl.2 hrest
      refine ⟨m', ?_, fun k => ?_⟩
      · rw [addAll, hfree]
        exact hadd
      · rw [hget, get?_insert, lookup_cons]
        by_cases hk : k = p.1
        · have hnone : l.lookup k = none := by
            rw [List.lookup_eq_none_iff]
            intro q hq
            simp only [bne_iff_ne]
            rintro rfl
            exact hl.1 (hk ▸ List.mem_map_of_mem hq)
          rw [if_pos hk, if_pos hk, hnone]
          rfl
        · rw [if_neg hk, if_neg hk]

theorem addAll_of_overlap {m : LiveMap} {l : List (Nat × NameSet)} (hl : l.Pairwise (·.1 < ·.1))
    {id : Nat} (hid : id ∈ l.map (·.1)) (hm : (m.get? id).isSome)
    (hmin : ∀ k ∈ l.map (·.1), k < id → m.get? k = none) :
    m.addAll l = .error (.internal (.analyzedTwice id)) := by
  induction l generalizing m with
  | nil => exact absurd hid List.not_mem_nil
  | cons p l ih =>
      rw [List.pairwise_cons] at hl
      by_cases hp : p.1 = id
      · rw [addAll, hp, if_pos hm]
      · have hid' : id ∈ l.map (·.1) := by
          rcases List.mem_cons.1 hid with he | hid'
          · exact absurd he.symm hp
          · exact hid'
        have hlt : p.1 < id := by
          obtain ⟨q, hq, rfl⟩ := List.mem_map.1 hid'
          exact hl.1 q hq
        have hfree : m.get? p.1 = none := hmin p.1 List.mem_cons_self hlt
        rw [addAll, hfree]
        refine ih hl.2 hid' ?_ fun k hk hlt' => ?_
        · rw [get?_insert, if_neg (Ne.symm hp)]
          exact hm
        · obtain ⟨q, hq, rfl⟩ := List.mem_map.1 hk
          rw [get?_insert, if_neg (Nat.ne_of_gt (hl.1 q hq))]
          exact hmin q.1 (List.mem_cons_of_mem _ hk) hlt'

theorem nodup_keys (m : LiveMap) : (m.toList.map (·.1)).Nodup :=
  List.pairwise_map.2 (m.sorted.imp Nat.ne_of_lt)

theorem merge_of_disjoint {m other : LiveMap} (h : ∀ k, (other.get? k).isSome → m.get? k = none) :
    ∃ m', m.merge other = .ok m' ∧ ∀ k, m'.get? k = (other.get? k).or (m.get? k) :=
  addAll_of_disjoint other.nodup_keys fun k hk => h k (isSome_get?_iff.2 hk)

/-- Two maps that share a number do not merge, and the smallest number they share is the error. -/
theorem merge_of_overlap {m other : LiveMap} {id : Nat} (hm : (m.get? id).isSome)
    (ho : (other.get? id).isSome) (hmin : ∀ k < id, (other.get? k).isSome → m.get? k = none) :
    m.merge other = .error (.internal (.analyzedTwice id)) :=
  addAll_of_overlap other.sorted (isSome_get?_iff.1 ho) hm
    fun k hk hlt => hmin k hlt (isSome_get?_iff.2 hk)

end LiveMap

namespace Routine

/-- The numbers of a method's statements, those of blocks left out. -/
def keys (r : Routine) : List Nat := (Stmt.actionsList r.method.body).map Stmt.id

theorem mem_keys {r : Routine} {id : Nat} :
    id ∈ r.keys ↔ ∃ s ∈ r.method.statements, s.isBlock = false ∧ s.id = id := by
  simp only [keys, List.mem_map, Stmt.mem_actionsList, Method.statements, and_assoc]

theorem keys_subset_ids (r : Routine) : r.keys ⊆ r.method.ids := by
  intro id hid
  obtain ⟨s, hs, _, rfl⟩ := mem_keys.1 hid
  exact List.mem_map_of_mem hs

theorem isSome_get?_of_compute {r : Routine} {o : Options} {l : Liveness} (hids : r.method.ids.Nodup)
    (h : Liveness.compute r.method o = .ok l) (id : Nat) : (l.map.get? id).isSome ↔ id ∈ r.keys := by
  cases hg : Graph.build r.method with
  | error e =>
      rw [Liveness.compute, hg] at h
      cases h
  | ok g =>
      obtain ⟨l', hl', rfl, hexact⟩ := Liveness.exact_of_compute hg hids o
      cases h.symm.trans hl'
      rw [hexact.isSome_get?_map, mem_keys]
      simp only [Graph.mem_statements_of_build hg, and_assoc]

end Routine

namespace Program

def addRoutine (o : Options) (m : LiveMap) (r : Routine) : Except AnalysisError LiveMap := do
  m.merge (← Liveness.compute r.method o).map

theorem liveMap_eq (p : Program) (o : Options) :
    p.liveMap o = p.routines.foldlM (addRoutine o) .empty := rfl

/-- The map holds the live variables of the methods, and nothing else. -/
structure Unites (o : Options) (rs : List Routine) (m : LiveMap) : Prop where
  isSome : ∀ id, (m.get? id).isSome ↔ ∃ r ∈ rs, id ∈ r.keys
  get? : ∀ r ∈ rs, ∀ l, Liveness.compute r.method o = .ok l → ∀ id ∈ r.keys, m.get? id = l.map.get? id

theorem unites_empty (o : Options) : Unites o [] .empty :=
  ⟨fun id => by simp [LiveMap.empty, LiveMap.get?], fun r hr => absurd hr List.not_mem_nil⟩

variable {o : Options} {rs pre post : List Routine} {m : LiveMap} {r : Routine}

theorem addRoutine_of_error {e : AnalysisError} (h : Liveness.compute r.method o = .error e) :
    addRoutine o m r = .error e := by
  rw [addRoutine, h]
  rfl

theorem addRoutine_of_ok {l : Liveness} (h : Liveness.compute r.method o = .ok l) :
    addRoutine o m r = m.merge l.map := by
  rw [addRoutine, h]
  rfl

def Sound (o : Options) (r : Routine) : Prop :=
  r.method.ids.Nodup ∧ ∃ l, Liveness.compute r.method o = .ok l

theorem Unites.eq_none (h : Unites o rs m) {id : Nat} (hid : ∀ r ∈ rs, id ∉ r.keys) : m.get? id = none := by
  rw [← Option.not_isSome_iff_eq_none, h.isSome]
  rintro ⟨r, hr, hmem⟩
  exact hid r hr hmem

theorem Unites.add (h : Unites o rs m) (hr : Sound o r) (hapart : ∀ r' ∈ rs, r'.keys.Disjoint r.keys) :
    ∃ m', addRoutine o m r = .ok m' ∧ Unites o (rs ++ [r]) m' := by
  obtain ⟨hids, l, hl⟩ := hr
  have hkeys := Routine.isSome_get?_of_compute hids hl
  have hfree : ∀ k, (l.map.get? k).isSome → m.get? k = none := by
    intro k hk
    exact h.eq_none fun r' hr' hmem => hapart r' hr' hmem ((hkeys k).1 hk)
  obtain ⟨m', hmerge, hget⟩ := LiveMap.merge_of_disjoint hfree
  refine ⟨m', (addRoutine_of_ok hl).trans hmerge, fun id => ?_, fun r' hr' l' hl' id hid => ?_⟩
  · rw [hget, Option.isSome_or, Bool.or_eq_true, hkeys, h.isSome]
    simp only [List.mem_append, List.mem_singleton]
    constructor
    · rintro (hid | ⟨r', hr', hid⟩)
      · exact ⟨r, Or.inr rfl, hid⟩
      · exact ⟨r', Or.inl hr', hid⟩
    · rintro ⟨r', hr' | rfl, hid⟩
      · exact Or.inr ⟨r', hr', hid⟩
      · exact Or.inl hid
  · rw [hget]
    rcases List.mem_append.1 hr' with hr' | hr'
    · have hnone : l.map.get? id = none := by
        rw [← Option.not_isSome_iff_eq_none, hkeys]
        exact hapart r' hr' hid
      rw [hnone, Option.none_or]
      exact h.get? r' hr' l' hl' id hid
    · obtain rfl := List.mem_singleton.1 hr'
      cases hl.symm.trans hl'
      obtain ⟨names, hnames⟩ := Option.isSome_iff_exists.1 ((hkeys id).2 hid)
      rw [hnames]
      rfl

theorem Unites.add_overlap (h : Unites o rs m) (hr : Sound o r) {id : Nat} (hid : id ∈ r.keys)
    (hshared : ∃ r' ∈ rs, id ∈ r'.keys) (hmin : ∀ k < id, k ∈ r.keys → ∀ r' ∈ rs, k ∉ r'.keys) :
    addRoutine o m r = .error (.internal (.analyzedTwice id)) := by
  obtain ⟨hids, l, hl⟩ := hr
  have hkeys := Routine.isSome_get?_of_compute hids hl
  rw [addRoutine_of_ok hl]
  apply LiveMap.merge_of_overlap ((h.isSome id).2 hshared) ((hkeys id).2 hid)
  intro k hk hsome
  exact h.eq_none (hmin k hk ((hkeys k).1 hsome))

def Apart (rs : List Routine) : Prop := rs.Pairwise fun r r' => r.keys.Disjoint r'.keys

theorem unites_of_apart (hsound : ∀ r ∈ rs, Sound o r) (hapart : Apart rs) :
    ∃ m, rs.foldlM (addRoutine o) .empty = .ok m ∧ Unites o rs m := by
  suffices h : ∀ pre m, Unites o pre m → Apart (pre ++ rs) →
      ∃ m', rs.foldlM (addRoutine o) m = .ok m' ∧ Unites o (pre ++ rs) m' from
    h [] .empty (unites_empty o) hapart
  clear hapart
  induction rs with
  | nil => exact fun pre m hm _ => ⟨m, rfl, by rwa [List.append_nil]⟩
  | cons r rs ih =>
      intro pre m hm hapart
      have hpre : ∀ r' ∈ pre, r'.keys.Disjoint r.keys := fun r' hr' =>
        (List.pairwise_append.1 hapart).2.2 r' hr' r List.mem_cons_self
      obtain ⟨m₁, hadd, hm₁⟩ := hm.add (hsound r List.mem_cons_self) hpre
      obtain ⟨m', hrun, hm'⟩ := ih (fun r' hr' => hsound r' (List.mem_cons_of_mem _ hr')) (pre ++ [r]) m₁ hm₁
        (by rwa [List.append_assoc])
      refine ⟨m', ?_, by rwa [List.append_assoc] at hm'⟩
      rw [List.foldlM_cons, hadd]
      exact hrun

theorem foldlM_of_error {e : AnalysisError} (hrs : rs = pre ++ r :: post)
    (hpre : pre.foldlM (addRoutine o) .empty = .ok m) (hr : addRoutine o m r = .error e) :
    rs.foldlM (addRoutine o) .empty = .error e := by
  rw [hrs, List.foldlM_append, hpre]
  change (addRoutine o m r >>= fun m => post.foldlM (addRoutine o) m) = _
  rw [hr]
  rfl

theorem exists_first_of_not_all {α : Type} {P : α → Prop} {l : List α} (h : ¬ ∀ a ∈ l, P a) :
    ∃ pre a post, l = pre ++ a :: post ∧ (∀ x ∈ pre, P x) ∧ ¬ P a := by
  induction l with
  | nil => exact absurd (fun a ha => absurd ha List.not_mem_nil) h
  | cons a l ih =>
      by_cases ha : P a
      · have hl : ¬ ∀ x ∈ l, P x := fun hl => h (List.forall_mem_cons.2 ⟨ha, hl⟩)
        obtain ⟨pre, b, post, rfl, hpre, hb⟩ := ih hl
        exact ⟨a :: pre, b, post, rfl, List.forall_mem_cons.2 ⟨ha, hpre⟩, hb⟩
      · exact ⟨[], a, l, rfl, fun x hx => absurd hx List.not_mem_nil, ha⟩

theorem exists_first_overlap (h : ¬ Apart rs) : ∃ pre r post id, rs = pre ++ r :: post ∧ Apart pre ∧
    id ∈ r.keys ∧ (∃ r' ∈ pre, id ∈ r'.keys) ∧ ∀ k < id, k ∈ r.keys → ∀ r' ∈ pre, k ∉ r'.keys := by
  induction rs using List.reverseRecOn with
  | nil => exact absurd List.Pairwise.nil h
  | append_singleton rs r ih =>
      by_cases hrs : Apart rs
      · have hshared : ∃ id, id ∈ r.keys ∧ ∃ r' ∈ rs, id ∈ r'.keys := by
          by_contra hnone
          refine h (List.pairwise_append.2 ⟨hrs, List.pairwise_singleton _ _, fun r' hr' r'' hr'' k hk hk' => ?_⟩)
          rw [List.mem_singleton.1 hr''] at hk'
          exact hnone ⟨k, hk', r', hr', hk⟩
        classical
        refine ⟨rs, r, [], Nat.find hshared, rfl, hrs, (Nat.find_spec hshared).1,
          (Nat.find_spec hshared).2, fun k hk hmem r' hr' hmem' => ?_⟩
        exact Nat.find_min hshared hk ⟨hmem, r', hr', hmem'⟩
      · obtain ⟨pre, r', post, id, rfl, hfirst⟩ := ih hrs
        exact ⟨pre, r', post ++ [r], id, by rw [List.append_assoc]; rfl, hfirst⟩

theorem apart_of_parse {source : String} {p : Program} (h : parse source = .ok p) : Apart p.routines := by
  obtain ⟨n, hn⟩ := ids_of_parse h
  have hall : (p.routines.flatMap (·.method.ids)).Nodup := hn ▸ List.nodup_range
  refine (List.nodup_flatMap.1 hall).2.imp fun {r r'} hdisjoint id hid hid' => ?_
  exact hdisjoint (r.keys_subset_ids hid) (r'.keys_subset_ids hid')

/-- The first method that overlaps an earlier one is the error, under the smallest number that it shares. -/
theorem liveMap_of_overlap {p : Program} (hsound : ∀ r ∈ p.routines, Sound o r)
    (hrs : p.routines = pre ++ r :: post) (hpre : Apart pre) {id : Nat} (hid : id ∈ r.keys)
    (hshared : ∃ r' ∈ pre, id ∈ r'.keys) (hmin : ∀ k < id, k ∈ r.keys → ∀ r' ∈ pre, k ∉ r'.keys) :
    p.liveMap o = .error (.internal (.analyzedTwice id)) := by
  have hall : ∀ r' ∈ pre ++ r :: post, Sound o r' := hrs ▸ hsound
  obtain ⟨m, hm, hunites⟩ := unites_of_apart (fun r' hr' => hall r' (List.mem_append_left _ hr')) hpre
  have hr : Sound o r := hall r (List.mem_append_right _ List.mem_cons_self)
  exact foldlM_of_error hrs hm (hunites.add_overlap hr hid hshared hmin)

theorem liveMap_of_failure {source : String} {p : Program} (hp : parse source = .ok p)
    (hrs : p.routines = pre ++ r :: post) (hpre : ∀ r' ∈ pre, ∃ l, Liveness.compute r'.method o = .ok l)
    {e : AnalysisError} (hr : Liveness.compute r.method o = .error e) : p.liveMap o = .error e := by
  have hapart := apart_of_parse hp
  rw [hrs] at hapart
  have hsound : ∀ r' ∈ pre, Sound o r' := fun r' hr' =>
    ⟨ids_nodup_of_parse hp (hrs ▸ List.mem_append_left _ hr'), hpre r' hr'⟩
  obtain ⟨m, hm, _⟩ := unites_of_apart hsound (List.pairwise_append.1 hapart).1
  exact foldlM_of_error hrs hm (addRoutine_of_error hr)

/-- The map of a parsed program is the disjoint union of the maps of its methods: it exists if every method
can be analyzed, and otherwise the first method that cannot is the error. In any other program whose methods
can be analyzed, the only failure is a statement number that two methods share. -/
theorem liveMap_disjoint_union (o : Options) :
    (∀ source p, parse source = .ok p →
      ((∃ m, p.liveMap o = .ok m) ↔ ∀ r ∈ p.routines, ∃ l, Liveness.compute r.method o = .ok l) ∧
      (∀ pre r post e, p.routines = pre ++ r :: post →
        (∀ r' ∈ pre, ∃ l, Liveness.compute r'.method o = .ok l) →
          Liveness.compute r.method o = .error e → p.liveMap o = .error e) ∧
      ∀ m, p.liveMap o = .ok m →
        (∀ id, (m.get? id).isSome ↔
          ∃ r ∈ p.routines, ∃ s ∈ r.method.statements, s.isBlock = false ∧ s.id = id) ∧
        ∀ r ∈ p.routines, ∀ l, Liveness.compute r.method o = .ok l →
          ∀ s ∈ r.method.statements, s.isBlock = false → m.get? s.id = l.map.get? s.id) ∧
    ∀ p : Program, (∀ r ∈ p.routines, r.method.ids.Nodup ∧ ∃ l, Liveness.compute r.method o = .ok l) →
      ((∃ e, p.liveMap o = .error e) ↔ ¬ p.routines.Pairwise fun r r' => r.keys.Disjoint r'.keys) ∧
      ∀ pre r post id, p.routines = pre ++ r :: post →
        (pre.Pairwise fun r r' => r.keys.Disjoint r'.keys) → id ∈ r.keys → (∃ r' ∈ pre, id ∈ r'.keys) →
          (∀ k < id, k ∈ r.keys → ∀ r' ∈ pre, k ∉ r'.keys) →
            p.liveMap o = .error (.internal (.analyzedTwice id)) := by
  refine ⟨fun source p hp => ?_, fun p hsound => ⟨⟨?_, fun hshared => ?_⟩, ?_⟩⟩
  · have hunites : (∀ r ∈ p.routines, ∃ l, Liveness.compute r.method o = .ok l) →
        ∃ m, p.liveMap o = .ok m ∧ Unites o p.routines m := fun hall =>
      unites_of_apart (fun r hr => ⟨ids_nodup_of_parse hp hr, hall r hr⟩) (apart_of_parse hp)
    have hfails : ∀ pre r post e, p.routines = pre ++ r :: post →
        (∀ r' ∈ pre, ∃ l, Liveness.compute r'.method o = .ok l) →
          Liveness.compute r.method o = .error e → p.liveMap o = .error e :=
      fun pre r post e hrs hpre hr => liveMap_of_failure hp hrs hpre hr
    have hall : ∀ m, p.liveMap o = .ok m → ∀ r ∈ p.routines, ∃ l, Liveness.compute r.method o = .ok l := by
      intro m hm
      by_contra hnot
      obtain ⟨pre, r, post, hrs, hpre, hr⟩ := exists_first_of_not_all hnot
      cases hc : Liveness.compute r.method o with
      | ok l => exact hr ⟨l, hc⟩
      | error e =>
          rw [hfails pre r post e hrs hpre hc] at hm
          cases hm
    refine ⟨⟨fun ⟨m, hm⟩ => hall m hm, fun h => ?_⟩, hfails, fun m hm => ?_⟩
    · obtain ⟨m, hm, _⟩ := hunites h
      exact ⟨m, hm⟩
    · obtain ⟨m', hm', hm'unites⟩ := hunites (hall m hm)
      cases hm.symm.trans hm'
      refine ⟨fun id => ?_, fun r hr l hl s hs hblock => ?_⟩
      · rw [hm'unites.isSome]
        simp only [Routine.mem_keys]
      · exact hm'unites.get? r hr l hl s.id (Routine.mem_keys.2 ⟨s, hs, hblock, rfl⟩)
  · rintro ⟨e, he⟩ hapart
    obtain ⟨m, hm, _⟩ := unites_of_apart hsound hapart
    rw [liveMap_eq, hm] at he
    cases he
  · obtain ⟨pre, r, post, id, hrs, hpre, hid, hmem, hmin⟩ := exists_first_overlap hshared
    exact ⟨_, liveMap_of_overlap hsound hrs hpre hid hmem hmin⟩
  · exact fun pre r post id hrs hpre hid hmem hmin => liveMap_of_overlap hsound hrs hpre hid hmem hmin

/-- The search has a map, and with its class written twice it has none. -/
theorem liveMap_disjoint_union_search : ∃ p, parse searchText = .ok p ∧ (∃ m, p.liveMap {} = .ok m) ∧
    Program.liveMap ⟨p.classes ++ p.classes⟩ {} = .error (.internal (.analyzedTwice 0)) := by
  have hrun : (parse searchText).toOption.any (fun p => p.routines.length == 1 &&
      p.routines.all fun r => (Stmt.straysList r.method.body).isEmpty && r.keys.contains 0) = true := by
    decide +kernel
  obtain ⟨p, hp, hany⟩ := exists_ok_of_any hrun
  rw [Bool.and_eq_true, beq_iff_eq, List.length_eq_one_iff] at hany
  obtain ⟨⟨r, hone⟩, hkeys⟩ := hany
  rw [hone, List.all_cons, List.all_nil, Bool.and_true, Bool.and_eq_true, List.contains_iff_mem] at hkeys
  obtain ⟨g, hg⟩ := Graph.build_of_no_strays (List.isEmpty_iff.1 hkeys.1)
  obtain ⟨l, hl, _⟩ := Liveness.solved_of_compute hg {}
  have hids : r.method.ids.Nodup := ids_nodup_of_parse hp (hone ▸ List.mem_cons_self)
  have htwice : Program.routines ⟨p.classes ++ p.classes⟩ = [r] ++ r :: [] := by
    rw [routines, List.flatMap_append, ← routines, hone]
  refine ⟨p, hp, ?_, ?_⟩
  · refine (((liveMap_disjoint_union {}).1 searchText p hp).1).2 fun r' hr' => ?_
    rw [hone, List.mem_singleton] at hr'
    exact ⟨l, hr' ▸ hl⟩
  · refine ((liveMap_disjoint_union {}).2 _ fun r' hr' => ?_).2 [r] r [] 0 htwice
      (List.pairwise_singleton _ _) hkeys.2 ⟨r, List.mem_cons_self, hkeys.2⟩ fun k hk => absurd hk (Nat.not_lt_zero k)
    have hr : r' = r := by simpa [htwice] using hr'
    exact hr ▸ ⟨hids, l, hl⟩

end Program

end Backflow
