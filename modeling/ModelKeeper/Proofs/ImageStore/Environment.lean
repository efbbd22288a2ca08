import Mathlib.Data.List.Nodup
import ModelKeeper.ImageStore.Container

/-!
# The environment of the container

Of variables with one name the first counts.  What is left of a list of variables is told without a
walk over the list (`EnvVar.FirstOfEach`): some of the variables in their order, of each name the
first one and no other, in the order in which the names came up.  There is one such list, and it is
the one that is made (`EnvVar.firstOfEach_iff`).

All else follows from one equation (`EnvVar.distinct_cons`): behind a variable that is kept, those
of other names are kept.  So in the environment of a container the address to listen on comes first,
and nothing that a model adds can set it otherwise (`EnvVar.first_counts`).
-/

namespace ModelKeeper.EnvVar

/-- Whether the variables `ws` are the first ones of each name in `vs`, as they stand there. -/
structure FirstOfEach (vs ws : List EnvVar) : Prop where
  sublist : ws.Sublist vs
  nodup : (ws.map (·.name)).Nodup
  first : ∀ name, ws.filter (·.name = name) = (vs.find? (·.name = name)).toList
  /-- Of two names the one that came up first comes first. -/
  ordered : ws.Pairwise fun v w =>
    (vs.map (·.name)).idxOf v.name < (vs.map (·.name)).idxOf w.name

/-! ### Walking over the variables -/

/-- Variables with names that have been met are left out, and nothing else changes. -/
theorem distinct_go (seen : List String) (vs : List EnvVar) :
    distinct.go seen vs = (distinct vs).filter (·.name ∉ seen) := by
  induction vs generalizing seen with
  | nil => rfl
  | cons v vs ih =>
    have hdistinct : distinct (v :: vs) = v :: (distinct vs).filter (·.name ∉ [v.name]) :=
      congrArg (v :: ·) (ih [v.name])
    rw [distinct.go, hdistinct, List.filter_cons, List.filter_filter, ih seen, ih (v.name :: seen)]
    -- a name that was seen is dropped now, and would be dropped by the filter
    by_cases hseen : v.name ∈ seen
    · simp only [List.contains_iff_mem.2 hseen, hseen, if_true, not_true_eq_false, decide_false,
        Bool.false_eq_true, if_false]
      refine List.filter_congr fun w _ => ?_
      by_cases hw : w.name = v.name <;> simp [hw, hseen]
    · have hcontains : seen.contains v.name = false := by simp [hseen]
      simp only [hcontains, hseen, Bool.false_eq_true, if_false, not_false_eq_true, decide_true,
        if_true]
      refine congrArg (v :: ·) (List.filter_congr fun w _ => ?_)
      simp [Bool.and_comm]

/-- Behind the first variable those of other names are kept. -/
theorem distinct_cons (v : EnvVar) (vs : List EnvVar) :
    distinct (v :: vs) = v :: (distinct vs).filter (·.name ≠ v.name) := by
  refine congrArg (v :: ·) ((distinct_go [v.name] vs).trans (List.filter_congr fun w _ => ?_))
  simp

/-! ### What is kept -/

theorem distinct_sublist (vs : List EnvVar) : (distinct vs).Sublist vs := by
  induction vs with
  | nil => exact .slnil
  | cons v vs ih =>
    rw [distinct_cons]
    exact (List.filter_sublist.trans ih).cons_cons v

theorem nodup_distinct (vs : List EnvVar) : ((distinct vs).map (·.name)).Nodup := by
  induction vs with
  | nil => exact List.nodup_nil
  | cons v vs ih =>
    rw [distinct_cons, List.map_cons, List.nodup_cons]
    constructor
    · intro hmem
      obtain ⟨w, hw, hname⟩ := List.mem_map.1 hmem
      exact of_decide_eq_true (List.mem_filter.1 hw).2 hname
    · exact ih.sublist (List.filter_sublist.map _)

/-- Of each name the first variable is kept, and no other. -/
theorem filter_distinct (vs : List EnvVar) (name : String) :
    (distinct vs).filter (·.name = name) = (vs.find? (·.name = name)).toList := by
  induction vs with
  | nil => rfl
  | cons v vs ih =>
    rw [distinct_cons, List.filter_cons, List.filter_filter, List.find?_cons]
    -- the first entry has the name, and then no other one of it is kept
    by_cases h : v.name = name
    · simp only [h, decide_true, if_true, Option.toList_some]
      refine congrArg (v :: ·) (List.filter_eq_nil_iff.2 fun w _ => ?_)
      simp
    · simp only [h, decide_false, Bool.false_eq_true, if_false]
      rw [← ih]
      refine List.filter_congr fun w _ => ?_
      by_cases hw : w.name = name <;> simp [hw, Ne.symm h]

theorem ordered_distinct (vs : List EnvVar) : (distinct vs).Pairwise fun v w =>
    (vs.map (·.name)).idxOf v.name < (vs.map (·.name)).idxOf w.name := by
  induction vs with
  | nil => exact .nil
  | cons v vs ih =>
    rw [distinct_cons, List.pairwise_cons, List.map_cons]
    -- what is kept behind the first entry has another name, so it comes one place later
    have hbehind : ∀ w ∈ (distinct vs).filter (·.name ≠ v.name),
        (v.name :: vs.map (·.name)).idxOf w.name = (vs.map (·.name)).idxOf w.name + 1 := by
      intro w hw
      exact List.idxOf_cons_ne _ (Ne.symm (of_decide_eq_true (List.mem_filter.1 hw).2))
    constructor
    · intro w hw
      rw [hbehind w hw, List.idxOf_cons_self]
      exact Nat.succ_pos _
    · refine (ih.filter _).imp_of_mem fun hw hw' hlt => ?_
      rw [hbehind _ hw, hbehind _ hw']
      exact Nat.succ_lt_succ hlt

theorem firstOfEach_distinct (vs : List EnvVar) : FirstOfEach vs (distinct vs) :=
  ⟨distinct_sublist vs, nodup_distinct vs, filter_distinct vs, ordered_distinct vs⟩

/-- There is one list of the first variables of each name. -/
theorem FirstOfEach.unique {vs ws ws' : List EnvVar} (h : FirstOfEach vs ws)
    (h' : FirstOfEach vs ws') : ws = ws' := by
  have hmem : ∀ {us}, FirstOfEach vs us →
      ∀ v, v ∈ us ↔ v ∈ (vs.find? (·.name = v.name)).toList := fun hus v => by
    rw [← hus.first, List.mem_filter]
    simp
  have hperm : ws.Perm ws' := (List.perm_ext_iff_of_nodup h.nodup.of_map h'.nodup.of_map).2
    fun v => (hmem h v).trans (hmem h' v).symm
  exact hperm.eq_of_pairwise (fun _ _ _ _ hlt hgt => absurd hgt (Nat.lt_asymm hlt)) h.ordered
    h'.ordered

theorem firstOfEach_iff {vs ws : List EnvVar} : FirstOfEach vs ws ↔ ws = distinct vs :=
  ⟨fun h => h.unique (firstOfEach_distinct vs), fun h => h ▸ firstOfEach_distinct vs⟩

/-! ### Lists of lists -/

/-- Nothing is left out where no name comes up again. -/
theorem distinct_of_nodup {vs : List EnvVar} (h : (vs.map (·.name)).Nodup) : distinct vs = vs := by
  induction vs with
  | nil => rfl
  | cons v vs ih =>
    rw [List.map_cons, List.nodup_cons] at h
    rw [distinct_cons, ih h.2]
    refine congrArg (v :: ·) (List.filter_eq_self.2 fun w hw => ?_)
    simp only [decide_eq_true_eq]
    exact fun hname => h.1 (hname ▸ List.mem_map_of_mem hw)

/-- Of further variables those with new names are kept. -/
theorem distinct_append (vs us : List EnvVar) :
    distinct (vs ++ us) = distinct vs ++ (distinct us).filter (·.name ∉ vs.map (·.name)) := by
  induction vs with
  | nil => simp [distinct, distinct.go]
  | cons v vs ih =>
    rw [List.cons_append, distinct_cons, ih, distinct_cons, List.filter_append, List.filter_filter,
      List.cons_append]
    refine congrArg (fun ws => v :: (_ ++ ws)) (List.filter_congr fun w _ => ?_)
    simp

/-- Leaving out the variables of one name before is the same as leaving them out afterwards. -/
theorem distinct_filter (vs : List EnvVar) (name : String) :
    distinct (vs.filter (·.name ≠ name)) = (distinct vs).filter (·.name ≠ name) := by
  induction vs with
  | nil => rfl
  | cons v vs ih =>
    rw [distinct_cons, List.filter_cons, List.filter_cons, List.filter_filter]
    by_cases h : v.name = name
    · simp only [h, ne_eq, not_true_eq_false, decide_false, Bool.false_eq_true, if_false, ih,
        Bool.and_self]
    · simp only [h, ne_eq, not_false_eq_true, decide_true, if_true]
      rw [distinct_cons, ih, List.filter_filter]
      refine congrArg (v :: ·) (List.filter_congr fun w _ => ?_)
      simp [Bool.and_comm]

/-- Of variables with one name the first counts.

* What is kept of some variables are the first ones of each name, and this says what is kept.
* Nothing more is left out the second time.
* Of further variables those are kept whose names have not come up before.
* Whatever variables are added, the environment of the container begins with the address to listen
  on, does not name it again, and goes on with the first ones of each other name. -/
theorem first_counts (vs : List EnvVar) :
    (∀ ws, FirstOfEach vs ws ↔ ws = distinct vs) ∧
    distinct (distinct vs) = distinct vs ∧
    (∀ us, distinct (vs ++ us) =
      distinct vs ++ (distinct us).filter (·.name ∉ vs.map (·.name))) ∧
    ∀ image readOnly resources extraEnvFrom, ∃ rest,
      (ImageStore.container image readOnly resources extraEnvFrom vs).env =
        some ({ name := "OLLAMA_HOST", value := some "0.0.0.0" } :: rest) ∧
      (∀ v ∈ rest, v.name ≠ "OLLAMA_HOST") ∧
      FirstOfEach (vs.filter (·.name ≠ "OLLAMA_HOST")) rest := by
  refine ⟨fun ws => firstOfEach_iff, distinct_of_nodup (nodup_distinct vs), distinct_append vs,
    fun image readOnly resources extraEnvFrom =>
      ⟨(distinct vs).filter (·.name ≠ "OLLAMA_HOST"), ?_, fun v hv => ?_, ?_⟩⟩
  · exact congrArg some (distinct_cons ImageStore.hostVariable vs)
  · exact of_decide_eq_true (List.mem_filter.1 hv).2
  · exact firstOfEach_iff.2 (distinct_filter vs _).symm

example : distinct [{ name := "A", value := some "1" }, { name := "B", value := some "2" },
    { name := "A", value := some "3" }] =
      [{ name := "A", value := some "1" }, { name := "B", value := some "2" }] := by
  decide

end ModelKeeper.EnvVar
