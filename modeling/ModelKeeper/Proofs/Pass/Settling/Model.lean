import ModelKeeper.Pass.Model
import ModelKeeper.Proofs.Pass.Settling.Basic
import ModelKeeper.Proofs.Resource.Condition

/-!
# The pass over a model settles

The first pass over an active model marks it as in progress.  The next one furnishes the namespace
with the parts of the image store, once for all (`Pass.Model.wp_furnish`); it and all later ones
then find the parts that are there, either not ready or with counts that they need to record only
once (`Pass.Model.settles_active`).
-/

namespace ModelKeeper.Pass.Model

/-! ### What is recorded -/

theorem markProgressing_ofStatus : Change.OfStatus markProgressing := by
  intro now o
  unfold markProgressing
  simp only
  split
  · exact ⟨some (o.status.getD {}), rfl⟩
  · exact ⟨some _, rfl⟩

theorem hasCondition_eq (o : Object .model) (type : ConditionType) :
    o.hasCondition type = (o.status.getD {}).conditions.has type := by
  unfold Object.hasCondition
  cases o.status <;> rfl

theorem markProgressing_flag {now : Instant} {o : Object .model}
    (h : o.hasCondition .progressing = false) : (markProgressing now o).2 = true := by
  rw [hasCondition_eq] at h
  unfold markProgressing
  simp only
  rw [if_neg (by simp [h])]

theorem hasCondition_of_recorded {now : Instant} {o o' : Object .model}
    (h : o.hasCondition .progressing = false)
    (hstatus : o'.status = (markProgressing now o).1.status) :
    o'.hasCondition .progressing = true := by
  rw [hasCondition_eq] at h
  have hhas : ¬ (o.status.getD {}).conditions.has .progressing = true := by simp [h]
  unfold markProgressing at hstatus
  simp only [if_neg hhas] at hstatus
  rw [hasCondition_eq, hstatus]
  simp [Conditions.has_set, Condition.now]

/-- Whether a status shows these counts, `Available` and no failure. -/
structure Shown (n : Counts) (s : ModelStatus) : Prop where
  counts : showCounts n s = s
  isTrue : (s.conditions.get .available).isTrue = true
  reason : (s.conditions.get .available).reason = Reason.newReplicaSetAvailable
  failure : (s.conditions.get .replicaFailure).isTrue = false

theorem showCounts_showAvailable (n : Counts) (now : Instant) (s : ModelStatus) :
    showCounts n (showAvailable now s) = showAvailable now (showCounts n s) := by
  unfold showAvailable
  simp only [show (showCounts n s).conditions = s.conditions from rfl]
  split <;> rfl

theorem showCounts_clearFailure (n : Counts) (now : Instant) (s : ModelStatus) :
    showCounts n (clearFailure now s) = clearFailure now (showCounts n s) := by
  unfold clearFailure
  simp only [show (showCounts n s).conditions = s.conditions from rfl]
  split <;> rfl

theorem showAvailable_available (now : Instant) (s : ModelStatus) :
    ((showAvailable now s).conditions.get .available).isTrue = true ∧
      ((showAvailable now s).conditions.get .available).reason =
        Reason.newReplicaSetAvailable := by
  unfold showAvailable
  simp only
  split
  · next h => simpa using h
  · simp [Conditions.get_set, Condition.now, Condition.isTrue]

theorem clearFailure_available (now : Instant) (s : ModelStatus) :
    (clearFailure now s).conditions.get .available = s.conditions.get .available := by
  unfold clearFailure
  split
  · simp [Conditions.get_set, Condition.now]
  · rfl

theorem clearFailure_failure (now : Instant) (s : ModelStatus) :
    ((clearFailure now s).conditions.get .replicaFailure).isTrue = false := by
  unfold clearFailure
  split
  · simp [Conditions.get_set, Condition.now, Condition.isTrue]
  · next h => simpa using h

/-- What is recorded of an image store that is ready. -/
theorem shown_after (n : Counts) (now : Instant) (s : ModelStatus) :
    Shown n (clearFailure now (showAvailable now (showCounts n s))) where
  counts := by
    rw [showCounts_clearFailure, showCounts_showAvailable]
    rfl
  isTrue := by
    rw [clearFailure_available]
    exact (showAvailable_available now _).1
  reason := by
    rw [clearFailure_available]
    exact (showAvailable_available now _).2
  failure := clearFailure_failure now _

theorem Shown.after {n : Counts} {s : ModelStatus} (h : Shown n s) (now : Instant) :
    clearFailure now (showAvailable now (showCounts n s)) = s := by
  have havailable : showAvailable now s = s := by
    unfold showAvailable
    simp [h.isTrue, h.reason]
  have hfailure : clearFailure now s = s := by
    unfold clearFailure
    simp [h.failure]
  rw [h.counts, havailable, hfailure]

/-- The counts are recorded unless they are shown, with `Available` and no failure. -/
theorem markAvailable_eq_false {n : Counts} {now : Instant} {o : Object .model} :
    (markAvailable n now o).2 = false ↔ Shown n (o.status.getD {}) := by
  unfold markAvailable
  simp only [ne_eq, decide_not, Bool.not_eq_false', decide_eq_true_eq]
  constructor
  · intro hsame
    rw [← hsame]
    exact shown_after n now _
  · intro hshown
    exact hshown.after now

theorem markAvailable_ofStatus (n : Counts) : Change.OfStatus (markAvailable n) :=
  fun _ _ => ⟨_, rfl⟩

end ModelKeeper.Pass.Model

/-! ### The image store -/

/-- The cluster when there has to be an object under a key: a new one, or the one that was there. -/
structure ModelKeeper.Cluster.Gained {k : Kind} (key : Key) (c c' : Cluster) (o : Object k) :
    Prop where
  stored : c'.stored? k key = some o
  sameBut : c.SameBut k key c'
  conflicts : c'.injectedConflicts = c.injectedConflicts
  kept : ∀ o', c.stored? k key = some o' → c' = c

namespace ModelKeeper.ImageStore

variable {σ : Type} {v : Vendors σ} {c : Cluster} {ns : String}

theorem wp_ensure {k : Kind} {key : Key} {part : Object k}
    {post : Except AccessError (Object k) → Cluster → Prop} (hpart : part.IsAt key)
    (subject : Subject) (reason message : String)
    (hpost : ∀ a c' o, c.Gained key c' (o : Object k) → post (.ok a) c') :
    (ensure key part subject reason message).wp (.onCluster v) post c := by
  unfold ensure
  simp only [Attempt.wp_bind, Objects.wp_find?]
  cases hs : c.stored? k key with
  | some o => exact hpost o.settled c o ⟨hs, .refl k key c, rfl, fun _ _ => rfl⟩
  | none =>
    -- nobody acts in between, so the create cannot lose a race
    unfold createOrGet report
    simp only [Option.map_none, Attempt.unlessFailed_ok, Attempt.wp_bind, Attempt.wp_of,
      Program.wp_bind', Program.ask, Program.wp_step, Program.wp_done, Program.wp_pure,
      Meaning.onCluster_create, Cluster.create_absent hpart hs, if_true, Attempt.wp_always,
      Meaning.onCluster_count, Meaning.onCluster_emit, Attempt.wp_pure]
    refine hpost _ _ (c.created part)
      { stored := Cluster.stored?_store_self ..
        sameBut := fun _ _ hne => Cluster.stored?_store_of_ne hne _ _
        conflicts := rfl
        kept := fun o' ho' => ?_ }
    simp [hs] at ho'

/-- Whether all parts of the image store of a namespace are there. -/
structure Furnished (ns : String) (set : Object .statefulSet) (service : Object .service)
    (c : Cluster) : Prop where
  claim : (c.stored? .claim (claimKey ns)).isSome
  set : c.stored? .statefulSet (statefulSetKey ns) = some set
  service : c.stored? .service (serviceKey ns) = some service

/-- What a namespace is furnished with is there once for all. -/
theorem Furnished.congr {set : Object .statefulSet} {service : Object .service} {key : Key}
    {c' : Cluster} (h : Furnished ns set service c) (hsame : c.SameBut .model key c') :
    Furnished ns set service c' where
  claim := by
    rw [hsame.other (by decide)]
    exact h.claim
  set := (hsame.other (by decide) _).trans h.set
  service := (hsame.other (by decide) _).trans h.service

theorem Furnished.unique {set set' : Object .statefulSet} {service service' : Object .service}
    (h : Furnished ns set service c) (h' : Furnished ns set' service' c) :
    set' = set ∧ service' = service :=
  ⟨Option.some.inj (h'.set.symm.trans h.set), Option.some.inj (h'.service.symm.trans h.service)⟩

end ModelKeeper.ImageStore

namespace ModelKeeper.Pass.Model

open ImageStore

variable {σ : Type} {v : Vendors σ} {c : Cluster} {settings : Settings}
  {post : Except Failure Unit → Cluster → Prop}

theorem wp_claimStep (i : Input)
    (hpost : ∀ c' o, c.Gained (claimKey i.key.ns) c' (o : Object .claim) → post (.ok ()) c') :
    (claimStep i).wp (.onCluster v) post c := by
  unfold claimStep access ensureClaim
  simp only [Attempt.wp_bind, Attempt.wp_mapError]
  exact wp_ensure ⟨rfl, rfl⟩ _ _ _ fun a c' o hgained => hpost c' o hgained

theorem wp_statefulSetStep (i : Input)
    (hpost : ∀ c' o, c.Gained (statefulSetKey i.key.ns) c' (o : Object .statefulSet) →
      post (.ok ()) c') :
    (statefulSetStep i).wp (.onCluster v) post c := by
  unfold statefulSetStep access ensureStatefulSet
  simp only [Attempt.wp_bind, Attempt.wp_mapError]
  exact wp_ensure ⟨rfl, rfl⟩ _ _ _ fun a c' o hgained => hpost c' o hgained

theorem wp_requireStatefulSet {ns : String} {set : Object .statefulSet}
    {post : Except Failure (Object .statefulSet) → Cluster → Prop}
    (hs : c.stored? .statefulSet (statefulSetKey ns) = some set) (hpost : post (.ok set) c) :
    (requireStatefulSet ns).wp (.onCluster v) post c := by
  unfold requireStatefulSet access
  simp only [Attempt.wp_bind, Attempt.wp_mapError, Objects.wp_find?, hs]
  exact hpost

theorem wp_serviceStep (i : Input) {set : Object .statefulSet}
    (hs : c.stored? .statefulSet (statefulSetKey i.key.ns) = some set)
    (hpost : ∀ c' o, c.Gained (serviceKey i.key.ns) c' (o : Object .service) → post (.ok ()) c') :
    (serviceStep i).wp (.onCluster v) post c := by
  unfold serviceStep access ensureService
  simp only [Attempt.wp_bind, Attempt.wp_mapError]
  refine wp_requireStatefulSet hs ?_
  exact wp_ensure ⟨rfl, rfl⟩ _ _ _ fun a c' o hgained => hpost c' o hgained

/-- The chain furnishes the namespace, and then looks whether it is ready. -/
theorem wp_chain (i : Input)
    (hpost : ∀ c' set service, Furnished i.key.ns set service c' →
      (∀ key, c'.stored? .model key = c.stored? .model key) →
      c'.injectedConflicts = c.injectedConflicts →
      (∀ set service, Furnished i.key.ns set service c → c' = c) →
      (readinessStep i).wp (.onCluster v) post c') :
    Attempt.wp (.onCluster v) post (Chain.run i chain) c := by
  unfold chain
  simp only [Chain.run, Step.claim, Step.statefulSet, Step.service, Step.named, Attempt.wp_bind]
  refine wp_claimStep i fun c₁ claim h₁ => wp_statefulSetStep i fun c₂ set h₂ =>
    wp_serviceStep i h₂.stored fun c₃ service h₃ => ?_
  have hfurnished : Furnished i.key.ns set service c₃ :=
    { claim := by
        rw [h₃.sameBut.other (by decide), h₂.sameBut.other (by decide), h₁.stored]
        rfl
      set := (h₃.sameBut.other (by decide) _).trans h₂.stored
      service := h₃.stored }
  have hmodels : ∀ key, c₃.stored? .model key = c.stored? .model key := fun key => by
    rw [h₃.sameBut.other (by decide), h₂.sameBut.other (by decide), h₁.sameBut.other (by decide)]
  have hconflicts : c₃.injectedConflicts = c.injectedConflicts :=
    h₃.conflicts.trans (h₂.conflicts.trans h₁.conflicts)
  -- a namespace that is furnished gets nothing new
  have hkept : ∀ set service, Furnished i.key.ns set service c → c₃ = c := by
    intro set' service' h
    obtain ⟨claim', hclaim'⟩ := Option.isSome_iff_exists.1 h.claim
    obtain rfl := h₁.kept claim' hclaim'
    obtain rfl := h₂.kept set' h.set
    exact h₃.kept service' h.service
  refine Attempt.wp_mono (Meaning.onCluster_monotone v) ?_ _
    (hpost c₃ set service hfurnished hmodels hconflicts hkept)
  intro r c' h
  cases r with
  | ok _ => exact h
  | error e => exact h

/-! ### Readiness -/

variable {set : Object .statefulSet} {service : Object .service} {o : Object .model}

theorem wp_statefulSetReady (subject : Subject) {ns : String}
    {post : Except AccessError Bool → Cluster → Prop}
    (hs : c.stored? .statefulSet (statefulSetKey ns) = some set)
    (hpost : post (.ok (isStatefulSetReady set)) c) :
    (statefulSetReady subject ns).wp (.onCluster v) post c := by
  have hready : isStatefulSetReady set.settled = isStatefulSetReady set := rfl
  unfold statefulSetReady report
  simp only [Attempt.wp_bind, Objects.wp_find?, hs, Option.map_some, Attempt.unlessFailed_ok,
    hready]
  cases h : isStatefulSetReady set with
  | true =>
    rw [h] at hpost
    exact hpost
  | false =>
    rw [h] at hpost
    exact hpost

theorem wp_serviceReady (subject : Subject) {ns : String}
    {post : Except AccessError Bool → Cluster → Prop}
    (hs : c.stored? .service (serviceKey ns) = some service)
    (hpost : post (.ok (isServiceReady service)) c) :
    (serviceReady subject ns).wp (.onCluster v) post c := by
  have hready : isServiceReady service.settled = isServiceReady service := rfl
  unfold serviceReady report
  simp only [Attempt.wp_bind, Objects.wp_find?, hs, Option.map_some, Attempt.unlessFailed_ok,
    hready]
  cases h : isServiceReady service with
  | true =>
    rw [h] at hpost
    exact hpost
  | false =>
    rw [h] at hpost
    exact hpost

theorem wp_isReady (i : Input) {post : Except Failure Bool → Cluster → Prop}
    (hfurnished : Furnished i.key.ns set service c)
    (hpost : post (.ok (isStatefulSetReady set && isServiceReady service)) c) :
    (isReady i).wp (.onCluster v) post c := by
  unfold isReady access
  simp only [Attempt.wp_bind, Attempt.wp_mapError]
  refine wp_statefulSetReady _ hfurnished.set ?_
  cases h : isStatefulSetReady set with
  | false =>
    rw [h, Bool.false_and] at hpost
    exact hpost
  | true =>
    rw [h, Bool.true_and] at hpost
    simp only [Attempt.mapError_ok, Attempt.unlessFailed_ok, if_true, Attempt.wp_mapError]
    exact wp_serviceReady _ hfurnished.service hpost

theorem wp_readinessStep (i : Input) (hfurnished : Furnished i.key.ns set service c)
    (hready : c.Ready .model i.key) (hs : c.stored? .model i.key = some o)
    (hwait : (isStatefulSetReady set && isServiceReady service) = false →
      post (.error (.requeueAfter i.settings.intervals.short)) c)
    (hsame : (isStatefulSetReady set && isServiceReady service) = true →
      Shown (Counts.of set) (o.status.getD {}) → post (.ok ()) c)
    (hput : ∀ c' o', (isStatefulSetReady set && isServiceReady service) = true →
      ¬ Shown (Counts.of set) (o.status.getD {}) → c.Recorded i.key o c' o' →
      Shown (Counts.of set) (o'.status.getD {}) → post (.ok ()) c') :
    (readinessStep i).wp (.onCluster v) post c := by
  unfold readinessStep
  simp only [Attempt.wp_bind]
  refine wp_isReady i hfurnished ?_
  cases hall : isStatefulSetReady set && isServiceReady service with
  | false =>
    simp only [Attempt.unlessFailed_ok, Bool.not_false, if_true, Attempt.wp_bind]
    exact hwait hall
  | true =>
    simp only [Attempt.unlessFailed_ok, Bool.not_true, Bool.false_eq_true, if_false,
      Attempt.wp_bind]
    refine wp_requireStatefulSet hfurnished.set ?_
    -- the report after the recording changes nothing
    have hreport : ∀ c', post (.ok ()) c' →
        Attempt.wp (.onCluster v) post
          (if !i.model.hasCondition .available then
            .always (report i.model.subject EventReason.modelAvailable "Image store is ready")
          else pure ()) c' := by
      intro c' hpost
      split <;> exact hpost
    simp only [Attempt.unlessFailed_ok, Attempt.wp_bind, access, persist, Attempt.wp_mapError]
    refine Change.wp_record (markAvailable_ofStatus _) hready hs _ (fun now hflag => ?_)
      fun now a c' o' hflag hrecorded hstatus => ?_
    · exact hreport c (hsame hall (markAvailable_eq_false.1 hflag))
    · refine hreport c' (hput c' o' hall (fun hshown => ?_) hrecorded ?_)
      · have hflag' : (markAvailable (Counts.of set) now o.settled).2 = false :=
          markAvailable_eq_false.2 hshown
        rw [hflag'] at hflag
        cases hflag
      · rw [hstatus]
        exact shown_after ..

/-! ### The work -/

section Work

variable {key : Key} {post : Except Failure (Option Directive) → Cluster → Prop}

/-- Whether the model is at least in progress. -/
def Started (o : Object .model) : Prop :=
  o.hasCondition .available = true ∨ o.hasCondition .progressing = true

theorem Started.not_new {o : Object .model} (h : Started o) :
    (!o.hasCondition .available && !o.hasCondition .progressing) = false := by
  rcases h with h | h <;> simp [h]

/-- A model is marked as in progress first. -/
theorem wp_work_new (hready : c.Ready .model key) (hs : c.stored? .model key = some o)
    (hnew : ¬ Started o)
    (hpost : ∀ c' o', c.Recorded key o c' o' → Started o' →
      post (.error (.requeueAfter settings.intervals.short)) c') :
    (work settings key o.settled).wp (.onCluster v) post c := by
  unfold Started at hnew
  rw [not_or, Bool.not_eq_true, Bool.not_eq_true] at hnew
  have hsettled : o.settled = o := rfl
  unfold work access persist report
  simp only [hsettled, hnew, Bool.not_false, Bool.and_self, if_true, Attempt.wp_bind,
    Attempt.wp_mapError]
  refine Change.wp_record markProgressing_ofStatus hready hs _ (fun now hflag => ?_)
    fun now a c' o' _ hrecorded hstatus => ?_
  · rw [hsettled, markProgressing_flag hnew.2] at hflag
    cases hflag
  · exact hpost c' o' hrecorded (.inr (hasCondition_of_recorded hnew.2 hstatus))

/-- Whether a model is stored in a namespace that is furnished. -/
structure Stands (key : Key) (o : Object .model) (set : Object .statefulSet)
    (service : Object .service) (c : Cluster) : Prop where
  furnished : Furnished key.ns set service c
  ready : c.Ready .model key
  stored : c.stored? .model key = some o

/-- What holds after the work if it ends in this way, with a wait at most. -/
def ends (settings : Settings) (post : Except Failure (Option Directive) → Cluster → Prop) :
    Except Failure Unit → Cluster → Prop
  | .ok (), c => post (.ok none) c
  | .error e, c =>
    e = .requeueAfter settings.intervals.short ∧
      post (.error (.requeueAfter settings.intervals.short)) c

/-- Later the namespace is furnished, if it is not, and the model waits until all is ready. -/
theorem wp_work_started (hready : c.Ready .model key) (hs : c.stored? .model key = some o)
    (hstarted : Started o)
    (hpost : ∀ c' set service, Stands key o set service c' →
      (∀ set service, Furnished key.ns set service c → c' = c) →
      (readinessStep ⟨settings, key, o⟩).wp (.onCluster v) (ends settings post) c') :
    (work settings key o.settled).wp (.onCluster v) post c := by
  have hcondition := hstarted.not_new
  have hsettled : o.settled = o := rfl
  have hchain : Attempt.wp (.onCluster v) (ends settings post)
      (Chain.run ⟨settings, key, o⟩ chain) c := by
    refine wp_chain _ fun c' set service hfurnished hmodels hconflicts hkept => ?_
    -- the chain writes no model, so this one is as ready for the last step
    have hready' : c'.Ready .model key :=
      ⟨hconflicts.trans hready.conflicts, fun o' ho' => hready.isAt o' (hmodels key ▸ ho'),
        fun o' ho' => hready.generation o' (hmodels key ▸ ho')⟩
    exact hpost c' set service ⟨hfurnished, hready', (hmodels key).trans hs⟩ hkept
  unfold work
  simp only [hsettled, hcondition, Bool.false_eq_true, if_false, Attempt.wp_bind, Attempt.wp_always]
  refine Attempt.wp_mono (Meaning.onCluster_monotone v) ?_ _ hchain
  intro r c' hends
  match r with
  | .ok () => exact hends
  | .error e =>
    obtain ⟨rfl, hpost⟩ := hends
    exact hpost

theorem rests_waiting (h : Stands key o set service c) (hstarted : Started o)
    (hactive : Lifecycle.of o Kind.model.finalizer = .active)
    (hall : (isStatefulSetReady set && isServiceReady service) = false) :
    (run settings key).outcome.Rests v c (.error (.requeueAfter settings.intervals.short)) := by
  refine wp_frame_active h.stored hactive (wp_work_started h.ready h.stored hstarted
    fun c' set' service' h' hkept => ?_)
  obtain rfl := hkept set service h.furnished
  obtain ⟨rfl, rfl⟩ := h.furnished.unique h'.furnished
  refine wp_readinessStep _ h.furnished h.ready h.stored (fun _ => ⟨rfl, rfl, rfl⟩) ?_ ?_
  · intro hall'
    simp [hall] at hall'
  · intro _ _ hall'
    simp [hall] at hall'

theorem rests_shown (h : Stands key o set service c) (hstarted : Started o)
    (hactive : Lifecycle.of o Kind.model.finalizer = .active)
    (hall : (isStatefulSetReady set && isServiceReady service) = true)
    (hshown : Shown (Counts.of set) (o.status.getD {})) :
    (run settings key).outcome.Rests v c (.ok none) := by
  refine wp_frame_active h.stored hactive (wp_work_started h.ready h.stored hstarted
    fun c' set' service' h' hkept => ?_)
  obtain rfl := hkept set service h.furnished
  obtain ⟨rfl, rfl⟩ := h.furnished.unique h'.furnished
  refine wp_readinessStep _ h.furnished h.ready h.stored (fun hall' => ?_) (fun _ _ => ⟨rfl, rfl⟩)
    fun _ _ _ hnot => absurd hshown hnot
  simp [hall] at hall'

theorem settles_started (hready : c.Ready .model key) (hs : c.stored? .model key = some o)
    (hstarted : Started o) (hactive : Lifecycle.of o Kind.model.finalizer = .active) :
    (run settings key).outcome.Settles v 0 c := by
  refine wp_frame_active hs hactive (wp_work_started hready hs hstarted
    fun c₁ set service h _ => ?_)
  refine wp_readinessStep _ h.furnished h.ready h.stored (fun hall => ?_) (fun hall hshown => ?_)
    fun c' o' hall _ hrecorded hshown => ?_
  · exact ⟨rfl, rests_waiting h hstarted hactive hall⟩
  · exact rests_shown h hstarted hactive hall hshown
  · have h' : Stands key o' set service c' :=
      ⟨h.furnished.congr hrecorded.sameBut, hrecorded.ready, hrecorded.stored⟩
    have hstarted' : Started o' :=
      .inl ((hasCondition_eq o' _).trans (Conditions.has_of_isTrue hshown.isTrue))
    exact rests_shown h' hstarted' ((hrecorded.lifecycle _).trans hactive) hall hshown

/-- An active model is marked as in progress, and then it is settled after one pass. -/
theorem settles_active (hready : c.Ready .model key) (hs : c.stored? .model key = some o)
    (hactive : Lifecycle.of o Kind.model.finalizer = .active) :
    (run settings key).outcome.Settles v 1 c := by
  by_cases hstarted : Started o
  · exact (settles_started hready hs hstarted hactive).succ
  · refine wp_frame_active hs hactive (wp_work_new hready hs hstarted
      fun c' o' hrecorded hstarted' => ?_)
    exact settles_started hrecorded.ready hrecorded.stored hstarted'
      ((hrecorded.lifecycle _).trans hactive)

end Work

end ModelKeeper.Pass.Model
