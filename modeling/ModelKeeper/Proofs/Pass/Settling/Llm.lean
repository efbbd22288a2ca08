import ModelKeeper.Pass.Llm
import ModelKeeper.Proofs.Pass.Settling.Basic
import ModelKeeper.Proofs.Resource.Condition

/-!
# The pass over a language model settles

The first pass over an active language model may have to put the right label on it.  Then one pass
records the outcome of the check, and all later ones find it recorded
(`Pass.Llm.settles_labelled`).  So the pass settles after one (`Pass.Llm.settles_active`).
-/

namespace ModelKeeper.Pass.Llm

variable {σ : Type} {v : Vendors σ} {key : Key} {c : Cluster} {settings : Settings}

/-! ### The check -/

theorem looks_tryModels (hv : v.Steady) (x : Connection) (models : List String) :
    (tryModels x models).Looks v .llm key c := by
  induction models with
  | nil => exact Attempt.looks_pure _
  | cons model models ih =>
    refine Attempt.Looks.bind ?_ fun reply => Attempt.Looks.bind ih fun texts => ?_
    · exact (Attempt.Looks.observed (Program.looks_validate hv x _) _).mapError _
    · exact Attempt.looks_pure _

theorem looks_checkEndpoint (hv : v.Steady) (o : Object .llm) (endpoint : Endpoint) :
    (checkEndpoint o endpoint).Looks v .llm key c := by
  unfold checkEndpoint
  refine Attempt.Looks.bind
    ((Attempt.looks_apiKey (by decide) endpoint _).mapError _) fun apiKey => ?_
  refine Attempt.Looks.bind (Attempt.Looks.mapError (Program.looks_done _) _) fun vendor => ?_
  -- both branches of the test for an empty list go on alike
  have hrest : ∀ x : Connection, Attempt.Looks v .llm key c (do
      (Attempt.of (.ask (.connect x))).mapError Failure.chat
      let texts ← tryModels x o.spec.modelsToTry
      pure ("\n".intercalate texts)) := fun x =>
    Attempt.Looks.bind (Attempt.Looks.mapError (Program.looks_connect x) _) fun _ =>
      Attempt.Looks.bind (looks_tryModels hv _ _) fun _ => Attempt.looks_pure _
  cases hmodels : o.spec.modelsToTry.isEmpty with
  | true =>
    simp only [hmodels, if_true]
    exact Attempt.Looks.bind (Attempt.looks_throw _) fun _ => hrest _
  | false =>
    simp only [hmodels, Bool.false_eq_true, if_false]
    exact hrest _

theorem looks_checkWorker (o : Object .llm) (reference : TypedReference) :
    (checkWorker o reference).Looks v .llm key c := by
  unfold checkWorker
  have hne : ¬ (Kind.worker = .llm ∧ (⟨o.nsOrEmpty, reference.name⟩ : Key) = key) :=
    fun h => nomatch h.1
  refine Attempt.Looks.bind ((Attempt.looks_find? hne).mapError _) fun r => ?_
  cases r with
  | none => exact Attempt.looks_throw _
  | some worker =>
    have hready : Attempt.Looks v .llm key c (do
        if !(worker.status.getD {}).isReady then throw (.notReady "worker is not ready")
        pure "worker is ready" : Attempt Failure String) := by
      split
      · exact Attempt.Looks.bind (Attempt.looks_throw _) fun _ => Attempt.looks_pure _
      · exact Attempt.looks_pure _
    simp only
    split
    · exact Attempt.Looks.bind (Attempt.looks_throw _) fun _ => hready
    · exact hready

theorem looks_check (hv : v.Steady) (key : Key) (c : Cluster) (o : Object .llm) :
    (check o).Looks v .llm key c := by
  unfold check
  cases o.spec.provider.resolve with
  | error e => exact Attempt.looks_throw _
  | ok provider =>
    cases provider with
    | thirdParty endpoint => exact looks_checkEndpoint hv o endpoint
    | worker reference => exact looks_checkWorker o reference

/-- The check looks at what is wanted, and where. -/
theorem check_congr {o o' : Object .llm} (hspec : o'.spec = o.spec)
    (hns : o'.metadata.ns = o.metadata.ns) : check o' = check o := by
  unfold check checkEndpoint checkWorker Object.nsOrEmpty
  rw [hspec, hns]

/-! ### The label -/

/-- Whether the language model has the label that it should have. -/
def Labelled (o : Object .llm) : Prop :=
  o.metadata.labels.bind (·.get? providerLabel) = some o.spec.provider.type.name

theorem labelled_label (o : Object .llm) :
    (label o.spec.provider.type o).1.metadata.labels.bind (·.get? providerLabel) =
      some o.spec.provider.type.name := by
  unfold label
  simp only
  split
  · next h =>
    cases hlabels : o.metadata.labels with
    | none => simp [hlabels] at h
    | some labels => simpa [hlabels] using h
  · simp [SortedMap.get?_insert]

theorem label_proper (type : ProviderType) : Change.Proper (fun _ => label type) := by
  intro now o
  unfold label
  simp only
  split
  · exact ⟨o.metadata.labels, o.metadata.annotations, o.metadata.finalizers, rfl⟩
  · exact ⟨_, o.metadata.annotations, o.metadata.finalizers, rfl⟩

theorem label_spec (type : ProviderType) (o : Object .llm) : (label type o).1.spec = o.spec := by
  unfold label
  simp only
  split <;> rfl

theorem label_finalizers (type : ProviderType) (o : Object .llm) :
    (label type o).1.metadata.finalizers = o.metadata.finalizers := by
  unfold label
  simp only
  split <;> rfl

theorem label_deletion (type : ProviderType) (o : Object .llm) :
    (label type o).1.metadata.deletion = o.metadata.deletion := by
  unfold label
  simp only
  split <;> rfl

theorem label_changes {o : Object .llm} (h : ¬ Labelled o) :
    (label o.spec.provider.type o).2 = true := by
  have hlabels : (o.metadata.labels.getD .empty).get? providerLabel ≠
      some o.spec.provider.type.name := by
    unfold Labelled at h
    cases hlabels : o.metadata.labels with
    | none => simp
    | some labels => simpa [hlabels] using h
  unfold label
  simp only
  rw [if_neg hlabels]

/-! ### The condition -/

/-- The next `Ready` condition after a check. -/
def next (outcome : Except Failure String) (now : Instant) (c : Condition) : Condition :=
  match outcome with
  | .ok message => c.succeeded message now
  | .error e => c.failed e.conditionMessage now

/-- How the pass ends after a check. -/
def ending (settings : Settings) : Except Failure String → Except Failure (Option Directive)
  | .ok _ => .ok none
  | .error e => .error (e.withRequeue settings.intervals.medium)

theorem next_next (outcome : Except Failure String) (now now' : Instant) (c : Condition) :
    next outcome now' (next outcome now c) = next outcome now c := by
  cases outcome with
  | ok message => exact c.succeeded_succeeded message now now'
  | error e => exact c.failed_failed e.conditionMessage now now'

theorem next_type (outcome : Except Failure String) (now : Instant) (c : Condition) :
    (next outcome now c).type = .ready := by
  cases outcome with
  | ok message => exact c.succeeded_type message now
  | error e => exact c.failed_type e.conditionMessage now

/-- Whether the outcome of the check is recorded, so that it will not be recorded again. -/
def Settled (outcome : Except Failure String) (o : Object .llm) : Prop :=
  ∀ now, next outcome now ((o.status.getD {}).conditions.get .ready) =
    (o.status.getD {}).conditions.get .ready

theorem recordReady_ofStatus (next : Condition → Condition) :
    Change.OfStatus (fun _ => recordReady next) := by
  intro now o
  unfold recordReady
  simp only
  split
  · exact ⟨some (o.status.getD {}), rfl⟩
  · exact ⟨some _, rfl⟩

/-- A recorded outcome is not recorded again, and no other is left unrecorded. -/
theorem recordReady_eq_false {outcome : Except Failure String} {now : Instant} {o : Object .llm} :
    (recordReady (next outcome now) o).2 = false ↔ Settled outcome o := by
  have hflag : (recordReady (next outcome now) o).2 = false ↔
      next outcome now ((o.status.getD {}).conditions.get .ready) =
        (o.status.getD {}).conditions.get .ready := by
    unfold recordReady
    simp only
    split
    · next hsame => simp [hsame]
    · next hne => simp [hne]
  rw [hflag]
  -- what is put is stable: the same outcome puts the same condition again
  constructor
  · intro hsame now'
    rw [← hsame, next_next]
  · intro hsettled
    exact hsettled now

theorem settled_of_recorded {outcome : Except Failure String} {now : Instant} {o o' : Object .llm}
    (h : (recordReady (next outcome now) o).2 = true)
    (hstatus : o'.status = (recordReady (next outcome now) o).1.status) : Settled outcome o' := by
  intro now'
  -- the condition that is read is the one that was put
  have hget : (o'.status.getD {}).conditions.get .ready =
      next outcome now ((o.status.getD {}).conditions.get .ready) := by
    unfold recordReady at h hstatus
    simp only at h hstatus
    split at h
    · cases h
    · next hne =>
      rw [if_neg hne] at hstatus
      rw [hstatus]
      simp [Conditions.get_set, next_type]
  rw [hget, next_next]

/-! ### The work -/

variable {post : Except Failure (Option Directive) → Cluster → Prop} {o : Object .llm}
  {outcome : Except Failure String}

/-- With the right label, the work is to record the outcome of the check. -/
theorem wp_work_labelled (hready : c.Ready .llm key) (hs : c.stored? .llm key = some o)
    (hlabel : Labelled o) (hcheck : (check o).outcome.Rests v c outcome)
    (hsame : Settled outcome o → post (ending settings outcome) c)
    (hput : ∀ c' o', ¬ Settled outcome o → c.Recorded key o c' o' → Settled outcome o' →
      post (ending settings outcome) c') :
    (work settings key o.settled).wp (.onCluster v) post c := by
  -- both outcomes are recorded alike: nothing to do, or one write
  have hpersist : ∀ now, (persist settings key (next outcome now)).wp (.onCluster v)
      (fun r c' => r = .ok () ∧ post (ending settings outcome) c') c := by
    intro now
    unfold persist
    rw [Attempt.wp_bind]
    refine Change.wp_record (recordReady_ofStatus _) hready hs _ (fun _ hflag => ?_)
      fun _ a c' o' hflag hrecorded hstatus => ?_
    · exact ⟨rfl, hsame (recordReady_eq_false.1 hflag)⟩
    · refine ⟨rfl, hput c' o' (fun hsettled => ?_) hrecorded (settled_of_recorded hflag hstatus)⟩
      have hflag' : (recordReady (next outcome now) o).2 = false :=
        recordReady_eq_false.2 hsettled
      exact Bool.false_ne_true (hflag'.symm.trans hflag)
  have hnormal : normalizeLabel settings o.settled = pure false := if_pos hlabel
  unfold work access
  rw [hnormal]
  simp only [Attempt.wp_bind, Attempt.wp_mapError, Attempt.wp_pure, Attempt.unlessFailed_ok,
    Attempt.mapError_ok, Attempt.wp_always, Bool.false_eq_true, if_false]
  refine Program.wp_mono (Meaning.onCluster_monotone v) ?_ _ hcheck
  rintro r c' ⟨rfl, rfl⟩
  cases r with
  | ok message =>
    simp only [Attempt.wp_bind, Attempt.wp_mapError, Attempt.wp_always]
    intro now
    refine Attempt.wp_mono (Meaning.onCluster_monotone v) ?_ _ (hpersist now)
    rintro r c'' ⟨rfl, hpost⟩
    exact hpost
  | error e =>
    simp only [Attempt.wp_bind, Attempt.wp_always]
    intro now
    refine Attempt.wp_mono (Meaning.onCluster_monotone v) ?_ _ (hpersist now)
    rintro r c'' ⟨rfl, hpost⟩
    exact hpost

theorem settles_labelled (hv : v.Steady) (hready : c.Ready .llm key)
    (hs : c.stored? .llm key = some o) (hactive : Lifecycle.of o Kind.llm.finalizer = .active)
    (hlabel : Labelled o) : (run settings key).outcome.Settles v 0 c := by
  obtain ⟨outcome, hlooks⟩ := looks_check hv key c o
  -- the check looks at other objects only, so it has this outcome whatever is recorded
  have hrests : ∀ c' o', c.SameBut .llm key c' → c'.Ready .llm key →
      c'.stored? .llm key = some o' → Lifecycle.of o' Kind.llm.finalizer = .active →
      Labelled o' → check o' = check o → Settled outcome o' →
      (run settings key).outcome.Rests v c' (ending settings outcome) := by
    intro c' o' hc' hready' hs' hactive' hlabel' hcheck' hsettled
    refine wp_frame_active hs' hactive' (wp_work_labelled hready' hs' hlabel' ?_ (fun _ => ?_)
      fun _ _ hnot => absurd hsettled hnot)
    · exact hcheck' ▸ hlooks c' hc'
    · exact ⟨rfl, rfl⟩
  refine wp_frame_active hs hactive (wp_work_labelled hready hs hlabel
    (hlooks c (.refl _ _ c)) (fun hsettled => ?_) fun c' o' _ hrecorded hsettled => ?_)
  · exact hrests c o (.refl _ _ c) hready hs hactive hlabel rfl hsettled
  · obtain ⟨version, hmeta⟩ := hrecorded.metadata
    have hspec := hrecorded.spec
    refine hrests c' o' hrecorded.sameBut hrecorded.ready hrecorded.stored
      ((hrecorded.lifecycle _).trans hactive) ?_ (check_congr hspec (by rw [hmeta])) hsettled
    unfold Labelled
    rw [hspec, hmeta]
    exact hlabel

/-- An active language model gets the right label first. -/
theorem settles_active (hv : v.Steady) (hready : c.Ready .llm key)
    (hs : c.stored? .llm key = some o) (hactive : Lifecycle.of o Kind.llm.finalizer = .active) :
    (run settings key).outcome.Settles v 1 c := by
  by_cases hlabel : Labelled o
  · exact (settles_labelled hv hready hs hactive hlabel).succ
  · refine wp_frame_active hs hactive ?_
    have hnormal : normalizeLabel settings o.settled = (do
        let _ ← amend .body .llm ⟨o.nsOrEmpty, o.nameOrEmpty⟩ settings.writeAttempts
          (fun _ => label o.spec.provider.type)
        pure true) := if_neg hlabel
    have hdeleted := (Lifecycle.of_eq_active.1 hactive).2
    unfold work access
    rw [hnormal, (hready.isAt o hs).own]
    simp only [Attempt.wp_bind, Attempt.wp_mapError]
    refine Change.wp_replace (label_proper _) hready hs hdeleted _
      (fun _ => label_changes hlabel) fun _ a c' o' hreplaced hfinalizers hlabels hspec => ?_
    have hactive' : Lifecycle.of o' Kind.llm.finalizer = .active := by
      rw [Lifecycle.of_congr ?_ hreplaced.isDeleted]
      · exact hactive
      · unfold Object.finalizers
        rw [hfinalizers, label_finalizers]
        rfl
    have hlabel' : Labelled o' := by
      have hspec' : o'.spec = o.spec := hspec.trans (label_spec _ o)
      have hlabels' : o'.metadata.labels.bind (·.get? providerLabel) =
          some o.spec.provider.type.name := by
        rw [hlabels]
        exact labelled_label o
      unfold Labelled
      rw [hlabels', hspec']
    -- after the label one more pass is enough, as it is for an object that had it
    exact settles_labelled hv hreplaced.ready hreplaced.stored hactive' hlabel'

end ModelKeeper.Pass.Llm
