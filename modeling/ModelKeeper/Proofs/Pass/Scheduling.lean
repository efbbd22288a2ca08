import Mathlib.Control.Monad.Basic
import ModelKeeper.Proofs.Cluster.Versions
import ModelKeeper.Proofs.Pass.Failures
import ModelKeeper.Proofs.Text.Base64

/-!
# When a pass is due again

A pass over an object ends in one of a few ways, and each of them goes with one directive or with a
failure (`Pass.Ends`).  `Pass.reconcile_ends` says so of every pass in a world of its own, whatever
conflicts are in the way and however long the intervals are.

An object needs the finalizer and maybe a label before it is worked for.  So of three passes running
one at least does not ask to be called again at once (`Pass.due_again`).
-/

namespace ModelKeeper

variable {σ : Type} {v : Vendors σ} {key : Key} {settings : Settings} {s s' s₁ : World σ}

/-- A status that was recorded is there, whoever has recorded it. -/
theorem Change.wp_record_onCluster {k : Kind} {change : Change k} {c : Cluster} {stored : Object k}
    {post : Except AccessError (Object k) → Cluster → Prop} (hstatus : change.OfStatus)
    (hs : c.stored? k key = some stored) (hplace : stored.IsAt key) (attempts : Nat)
    (hkept : ∀ c' now a, c'.stored? k key = some stored → (change now stored.settled).2 = false →
      post (.ok a) c')
    (hput : ∀ c' o' now a, c'.stored? k key = some o' →
      o'.status = (change now stored.settled).1.status → post (.ok a) c')
    (hrefused : ∀ c' e, post (.error e) c') :
    (amend .status k key attempts change).wp (.onCluster v) post c := by
  have hstored : ∀ c' : Cluster, c'.tables = c.tables → c'.stored? k key = some stored := by
    intro c' htables
    unfold Cluster.stored?
    rw [htables]
    exact hs
  exact wp_amend_status hstatus hs hplace attempts
    (fun now a c' htables hflag => hkept c' now a (hstored c' htables) hflag)
    (fun e c' _ => hrefused c' e) fun now a c' o' _ ho' => hput c' o' now a ho'

namespace Pass

/-! ### Passes that do not fail -/

/-- A language model without the right label gets it. -/
theorem Llm.wp_run_unlabelled {o : Object .llm}
    {post : Except Failure (Option Directive) → World σ → Prop}
    (hs : s.cluster.stored? .llm key = some o) (hplace : o.IsAt key)
    (hactive : Lifecycle.of o Kind.llm.finalizer = .active) (hlabel : ¬ Labelled o)
    (hput : s.cluster.injectedConflicts < max settings.writeAttempts 1 →
      post (.ok (some .immediate))
        { s with cluster := s.cluster.withBody key o (label o.spec.provider.type o).1 })
    (hrefused : max settings.writeAttempts 1 ≤ s.cluster.injectedConflicts → ∀ e,
      post (.error (.access e))
        { s with
          cluster := { s.cluster with
            injectedConflicts := s.cluster.injectedConflicts - max settings.writeAttempts 1 } }) :
    (run settings key).wp (World.handler v).meaning post s := by
  have hsettled : o.settled = o := rfl
  have hnormal : normalizeLabel settings o.settled = (do
      let _ ← amend .body .llm key settings.writeAttempts fun _ => label o.spec.provider.type
      pure true) := by
    unfold normalizeLabel
    rw [hplace.settled.own]
    exact if_neg hlabel
  refine wp_frame_alone hs hactive ?_
  -- the label is the only write of such a pass, which is to be called again at once
  unfold work access
  rw [hnormal]
  simp only [Attempt.wp_bind, Attempt.wp_mapError]
  exact Change.wp_replace_alone (label_proper _) hs hplace settings.writeAttempts
    (label_changes hlabel) (fun hlt _ => hput hlt) fun hle => hrefused hle _

theorem Prompt.wp_run_processed {o : Object .prompt}
    {post : Except Failure (Option Directive) → World σ → Prop}
    (hs : s.cluster.stored? .prompt key = some o)
    (hactive : Lifecycle.of o Kind.prompt.finalizer = .active) (hprocessed : o.isProcessed = true)
    (hpost : post (.ok (some .done)) s) :
    (run settings key).wp (World.handler v).meaning post s := by
  have hprocessed' : o.settled.isProcessed = true := hprocessed
  refine wp_frame_alone hs hactive ?_
  unfold work
  rw [if_pos hprocessed']
  exact hpost

/-- An answer is recorded, unless too many conflicts are in the way. -/
theorem Prompt.wp_run_answered {o : Object .prompt} {bytes : List UInt8}
    {post : Except Failure (Option Directive) → World σ → Prop}
    (hs : s.cluster.stored? .prompt key = some o) (hplace : o.IsAt key)
    (hactive : Lifecycle.of o Kind.prompt.finalizer = .active) (hprocessed : o.isProcessed = false)
    (hsend : (send o.settled).outcome.run (World.handler v) s = (.ok bytes, s₁))
    (hput : s₁.cluster.injectedConflicts < max settings.writeAttempts 1 →
      post (.ok (some .done))
        { s₁ with
          cluster := s₁.cluster.withStatus key o
            (record o.metadata.generation (.ok bytes) s₁.clock o).1.status })
    (hrefused : max settings.writeAttempts 1 ≤ s₁.cluster.injectedConflicts → ∀ e,
      post (.error (.access e))
        { s₁ with
          cluster := { s₁.cluster with
            injectedConflicts := s₁.cluster.injectedConflicts -
              max settings.writeAttempts 1 } }) :
    (run settings key).wp (World.handler v).meaning post s := by
  have hprocessed' := not_isProcessed_settled hprocessed
  -- sending writes nothing, so the prompt is still the one that was read
  have hs₁ := stored_of_send hs hsend
  refine wp_frame_alone hs hactive ?_
  unfold work access
  rw [if_neg hprocessed']
  simp only [Attempt.wp_bind, Attempt.wp_always]
  rw [Program.wp_meaning, hsend]
  simp only [persist, Attempt.unlessFailed_ok, Attempt.wp_bind, Attempt.wp_mapError]
  refine Change.wp_record_alone (record_ofStatus _ _) hs₁ hplace settings.writeAttempts
    (fun hflag => ?_) (fun _ hlt _ => hput hlt) fun _ hle e => hrefused hle e
  -- an answer always has to be recorded
  rw [record_ok] at hflag
  cases hflag

/-- A model that is not in progress is marked so. -/
theorem Model.wp_run_new {o : Object .model}
    {post : Except Failure (Option Directive) → World σ → Prop}
    (hs : s.cluster.stored? .model key = some o) (hplace : o.IsAt key)
    (hactive : Lifecycle.of o Kind.model.finalizer = .active) (hnew : ¬ Started o)
    (hput : s.cluster.injectedConflicts < max settings.writeAttempts 1 → ∀ s',
      s'.cluster = s.cluster.withStatus key o (markProgressing s.clock o).1.status →
      post (.error (.requeueAfter settings.intervals.short)) s')
    (hrefused : max settings.writeAttempts 1 ≤ s.cluster.injectedConflicts → ∀ e,
      post (.error (.access e))
        { s with
          cluster := { s.cluster with
            injectedConflicts := s.cluster.injectedConflicts - max settings.writeAttempts 1 } }) :
    (run settings key).wp (World.handler v).meaning post s := by
  unfold Started at hnew
  rw [not_or, Bool.not_eq_true, Bool.not_eq_true] at hnew
  have hsettled : o.settled = o := rfl
  refine wp_frame_alone hs hactive ?_
  unfold work access persist report
  simp only [hsettled, hnew, Bool.not_false, Bool.and_self, if_true, Attempt.wp_bind,
    Attempt.wp_mapError]
  refine Change.wp_record_alone markProgressing_ofStatus hs hplace settings.writeAttempts
    (fun hflag => ?_) (fun _ hlt _ => hput hlt _ rfl) fun _ hle e => hrefused hle e
  rw [hsettled, markProgressing_flag hnew.2] at hflag
  cases hflag

/-- The chain for a model that is in progress may find all well, or wish to be called again. -/
theorem Model.wp_run_started {o : Object .model} {r : Except Failure Unit}
    {post : Except Failure (Option Directive) → World σ → Prop}
    (hs : s.cluster.stored? .model key = some o)
    (hactive : Lifecycle.of o Kind.model.finalizer = .active) (hstarted : Started o)
    (hrun : Program.run (World.handler v) (Chain.run ⟨settings, key, o⟩ chain).run s = (r, s₁))
    (hfine : ∀ e, r = .error e → e.IsWish)
    (hpost : post (r.map fun _ => none) s₁) :
    (run settings key).wp (World.handler v).meaning post s := by
  have hcondition := hstarted.not_new
  have hsettled : o.settled = o := rfl
  refine wp_frame_alone hs hactive ?_
  unfold work
  simp only [hsettled, hcondition, Bool.false_eq_true, if_false, Attempt.wp_bind, Attempt.wp_always]
  rw [Program.wp_meaning, hrun]
  -- a wish is passed on as it is, and any other failure is ruled out
  match r with
  | .ok () => exact hpost
  | .error e =>
    cases e with
    | requeueAfter d => exact hpost
    | _ => exact (hfine _ rfl).elim

/-- What is known when the chain for a model has ended: either the model says that it is available,
or it is wished to be called again because the image store is not ready; or else it has failed. -/
inductive Model.ChainOutcome (settings : Settings) (key : Key) (c : Cluster) :
    Except Failure Unit → Prop
  | available {o : Object .model} :
    c.stored? .model key = some o → o.IsAvailable → ChainOutcome settings key c (.ok ())
  | waiting {set : Object .statefulSet} {service : Object .service} :
    ImageStore.Furnished key.ns set service c →
    (ImageStore.isStatefulSetReady set && ImageStore.isServiceReady service) = false →
    ChainOutcome settings key c (.error (.requeueAfter settings.intervals.short))
  | failed {e : Failure} : ¬ e.IsWish → ChainOutcome settings key c (.error e)

theorem Model.wp_chain_outcome {c : Cluster} {o : Object .model} (settings : Settings)
    (hs : c.stored? .model key = some o) (hplace : o.IsAt key) :
    Attempt.wp (.onCluster v) (fun r c' => ChainOutcome settings key c' r)
      (Chain.run ⟨settings, key, o⟩ chain) c := by
  refine wp_chain _ fun c' set service hfurnished hmodels _ _ => ?_
  have hs' : c'.stored? .model key = some o := (hmodels key).trans hs
  unfold readinessStep
  rw [Attempt.wp_bind]
  refine wp_isReady _ hfurnished ?_
  -- the last step waits for the set and the service, or publishes what the set tells
  cases hall : ImageStore.isStatefulSetReady set && ImageStore.isServiceReady service with
  | false => exact .waiting hfurnished hall
  | true =>
    have hreport : ∀ c' (o' : Object .model), c'.stored? .model key = some o' → o'.IsAvailable →
        Attempt.wp (.onCluster v) (fun r c' => ChainOutcome settings key c' r)
          (if !o.hasCondition .available then
            .always (report o.subject EventReason.modelAvailable "Image store is ready")
          else pure ()) c' := by
      intro c' o' ho' havailable
      split <;> exact .available ho' havailable
    simp only [Attempt.unlessFailed_ok, Bool.not_true, Bool.false_eq_true, if_false,
      Attempt.wp_bind]
    refine wp_requireStatefulSet hfurnished.set ?_
    simp only [Attempt.unlessFailed_ok, Attempt.wp_bind, access, persist, Attempt.wp_mapError]
    refine Change.wp_record_onCluster (markAvailable_ofStatus _) hs' hplace _
      (fun c' now _ ho' hflag => hreport c' o ho' ?_)
      (fun c' o' now _ ho' hstatus => hreport c' o' ho' ?_) fun c' e => .failed id
    · exact (markAvailable_eq_false.1 hflag).isTrue
    · unfold Object.IsAvailable
      rw [hstatus]
      exact (shown_after ..).isTrue

/-! ### How passes end -/

/-- Whether the object under a key stands so. -/
def Holds (w : Worked) (key : Key) (lifecycle : Lifecycle) (c : Cluster) (o : Object w.kind) :
    Prop :=
  c.stored? w.kind key = some o ∧ Lifecycle.of o w.kind.finalizer = lifecycle

/-- How a pass over the object under a key may end: what was the case in the world `s` before it and
is the case in the world `s'` after it, and its result. -/
inductive Ends (v : Vendors σ) (settings : Settings) (key : Key) (s s' : World σ) :
    Worked → Except Failure Directive → Prop
  | absent {w : Worked} : s.cluster.stored? w.kind key = none →
    Ends v settings key s s' w (.ok .done)
  | gone {w : Worked} {o : Object w.kind} : Holds w key .gone s.cluster o →
    Ends v settings key s s' w (.ok .done)
  /-- The finalizer was taken off. -/
  | released {w : Worked} {o : Object w.kind} : Holds w key .terminating s.cluster o →
    (∀ o' : Object w.kind, s'.cluster.stored? w.kind key = some o' →
      w.kind.finalizer ∉ o'.finalizers) →
    Ends v settings key s s' w (.ok .done)
  | processed {o : Object .prompt} : Holds .prompt key .active s.cluster o →
    o.isProcessed = true → Ends v settings key s s' .prompt (.ok .done)
  /-- The prompt was answered, and the answer was recorded for its generation. -/
  | answered {o o' : Object .prompt} {bytes : List UInt8} {s₁ : World σ} :
    Holds .prompt key .active s.cluster o → o.isProcessed = false →
    (Prompt.send o.settled).outcome.run (World.handler v) s = (.ok bytes, s₁) →
    Holds .prompt key .active s'.cluster o' →
    ((o'.status.getD {}).conditions.get .done).isTrue = true →
    (o'.status.getD {}).observedGeneration = o.metadata.generation →
    (o'.status.getD {}).dataBytes? = some bytes →
    Ends v settings key s s' .prompt (.ok .done)
  /-- The finalizer was put on. -/
  | added {w : Worked} {o o' : Object w.kind} : Holds w key .new s.cluster o →
    Holds w key .active s'.cluster o' → Ends v settings key s s' w (.ok .immediate)
  | labelled {o o' : Object .llm} : Holds .llm key .active s.cluster o → ¬ Llm.Labelled o →
    Holds .llm key .active s'.cluster o' → Llm.Labelled o' →
    Ends v settings key s s' .llm (.ok .immediate)
  | progressing {o o' : Object .model} : Holds .model key .active s.cluster o →
    ¬ Model.Started o → Holds .model key .active s'.cluster o' →
    o'.hasCondition .progressing = true →
    Ends v settings key s s' .model (.ok (.after settings.intervals.short))
  /-- The image store was found not ready. -/
  | waiting {o : Object .model} {set : Object .statefulSet} {service : Object .service} :
    Holds .model key .active s.cluster o → Model.Started o →
    ImageStore.Furnished key.ns set service s'.cluster →
    (ImageStore.isStatefulSetReady set && ImageStore.isServiceReady service) = false →
    Ends v settings key s s' .model (.ok (.after settings.intervals.short))
  | ready {o o' : Object .llm} : Holds .llm key .active s.cluster o →
    s'.cluster.stored? .llm key = some o' →
    ((o'.status.getD {}).conditions.get .ready).isTrue = true →
    Ends v settings key s s' .llm (.ok (.after settings.intervals.long))
  | available {o o' : Object .model} : Holds .model key .active s.cluster o →
    s'.cluster.stored? .model key = some o' → o'.IsAvailable →
    Ends v settings key s s' .model (.ok (.after settings.intervals.long))
  /-- All attempts of a write were lost to conflicts. -/
  | refused {w : Worked} {o : Object w.kind} {e : AccessError} :
    s.cluster.stored? w.kind key = some o →
    max settings.writeAttempts 1 ≤ s.cluster.injectedConflicts →
    Ends v settings key s s' w (.error (.access e))
  /-- What there is to do for an active object failed. -/
  | failed {w : Worked} {o : Object w.kind} {e : Failure} {s₁ : World σ} :
    Holds w key .active s.cluster o → w.Reaches o →
    (w.logic settings key o.settled).outcome.run (World.handler v) s = (.error e, s₁) →
    (w = .model → ¬ e.IsWish) →
    Ends v settings key s s' w (.error (e.withRequeue settings.intervals.medium))

section

variable {w : Worked} {o : Object w.kind}

/-- An object that is not marked for deletion is active once its body has the finalizer. -/
theorem holds_withBody {incoming : Object w.kind} (hdeleted : o.isDeleted = false)
    (hincoming : incoming.metadata.deletion = o.metadata.deletion)
    (hmem : w.kind.finalizer ∈ incoming.finalizers) (c : Cluster) :
    Holds w key .active (c.withBody key o incoming)
      (Cluster.merged o incoming c.nextVersion.versionText) := by
  constructor
  · rw [Cluster.stored?_withBody hincoming, hdeleted, if_neg (by simp)]
  · refine Lifecycle.of_eq_active.2 ⟨hmem, ?_⟩
    have hnone : o.metadata.deletion = none := by simpa [Object.isDeleted] using hdeleted
    simp [Cluster.merged, Object.isDeleted, hincoming, hnone]

/-- A status does not change where an object stands. -/
theorem holds_withStatus {lifecycle : Lifecycle} (h : Lifecycle.of o w.kind.finalizer = lifecycle)
    (c : Cluster) (status : Option w.kind.Status) :
    Holds w key lifecycle (c.withStatus key o status)
      { o with
        status
        metadata := { o.metadata with version := some c.nextVersion.versionText } } :=
  ⟨Cluster.stored?_withStatus .., h⟩

end

/-- What is left of the result of a pass for the scheduler is one of its ends. -/
abbrev EndsSo (v : Vendors σ) (settings : Settings) (key : Key) (s : World σ) (w : Worked)
    (r : Except Failure (Option Directive)) (s' : World σ) : Prop :=
  Ends v settings key s s' w (resolve settings.intervals r)

/-- Where there is something to do for the object and this fails, the pass fails, whatever becomes
of the recording. -/
theorem wp_run_failed (w : Worked) {o : Object w.kind} {e : Failure}
    (hs : s.cluster.stored? w.kind key = some o) (hplace : o.IsAt key)
    (hactive : Lifecycle.of o w.kind.finalizer = .active) (hreaches : w.Reaches o)
    (hfailed : (w.logic settings key o.settled).outcome.run (World.handler v) s = (.error e, s₁))
    (hwish : w = .model → ¬ e.IsWish) :
    (run w settings key).wp (World.handler v).meaning (EndsSo v settings key s w) s := by
  have hdeals : w.Deals e.conditionMessage settings key o s₁ fun _ => True :=
    ⟨fun _ => trivial, fun _ _ => trivial, fun _ _ => trivial⟩
  refine Attempt.wp_mono (World.handler v).meaning_monotone ?_ _
    (wp_run_failing w hs hplace hactive hreaches hfailed hwish hdeals)
  rintro r s' ⟨rfl, -⟩
  unfold EndsSo
  rw [e.resolve_withRequeue]
  exact .failed ⟨hs, hactive⟩ hreaches hfailed hwish

/-- A pass over an object ends so if it does over an active one. -/
theorem wp_frame_ends (w : Worked) (hplace : ∀ o : Object w.kind,
      s.cluster.stored? w.kind key = some o → o.IsAt key)
    {work : Object w.kind → Attempt Failure (Option Directive)}
    (hactive : ∀ o, Holds w key .active s.cluster o →
      (frame settings key work).wp (World.handler v).meaning (EndsSo v settings key s w) s) :
    (frame settings key work).wp (World.handler v).meaning (EndsSo v settings key s w) s := by
  cases hs : s.cluster.stored? w.kind key with
  | none => exact wp_frame_absent_alone hs (.absent hs)
  | some o =>
    by_cases h : Lifecycle.of o w.kind.finalizer = .active
    · exact hactive o ⟨hs, h⟩
    · have hkept : ∀ fs, (o.settled.withFinalizers fs).metadata.deletion = o.metadata.deletion :=
        fun _ => rfl
      -- gone, finalizer put on, finalizer taken off, or no attempt left for either
      refine wp_frame_stored_alone hs (hplace o hs) (fun h' => absurd h' h) (fun hgone => ?_)
        (fun hnew _ => ?_) (fun hterminating _ => ?_) fun hle e => ?_
      · exact .gone ⟨hs, hgone⟩
      · obtain ⟨hmem, hdeleted⟩ : w.kind.finalizer ∉ o.finalizers ∧ o.isDeleted = false := by
          rcases Lifecycle.of_cases o w.kind.finalizer with h | h | h | h <;> simp_all
        refine .added ⟨hs, hnew⟩ (holds_withBody hdeleted (hkept _) ?_ s.cluster)
        rw [Object.withFinalizers_finalizers]
        exact List.mem_append_right _ (List.mem_singleton_self _)
      · refine .released ⟨hs, hterminating⟩ fun o' ho' => ?_
        have ho' := (Cluster.stored?_withBody (hkept _) s.cluster key).symm.trans ho'
        rw [Option.ite_none_left_eq_some] at ho'
        rw [← Option.some.inj ho'.2]
        simp [Cluster.merged, Object.finalizers, Object.withFinalizers]
      · exact .refused hs hle

theorem Llm.wp_ends {o : Object .llm} (hs : s.cluster.stored? .llm key = some o)
    (hplace : o.IsAt key) (hactive : Lifecycle.of o Kind.llm.finalizer = .active) :
    (run settings key).wp (World.handler v).meaning (EndsSo v settings key s .llm) s := by
  by_cases hlabel : Labelled o
  · cases hcheck : (check o.settled).outcome.run (World.handler v) s with
    | mk outcome s₁ =>
      have halone := (check_alone v o.settled s).1
      rw [hcheck] at halone
      cases outcome with
      | ok message =>
        -- a settled outcome is its own next condition, whatever the time
        have hready : ∀ o' : Object .llm, Settled (.ok message) o' →
            ((o'.status.getD {}).conditions.get .ready).isTrue = true := fun o' hsettled => by
          rw [← hsettled s.clock]
          exact Condition.succeeded_isTrue ..
        refine wp_run_alone hs hplace hactive hlabel hcheck (fun hsettled => ?_) (fun hnot _ => ?_)
          fun _ hle e => ?_
        · exact .ready ⟨hs, hactive⟩ ((congrArg (·.stored? .llm key) halone).trans hs)
            (hready o hsettled)
        · have hflag : (recordReady (next (.ok message) s.clock) o).2 = true := by
            rw [← Bool.not_eq_false]
            exact fun hflag => hnot (recordReady_eq_false.1 hflag)
          exact .ready ⟨hs, hactive⟩ (Cluster.stored?_withStatus ..)
            (hready _ (settled_of_recorded hflag rfl))
        · exact .refused hs (halone ▸ hle)
      | error e =>
        exact wp_run_failed .llm hs hplace hactive hlabel hcheck nofun
  · have hmem : Kind.llm.finalizer ∈ (label o.spec.provider.type o).1.finalizers := by
      unfold Object.finalizers
      rw [label_finalizers]
      exact (Lifecycle.of_eq_active.1 hactive).1
    refine wp_run_unlabelled hs hplace hactive hlabel (fun _ => ?_) fun hle e => .refused hs hle
    refine .labelled ⟨hs, hactive⟩ hlabel
      (holds_withBody (Lifecycle.of_eq_active.1 hactive).2 ?_ hmem s.cluster) ?_
    · exact label_deletion _ o
    · have hspec := label_spec o.spec.provider.type o
      unfold Labelled Cluster.merged
      simp only [labelled_label, hspec]

theorem Prompt.wp_ends {o : Object .prompt} (hs : s.cluster.stored? .prompt key = some o)
    (hplace : o.IsAt key) (hactive : Lifecycle.of o Kind.prompt.finalizer = .active) :
    (run settings key).wp (World.handler v).meaning (EndsSo v settings key s .prompt) s := by
  cases hprocessed : o.isProcessed with
  | true => exact wp_run_processed hs hactive hprocessed (.processed ⟨hs, hactive⟩ hprocessed)
  | false =>
    cases hsend : (send o.settled).outcome.run (World.handler v) s with
    | mk outcome s₁ =>
      have halone := send_alone v o.settled s
      rw [hsend] at halone
      cases outcome with
      | ok bytes =>
        refine wp_run_answered hs hplace hactive hprocessed hsend (fun _ => ?_) fun hle e =>
          .refused hs (halone ▸ hle)
        refine .answered ⟨hs, hactive⟩ hprocessed hsend
          (holds_withStatus (w := .prompt) hactive s₁.cluster _) ?_ ?_ ?_
        · simp [record_ok, Conditions.get_set, Condition.now, Condition.isTrue]
        · simp [record_ok]
        · simp [record_ok, PromptStatus.setData, PromptStatus.dataBytes?, Base64.decode?_encode]
      | error e =>
        exact wp_run_failed .prompt hs hplace hactive hprocessed hsend fun hmodel => by cases hmodel

theorem Model.wp_ends {o : Object .model} (hs : s.cluster.stored? .model key = some o)
    (hplace : o.IsAt key) (hactive : Lifecycle.of o Kind.model.finalizer = .active) :
    (run settings key).wp (World.handler v).meaning (EndsSo v settings key s .model) s := by
  by_cases hstarted : Started o
  · cases hrun : (Attempt.outcome (Chain.run ⟨settings, key, o⟩ chain)).run (World.handler v) s with
    | mk r s₁ =>
      have houtcome : ChainOutcome settings key s₁.cluster r := by
        have h := Program.run_of_wp (World.handler_serves v) _ (s := s)
          (wp_chain_outcome (v := v) settings hs hplace)
        rwa [hrun] at h
      -- only a chain that waits ends with a wish
      cases houtcome with
      | available hs' havailable =>
        refine wp_run_started hs hactive hstarted hrun nofun ?_
        exact .available ⟨hs, hactive⟩ hs' havailable
      | waiting hfurnished hnot =>
        refine wp_run_started hs hactive hstarted hrun (fun e he => ?_) ?_
        · rw [← Except.error.inj he]
          trivial
        · exact .waiting ⟨hs, hactive⟩ hstarted hfurnished hnot
      | failed hwish => exact wp_run_failed .model hs hplace hactive hstarted hrun fun _ => hwish
  · refine wp_run_new hs hplace hactive hstarted (fun _ s' hs' => ?_) fun hle e => .refused hs hle
    refine .progressing ⟨hs, hactive⟩ hstarted
      (hs' ▸ holds_withStatus (w := .model) hactive s.cluster _) ?_
    exact hasCondition_of_recorded (Bool.not_eq_true _ ▸ (not_or.1 hstarted).2) rfl

/-- Every pass over an object at home ends in one of these ways. -/
theorem reconcile_ends (v : Vendors σ) (w : Worked) (settings : Settings) (key : Key)
    (hplace : ∀ o : Object w.kind, s.cluster.stored? w.kind key = some o → o.IsAt key) :
    Ends v settings key s ((reconcile w settings key).run (World.handler v) s).2 w
      ((reconcile w settings key).run (World.handler v) s).1 := by
  have hrun : (run w settings key).wp (World.handler v).meaning (EndsSo v settings key s w) s := by
    cases w with
    | llm => exact wp_frame_ends .llm hplace fun o h => Llm.wp_ends h.1 (hplace o h.1) h.2
    | prompt => exact wp_frame_ends .prompt hplace fun o h => Prompt.wp_ends h.1 (hplace o h.1) h.2
    | model => exact wp_frame_ends .model hplace fun o h => Model.wp_ends h.1 (hplace o h.1) h.2
  exact reconcile_of_run (fun r s' => Ends v settings key s s' w r) hrun

/-! ### Passes running -/

/-- A failure of a pass is no wish, and the pass is tried again after the medium interval. -/
theorem Ends.of_error {w : Worked} {e : Failure} (h : Ends v settings key s s' w (.error e)) :
    ¬ e.IsWish ∧ e.delay settings.intervals = settings.intervals.medium := by
  cases h with
  | refused => exact ⟨id, rfl⟩
  | @failed _ _ e => exact ⟨by cases e <;> exact id, e.delay_withRequeue ..⟩

/-- Whether an object carries the label that it should have.  Only language models have one. -/
def Worked.IsLabelled : (w : Worked) → Object w.kind → Prop
  | .llm, o => Llm.Labelled o
  | _, _ => True

/-- A pass that asks to be called again at once has made an object active, or given it its label. -/
theorem Ends.of_immediate {w : Worked} (h : Ends v settings key s s' w (.ok .immediate)) :
    ((∃ o, Holds w key .new s.cluster o) ∧ ∃ o', Holds w key .active s'.cluster o') ∨
      (∃ o, Holds w key .active s.cluster o ∧ ¬ w.IsLabelled o) ∧
        ∃ o', Holds w key .active s'.cluster o' ∧ w.IsLabelled o' := by
  cases h with
  | added h h' => exact .inl ⟨⟨_, h⟩, _, h'⟩
  | labelled h hnot h' hlabel => exact .inr ⟨⟨_, h, hnot⟩, _, h', hlabel⟩

theorem Holds.unique {w : Worked} {lifecycle lifecycle' : Lifecycle} {c : Cluster}
    {o o' : Object w.kind} (h : Holds w key lifecycle c o) (h' : Holds w key lifecycle' c o') :
    o' = o ∧ lifecycle' = lifecycle := by
  obtain rfl := Option.some.inj (h'.1.symm.trans h.1)
  exact ⟨rfl, h'.2.symm.trans h.2⟩

/-- When a pass is due again.  Let a pass run over the object under a key in a world that nobody
else acts on.

* It ends in one of the ways that `Pass.Ends` lists, with the directive that goes with this way.
* If it fails then with a failure that is no wish, and it is due again after the medium interval.
* Of this pass and two more that follow it, not all ask to be called again at once. -/
theorem due_again (v : Vendors σ) (w : Worked) (settings : Settings) (key : Key) {s : World σ}
    (hplaced : s.cluster.Placed) :
    let p := reconcile w settings key
    let h := World.handler v
    Ends v settings key s (p.run h s).2 w (p.run h s).1 ∧
      (∀ e, (p.run h s).1 = .error e →
        ¬ e.IsWish ∧ e.delay settings.intervals = settings.intervals.medium) ∧
      ∃ n < 3, (p.run h (p.again h n s)).1 ≠ .ok .immediate := by
  intro p h
  have hends : ∀ s : World σ, s.cluster.Placed →
      Ends v settings key s (p.run h s).2 w (p.run h s).1 := fun s hplaced =>
    reconcile_ends v w settings key fun o ho => hplaced _ _ o ho
  have hends₀ := hends s hplaced
  refine ⟨hends₀, fun e he => (he ▸ hends₀).of_error, ?_⟩
  by_contra hall
  have himmediate : ∀ n < 3, (p.run h (p.again h n s)).1 = .ok .immediate := fun n hn =>
    not_not.1 fun hne => hall ⟨n, hn, hne⟩
  have hplaced₁ := (World.grows_run v p hplaced).placed hplaced
  have hends₁ := hends _ hplaced₁
  have hends₂ := hends _ ((World.grows_run v p hplaced₁).placed hplaced₁)
  rw [show (p.run h s).1 = _ from himmediate 0 (by decide)] at hends₀
  rw [show (p.run h (p.run h s).2).1 = _ from himmediate 1 (by decide)] at hends₁
  rw [show (p.run h (p.run h (p.run h s).2).2).1 = _ from himmediate 2 (by decide)] at hends₂
  -- the first pass leaves the object active, so that the second one has labelled it
  obtain ⟨o₁, hactive⟩ : ∃ o, Holds w key .active (p.run h s).2.cluster o := by
    rcases hends₀.of_immediate with ⟨-, h⟩ | ⟨-, o, h, -⟩
    · exact h
    · exact ⟨o, h⟩
  obtain ⟨o₂, hactive₂, hlabel₂⟩ : ∃ o, Holds w key .active
      (p.run h (p.run h s).2).2.cluster o ∧ w.IsLabelled o := by
    rcases hends₁.of_immediate with ⟨⟨o, hnew⟩, -⟩ | ⟨-, h⟩
    · cases (hactive.unique hnew).2
    · exact h
  -- and then nothing is left for the third one
  rcases hends₂.of_immediate with ⟨⟨o, hnew⟩, -⟩ | ⟨⟨o, hactive', hnot⟩, -⟩
  · cases (hactive₂.unique hnew).2
  · obtain ⟨rfl, -⟩ := hactive₂.unique hactive'
    exact hnot hlabel₂

/-- A language model that nobody has worked for. -/
def freshLlm (key : Key) : Object .llm where
  metadata := { name := some key.name, ns := some key.ns, generation := some 1 }
  spec := {}

/-- The first pass makes the model active, in spite of a conflict, and the second one labels it. -/
theorem due_again_fresh :
    let key : Key := ⟨"default", "m"⟩
    let c := { Cluster.empty.store key (freshLlm key) with injectedConflicts := 1 }
    let s : World Unit := { cluster := c, vendors := () }
    let p := reconcile .llm {} key
    let h := World.handler .unreachable
    c.Placed ∧ (∀ n < 2, (p.run h (p.again h n s)).1 = .ok .immediate) ∧
      Ends .unreachable {} key s (p.run h s).2 .llm (.ok .immediate) ∧
      ∃ n < 3, (p.run h (p.again h n s)).1 ≠ .ok .immediate := by
  intro key c s p h
  have hplaced : c.Placed :=
    (Cluster.placed_empty.store key ⟨rfl, rfl⟩ : (Cluster.empty.store key (freshLlm key)).Placed)
  have himmediate : ∀ n < 2, (p.run h (p.again h n s)).1 = .ok .immediate := by decide +kernel
  obtain ⟨hends, -, hlater⟩ := due_again (s := s) .unreachable .llm {} key hplaced
  rw [show (p.run h s).1 = _ from himmediate 0 (by decide)] at hends
  exact ⟨hplaced, himmediate, hends, hlater⟩

end Pass

end ModelKeeper
