import ModelKeeper.Proofs.Pass.Scheduling
import ModelKeeper.Proofs.Pass.Transitions.Conditions

/-!
# A pass records at most one thing

In a cluster that nobody else writes, a pass changes the status of its object once at most, in one
of the ways that `Pass.Worked.Records` lists (`Pass.wp_reconcile_recording`).  A pass that touches
the finalizers or the label comes to its end before it records anything.  A failure in the chain of
a model is recorded only if nothing else has been.
-/

namespace ModelKeeper

variable {σ : Type} {v : Vendors σ} {key : Key} {settings : Settings} {c c' : Cluster}

/-- An amendment of the body keeps the status. -/
theorem Change.keeps_status_body {k : Kind} {change : Change k} (hproper : change.Proper)
    (c : Cluster) (attempts : Nat) :
    (amend .body k key attempts change).Keeps (.onCluster v) fun c' => ∀ o',
      c'.stored? k key = some o' → o'.IsAt key ∧
        ∃ o, c.stored? k key = some o ∧ o'.status = o.status := by
  refine Change.keeps_onCluster hproper (fun c' hc' o ho => (hc' o ho).1) (fun c' hc' _ => hc')
    (fun c' stored now hc' hs o' ho' => ?_) attempts
  rw [Cluster.stored?_putBack_self, Option.ite_none_left_eq_some] at ho'
  obtain rfl := Option.some.inj ho'.2
  obtain ⟨hplace, o, ho, hstatus⟩ := hc' stored hs
  have hplace' := hproper.isAt hplace.settled now
  exact ⟨⟨hplace'.ns, hplace'.name⟩, o, ho, hstatus⟩

namespace Pass

/-- Whether the object under a key, if it is still there, has the status that it had before, or the
one that a pass over it records. -/
def Worked.Recording (w : Worked) (key : Key) (c c' : Cluster) : Prop :=
  ∀ o', c'.stored? w.kind key = some o' → ∃ o, c.stored? w.kind key = some o ∧
    (o'.status = o.status ∨
      ∃ change now, w.Records o.settled change ∧ o'.status = (change now o.settled).1.status)

namespace Worked.Recording

variable {w : Worked}

theorem of_stored (hsame : c'.stored? w.kind key = c.stored? w.kind key) : w.Recording key c c' :=
  fun o' ho' => ⟨o', hsame.symm.trans ho', .inl rfl⟩

theorem of_tables (htables : c'.tables = c.tables) : w.Recording key c c' :=
  of_stored (by unfold Cluster.stored?; rw [htables])

theorem of_recorded {o o' : Object w.kind} {change : Change w.kind} {now : Instant}
    (hs : c.stored? w.kind key = some o) (hrecords : w.Records o.settled change)
    (ho' : c'.stored? w.kind key = some o')
    (hstatus : o'.status = (change now o.settled).1.status) : w.Recording key c c' := by
  intro p hp
  obtain rfl := Option.some.inj (ho'.symm.trans hp)
  exact ⟨o, hs, .inr ⟨change, now, hrecords, hstatus⟩⟩

end Worked.Recording

/-! ### The frame -/

variable {w : Worked} {o : Object w.kind}

/-- An amendment of the body records nothing, whatever comes of it. -/
theorem wp_body_recording {change : Change w.kind} (hproper : change.Proper)
    (hplace : ∀ o : Object w.kind, c.stored? w.kind key = some o → o.IsAt key) (attempts : Nat) :
    (amend .body w.kind key attempts change).wp (.onCluster v)
      (fun _ c' => w.Recording key c c') c := by
  have hm := Meaning.onCluster_monotone v
  refine Attempt.wp_mono hm (fun _ c' hc' o' ho' => ?_) _
    (Change.keeps_status_body hproper c attempts c fun o ho => ⟨hplace o ho, o, ho, rfl⟩)
  obtain ⟨-, o, ho, hstatus⟩ := hc' o' ho'
  exact ⟨o, ho, .inl hstatus⟩

/-- A pass that touches the finalizers records nothing. -/
theorem wp_frame_recording {work : Object w.kind → Attempt Failure (Option Directive)}
    (hplace : ∀ o : Object w.kind, c.stored? w.kind key = some o → o.IsAt key)
    (hwork : ∀ o : Object w.kind, c.stored? w.kind key = some o →
      (work o.settled).wp (.onCluster v) (fun _ c' => w.Recording key c c') c) :
    (frame settings key work).outcome.wp (.onCluster v) (fun _ c' => w.Recording key c c') c := by
  have hm := Meaning.onCluster_monotone v
  cases hs : c.stored? w.kind key with
  | none => exact wp_frame_absent hs (.of_stored rfl)
  | some o =>
    have hlifecycle : Lifecycle.of o.settled w.kind.finalizer = Lifecycle.of o w.kind.finalizer :=
      rfl
    refine wp_frame_of_stored hs ?_
    unfold advance
    simp only [(hplace o hs).settled.own, hlifecycle]
    -- finalizers are changed in the body, which records nothing
    rcases Lifecycle.of_cases o w.kind.finalizer with
      ⟨h, -⟩ | ⟨h, -⟩ | ⟨h, -⟩ | ⟨h, -⟩ <;> simp only [h]
    · rw [Attempt.wp_bind]
      refine Attempt.wp_mono hm (fun r c' hc' => ?_) _
        (wp_body_recording (Object.addFinalizer_ofFinalizers _ _).proper hplace _)
      cases r <;> exact hc'
    · exact hwork o hs
    · unfold removeFinalizer
      rw [Attempt.wp_bind, Attempt.wp_of, Program.wp_bind']
      refine Attempt.wp_mono hm (fun r c' hc' => ?_) _
        (wp_body_recording (Object.removeFinalizer_ofFinalizers _ _).proper hplace _)
      cases r with
      | ok _ => exact hc'
      | error e => cases e <;> exact hc'
    · exact .of_stored rfl

/-! ### The work -/

/-- What is recorded at the end of a pass, from a point at which nothing has been recorded. -/
theorem wp_amend_recording {change : Change w.kind} (hof : change.OfStatus)
    (hs : c.stored? w.kind key = some o) (hplace : o.IsAt key)
    (hrecords : w.Records o.settled change) (attempts : Nat) :
    (amend .status w.kind key attempts change).wp (.onCluster v)
      (fun _ c' => w.Recording key c c') c :=
  Change.wp_amend_status hof hs hplace attempts (fun _ _ _ htables _ => .of_tables htables)
    (fun _ _ htables => .of_tables htables)
    fun _ _ _ _ _ ho' hstatus => .of_recorded hs hrecords ho' hstatus

/-- The label is set without anything being recorded.  If it is in place then nothing happens. -/
theorem Llm.wp_normalizeLabel_recording {o : Object .llm} (hs : c.stored? .llm key = some o)
    (hplace : o.IsAt key) :
    (normalizeLabel settings o.settled).wp (.onCluster v)
      (fun r c' => (r = .ok false → c' = c) ∧ Worked.llm.Recording key c c') c := by
  have hplaces : ∀ p : Object .llm, c.stored? .llm key = some p → p.IsAt key := fun p hp =>
    Option.some.inj (hs.symm.trans hp) ▸ hplace
  unfold normalizeLabel
  simp only [hplace.settled.own]
  split
  · exact ⟨fun _ => rfl, .of_stored rfl⟩
  · rw [Attempt.wp_bind]
    refine Attempt.wp_mono (Meaning.onCluster_monotone v) (fun r c' hc' => ?_) _
      (wp_body_recording (w := .llm) (label_proper _) hplaces settings.writeAttempts)
    cases r <;> exact ⟨by simp, hc'⟩

theorem Llm.wp_work_recording {o : Object .llm} (hs : c.stored? .llm key = some o)
    (hplace : o.IsAt key) :
    (work settings key o.settled).wp (.onCluster v)
      (fun _ c' => Worked.llm.Recording key c c') c := by
  have hm := Meaning.onCluster_monotone v
  have hpersist : ∀ outcome now, (persist settings key (next outcome now)).wp (.onCluster v)
      (fun _ c' => Worked.llm.Recording key c c') c := by
    intro outcome now
    exact Attempt.Keeps.after hm
      (wp_amend_recording (w := .llm) (recordReady_ofStatus _) hs hplace
        (.recordReady outcome now) settings.writeAttempts) fun _ => .pure ()
  unfold work access
  rw [Attempt.wp_bind, Attempt.wp_mapError]
  refine Attempt.wp_mono hm (fun r c' hc' => ?_) _ (wp_normalizeLabel_recording hs hplace)
  obtain ⟨hsame, hrecording⟩ := hc'
  -- a label that was missing ends the pass before the check
  match r with
  | .error e => exact hrecording
  | .ok true => exact hrecording
  | .ok false =>
    obtain rfl := hsame rfl
    simp only [Attempt.mapError_ok, Attempt.unlessFailed_ok, Bool.false_eq_true, if_false,
      Attempt.wp_bind, Attempt.wp_always]
    refine Program.wp_mono hm (fun outcome c' hc' => ?_) _
      ((Meaning.hushed_onCluster v (· = c')).check o.settled c' rfl)
    obtain rfl := hc'
    cases outcome with
    | ok message =>
      rw [Attempt.wp_bind, Attempt.wp_always]
      intro now
      refine Attempt.Keeps.after hm ?_ fun _ => .pure _
      rw [Attempt.wp_mapError]
      exact hpersist (.ok message) now
    | error e =>
      rw [Attempt.wp_bind, Attempt.wp_always]
      intro now
      refine Attempt.Keeps.after hm ?_ fun _ => .throw _
      rw [Attempt.wp_always]
      exact hpersist (.error e) now

theorem Prompt.wp_work_recording {o : Object .prompt} (hs : c.stored? .prompt key = some o)
    (hplace : o.IsAt key) :
    (work settings key o.settled).wp (.onCluster v)
      (fun _ c' => Worked.prompt.Recording key c c') c := by
  have hm := Meaning.onCluster_monotone v
  unfold work access
  split
  · exact .of_stored rfl
  · next hprocessed =>
    have hpersist : ∀ outcome,
        (persist settings key o.settled.metadata.generation outcome).wp (.onCluster v)
          (fun _ c' => Worked.prompt.Recording key c c') c := by
      intro outcome
      exact Attempt.Keeps.after hm
        (wp_amend_recording (w := .prompt) (record_ofStatus _ _) hs hplace
          (.record outcome (Bool.eq_false_iff.2 hprocessed)) settings.writeAttempts)
        fun _ => .pure ()
    rw [Attempt.wp_bind, Attempt.wp_always]
    refine Program.wp_mono hm (fun outcome c' hc' => ?_) _
      ((Meaning.hushed_onCluster v (· = c)).send o.settled c rfl)
    -- sending touches no object, so the outcome is recorded where the prompt was read
    obtain rfl := hc'
    cases outcome with
    | ok bytes =>
      refine Attempt.Keeps.after hm ?_ fun _ => .pure _
      rw [Attempt.wp_mapError]
      exact hpersist (.ok bytes)
    | error e =>
      refine Attempt.Keeps.after hm ?_ fun _ => .throw _
      rw [Attempt.wp_always]
      exact hpersist (.error e.conditionMessage)

namespace Model

variable {o : Object .model}

/-- What is known when the chain for the model `o` has ended: at most one thing has been recorded,
and nothing if the chain has failed. -/
def ChainRecording (key : Key) (o : Object .model) (c : Cluster) (r : Except Failure Unit)
    (c' : Cluster) : Prop :=
  Worked.model.Recording key c c' ∧ ∀ e, r = .error e → c'.stored? .model key = some o

/-- The step that waits for the image store records that it is ready, if it does not fail. -/
theorem wp_readinessStep_recording {set : Object .statefulSet} {service : Object .service}
    (hfurnished : ImageStore.Furnished key.ns set service c)
    (hs : c.stored? .model key = some o) (hplace : o.IsAt key) :
    (readinessStep ⟨settings, key, o⟩).wp (.onCluster v)
      (ChainRecording key o c) c := by
  unfold readinessStep
  simp only [Attempt.wp_bind]
  refine wp_isReady _ hfurnished ?_
  cases ImageStore.isStatefulSetReady set && ImageStore.isServiceReady service with
  | false => exact ⟨.of_stored rfl, fun _ _ => hs⟩
  | true =>
    simp only [Attempt.unlessFailed_ok, Bool.not_true, Bool.false_eq_true, if_false,
      Attempt.wp_bind]
    refine wp_requireStatefulSet hfurnished.set ?_
    simp only [Attempt.unlessFailed_ok, Attempt.wp_bind, access, persist, Attempt.wp_mapError]
    -- the report after the recording changes nothing
    have hreport : ∀ c', Worked.model.Recording key c c' →
        Attempt.wp (.onCluster v) (ChainRecording key o c)
          (if !o.hasCondition .available then
            .always (report o.subject EventReason.modelAvailable "Image store is ready")
          else pure ()) c' := by
      intro c' hrecording
      split <;> exact ⟨hrecording, fun _ herror => by cases herror⟩
    refine Change.wp_amend_status (markAvailable_ofStatus _) hs hplace _
      (fun _ _ c' htables _ => hreport c' (.of_tables htables)) (fun e c' htables => ?_)
      fun _ _ c' _ _ ho' hstatus => hreport c' (.of_recorded hs (.markAvailable _) ho' hstatus)
    refine ⟨.of_tables htables, fun _ _ => ?_⟩
    unfold Cluster.stored?
    rw [htables]
    exact hs

/-- The steps before that one leave the models as they are. -/
theorem wp_chain_recording (hs : c.stored? .model key = some o) (hplace : o.IsAt key) :
    Attempt.wp (.onCluster v) (ChainRecording key o c) (Chain.run ⟨settings, key, o⟩ chain) c := by
  refine wp_chain _ fun c₁ set service hfurnished hmodels _ _ => ?_
  refine Attempt.wp_mono (Meaning.onCluster_monotone v) (fun r c' hc' => ?_) _
    (wp_readinessStep_recording hfurnished ((hmodels key).trans hs) hplace)
  refine ⟨fun o' ho' => ?_, hc'.2⟩
  obtain ⟨p, hp, hstatus⟩ := hc'.1 o' ho'
  exact ⟨p, (hmodels key).symm.trans hp, hstatus⟩

theorem wp_work_recording (hs : c.stored? .model key = some o) (hplace : o.IsAt key) :
    (work settings key o.settled).wp (.onCluster v)
      (fun _ c' => Worked.model.Recording key c c') c := by
  have hm := Meaning.onCluster_monotone v
  have hhushed := Meaning.hushed_onCluster v (Worked.model.Recording key c)
  have hsettled : o.settled = o := rfl
  have hpersist : ∀ {c' : Cluster} {change : Change .model}, c'.stored? .model key = some o →
      change.OfStatus → Worked.model.Records o change →
      (persist settings key change).wp (.onCluster v)
        (fun _ c'' => Worked.model.Recording key c' c'') c' :=
    fun hs' hof hrecords => Attempt.Keeps.after hm
      (wp_amend_recording (w := .model) hof hs' hplace hrecords settings.writeAttempts)
      fun _ => .pure ()
  unfold work access
  rw [hsettled]
  split
  · refine Attempt.Keeps.after hm ?_ fun _ =>
      .bind hm (.always hm hhushed.report) fun _ => .throw _
    rw [Attempt.wp_mapError]
    exact hpersist hs markProgressing_ofStatus .markProgressing
  · rw [Attempt.wp_bind, Attempt.wp_always]
    refine Attempt.wp_mono hm (fun r c₁ hc₁ => ?_) _ (wp_chain_recording hs hplace)
    obtain ⟨hrecording, hfailed⟩ := hc₁
    rw [Attempt.unlessFailed_ok]
    split
    · exact hrecording
    · exact hrecording
    · next e _ =>
      -- nothing has been recorded before the failure is
      have hs₁ := hfailed e rfl
      refine Attempt.Keeps.after hm ?_ fun _ => .throw _
      rw [Attempt.wp_always]
      refine Attempt.wp_mono hm (fun r c' hc' o' ho' => ?_) _
        (hpersist hs₁ (markFailed_ofStatus e.conditionMessage) (.markFailed _))
      obtain ⟨p, hp, hstatus⟩ := hc' o' ho'
      obtain rfl := Option.some.inj (hs₁.symm.trans hp)
      exact ⟨o, hs, hstatus⟩

end Model

/-- **A pass records at most one thing.**  In a cluster that nobody else writes, the object under
its key has the status that it had before the pass, or the one that comes of a single recording. -/
theorem wp_reconcile_recording (w : Worked) (settings : Settings)
    (hplace : ∀ o : Object w.kind, c.stored? w.kind key = some o → o.IsAt key) :
    (reconcile w settings key).wp (.onCluster v) (fun _ c' => w.Recording key c c') c := by
  unfold reconcile
  rw [Program.wp_bind']
  cases w with
  | llm =>
    exact wp_frame_recording (w := .llm) hplace fun o hs =>
      Llm.wp_work_recording hs (hplace o hs)
  | prompt =>
    exact wp_frame_recording (w := .prompt) hplace fun o hs =>
      Prompt.wp_work_recording hs (hplace o hs)
  | model =>
    exact wp_frame_recording (w := .model) hplace fun o hs =>
      Model.wp_work_recording hs (hplace o hs)

end Pass

end ModelKeeper
