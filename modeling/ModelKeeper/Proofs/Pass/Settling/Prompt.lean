import ModelKeeper.Pass.Prompt
import ModelKeeper.Proofs.Pass.Settling.Basic
import ModelKeeper.Proofs.Resource.Condition

/-!
# The pass over a prompt settles

One pass over an active prompt records the outcome of sending it.  Later passes find an answer
recorded and do not send the prompt again, or they find the same failure recorded
(`Pass.Prompt.settles_active`).
-/

namespace ModelKeeper.Pass.Prompt

variable {σ : Type} {v : Vendors σ} {key : Key} {c : Cluster} {settings : Settings}

/-! ### Sending -/

theorem looks_send (hv : v.Steady) (key : Key) (c : Cluster) (o : Object .prompt) :
    (send o).Looks v .prompt key c := by
  unfold send
  cases hllm : o.spec.llm.filter (·.name != "") with
  | none => exact Attempt.looks_throw _
  | some reference =>
    -- the language model that is read is another object than the prompt
    have hne : ¬ (Kind.llm = .prompt ∧ (⟨o.nsOrEmpty, reference.name⟩ : Key) = key) :=
      fun h => nomatch h.1
    refine Attempt.Looks.bind ((Attempt.looks_get hne).mapError _) fun llm => ?_
    cases llm.spec.provider.resolve with
    | error e => exact Attempt.looks_throw _
    | ok provider =>
      cases provider with
      | worker _ => exact Attempt.looks_throw _
      | thirdParty endpoint =>
        refine Attempt.Looks.bind
          ((Attempt.looks_apiKey (by decide) endpoint _).mapError _) fun apiKey => ?_
        refine Attempt.Looks.bind
          (Attempt.Looks.mapError (Program.looks_done _) _) fun vendor => ?_
        refine Attempt.Looks.bind
          (Attempt.Looks.mapError (Program.looks_connect _) _) fun _ => ?_
        refine Attempt.Looks.bind ?_ fun reply => Attempt.looks_pure _
        exact (Attempt.Looks.observed (Program.looks_call hv _ _) _).mapError _

/-- What is sent, and where to, is told by what is wanted and by the namespace. -/
theorem send_congr {o o' : Object .prompt} (hspec : o'.spec = o.spec)
    (hns : o'.metadata.ns = o.metadata.ns) : send o' = send o := by
  unfold send Object.nsOrEmpty
  rw [hspec, hns]

/-! ### What is recorded -/

/-- Whether this failure is recorded of the present generation. -/
structure Failed (message : String) (o : Object .prompt) : Prop where
  status : ((o.status.getD {}).conditions.get .done).status = .isFalse
  reason : ((o.status.getD {}).conditions.get .done).reason = Reason.reconcileError
  message : ((o.status.getD {}).conditions.get .done).message = message
  generation : (o.status.getD {}).observedGeneration = o.metadata.generation

theorem failed_settled {message : String} {o : Object .prompt} :
    Failed message o.settled ↔ Failed message o :=
  ⟨fun h => ⟨h.status, h.reason, h.message, h.generation⟩,
    fun h => ⟨h.status, h.reason, h.message, h.generation⟩⟩

theorem Failed.not_isProcessed {message : String} {o : Object .prompt} (h : Failed message o) :
    o.isProcessed = false := by
  unfold Object.isProcessed
  split
  · rfl
  · next s hs =>
    have hstatus := h.status
    rw [hs, Option.getD_some] at hstatus
    simp [Condition.isTrue, hstatus]

theorem record_ofStatus (generation : Option Int) (outcome : Except String (List UInt8)) :
    Change.OfStatus (record generation outcome) := by
  intro now o
  unfold record
  cases outcome with
  | ok bytes => exact ⟨some _, rfl⟩
  | error message =>
    simp only
    split
    · exact ⟨some (o.status.getD {}), rfl⟩
    · exact ⟨some _, rfl⟩

theorem record_ok (generation : Option Int) (bytes : List UInt8) (now : Instant)
    (o : Object .prompt) :
    record generation (.ok bytes) now o =
      ({ o with
          status := some
            { (o.status.getD {}).setData bytes with
              conditions := ((o.status.getD {}).setData bytes).conditions.set
                (Condition.now now .done .isTrue Reason.reconcileSuccess "Finished")
              observedGeneration := generation } }, true) := rfl

/-- A failure is recorded unless it is recorded. -/
theorem record_error_eq_false {message : String} {now : Instant} {o : Object .prompt} :
    (record o.metadata.generation (.error message) now o).2 = false ↔ Failed message o := by
  unfold record
  simp only
  split
  · next h => exact ⟨fun _ => ⟨h.1, h.2.1, h.2.2.1, h.2.2.2⟩, fun _ => rfl⟩
  · next h =>
    refine ⟨(fun hflag => nomatch hflag), fun hfailed => absurd ?_ h⟩
    exact ⟨hfailed.status, hfailed.reason, hfailed.message, hfailed.generation⟩

theorem not_isProcessed_settled {o : Object .prompt} (h : o.isProcessed = false) :
    ¬ o.settled.isProcessed = true := by
  rw [show o.settled.isProcessed = false from h]
  exact Bool.false_ne_true

theorem isProcessed_of_recorded {bytes : List UInt8} {now : Instant} {o o' : Object .prompt}
    (hgeneration : o.metadata.generation.isSome)
    (hsame : o'.metadata.generation = o.metadata.generation)
    (hstatus : o'.status = (record o.metadata.generation (.ok bytes) now o).1.status) :
    o'.isProcessed = true := by
  rw [record_ok] at hstatus
  unfold Object.isProcessed
  rw [hstatus, hsame]
  simp [Conditions.get_set, Condition.now, Condition.isTrue, hgeneration]

theorem failed_of_recorded {message : String} {now : Instant} {o o' : Object .prompt}
    (h : (record o.metadata.generation (.error message) now o).2 = true)
    (hsame : o'.metadata.generation = o.metadata.generation)
    (hstatus : o'.status = (record o.metadata.generation (.error message) now o).1.status) :
    Failed message o' := by
  -- it has been written, so the prompt did not show the failure before
  have hnot : ¬ Failed message o := fun hfailed => by
    rw [record_error_eq_false.2 hfailed] at h
    cases h
  have hstatus' : o'.status = some
      { o.status.getD {} with
        conditions := (o.status.getD {}).conditions.set
          (Condition.now now .done .isFalse Reason.reconcileError message)
        observedGeneration := o.metadata.generation } := by
    rw [hstatus]
    unfold record
    simp only
    rw [if_neg fun hif => hnot ⟨hif.1, hif.2.1, hif.2.2.1, hif.2.2.2⟩]
  refine ⟨?_, ?_, ?_, ?_⟩ <;> simp [hstatus', hsame, Conditions.get_set, Condition.now]

/-! ### The work -/

variable {post : Except Failure (Option Directive) → Cluster → Prop} {o : Object .prompt}

/-- A prompt that has been answered is left alone. -/
theorem wp_work_processed (hprocessed : o.isProcessed = true) (hpost : post (.ok (some .done)) c) :
    (work settings key o.settled).wp (.onCluster v) post c := by
  have hprocessed' : o.settled.isProcessed = true := hprocessed
  unfold work
  rw [if_pos hprocessed']
  exact hpost

/-- A prompt is sent, and what comes of it is recorded. -/
theorem wp_work_unprocessed {outcome : Except Failure (List UInt8)} (hready : c.Ready .prompt key)
    (hs : c.stored? .prompt key = some o) (hprocessed : o.isProcessed = false)
    (hsend : (send o.settled).outcome.Rests v c outcome)
    (hok : ∀ bytes c' o', outcome = .ok bytes → c.Recorded key o c' o' → o'.isProcessed = true →
      post (.ok (some .done)) c')
    (hsame : ∀ e, outcome = .error e → Failed e.conditionMessage o →
      post (.error (e.withRequeue settings.intervals.medium)) c)
    (hfailed : ∀ e c' o', outcome = .error e → ¬ Failed e.conditionMessage o →
      c.Recorded key o c' o' → Failed e.conditionMessage o' →
      post (.error (e.withRequeue settings.intervals.medium)) c') :
    (work settings key o.settled).wp (.onCluster v) post c := by
  have hprocessed' := not_isProcessed_settled hprocessed
  have hgeneration : o.metadata.generation.isSome := hready.generation o hs
  -- a status is written without a new generation
  have hsame' : ∀ {c' : Cluster} {o' : Object .prompt}, c.Recorded key o c' o' →
      o'.metadata.generation = o.metadata.generation := fun hrecorded => by
    obtain ⟨version, hmeta⟩ := hrecorded.metadata
    rw [hmeta]
  unfold work access
  rw [if_neg hprocessed']
  simp only [Attempt.wp_bind, Attempt.wp_always]
  refine Program.wp_mono (Meaning.onCluster_monotone v) ?_ _ hsend
  rintro r c' ⟨rfl, rfl⟩
  cases r with
  | ok bytes =>
    simp only [persist, Attempt.wp_bind, Attempt.wp_mapError, Attempt.unlessFailed_ok]
    refine Change.wp_record (record_ofStatus _ _) hready hs _ (fun now hflag => ?_)
      fun now a c' o' _ hrecorded hstatus => ?_
    · rw [record_ok] at hflag
      cases hflag
    · exact hok bytes c' o' rfl hrecorded
        (isProcessed_of_recorded hgeneration (hsame' hrecorded) hstatus)
  | error e =>
    simp only [persist, Attempt.wp_bind, Attempt.wp_always, Attempt.wp_outcome,
      Attempt.unlessFailed_ok]
    refine Change.wp_record (record_ofStatus _ _) hready hs _ (fun now hflag => ?_)
      fun now a c' o' hflag hrecorded hstatus => ?_
    · exact hsame e rfl (failed_settled.1 (record_error_eq_false.1 hflag))
    · refine hfailed e c' o' rfl (fun hf => ?_) hrecorded
        (failed_of_recorded hflag (hsame' hrecorded) hstatus)
      rw [record_error_eq_false.2 (failed_settled.2 hf)] at hflag
      cases hflag

theorem settles_active (hv : v.Steady) (hready : c.Ready .prompt key)
    (hs : c.stored? .prompt key = some o)
    (hactive : Lifecycle.of o Kind.prompt.finalizer = .active) :
    (run settings key).outcome.Settles v 0 c := by
  have hdone : ∀ c' o', c'.stored? .prompt key = some o' →
      Lifecycle.of o' Kind.prompt.finalizer = .active → o'.isProcessed = true →
      (run settings key).outcome.Rests v c' (.ok (some .done)) := fun c' o' hs' hactive' h =>
    wp_frame_active hs' hactive' (wp_work_processed h ⟨rfl, rfl⟩)
  cases hprocessed : o.isProcessed with
  | true => exact (hdone c o hs hactive hprocessed).settles
  | false =>
    obtain ⟨outcome, hlooks⟩ := looks_send hv key c o.settled
    -- a failure that is recorded is met again, and not recorded again
    have hfailing : ∀ e c' o', outcome = .error e → c.SameBut .prompt key c' →
        c'.Ready .prompt key → c'.stored? .prompt key = some o' →
        Lifecycle.of o' Kind.prompt.finalizer = .active → send o'.settled = send o.settled →
        Failed e.conditionMessage o' →
        (run settings key).outcome.Rests v c'
          (.error (e.withRequeue settings.intervals.medium)) := by
      intro e c' o' he hc' hready' hs' hactive' hsend' hfailed
      refine wp_frame_active hs' hactive' (wp_work_unprocessed hready' hs' hfailed.not_isProcessed
        (hsend' ▸ hlooks c' hc') (fun bytes _ _ hok => ?_) (fun e' he' _ => ?_)
        fun e' _ _ he' hnot => ?_)
      · cases he.symm.trans hok
      · cases he.symm.trans he'
        exact ⟨rfl, rfl⟩
      · cases he.symm.trans he'
        exact absurd hfailed hnot
    refine wp_frame_active hs hactive (wp_work_unprocessed hready hs hprocessed
      (hlooks c (.refl _ _ c)) (fun bytes c' o' _ hrecorded h => ?_) (fun e he hfailed => ?_)
      fun e c' o' he _ hrecorded hfailed => ?_)
    · exact hdone c' o' hrecorded.stored ((hrecorded.lifecycle _).trans hactive) h
    · exact hfailing e c o he (.refl _ _ c) hready hs hactive rfl hfailed
    · obtain ⟨version, hmeta⟩ := hrecorded.metadata
      refine hfailing e c' o' he hrecorded.sameBut hrecorded.ready hrecorded.stored
        ((hrecorded.lifecycle _).trans hactive) (send_congr ?_ ?_) hfailed
      · simp only [Object.settled, hrecorded.spec]
      · simp only [Object.settled, hmeta]

end ModelKeeper.Pass.Prompt
