import ModelKeeper.Proofs.Operator.Delays
import ModelKeeper.Proofs.Pass.Alone
import ModelKeeper.Proofs.Pass.Availability
import ModelKeeper.Proofs.Pass.Settling.Prompt

/-!
# Failures are recorded

A pass over an active object does what there is to do for its kind (`Pass.Worked.logic`).  If this
fails then the failure is recorded in the status of the object, and the pass fails with it.

`Pass.failure_recorded` says so of every pass in a world of its own, whatever the failure is and
however many conflicts are in the way: what the pass returns does not depend on whether the failure
could be recorded.  A failure that the status shows (`Pass.Worked.Shows`) is not recorded again.
-/

namespace ModelKeeper

namespace Pass

/-! ### What is recorded of a failure -/

namespace Llm

/-- Whether the `Ready` condition shows this failure. -/
structure Shows (message : String) (o : Object .llm) : Prop where
  status : ((o.status.getD {}).conditions.get .ready).status = .isFalse
  message : ((o.status.getD {}).conditions.get .ready).message = message

/-- The status with a failure in the `Ready` condition, which keeps the time of the last success. -/
def failedStatus (message : String) (now : Instant) (o : Object .llm) : LlmStatus :=
  let status := o.status.getD {}
  let ready : Condition :=
    { type := .ready
      status := .isFalse
      reason := Reason.available
      message := message
      lastTransition := some now.timestamp
      lastSuccess := (status.conditions.get .ready).lastSuccess }
  { status with conditions := status.conditions.set ready }

variable {o : Object .llm} {e : Failure}

theorem Shows.failed (h : Shows e.conditionMessage o) (now : Instant) :
    ((o.status.getD {}).conditions.get .ready).failed e.conditionMessage now =
      (o.status.getD {}).conditions.get .ready := by
  refine if_pos ⟨?_, h.status, h.message⟩
  exact Conditions.get_type (by simp [h.status])

theorem settled_error : Settled (.error e) o ↔ Shows e.conditionMessage o := by
  constructor
  · intro h
    have hsame := h ⟨0, 0⟩
    unfold next Condition.failed at hsame
    simp only at hsame
    split at hsame
    · next hshows => exact ⟨hshows.2.1, hshows.2.2⟩
    · exact ⟨by rw [← hsame], by rw [← hsame]⟩
  · intro h now
    exact h.failed now

theorem recordReady_error {now : Instant} (h : ¬ Shows e.conditionMessage o) :
    (recordReady (next (.error e) now) o).1.status =
      some (failedStatus e.conditionMessage now o) := by
  have hnot : ¬ (((o.status.getD {}).conditions.get .ready).type = .ready ∧
      ((o.status.getD {}).conditions.get .ready).status = .isFalse ∧
      ((o.status.getD {}).conditions.get .ready).message = e.conditionMessage) :=
    fun hshows => h ⟨hshows.2.1, hshows.2.2⟩
  -- if nothing were put then the failure would be shown
  have hne : next (.error e) now ((o.status.getD {}).conditions.get .ready) ≠
      (o.status.getD {}).conditions.get .ready := by
    intro hsame
    refine h ⟨?_, ?_⟩
    · rw [← hsame]
      simp [next, Condition.failed, hnot]
    · rw [← hsame]
      simp [next, Condition.failed, hnot]
  unfold recordReady
  simp only [if_neg hne]
  simp [next, Condition.failed, hnot, failedStatus]

theorem shows_of_status {message : String} {now : Instant} {o o' : Object .llm}
    (h : o'.status = some (failedStatus message now o)) : Shows message o' := by
  constructor <;> simp [h, failedStatus, Conditions.get_set]

end Llm

namespace Prompt

/-- The status with a failure in the `Done` condition, of this generation.  Data are kept. -/
def failedStatus (message : String) (now : Instant) (o : Object .prompt) : PromptStatus :=
  let status := o.status.getD {}
  let done := Condition.now now .done .isFalse Reason.reconcileError message
  { status with
    conditions := status.conditions.set done
    observedGeneration := o.metadata.generation }

theorem record_error {message : String} {now : Instant} {o : Object .prompt}
    (h : ¬ Failed message o) :
    (record o.metadata.generation (.error message) now o).1.status =
      some (failedStatus message now o) := by
  unfold record
  simp only
  rw [if_neg fun hif => h ⟨hif.1, hif.2.1, hif.2.2.1, hif.2.2.2⟩]
  rfl

theorem failed_of_status {message : String} {now : Instant} {o o' : Object .prompt}
    (hgeneration : o'.metadata.generation = o.metadata.generation)
    (h : o'.status = some (failedStatus message now o)) : Failed message o' := by
  constructor <;> simp [h, hgeneration, failedStatus, Conditions.get_set, Condition.now]

end Prompt

namespace Model

/-- Whether the `ReplicaFailure` condition shows this failure. -/
structure Shows (message : String) (o : Object .model) : Prop where
  isTrue : ((o.status.getD {}).conditions.get .replicaFailure).isTrue = true
  message : ((o.status.getD {}).conditions.get .replicaFailure).message = message

/-- The status with a failure in the `ReplicaFailure` condition. -/
def failedStatus (message : String) (now : Instant) (o : Object .model) : ModelStatus :=
  let status := o.status.getD {}
  let failure := Condition.now now .replicaFailure .isTrue Reason.reconcileError message
  { status with conditions := status.conditions.set failure }

variable {message : String} {now : Instant} {o : Object .model}

theorem markFailed_ofStatus (message : String) : Change.OfStatus (markFailed message) := by
  intro now o
  unfold markFailed
  simp only
  split
  · exact ⟨some (o.status.getD {}), rfl⟩
  · exact ⟨some _, rfl⟩

theorem markFailed_eq_false : (markFailed message now o).2 = false ↔ Shows message o := by
  unfold markFailed
  simp only [Bool.and_eq_true, decide_eq_true_eq]
  split
  · next h => exact ⟨fun _ => ⟨h.1, h.2⟩, fun _ => rfl⟩
  · next h => exact ⟨nofun, fun hshows => absurd ⟨hshows.isTrue, hshows.message⟩ h⟩

theorem markFailed_status (h : ¬ Shows message o) :
    (markFailed message now o).1.status = some (failedStatus message now o) := by
  unfold markFailed
  simp only [Bool.and_eq_true, decide_eq_true_eq]
  rw [if_neg fun hif => h ⟨hif.1, hif.2⟩]
  rfl

theorem shows_of_status {o' : Object .model}
    (h : o'.status = some (failedStatus message now o)) : Shows message o' := by
  constructor <;> simp [h, failedStatus, Conditions.get_set, Condition.now, Condition.isTrue]

end Model

namespace Worked

/-- What there is to do for an object gives a message, an answer, or nothing. -/
@[reducible]
def Result : Worked → Type
  | .llm => String
  | .prompt => List UInt8
  | .model => Unit

/-- What there is to do for an active object: the check of a language model, the sending of a
prompt, or the steps for a model. -/
def logic : (w : Worked) → Settings → Key → Object w.kind → Attempt Failure w.Result
  | .llm, _, _, o => Llm.check o
  | .prompt, _, _, o => Prompt.send o
  | .model, settings, key, o => Chain.run ⟨settings, key, o⟩ Model.chain

/-- Whether a pass over an active object comes to that: a language model has its label, a prompt has
not been answered yet, and a model is at least in progress. -/
def Reaches : (w : Worked) → Object w.kind → Prop
  | .llm, o => Llm.Labelled o
  | .prompt, o => o.isProcessed = false
  | .model, o => Model.Started o

/-- Whether the status shows this failure: of a prompt, of the present generation. -/
def Shows : (w : Worked) → String → Object w.kind → Prop
  | .llm => Llm.Shows
  | .prompt => Prompt.Failed
  | .model => Model.Shows

/-- The status with this failure recorded. -/
def failedStatus : (w : Worked) → String → Instant → Object w.kind → w.kind.Status
  | .llm => Llm.failedStatus
  | .prompt => Prompt.failedStatus
  | .model => Model.failedStatus

/-- A failure that has been recorded is shown. -/
theorem shows_of_status (w : Worked) {message : String} {now : Instant} {o o' : Object w.kind}
    (hgeneration : o'.metadata.generation = o.metadata.generation)
    (hstatus : o'.status = some (w.failedStatus message now o)) : w.Shows message o' := by
  cases w with
  | llm => exact Llm.shows_of_status hstatus
  | prompt => exact Prompt.failed_of_status hgeneration hstatus
  | model => exact Model.shows_of_status hstatus

end Worked

/-! ### Passes that fail -/

variable {σ : Type} {v : Vendors σ} {key : Key} {settings : Settings} {s s₁ : World σ}

/-- Whether `fine` is all right with each of the worlds that a pass which fails in the world `s₁`
can come to: the failure is shown already, it is written, or there are too many conflicts. -/
structure Worked.Deals (w : Worked) (message : String) (settings : Settings) (key : Key)
    (o : Object w.kind) (s₁ : World σ) (fine : World σ → Prop) : Prop where
  shown : w.Shows message o → fine s₁
  written : ¬ w.Shows message o →
    s₁.cluster.injectedConflicts < max settings.writeAttempts 1 →
    fine
      { s₁ with
        cluster := s₁.cluster.withStatus key o (some (w.failedStatus message s₁.clock o)) }
  refused : ¬ w.Shows message o →
    max settings.writeAttempts 1 ≤ s₁.cluster.injectedConflicts →
    fine
      { s₁ with
        cluster := { s₁.cluster with
          injectedConflicts := s₁.cluster.injectedConflicts - max settings.writeAttempts 1 } }

/-- The recording of a failure comes to one of these worlds. -/
theorem Worked.Deals.wp_amend {w : Worked} {message : String} {o : Object w.kind}
    {fine : World σ → Prop} (h : w.Deals message settings key o s₁ fine)
    (hs : s₁.cluster.stored? w.kind key = some o) (hplace : o.IsAt key) {change : Change w.kind}
    (hof : change.OfStatus)
    (hshows : (change s₁.clock o.settled).2 = false ↔ w.Shows message o)
    (hstatus : ¬ w.Shows message o →
      (change s₁.clock o.settled).1.status = some (w.failedStatus message s₁.clock o)) :
    (amend .status w.kind key settings.writeAttempts change).wp (World.handler v).meaning
      (fun _ s' => fine s') s₁ := by
  have hnot : (change s₁.clock o.settled).2 = true → ¬ w.Shows message o := by
    intro hflag hshown
    rw [hshows.2 hshown] at hflag
    cases hflag
  refine Change.wp_record_alone hof hs hplace settings.writeAttempts
    (fun hflag _ => h.shown (hshows.1 hflag)) (fun hflag hlt _ => ?_)
    fun hflag hle _ => h.refused (hnot hflag) hle
  rw [hstatus (hnot hflag)]
  exact h.written (hnot hflag) hlt

theorem Llm.wp_run_failing {o : Object .llm} {e : Failure} {fine : World σ → Prop}
    (hs : s.cluster.stored? .llm key = some o) (hplace : o.IsAt key)
    (hactive : Lifecycle.of o Kind.llm.finalizer = .active) (hlabel : Labelled o)
    (hcheck : (check o.settled).outcome.run (World.handler v) s = (.error e, s₁))
    (h : Worked.llm.Deals e.conditionMessage settings key o s₁ fine) :
    (run settings key).wp (World.handler v).meaning
      (fun r s' => r = .error (e.withRequeue settings.intervals.medium) ∧ fine s') s := by
  have hclock : s₁.clock = s.clock := by
    have halone := (check_alone v o.settled s).2
    rwa [hcheck] at halone
  refine wp_run_alone hs hplace hactive hlabel hcheck (fun hsettled => ?_) (fun hnot hlt => ?_)
    fun hnot hle _ => ?_
  · exact ⟨rfl, h.shown (settled_error.1 hsettled)⟩
  · have hshows : ¬ Shows e.conditionMessage o := fun hshows => hnot (settled_error.2 hshows)
    rw [recordReady_error hshows, ← hclock]
    exact ⟨rfl, h.written hshows hlt⟩
  · exact ⟨rfl, h.refused (fun hshows => hnot (settled_error.2 hshows)) hle⟩

/-- The sending leaves the cluster as it is. -/
theorem Prompt.send_alone (v : Vendors σ) (o : Object .prompt) (s : World σ) :
    ((send o).outcome.run (World.handler v) s).2.cluster = s.cluster := by
  have hsend := (World.hushed_handler v s.cluster s.clock).send o s ⟨rfl, rfl⟩
  rw [Program.wp_meaning] at hsend
  exact hsend.1

theorem Prompt.stored_of_send {o : Object .prompt} {r : Except Failure (List UInt8)}
    (hs : s.cluster.stored? .prompt key = some o)
    (hsend : (send o.settled).outcome.run (World.handler v) s = (r, s₁)) :
    s₁.cluster.stored? .prompt key = some o := by
  have halone := send_alone v o.settled s
  rw [hsend] at halone
  rw [halone, hs]

theorem Prompt.wp_run_failing {o : Object .prompt} {e : Failure} {fine : World σ → Prop}
    (hs : s.cluster.stored? .prompt key = some o) (hplace : o.IsAt key)
    (hactive : Lifecycle.of o Kind.prompt.finalizer = .active) (hprocessed : o.isProcessed = false)
    (hsend : (send o.settled).outcome.run (World.handler v) s = (.error e, s₁))
    (h : Worked.prompt.Deals e.conditionMessage settings key o s₁ fine) :
    (run settings key).wp (World.handler v).meaning
      (fun r s' => r = .error (e.withRequeue settings.intervals.medium) ∧ fine s') s := by
  have hprocessed' := not_isProcessed_settled hprocessed
  -- sending writes nothing, so the prompt is still the one that was read
  have hs₁ := stored_of_send hs hsend
  refine wp_frame_alone hs hactive ?_
  unfold work
  rw [if_neg hprocessed']
  simp only [Attempt.wp_bind, Attempt.wp_always]
  rw [Program.wp_meaning, hsend]
  simp only [persist, Attempt.unlessFailed_ok, Attempt.wp_outcome, Attempt.wp_bind,
    Attempt.wp_always]
  refine Attempt.wp_mono (World.handler v).meaning_monotone ?_ _
    (h.wp_amend hs₁ hplace (record_ofStatus o.metadata.generation (.error e.conditionMessage))
      (record_error_eq_false.trans failed_settled) fun hnot => ?_)
  · intro r s' hfine
    cases r <;> exact ⟨rfl, hfine⟩
  · exact record_error fun hfailed => hnot (failed_settled.1 hfailed)

/-- A chain that fails has left the model as it was. -/
theorem Model.chain_alone {o : Object .model} {e : Failure} (i : Input)
    (hs : s.cluster.stored? .model key = some o) (hplace : o.IsAt key) (hkey : i.key = key)
    (hwish : ¬ e.IsWish)
    (hrun : Program.run (World.handler v) (Chain.run i chain).run s = (.error e, s₁)) :
    s₁.cluster.stored? .model key = some o := by
  have hspares : (World.handler v).meaning.Spares
      (fun s' => s'.cluster.stored? .model key = some o) :=
    ⟨(World.handler v).meaning_monotone, fun r hr s' hs' =>
      (World.stored_answer v hr s' key).trans hs'⟩
  have hchain : Attempt.wp (World.handler v).meaning
      (fun r s' => ∀ e, r = .error e → ¬ e.IsWish → s'.cluster.stored? .model key = some o)
      (Chain.run i chain) s := by
    refine hspares.wp_chain hs (fun _ _ hs' _ _ _ _ => hs') (fun _ _ e he hwish => ?_)
      fun set s' hs' => ?_
    · -- a wish is no failure
      rw [← Except.error.inj he] at hwish
      exact absurd trivial hwish
    · -- the last thing to do is to publish that all is ready
      subst hkey
      have hreport : ∀ s', Attempt.wp (World.handler v).meaning
          (fun r s' => ∀ e : Failure, r = .error e → ¬ e.IsWish →
            s'.cluster.stored? .model i.key = some o)
          (if !i.model.hasCondition .available then
            .always (report i.model.subject EventReason.modelAvailable "Image store is ready")
          else pure ()) s' := by
        intro s'
        split <;> exact nofun
      unfold publish access persist
      simp only [Attempt.wp_bind, Attempt.wp_mapError]
      exact Change.wp_record_alone (markAvailable_ofStatus _) hs' hplace _ (fun _ _ => hreport _)
        (fun _ _ _ => hreport _) fun _ _ _ _ _ _ => hs'
  have hafter := (Program.wp_meaning (World.handler v) _ (Chain.run i chain).run s).mp hchain
  rw [hrun] at hafter
  exact hafter e rfl hwish

theorem Model.wp_run_failing {o : Object .model} {e : Failure} {fine : World σ → Prop}
    (hs : s.cluster.stored? .model key = some o) (hplace : o.IsAt key)
    (hactive : Lifecycle.of o Kind.model.finalizer = .active) (hstarted : Started o)
    (hwish : ¬ e.IsWish)
    (hrun : Program.run (World.handler v) (Chain.run ⟨settings, key, o.settled⟩ chain).run s =
      (.error e, s₁))
    (h : Worked.model.Deals e.conditionMessage settings key o s₁ fine) :
    (run settings key).wp (World.handler v).meaning
      (fun r s' => r = .error (e.withRequeue settings.intervals.medium) ∧ fine s') s := by
  have hs₁ := chain_alone _ hs hplace rfl hwish hrun
  have hstarted' : ¬ (!o.settled.hasCondition .available && !o.settled.hasCondition .progressing) =
      true := by
    rw [Bool.not_eq_true]
    exact hstarted.not_new
  -- the failure is recorded, as it is no wish
  have hpersist : Attempt.wp (World.handler v).meaning
      (fun r s' => r = .error (e.withRequeue settings.intervals.medium) ∧ fine s') (do
        let _ ← .always (persist settings key (markFailed e.conditionMessage)).outcome
        throw (e.withRequeue settings.intervals.medium) :
          Attempt Failure (Option Directive)) s₁ := by
    simp only [persist, Attempt.wp_outcome, Attempt.wp_bind, Attempt.wp_always]
    refine Attempt.wp_mono (World.handler v).meaning_monotone ?_ _
      (h.wp_amend hs₁ hplace (markFailed_ofStatus e.conditionMessage) markFailed_eq_false
        fun hnot => markFailed_status hnot)
    intro r s' hfine
    cases r <;> exact ⟨rfl, hfine⟩
  refine wp_frame_alone hs hactive ?_
  unfold work
  rw [if_neg hstarted']
  simp only [Attempt.wp_bind, Attempt.wp_always]
  rw [Program.wp_meaning, hrun]
  cases e with
  | requeueAfter d => exact absurd trivial hwish
  | _ => exact hpersist

/-- What there is to do for an object leaves the object as it is, if it fails. -/
theorem Worked.stored_of_failed (w : Worked) {o : Object w.kind} {e : Failure}
    (hs : s.cluster.stored? w.kind key = some o) (hplace : o.IsAt key)
    (hfailed : (w.logic settings key o.settled).outcome.run (World.handler v) s = (.error e, s₁))
    (hwish : w = .model → ¬ e.IsWish) : s₁.cluster.stored? w.kind key = some o := by
  cases w with
  | llm =>
    have halone := (Llm.check_alone v o.settled s).1
    rw [show (Llm.check o.settled).outcome.run (World.handler v) s = _ from hfailed] at halone
    exact (congrArg (·.stored? .llm key) halone).trans hs
  | prompt => exact Prompt.stored_of_send hs hfailed
  | model => exact Model.chain_alone _ hs hplace rfl (hwish rfl) hfailed

theorem wp_run_failing (w : Worked) {o : Object w.kind} {e : Failure} {fine : World σ → Prop}
    (hs : s.cluster.stored? w.kind key = some o) (hplace : o.IsAt key)
    (hactive : Lifecycle.of o w.kind.finalizer = .active) (hreaches : w.Reaches o)
    (hfailed : (w.logic settings key o.settled).outcome.run (World.handler v) s = (.error e, s₁))
    (hwish : w = .model → ¬ e.IsWish)
    (h : w.Deals e.conditionMessage settings key o s₁ fine) :
    (run w settings key).wp (World.handler v).meaning
      (fun r s' => r = .error (e.withRequeue settings.intervals.medium) ∧ fine s') s := by
  cases w with
  | llm => exact Llm.wp_run_failing hs hplace hactive hreaches hfailed h
  | prompt => exact Prompt.wp_run_failing hs hplace hactive hreaches hfailed h
  | model => exact Model.wp_run_failing hs hplace hactive hreaches (hwish rfl) hfailed h

/-- A failure is returned, and recorded if it can be.  Let a pass over an active object, in a world
of its own, come to what there is to do for the object, and let this fail and lead to the world
`s₁`, in which some conflicts are left and the object is as it was.

* The pass fails with the failure, to be tried again after the medium interval.  This has the
  message of the failure, and is an error of configuration if the failure is.
* If the status shows the failure already then nothing is written, and no conflict is used up.
* Otherwise, with more attempts than conflicts, the failure is recorded in the status and nothing
  else changes; the status shows it then.
* With no more attempts than conflicts, all attempts are lost, and nothing is written. -/
theorem failure_recorded (v : Vendors σ) (w : Worked) (settings : Settings) (key : Key)
    {s s₁ : World σ} {o : Object w.kind} {e : Failure}
    (hs : s.cluster.stored? w.kind key = some o) (hplace : o.IsAt key)
    (hactive : Lifecycle.of o w.kind.finalizer = .active) (hreaches : w.Reaches o)
    (hfailed : (w.logic settings key o.settled).outcome.run (World.handler v) s = (.error e, s₁))
    (hwish : w = .model → ¬ e.IsWish) :
    let p := (reconcile w settings key).run (World.handler v) s
    let e' := e.withRequeue settings.intervals.medium
    let message := e.conditionMessage
    let c := s₁.cluster
    let attempts := max settings.writeAttempts 1
    (p.1 = .error e' ∧ e'.delay settings.intervals = settings.intervals.medium ∧
      e'.conditionMessage = message ∧ e'.isConfiguration = e.isConfiguration) ∧
    c.stored? w.kind key = some o ∧
    (w.Shows message o → p.2 = s₁) ∧
    (¬ w.Shows message o → c.injectedConflicts < attempts →
      p.2 = { s₁ with
        cluster := c.withStatus key o (some (w.failedStatus message s₁.clock o)) }) ∧
    (¬ w.Shows message o → attempts ≤ c.injectedConflicts →
      p.2 = { s₁ with
        cluster := { c with injectedConflicts := c.injectedConflicts - attempts } }) ∧
    (c.injectedConflicts < attempts → ∃ o', p.2.cluster.stored? w.kind key = some o' ∧
      w.Shows message o') := by
  intro p e' message c attempts
  have hs₁ : c.stored? w.kind key = some o := w.stored_of_failed hs hplace hfailed hwish
  -- whatever is fine with the three worlds that there may be holds of the world after the pass
  have hends : ∀ fine : World σ → Prop, w.Deals message settings key o s₁ fine →
      p.1 = .error e' ∧ fine p.2 := by
    intro fine hdeals
    refine reconcile_of_run (fun r s' => r = .error e' ∧ fine s') ?_
    refine Attempt.wp_mono (World.handler v).meaning_monotone ?_ _
      (wp_run_failing w hs hplace hactive hreaches hfailed hwish hdeals)
    rintro r s' ⟨rfl, hfine⟩
    exact ⟨e.resolve_withRequeue _ _, hfine⟩
  refine ⟨⟨?_, e.delay_withRequeue .., e.conditionMessage_withRequeue _,
    e.isConfiguration_withRequeue _⟩, hs₁, fun hshows => ?_, fun hnot hlt => ?_,
    fun hnot hle => ?_, fun hlt => ?_⟩
  · exact (hends (fun _ => True) ⟨fun _ => trivial, fun _ _ => trivial, fun _ _ => trivial⟩).1
  · exact (hends (fun s' => s' = s₁)
      ⟨fun _ => rfl, fun hnot => absurd hshows hnot, fun hnot => absurd hshows hnot⟩).2
  · exact (hends _
      ⟨fun hshows => absurd hshows hnot, fun _ _ => rfl,
        fun _ hle => absurd hlt (Nat.not_lt.2 hle)⟩).2.symm
  · exact (hends _
      ⟨fun hshows => absurd hshows hnot, fun _ hlt => absurd hlt (Nat.not_lt.2 hle),
        fun _ _ => rfl⟩).2.symm
  · refine (hends (fun s' => ∃ o', s'.cluster.stored? w.kind key = some o' ∧ w.Shows message o')
      ⟨fun hshows => ⟨o, hs₁, hshows⟩, fun _ _ => ?_,
        fun _ hle => absurd hlt (Nat.not_lt.2 hle)⟩).2
    exact ⟨_, Cluster.stored?_withStatus .., w.shows_of_status (o := o) rfl rfl⟩

/-- A prompt that is active and names no language model. -/
def undirectedPrompt (key : Key) : Object .prompt where
  metadata :=
    { name := some key.name
      ns := some key.ns
      finalizers := some [Kind.prompt.finalizer]
      generation := some 2 }
  spec := {}

/-- The failure is recorded at the third attempt. -/
theorem failure_recorded_undirected :
    let key : Key := ⟨"default", "p"⟩
    let c : Cluster :=
      { Cluster.empty.store key (undirectedPrompt key) with injectedConflicts := 2 }
    let s : World Unit := { cluster := c, vendors := () }
    let p := (reconcile .prompt {} key).run (World.handler .unreachable) s
    let e : Failure := .configuration "no llm configuration provider"
    Lifecycle.of (undirectedPrompt key) Kind.prompt.finalizer = .active ∧
      (undirectedPrompt key).isProcessed = false ∧
      p.1 = .error (.delayed ({} : Settings).intervals.medium e) ∧
      ∃ o', p.2.cluster.stored? .prompt key = some o' ∧ Prompt.Failed e.message o' := by
  intro key c s p e
  have hs : s.cluster.stored? .prompt key = some (undirectedPrompt key) :=
    Cluster.stored?_store_self ..
  have hactive : Lifecycle.of (undirectedPrompt key) Kind.prompt.finalizer = .active := by decide
  have hsend : (Worked.prompt.logic {} key (undirectedPrompt key).settled).outcome.run
      (World.handler .unreachable) s = (.error e, s) := rfl
  obtain ⟨⟨hfails, -⟩, -, -, -, -, hshows⟩ :=
    failure_recorded .unreachable .prompt {} key hs ⟨rfl, rfl⟩ hactive rfl hsend nofun
  exact ⟨hactive, rfl, hfails, hshows (by decide)⟩

end Pass

end ModelKeeper
