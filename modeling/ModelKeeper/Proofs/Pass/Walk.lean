import ModelKeeper.Pass.Entry
import ModelKeeper.Proofs.ImageStore.Races
import ModelKeeper.Proofs.Pass.Quiet
import ModelKeeper.Proofs.Pass.Settling.Llm

/-!
# What all that a pass does has

A pass reads the object that it is over, brings it on its way and does the work for its kind.  It
amends the object in one of a few ways (`Pass.Worked.Makes`), over a model it makes parts of the
image store, and everything else are looks, reports, and what is said to vendors.

So a closed property of programs is had by the work for an object if it is had by these things
(`Pass.Worked.Steps`), and by the whole pass if it is also had by the read of the object and by the
amendments of its finalizers (`Pass.Worked.Passes`, `Pass.Worked.Passes.reconcile`).

Here the making of a part is one thing, with its count and its report.  For a property that all
counts and reports have, it is enough to know it of the creation of parts (`Pass.Worked.Works`,
`Pass.Worked.Permits`).
-/

namespace ModelKeeper.Pass

theorem Worked.kind_injective {w w' : Worked} (h : w.kind = w'.kind) : w = w' := by
  cases w <;> cases w' <;> first | rfl | cases h

/-- Parts of an image store are of other kinds than the objects that passes are over. -/
theorem Worked.kind_ne_part (w : Worked) (p : ImageStore.Part) : w.kind ≠ p.kind := by
  cases w <;> cases p <;> decide

/-! ### The amendments of a pass -/

/-- The amendments that a pass may make: which half of the object it changes, and how. -/
inductive Worked.Makes : (w : Worked) → Half → Change w.kind → Prop
  | addFinalizer (w : Worked) : Makes w .body fun _ => Object.addFinalizer w.kind.finalizer
  | removeFinalizer (w : Worked) : Makes w .body fun _ => Object.removeFinalizer w.kind.finalizer
  | label (type : ProviderType) : Makes .llm .body fun _ => Llm.label type
  | recordReady (outcome : Except Failure String) (now : Instant) :
    Makes .llm .status fun _ => Llm.recordReady (Llm.next outcome now)
  | record (generation : Option Int) (outcome : Except String (List UInt8)) :
    Makes .prompt .status (Prompt.record generation outcome)
  | markProgressing : Makes .model .status Model.markProgressing
  | markFailed (message : String) : Makes .model .status (Model.markFailed message)
  | markAvailable (n : Model.Counts) : Makes .model .status (Model.markAvailable n)

/-! ### The work for an object -/

/-- The reasons of what a pass over a model reports, other than that a part was made. -/
def Model.notices : List String :=
  [EventReason.waitingForStatefulSet, EventReason.waitingForService, EventReason.modelProgressing,
    EventReason.modelAvailable]

/-- Whether a property is had by what the work for the object under a key does to this object, and
by what it asks.  The label is set at the place that the object names as its own, which is one of
some places. -/
structure Worked.Deeds (w : Worked) (key : Key) (home : Key → Prop)
    (P : (α : Type) → Program α → Prop) : Prop where
  label : w = .llm → ∀ place, home place → ∀ type attempts,
    P _ (amend .body .llm place attempts fun _ => Llm.label type).outcome
  record : ∀ change, w.Makes .status change → ∀ attempts,
    P _ (amend .status w.kind key attempts change).outcome
  look : w = .model → ∀ p : ImageStore.Part, P _ (.ask (.get p.kind (p.key key.ns)))
  check : w = .llm → ∀ o, P _ (Llm.check o).outcome
  send : w = .prompt → ∀ o, P _ (Prompt.send o).outcome

/-- Whether a closed property is had by all that the work for an object may do.  Making a part is
one step, with its count and its report. -/
structure Worked.Steps (w : Worked) (key : Key) (home : Key → Prop)
    (P : (α : Type) → Program α → Prop) : Prop
    extends Program.Closed P, w.Deeds key home P where
  now : P _ (.ask .now)
  part : w = .model → ∀ (p : ImageStore.Part) subject source,
    P _ (p.ensure subject key.ns source).outcome
  tell : w = .model → ∀ reason ∈ Model.notices, ∀ subject message,
    P _ (report subject reason message)

/-- Whether a closed property is had by all requests on the side, and by all else that the work for
an object may do. -/
structure Worked.Works (w : Worked) (key : Key) (home : Key → Prop)
    (P : (α : Type) → Program α → Prop) : Prop
    extends Program.Reporting P, w.Deeds key home P where
  make : w = .model → ∀ (p : ImageStore.Part) source,
    P _ (.ask (.create p.kind (p.object key.ns source)))

theorem Worked.Works.steps {w : Worked} {key : Key} {home : Key → Prop}
    {P : (α : Type) → Program α → Prop} (h : w.Works key home P) : w.Steps key home P where
  toClosed := h.toClosed
  toDeeds := h.toDeeds
  now := h.ask .now trivial
  part hmodel p subject source := by
    have hget := h.look hmodel p
    have hcreate := h.make hmodel p source
    cases p <;> exact h.ensure hget hcreate _ _ _
  tell _ reason _ subject message := h.report subject reason message

namespace Worked.Steps

variable {w : Worked} {key : Key} {home : Key → Prop} {P : (α : Type) → Program α → Prop}
  {settings : Settings}

theorem llm_work (h : Worked.llm.Steps key home P) {o : Object .llm}
    (hplace : home ⟨o.nsOrEmpty, o.nameOrEmpty⟩) : P _ (Llm.work settings key o).outcome := by
  have hpersist : ∀ outcome now, P _ (Llm.persist settings key (Llm.next outcome now)).outcome :=
    fun outcome now => h.seq (h.record _ (.recordReady outcome now) _) fun _ => h.pure ()
  have hnow : P _ (Attempt.always (Program.ask .now) : Attempt Failure Instant).outcome :=
    h.always h.now
  have hlabel : P _ (Llm.normalizeLabel settings o).outcome :=
    Program.Closed.ite (h.pure false) <|
      h.seq (h.label rfl _ hplace _ _) fun _ => h.pure true
  refine h.seq (h.mapError hlabel _) fun labelled => ?_
  refine Program.Closed.ite (h.pure _) ?_
  refine h.seq (h.always (h.check rfl o)) fun outcome => ?_
  -- a failed check is passed on even if it cannot be recorded
  cases outcome with
  | ok message =>
    exact h.seq hnow fun now =>
      h.seq (h.mapError (hpersist (.ok message) now) _) fun _ => h.pure none
  | error e =>
    exact h.seq hnow fun now =>
      h.seq (h.always (hpersist (.error e) now)) fun _ => h.throw _

theorem prompt_work (h : Worked.prompt.Steps key home P) (o : Object .prompt) :
    P _ (Prompt.work settings key o).outcome := by
  have hpersist : ∀ generation outcome,
      P _ (Prompt.persist settings key generation outcome).outcome := fun generation outcome =>
    h.seq (h.record _ (.record generation outcome) _) fun _ => h.pure ()
  refine Program.Closed.ite (h.pure _) ?_
  refine h.seq (h.always (h.send rfl o)) fun outcome => ?_
  cases outcome with
  | ok bytes =>
    exact h.seq (h.mapError (hpersist _ _) _) fun _ => h.pure _
  | error e =>
    exact h.seq (h.always (hpersist _ _)) fun _ => h.throw _

section Model

variable (h : Worked.model.Steps key home P)
include h

theorem persist {change : Change .model} (hmakes : Worked.model.Makes .status change) :
    P _ (Model.persist settings key change).outcome :=
  h.seq (h.record _ hmakes _) fun _ => h.pure ()

theorem requireStatefulSet : P _ (Model.requireStatefulSet key.ns).outcome :=
  h.toClosed.requireStatefulSet (h.look rfl .statefulSet)

theorem readinessStep (o : Object .model) :
    P _ (Model.readinessStep ⟨settings, key, o⟩).outcome := by
  have hready : P _ (Model.isReady ⟨settings, key, o⟩).outcome :=
    h.seq (h.mapError (h.statefulSetReady (h.look rfl .statefulSet) fun _ =>
        h.tell rfl _ (by simp [Model.notices]) _ _) _) fun _ =>
      Program.Closed.ite (h.mapError (h.serviceReady (h.look rfl .service) fun _ =>
        h.tell rfl _ (by simp [Model.notices]) _ _) _) (h.pure false)
  have hpublish : P _ (Attempt.outcome (do
      let set ← Model.requireStatefulSet key.ns
      access (Model.persist settings key (Model.markAvailable (Model.Counts.of set)))
      if !o.hasCondition .available then
        .always (report o.subject EventReason.modelAvailable "Image store is ready"))) :=
    h.seq h.requireStatefulSet fun set =>
      h.seq (h.mapError (h.persist (.markAvailable _)) _) fun _ =>
        Program.Closed.ite (h.always (h.tell rfl _ (by simp [Model.notices]) _ _)) (h.pure ())
  refine h.seq hready fun ready => ?_
  exact Program.Closed.ite (h.seq (h.throw _) fun _ => hpublish) hpublish

theorem chain (o : Object .model) :
    P _ (Attempt.outcome (Chain.run ⟨settings, key, o⟩ Model.chain)) := by
  have hstep : ∀ (p : ImageStore.Part) (source : p.Source),
      P _ (Attempt.outcome (do let _ ← access (p.ensure o.subject key.ns source))) :=
    fun p source => h.seq (h.mapError (h.part rfl p _ source) _) fun _ => h.pure ()
  refine h.seq (hstep .claim _) fun _ => ?_
  refine h.seq (hstep .statefulSet _) fun _ => ?_
  refine h.seq (h.seq h.requireStatefulSet fun set => hstep .service set) fun _ => ?_
  exact h.seq (h.readinessStep o) fun _ => h.pure ()

theorem model_work (o : Object .model) : P _ (Model.work settings key o).outcome := by
  refine Program.Closed.ite ?_ ?_
  · exact h.seq (h.mapError (h.persist .markProgressing) _) fun _ =>
      h.seq (h.always (h.tell rfl _ (by simp [Model.notices]) _ _)) fun _ => h.throw _
  · refine h.seq (h.always (h.chain o)) fun outcome => ?_
    split
    · exact h.pure none
    · exact h.throw _
    · exact h.seq (h.always (h.persist (.markFailed _))) fun _ => h.throw _

end Model

end Worked.Steps

/-! ### The whole pass -/

/-- Whether a property is had by the way of a pass to the work for an object: the read of the
object, which then names one of some places as its own, and the amendments of its finalizers. -/
structure Worked.Ways (w : Worked) (key : Key) (home : Key → Prop)
    (P : (α : Type) → Program α → Prop) : Prop where
  read : ∀ {α : Type} (next : Except AccessError (Object w.kind) → Program α),
    (∀ answer, (∀ o, answer = .ok o → home ⟨o.nsOrEmpty, o.nameOrEmpty⟩) → P α (next answer)) →
    P α ((Program.ask (.get w.kind key)).bind next)
  addFinalizer : ∀ place, home place → ∀ attempts,
    P _ (addFinalizer w.kind place w.kind.finalizer attempts).outcome
  removeFinalizer : ∀ place, home place → ∀ attempts,
    P _ (amend .body w.kind place attempts fun _ =>
      Object.removeFinalizer w.kind.finalizer).outcome

/-- Whether a closed property is had by all that a pass over the object under a key may do. -/
structure Worked.Passes (w : Worked) (key : Key) (home : Key → Prop)
    (P : (α : Type) → Program α → Prop) : Prop extends w.Steps key home P, w.Ways key home P

/-- Whether a closed property is had by all requests on the side, and by all else that a pass may
do. -/
structure Worked.Permits (w : Worked) (key : Key) (home : Key → Prop)
    (P : (α : Type) → Program α → Prop) : Prop extends w.Works key home P, w.Ways key home P

theorem Worked.Permits.passes {w : Worked} {key : Key} {home : Key → Prop}
    {P : (α : Type) → Program α → Prop} (h : w.Permits key home P) : w.Passes key home P where
  toSteps := h.steps
  toWays := h.toWays

namespace Worked.Passes

variable {w : Worked} {key : Key} {home : Key → Prop} {P : (α : Type) → Program α → Prop}
  {settings : Settings}

theorem advance (h : w.Passes key home P) {o : Object w.kind}
    (hplace : home ⟨o.nsOrEmpty, o.nameOrEmpty⟩) (attempts : Nat) :
    P _ (advance o w.kind.finalizer attempts).outcome := by
  unfold ModelKeeper.advance
  simp only
  split
  · exact h.seq (h.addFinalizer _ hplace attempts) fun _ => h.pure _
  · refine h.seq ?_ fun _ => h.pure _
    refine h.bind (h.removeFinalizer _ hplace attempts) fun r => ?_
    cases r <;> exact h.done _
  · exact h.pure _
  · exact h.pure _

theorem frame (h : w.Passes key home P)
    {work : Object w.kind → Attempt Failure (Option Directive)}
    (hwork : ∀ o, home ⟨o.nsOrEmpty, o.nameOrEmpty⟩ → P _ (work o).outcome) :
    P _ (frame settings key work).outcome := by
  refine h.read _ fun answer hhome => ?_
  cases answer with
  | error e =>
    -- the pass ends, with a failure unless there just is no object
    cases e <;> exact h.done _
  | ok o =>
    have hplace := hhome o rfl
    refine h.seq (h.mapError (h.advance hplace settings.writeAttempts) _) fun directive => ?_
    cases directive with
    | none => exact hwork o hplace
    | some d => exact h.pure _

/-- What is had by all that a pass may do is had by the pass. -/
theorem reconcile (h : w.Passes key home P) : P _ (reconcile w settings key) := by
  refine h.bind ?_ fun _ => h.done _
  cases w with
  | llm => exact h.frame fun o hplace => h.llm_work hplace
  | prompt => exact h.frame fun o _ => h.prompt_work o
  | model => exact h.frame fun o _ => h.model_work o

end Worked.Passes

theorem Worked.Permits.reconcile {w : Worked} {key : Key} {home : Key → Prop}
    {P : (α : Type) → Program α → Prop} {settings : Settings} (h : w.Permits key home P) :
    P _ (reconcile w settings key) :=
  h.passes.reconcile

end ModelKeeper.Pass
