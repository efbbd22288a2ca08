import ModelKeeper.Pass.Llm
import ModelKeeper.Pass.Model
import ModelKeeper.Pass.Prompt
import ModelKeeper.Proofs.Program.Closed
import ModelKeeper.Proofs.World.Elsewhere

/-!
# What passes do quietly

The check of a language model and the sending of a prompt make many requests, and none of them
changes an object.  So they keep whatever quiet requests keep (`Meaning.Hushed.check`,
`Meaning.Hushed.send`), in any meaning of requests.

The check reads no objects but secrets and workers, and the same is true of the sending of a prompt
once its language model is known (`Pass.Prompt.sendTo`).  They have any closed property that these
reads have, and the requests to vendors together with their counts (`Program.Inquiring.check`,
`Program.Inquiring.sendTo`).  So less has to be known for them (`Meaning.Inquires.check`,
`Meaning.Inquires.sendTo`).

The looks at an image store and the making of its parts have any closed property that their
requests have (`Program.Closed.statefulSetReady`, `Program.Reporting.ensure`).  So they too keep
what quiet requests keep, if the making itself does (`Meaning.Hushed.ensure`).

In a world that nobody else acts on, this is the cluster and the time (`World.hushed_handler`).
-/

namespace ModelKeeper

variable {ε α δ : Type} {m : Meaning ε} {I : ε → Prop}

/-- Whether a request changes no object, and reads none but secrets and workers. -/
def Request.IsInquiry : Request → Prop
  | .get k _ => k = .secret ∨ k = .worker
  | r => r.IsQuiet

/-- Whether requests that change no object keep an invariant. -/
structure Meaning.Hushed (m : Meaning ε) (I : ε → Prop) : Prop where
  monotone : m.Monotone
  ask : ∀ r : Request, r.IsQuiet → (Program.ask r).Keeps m I

/-- Whether inquiries keep an invariant. -/
structure Meaning.Inquires (m : Meaning ε) (I : ε → Prop) : Prop where
  monotone : m.Monotone
  ask : ∀ r : Request, r.IsInquiry → (Program.ask r).Keeps m I

theorem Meaning.Hushed.inquires (h : m.Hushed I) : m.Inquires I where
  monotone := h.monotone
  ask r hr := h.ask r (by cases r <;> first | exact hr | trivial)

/-- The sending of a prompt to a language model of this description. -/
def Pass.Prompt.sendTo (o : Object .prompt) (name : String) (llm : LlmSpec) :
    Attempt Failure (List UInt8) :=
  match llm.provider.resolve with
  | .error e => throw (.provider e)
  | .ok (.worker _) => throw (.configuration s!"llm {name} has no endpoint to send prompts to")
  | .ok (.thirdParty endpoint) => do
    let apiKey ← (endpoint.apiKey o.nsOrEmpty).mapError Failure.auth
    let vendor ← (Attempt.of (pure llm.vendor)).mapError Failure.chat
    let c : Connection := ⟨vendor, apiKey, endpoint.baseUrl⟩
    (Attempt.of (.ask (.connect c))).mapError Failure.chat
    let params := o.spec.params.getD Params.default
    let reply ← (observed .call (.of (.ask (.call c params.marshal)))).mapError Failure.chat
    pure reply.bytes

/-- A prompt is sent to the language model that it names, once this has been read. -/
theorem Pass.Prompt.send_eq {o : Object .prompt} {reference : TypedReference}
    (h : o.spec.llm.filter (·.name != "") = some reference) :
    send o = (do
      let llm ← access (Objects.get .llm ⟨o.nsOrEmpty, reference.name⟩)
      sendTo o reference.name llm.spec) := by
  unfold send
  generalize o.spec.llm.filter (·.name != "") = named at h
  subst h
  rfl

/-! ### Steps of passes and what is had by their requests -/

namespace Program

variable {P : (α : Type) → Program α → Prop}

theorem Closed.checkWorker (h : Closed P) (o : Object .llm) (reference : TypedReference)
    (hget : P _ (ask (.get .worker ⟨o.nsOrEmpty, reference.name⟩))) :
    P _ (Pass.Llm.checkWorker o reference).outcome := by
  refine h.seq (h.mapError (h.find? hget) _) fun found => ?_
  cases found with
  | none => exact h.throw _
  | some worker =>
    have hready : P _ (Attempt.outcome (do
        if !(worker.status.getD {}).isReady then throw (.notReady "worker is not ready")
        pure "worker is ready" : Attempt Failure String)) :=
      Closed.ite (h.seq (h.throw _) fun _ => h.pure _) (h.pure _)
    exact Closed.ite (h.seq (h.throw _) fun _ => hready) hready

/-- A request to a vendor, with its counts. -/
theorem Closed.observed (h : Closed P) (hcount : ∀ metric, P _ (ask (.count metric)))
    {p : Attempt ChatError α} (hp : P _ p.outcome) (operation : Operation) :
    P _ (Pass.observed operation p).outcome := by
  refine h.bind (hcount _) fun _ => h.bind hp fun result => h.bind (hcount _) fun _ => ?_
  cases result with
  | ok a => exact h.done _
  | error e => exact h.bind (hcount _) fun _ => h.done _

/-- Whether a closed property is had by all that the check of a language model and the sending of a
prompt are made of.  A request to a vendor comes with its counts. -/
structure Inquiring (P : (α : Type) → Program α → Prop) : Prop extends Closed P where
  secret : ∀ key, P _ (ask (.get .secret key))
  worker : ∀ key, P _ (ask (.get .worker key))
  connect : ∀ c, P _ (ask (.connect c))
  validate : ∀ c options, P _ (Pass.observed .validate (.of (ask (.validate c options)))).outcome
  call : ∀ c payload, P _ (Pass.observed .call (.of (ask (.call c payload)))).outcome

namespace Inquiring

variable (h : Inquiring P)
include h

theorem apiKey (e : Endpoint) (ns : String) : P _ (e.apiKey ns).outcome := by
  unfold Endpoint.apiKey
  cases e.secretName? with
  | none => exact h.done _
  | some name =>
    refine h.bind (h.secret _) fun answer => ?_
    cases answer <;> exact h.done _

/-! ### The check of a language model -/

theorem tryModels (c : Connection) (models : List String) :
    P _ (Pass.Llm.tryModels c models).outcome := by
  induction models with
  | nil => exact h.pure _
  | cons model models ih =>
    exact h.seq (h.mapError (h.validate c _) _) fun reply => h.seq ih fun texts => h.pure _

theorem checkEndpoint (o : Object .llm) (endpoint : Endpoint) :
    P _ (Pass.Llm.checkEndpoint o endpoint).outcome := by
  have hrest : ∀ c : Connection, P _ (Attempt.outcome (do
      (Attempt.of (ask (.connect c))).mapError Failure.chat
      let texts ← Pass.Llm.tryModels c o.spec.modelsToTry
      pure ("\n".intercalate texts))) := fun c =>
    h.seq (h.mapError (h.connect c) _) fun _ => h.seq (h.tryModels c _) fun _ => h.pure _
  refine h.seq (h.mapError (h.apiKey _ _) _) fun apiKey => ?_
  refine h.seq (h.mapError (h.done o.spec.vendor) _) fun vendor => ?_
  exact Closed.ite (h.seq (h.throw _) fun _ => hrest _) (hrest _)

theorem check (o : Object .llm) : P _ (Pass.Llm.check o).outcome := by
  unfold Pass.Llm.check
  cases o.spec.provider.resolve with
  | error e => exact h.throw _
  | ok provider =>
    cases provider with
    | thirdParty endpoint => exact h.checkEndpoint o endpoint
    | worker reference => exact h.checkWorker o reference (h.worker _)

/-! ### The sending of a prompt -/

theorem sendTo (o : Object .prompt) (name : String) (llm : LlmSpec) :
    P _ (Pass.Prompt.sendTo o name llm).outcome := by
  unfold Pass.Prompt.sendTo
  cases llm.provider.resolve with
  | error e => exact h.throw _
  | ok provider =>
    cases provider with
    | worker _ => exact h.throw _
    | thirdParty endpoint =>
      refine h.seq (h.mapError (h.apiKey _ _) _) fun apiKey => ?_
      refine h.seq (h.mapError (h.done llm.vendor) _) fun vendor => ?_
      refine h.seq (h.mapError (h.connect _) _) fun _ => ?_
      exact h.seq (h.mapError (h.call _ _) _) fun _ => h.pure _

theorem send (hllm : ∀ key, P _ (ask (.get .llm key))) (o : Object .prompt) :
    P _ (Pass.Prompt.send o).outcome := by
  cases hnamed : o.spec.llm.filter (·.name != "") with
  | none =>
    unfold Pass.Prompt.send
    rw [hnamed]
    exact h.throw _
  | some reference =>
    rw [Pass.Prompt.send_eq hnamed]
    exact h.seq (h.mapError (hllm _) _) fun llm => h.sendTo o reference.name llm.spec

end Inquiring

/-! ### The image store -/

theorem Closed.requireStatefulSet (h : Closed P) {ns : String}
    (hget : P _ (ask (.get .statefulSet (ImageStore.statefulSetKey ns)))) :
    P _ (Pass.Model.requireStatefulSet ns).outcome := by
  refine h.seq (h.mapError (h.find? hget) _) fun found => ?_
  cases found with
  | none => exact h.throw _
  | some set => exact h.pure set

section

variable {ns : String} {subject : Subject}

theorem Closed.statefulSetReady (h : Closed P)
    (hget : P _ (ask (.get .statefulSet (ImageStore.statefulSetKey ns))))
    (htell : ∀ message, P _ (report subject EventReason.waitingForStatefulSet message)) :
    P _ (ImageStore.statefulSetReady subject ns).outcome := by
  refine h.seq (h.find? hget) fun found => ?_
  cases found with
  | none => exact h.pure false
  | some set =>
    simp only
    split
    · exact h.pure true
    · exact h.seq (h.always (htell _)) fun _ => h.pure false

theorem Closed.serviceReady (h : Closed P)
    (hget : P _ (ask (.get .service (ImageStore.serviceKey ns))))
    (htell : ∀ message, P _ (report subject EventReason.waitingForService message)) :
    P _ (ImageStore.serviceReady subject ns).outcome := by
  refine h.seq (h.find? hget) fun found => ?_
  cases found with
  | none => exact h.pure false
  | some service =>
    simp only
    split
    · exact h.pure true
    · exact h.seq (h.always (htell _)) fun _ => h.pure false

end

namespace Reporting

variable (h : Reporting P)
include h

section

variable {k : Kind} {key : Key} {part : Object k} (hget : P _ (.ask (.get k key)))
  (hcreate : P _ (.ask (.create k part)))
include hget hcreate

theorem createOrGet : P _ (ImageStore.createOrGet key part).outcome := by
  refine h.bind hcreate fun answer => ?_
  cases answer with
  | ok o => exact h.done _
  | error e =>
    simp only
    split
    · refine h.bind hget fun answer => ?_
      cases answer <;> exact h.done _
    · exact h.done _

theorem ensure (subject : Subject) (reason message : String) :
    P _ (ImageStore.ensure key part subject reason message).outcome := by
  refine h.seq (h.find? hget) fun found => ?_
  cases found with
  | some o => exact h.pure o
  | none =>
    refine h.seq (h.createOrGet hget hcreate) fun made => ?_
    simp only
    split
    · refine h.seq (h.always (h.ask (.count _) trivial)) fun _ => ?_
      exact h.seq (h.always (h.report _ _ _)) fun _ => h.pure made.1
    · exact h.pure made.1

end

end Reporting

end Program

namespace Meaning.Inquires

variable (h : m.Inquires I)
include h

theorem inquiring : Program.Inquiring fun _ p => p.Keeps m I where
  toClosed := Program.closed_keeps h.monotone I
  secret key := h.ask (.get .secret key) (.inl rfl)
  worker key := h.ask (.get .worker key) (.inr rfl)
  connect c := h.ask (.connect c) trivial
  validate c options := (Program.closed_keeps h.monotone I).observed
    (fun metric => h.ask (.count metric) trivial) (h.ask (.validate c options) trivial) _
  call c payload := (Program.closed_keeps h.monotone I).observed
    (fun metric => h.ask (.count metric) trivial) (h.ask (.call c payload) trivial) _

theorem check (o : Object .llm) : (Pass.Llm.check o).Keeps m I := h.inquiring.check o

theorem sendTo (o : Object .prompt) (name : String) (llm : LlmSpec) :
    (Pass.Prompt.sendTo o name llm).Keeps m I :=
  h.inquiring.sendTo o name llm

end Meaning.Inquires

namespace Meaning.Hushed

variable (h : m.Hushed I)
include h

theorem reporting : Program.Reporting fun _ p => p.Keeps m I where
  toClosed := Program.closed_keeps h.monotone I
  ask r hr := h.ask r (by cases r <;> trivial)

theorem find? {k : Kind} {key : Key} : (Objects.find? k key).Keeps m I :=
  h.reporting.find? (h.ask (.get k key) trivial)

theorem report {subject : Subject} {reason message : String} :
    (report subject reason message).Keeps m I :=
  h.ask (.emit _) trivial

theorem check (o : Object .llm) : (Pass.Llm.check o).Keeps m I := h.inquires.check o

theorem send (o : Object .prompt) : (Pass.Prompt.send o).Keeps m I :=
  h.inquires.inquiring.send (fun key => h.ask (.get .llm key) trivial) o

/-! ### The image store -/

theorem ensure {k : Kind} {part : Object k} (hcreate : (Program.ask (.create k part)).Keeps m I)
    {key : Key} {subject : Subject} {reason message : String} :
    (ImageStore.ensure key part subject reason message).Keeps m I :=
  h.reporting.ensure (h.ask (.get k key) trivial) hcreate subject reason message

theorem statefulSetReady {subject : Subject} {ns : String} :
    (ImageStore.statefulSetReady subject ns).Keeps m I :=
  h.reporting.statefulSetReady (h.ask (.get .statefulSet _) trivial) fun _ => h.report

theorem serviceReady {subject : Subject} {ns : String} :
    (ImageStore.serviceReady subject ns).Keeps m I :=
  h.reporting.serviceReady (h.ask (.get .service _) trivial) fun _ => h.report

end Meaning.Hushed

/-! ### In a world of its own -/

/-- No request turns the clock. -/
theorem World.clock_answer {σ : Type} (v : Vendors σ) (r : Request) (w : World σ) :
    (answer v r w).2.clock = w.clock := by
  cases r <;> rfl

/-- Quiet requests leave the cluster and the clock as they are. -/
theorem World.hushed_handler {σ : Type} (v : Vendors σ) (c : Cluster) (time : Instant) :
    (handler v).meaning.Hushed (fun w => w.cluster = c ∧ w.clock = time) where
  monotone := (handler v).meaning_monotone
  ask r hquiet w hw :=
    ⟨(cluster_answer_of_isQuiet v hquiet w).trans hw.1, (clock_answer v r w).trans hw.2⟩

end ModelKeeper
