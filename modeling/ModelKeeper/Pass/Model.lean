import ModelKeeper.ImageStore.Provision
import ModelKeeper.Pass.Basic
import ModelKeeper.Pass.Chain

/-!
# The pass over a model

An active model is first marked `Progressing`.  Later passes take or make the parts of the image
store of its namespace, in the order claim, set, service, and look whether they are ready.  When
they are, the model is marked `Available` and shows the numbers of pods of the set.
-/

namespace ModelKeeper

/-- Whether the model has a condition of this type. -/
def Object.hasCondition (o : Object .model) (type : ConditionType) : Bool :=
  match o.status with
  | some s => s.conditions.has type
  | none => false

namespace Pass.Model

/-! ### What is recorded -/

/-- The model marked as in progress, unless it is. -/
def markProgressing (now : Instant) (o : Object .model) : Object .model × Bool :=
  let status : ModelStatus := o.status.getD {}
  if status.conditions.has .progressing then ({ o with status := some status }, false)
  else
    let c := Condition.now now .progressing .isTrue Reason.imageStoreProvisioning
      "Provisioning image store"
    ({ o with status := some { status with conditions := status.conditions.set c } }, true)

/-- The model with a failure recorded, unless it is. -/
def markFailed (message : String) (now : Instant) (o : Object .model) : Object .model × Bool :=
  let status : ModelStatus := o.status.getD {}
  let current := status.conditions.get .replicaFailure
  if current.isTrue && current.message = message then ({ o with status := some status }, false)
  else
    let c := Condition.now now .replicaFailure .isTrue Reason.reconcileError message
    ({ o with status := some { status with conditions := status.conditions.set c } }, true)

/-- How many pods of a set there are, are ready, are available and are not available. -/
structure Counts where
  replicas : Int
  ready : Int
  available : Int
  unavailable : Int
  deriving DecidableEq, Repr

/-- The counts of a set; one pod is wanted if nothing is said.  The difference is one of 32-bit
integers. -/
def Counts.of (set : Object .statefulSet) : Counts :=
  let desired := (set.spec.bind (·.replicas)).getD 1
  let status : StatefulSetStatus := set.status.getD {}
  let available := status.availableReplicas.getD 0
  { replicas := status.replicas
    ready := status.readyReplicas.getD 0
    available
    unavailable := max (Int.bmod (desired - available) 0x100000000) 0 }

/-- The status with the counts of a set. -/
def showCounts (n : Counts) (s : ModelStatus) : ModelStatus :=
  { s with
    replicas := n.replicas
    readyReplicas := n.ready
    availableReplicas := n.available
    unavailableReplicas := n.unavailable }

/-- The status with `Available`, unless it has it for the same reason. -/
def showAvailable (now : Instant) (s : ModelStatus) : ModelStatus :=
  let current := s.conditions.get .available
  if current.isTrue && current.reason = Reason.newReplicaSetAvailable then s
  else
    let c := Condition.now now .available .isTrue Reason.newReplicaSetAvailable
      "Image store is ready"
    { s with conditions := s.conditions.set c }

/-- The status with no failure shown. -/
def clearFailure (now : Instant) (s : ModelStatus) : ModelStatus :=
  if (s.conditions.get .replicaFailure).isTrue then
    let c := Condition.now now .replicaFailure .isFalse Reason.reconcileSuccess ""
    { s with conditions := s.conditions.set c }
  else s

/-- The model marked as available with the counts of a set, and whether this is anything new. -/
def markAvailable (n : Counts) (now : Instant) (o : Object .model) : Object .model × Bool :=
  let before : ModelStatus := o.status.getD {}
  let after := clearFailure now (showAvailable now (showCounts n before))
  ({ o with status := some after }, after ≠ before)

/-- Changes the status of the model under a key. -/
def persist (settings : Settings) (key : Key) (change : Change .model) :
    Attempt AccessError Unit := do
  let _ ← amend .status .model key settings.writeAttempts change

/-! ### The chain -/

/-- What a step works with. -/
structure Input where
  settings : Settings
  key : Key
  model : Object .model

namespace Input

/-- The plan for the image store. -/
def plan (i : Input) : ImageStore.Plan := .forModel i.model.spec i.settings

end Input

/-- Takes or makes the claim. -/
def claimStep (i : Input) : Attempt Failure Unit := do
  let _ ← access (ImageStore.ensureClaim i.model.subject i.key.ns i.plan)

/-- Takes or makes the set. -/
def statefulSetStep (i : Input) : Attempt Failure Unit := do
  let _ ← access (ImageStore.ensureStatefulSet i.model.subject i.key.ns i.plan)

/-- The set, which has to be there. -/
def requireStatefulSet (ns : String) : Attempt Failure (Object .statefulSet) := do
  match ← access (Objects.find? .statefulSet (ImageStore.statefulSetKey ns)) with
  | some set => pure set
  | none => throw (.notReady "image store StatefulSet is missing")

/-- Takes or makes the service. -/
def serviceStep (i : Input) : Attempt Failure Unit := do
  let set ← requireStatefulSet i.key.ns
  let _ ← access (ImageStore.ensureService i.model.subject i.key.ns set)

/-- Whether the set, and then the service, is ready. -/
def isReady (i : Input) : Attempt Failure Bool := do
  if ← access (ImageStore.statefulSetReady i.model.subject i.key.ns) then
    access (ImageStore.serviceReady i.model.subject i.key.ns)
  else pure false

/-- Waits for the image store, and then marks the model as available. -/
def readinessStep (i : Input) : Attempt Failure Unit := do
  if !(← isReady i) then throw (.requeueAfter i.settings.intervals.short)
  let set ← requireStatefulSet i.key.ns
  access (persist i.settings i.key (markAvailable (Counts.of set)))
  if !i.model.hasCondition .available then
    .always (report i.model.subject EventReason.modelAvailable "Image store is ready")

/-- The steps for a model. -/
def chain : List (Step Program Input) :=
  [.claim claimStep, .statefulSet statefulSetStep, .service serviceStep,
    .named "Readiness" readinessStep]

/-! ### The pass -/

/-- The work for an active model. -/
def work (settings : Settings) (key : Key) (o : Object .model) :
    Attempt Failure (Option Directive) := do
  if !o.hasCondition .available && !o.hasCondition .progressing then
    access (persist settings key markProgressing)
    .always (report o.subject EventReason.modelProgressing "Provisioning image store")
    throw (.requeueAfter settings.intervals.short)
  match ← (Attempt.always (Chain.run ⟨settings, key, o⟩ chain).run : Attempt Failure _) with
  | .ok () => return none
  -- a wish to be called again is no failure, so nothing is recorded
  | .error (.requeueAfter d) => throw (.requeueAfter d)
  | .error e =>
    let _ ← .always (persist settings key (markFailed e.conditionMessage)).outcome
    throw (e.withRequeue settings.intervals.medium)

/-- The pass over the model under a key. -/
def run (settings : Settings) (key : Key) : Attempt Failure (Option Directive) :=
  frame settings key (work settings key)

end Pass.Model

end ModelKeeper
