import ModelKeeper.ImageStore.Parts
import ModelKeeper.Operator.Program

/-!
# Providing the image store

Every part of an image store is made once: a part that is there is taken as it is, whatever it looks
like, and a part that another writer makes at the same time is taken too.  Whoever made a part
counts and reports it.
-/

namespace ModelKeeper.ImageStore

/-- Creates an object, or takes the stored one if another writer was faster.  Says also whether the
object was created here. -/
def createOrGet {k : Kind} (key : Key) (o : Object k) : Attempt AccessError (Object k × Bool) :=
  .of do
    match ← Program.ask (.create k o) with
    | .ok created => pure (.ok (created, true))
    | .error e =>
      if e.isAlreadyExists then
        match ← Program.ask (.get k key) with
        | .ok stored => pure (.ok (stored, false))
        | .error e => pure (.error e)
      else pure (.error e)

/-- Takes the part under a key, or makes it, counts it and reports it. -/
def ensure {k : Kind} (key : Key) (part : Object k) (subject : Subject) (reason message : String) :
    Attempt AccessError (Object k) := do
  match ← Objects.find? k key with
  | some o => pure o
  | none =>
    let (o, created) ← createOrGet key part
    if created then
      .always (Program.ask (.count (.provisioned k)))
      .always (report subject reason message)
    pure o

def claimKey (ns : String) : Key := ⟨ns, claimName⟩
def statefulSetKey (ns : String) : Key := ⟨ns, statefulSetName⟩
def serviceKey (ns : String) : Key := ⟨ns, serviceName⟩

/-- Takes or makes the claim to storage. -/
def ensureClaim (subject : Subject) (ns : String) (plan : Plan) :
    Attempt AccessError (Object .claim) :=
  ensure (claimKey ns) (claim ns plan) subject EventReason.provisionedClaim
    "Provisioned image storage PVC"

/-- Takes or makes the set of one pod. -/
def ensureStatefulSet (subject : Subject) (ns : String) (plan : Plan) :
    Attempt AccessError (Object .statefulSet) :=
  ensure (statefulSetKey ns) (statefulSet ns plan) subject EventReason.provisionedStatefulSet
    "Provisioned image store stateful set"

/-- Takes or makes the service in front of a set. -/
def ensureService (subject : Subject) (ns : String) (owner : Object .statefulSet) :
    Attempt AccessError (Object .service) :=
  ensure (serviceKey ns) (service ns owner) subject EventReason.provisionedService
    "Provisioned image store service"

/-! ### Readiness -/

/-- How many pods of a set are ready. -/
def readyReplicas (o : Object .statefulSet) : Int :=
  (o.status.bind (·.readyReplicas)).getD 0

/-- Whether the one pod is ready. -/
def isStatefulSetReady (o : Object .statefulSet) : Bool := readyReplicas o = replicas

/-- Whether a service has an address. -/
def isServiceReady (o : Object .service) : Bool :=
  match o.spec.bind (·.clusterIp) with
  | some ip => ip != ""
  | none => false

/-- Looks whether the set is ready, and reports if it has to be waited for. -/
def statefulSetReady (subject : Subject) (ns : String) : Attempt AccessError Bool := do
  match ← Objects.find? .statefulSet (statefulSetKey ns) with
  | none => pure false
  | some o =>
    if isStatefulSetReady o then pure true
    else
      .always (report subject EventReason.waitingForStatefulSet
        "Waiting for image store stateful set to be ready")
      pure false

/-- Looks whether the service is ready, and reports if it has to be waited for. -/
def serviceReady (subject : Subject) (ns : String) : Attempt AccessError Bool := do
  match ← Objects.find? .service (serviceKey ns) with
  | none => pure false
  | some o =>
    if isServiceReady o then pure true
    else
      .always (report subject EventReason.waitingForService
        "Waiting for image store service to become ready")
      pure false

end ModelKeeper.ImageStore
