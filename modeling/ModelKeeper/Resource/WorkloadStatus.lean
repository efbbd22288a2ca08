import ModelKeeper.Resource.Environment

/-!
# What the cluster reports of workloads

The statuses of sets of pods, of services and of claims to storage, as the cluster fills them in.
The operator reads the counts of a set, and leaves the rest as it is.
-/

namespace ModelKeeper

/-- A fact about a set of pods. -/
structure StatefulSetCondition where
  lastTransition : Option Stamp := none
  message : Option String := none
  reason : Option String := none
  status : String := ""
  type : String := ""
  deriving DecidableEq

/-- How many pods of a set there are. -/
structure StatefulSetStatus where
  replicas : Int := 0
  readyReplicas : Option Int := none
  availableReplicas : Option Int := none
  /-- How many pods are of the revision from before the present roll-out. -/
  currentReplicas : Option Int := none
  currentRevision : Option String := none
  /-- How many pods are of the revision of the present roll-out. -/
  updatedReplicas : Option Int := none
  updateRevision : Option String := none
  /-- Counts the names that were taken when a revision was to be recorded. -/
  collisionCount : Option Int := none
  observedGeneration : Option Int := none
  conditions : Option (List StatefulSetCondition) := none
  deriving DecidableEq

/-- A port of a load balancer. -/
structure PortStatus where
  error : Option String := none
  port : Int := 0
  protocol : String := ""
  deriving DecidableEq

/-- A place where a load balancer takes requests. -/
structure LoadBalancerIngress where
  hostname : Option String := none
  ip : Option String := none
  ipMode : Option String := none
  ports : Option (List PortStatus) := none
  deriving DecidableEq

/-- The places where a load balancer takes requests. -/
structure LoadBalancerStatus where
  ingress : Option (List LoadBalancerIngress) := none
  deriving DecidableEq

/-- A fact about a service. -/
structure ServiceCondition where
  lastTransition : Stamp := .ofSeconds 0
  message : String := ""
  observedGeneration : Option Int := none
  reason : String := ""
  status : String := ""
  type : String := ""
  deriving DecidableEq

/-- What is the case with a service. -/
structure ServiceStatus where
  conditions : Option (List ServiceCondition) := none
  loadBalancer : Option LoadBalancerStatus := none
  deriving DecidableEq

/-- A fact about a claim. -/
structure ClaimCondition where
  lastProbe : Option Stamp := none
  lastTransition : Option Stamp := none
  message : Option String := none
  reason : Option String := none
  status : String := ""
  type : String := ""
  deriving DecidableEq

/-- A change of the attributes of a volume that is under way. -/
structure ModifyVolumeStatus where
  status : String := ""
  /-- The name of the class with the attributes to come. -/
  target : Option String := none
  deriving DecidableEq

/-- What is the case with a claim to storage. -/
structure ClaimStatus where
  accessModes : Option (List String) := none
  allocatedResourceStatuses : Option (Dict String) := none
  allocatedResources : Option (Dict String) := none
  capacity : Option (Dict String) := none
  conditions : Option (List ClaimCondition) := none
  /-- The name of the class with the attributes of the volume. -/
  attributesClass : Option String := none
  modifyVolume : Option ModifyVolumeStatus := none
  phase : Option String := none
  deriving DecidableEq

/-! ### Codecs -/

def StatefulSetCondition.codec : Codec StatefulSetCondition :=
  .lenient "StatefulSetCondition"
    (.cons (.optional "lastTransitionTime" Stamp.codec) <|
      .cons (.optional "message" .string) <|
      .cons (.optional "reason" .string) <|
      .cons (.withDefault "status" .string "") <|
      .cons (.withDefault "type" .string "") .nil)
    (fun c => (c.lastTransition, c.message, c.reason, c.status, c.type, ()))
    (fun (lastTransition, message, reason, status, type, ()) =>
      ⟨lastTransition, message, reason, status, type⟩)

def StatefulSetStatus.codec : Codec StatefulSetStatus :=
  .lenient "StatefulSetStatus"
    (.cons (.optional "availableReplicas" .int32) <|
      .cons (.optional "collisionCount" .int32) <|
      .cons (.optional "conditions" (.list StatefulSetCondition.codec)) <|
      .cons (.optional "currentReplicas" .int32) <|
      .cons (.optional "currentRevision" .string) <|
      .cons (.optional "observedGeneration" .int64) <|
      .cons (.optional "readyReplicas" .int32) <|
      .cons (.withDefault "replicas" .int32 0) <|
      .cons (.optional "updateRevision" .string) <|
      .cons (.optional "updatedReplicas" .int32) .nil)
    (fun s => (s.availableReplicas, s.collisionCount, s.conditions, s.currentReplicas,
      s.currentRevision, s.observedGeneration, s.readyReplicas, s.replicas, s.updateRevision,
      s.updatedReplicas, ()))
    (fun (availableReplicas, collisionCount, conditions, currentReplicas, currentRevision,
        observedGeneration, readyReplicas, replicas, updateRevision, updatedReplicas, ()) =>
      { replicas, readyReplicas, availableReplicas, currentReplicas, currentRevision,
        updatedReplicas, updateRevision, collisionCount, observedGeneration, conditions })

def PortStatus.codec : Codec PortStatus :=
  .lenient "PortStatus"
    (.cons (.optional "error" .string) <|
      .cons (.withDefault "port" .int32 0) <|
      .cons (.withDefault "protocol" .string "") .nil)
    (fun p => (p.error, p.port, p.protocol, ()))
    (fun (error, port, protocol, ()) => ⟨error, port, protocol⟩)

def LoadBalancerIngress.codec : Codec LoadBalancerIngress :=
  .lenient "LoadBalancerIngress"
    (.cons (.optional "hostname" .string) <|
      .cons (.optional "ip" .string) <|
      .cons (.optional "ipMode" .string) <|
      .cons (.optional "ports" (.list PortStatus.codec)) .nil)
    (fun i => (i.hostname, i.ip, i.ipMode, i.ports, ()))
    (fun (hostname, ip, ipMode, ports, ()) => ⟨hostname, ip, ipMode, ports⟩)

def LoadBalancerStatus.codec : Codec LoadBalancerStatus :=
  .lenient "LoadBalancerStatus"
    (.cons (.optional "ingress" (.list LoadBalancerIngress.codec)) .nil)
    (fun s => (s.ingress, ()))
    (fun (ingress, ()) => ⟨ingress⟩)

def ServiceCondition.codec : Codec ServiceCondition :=
  .lenient "Condition"
    (.cons (.withDefault "lastTransitionTime" Stamp.codec (.ofSeconds 0)) <|
      .cons (.withDefault "message" .string "") <|
      .cons (.optional "observedGeneration" .int64) <|
      .cons (.withDefault "reason" .string "") <|
      .cons (.withDefault "status" .string "") <|
      .cons (.withDefault "type" .string "") .nil)
    (fun c => (c.lastTransition, c.message, c.observedGeneration, c.reason, c.status, c.type, ()))
    (fun (lastTransition, message, observedGeneration, reason, status, type, ()) =>
      ⟨lastTransition, message, observedGeneration, reason, status, type⟩)

def ServiceStatus.codec : Codec ServiceStatus :=
  .lenient "ServiceStatus"
    (.cons (.optional "conditions" (.list ServiceCondition.codec)) <|
      .cons (.optional "loadBalancer" LoadBalancerStatus.codec) .nil)
    (fun s => (s.conditions, s.loadBalancer, ()))
    (fun (conditions, loadBalancer, ()) => ⟨conditions, loadBalancer⟩)

def ClaimCondition.codec : Codec ClaimCondition :=
  .lenient "PersistentVolumeClaimCondition"
    (.cons (.optional "lastProbeTime" Stamp.codec) <|
      .cons (.optional "lastTransitionTime" Stamp.codec) <|
      .cons (.optional "message" .string) <|
      .cons (.optional "reason" .string) <|
      .cons (.withDefault "status" .string "") <|
      .cons (.withDefault "type" .string "") .nil)
    (fun c => (c.lastProbe, c.lastTransition, c.message, c.reason, c.status, c.type, ()))
    (fun (lastProbe, lastTransition, message, reason, status, type, ()) =>
      ⟨lastProbe, lastTransition, message, reason, status, type⟩)

def ModifyVolumeStatus.codec : Codec ModifyVolumeStatus :=
  .lenient "ModifyVolumeStatus"
    (.cons (.withDefault "status" .string "") <|
      .cons (.optional "targetVolumeAttributesClassName" .string) .nil)
    (fun s => (s.status, s.target, ()))
    (fun (status, target, ()) => ⟨status, target⟩)

def ClaimStatus.codec : Codec ClaimStatus :=
  .lenient "PersistentVolumeClaimStatus"
    (.cons (.optional "accessModes" (.list .string)) <|
      .cons (.optional "allocatedResourceStatuses" (.dict .string)) <|
      .cons (.optional "allocatedResources" (.dict Quantity.codec)) <|
      .cons (.optional "capacity" (.dict Quantity.codec)) <|
      .cons (.optional "conditions" (.list ClaimCondition.codec)) <|
      .cons (.optional "currentVolumeAttributesClassName" .string) <|
      .cons (.optional "modifyVolumeStatus" ModifyVolumeStatus.codec) <|
      .cons (.optional "phase" .string) .nil)
    (fun s => (s.accessModes, s.allocatedResourceStatuses, s.allocatedResources, s.capacity,
      s.conditions, s.attributesClass, s.modifyVolume, s.phase, ()))
    (fun (accessModes, allocatedResourceStatuses, allocatedResources, capacity, conditions,
        attributesClass, modifyVolume, phase, ()) =>
      ⟨accessModes, allocatedResourceStatuses, allocatedResources, capacity, conditions,
        attributesClass, modifyVolume, phase⟩)

end ModelKeeper
