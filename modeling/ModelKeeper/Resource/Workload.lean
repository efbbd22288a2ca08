import ModelKeeper.Resource.Environment
import ModelKeeper.Text.Base64

/-!
# Workloads

What a model needs in the cluster to be served: a claim to storage, pods that are kept running as a
set, and a service in front of them; and the configurations and secrets they read.

Of what is wanted of these there are the parts that the operator fills in or looks at.
-/

namespace ModelKeeper

/-- A port, by its number or its name. -/
inductive PortReference where
  | number (n : Int)
  | name (s : String)
  deriving DecidableEq

/-- A port that a container opens. -/
structure ContainerPort where
  containerPort : Int := 0
  name : Option String := none
  protocol : Option String := none
  deriving DecidableEq

/-- Where a volume appears in a container. -/
structure VolumeMount where
  mountPath : String := ""
  name : String := ""
  readOnly : Option Bool := none
  deriving DecidableEq

/-- A request that shows whether a container is well. -/
structure HttpGet where
  path : Option String := none
  port : PortReference := .number 0
  deriving DecidableEq

/-- How and when to look whether a container is well. -/
structure Probe where
  failureThreshold : Option Int := none
  httpGet : Option HttpGet := none
  initialDelay : Option Int := none
  successThreshold : Option Int := none
  timeout : Option Int := none
  deriving DecidableEq

/-- A container of a pod. -/
structure Container where
  name : String := ""
  image : Option String := none
  args : Option (List String) := none
  ports : Option (List ContainerPort) := none
  envFrom : Option (List EnvFromSource) := none
  env : Option (List EnvVar) := none
  resources : Option ResourceRequirements := none
  volumeMounts : Option (List VolumeMount) := none
  livenessProbe : Option Probe := none
  readinessProbe : Option Probe := none
  deriving DecidableEq

/-- The claim that a volume stands for. -/
structure ClaimReference where
  claimName : String := ""
  readOnly : Option Bool := none
  deriving DecidableEq

/-- A volume of a pod. -/
structure Volume where
  name : String := ""
  claim : Option ClaimReference := none
  deriving DecidableEq

/-- What runs in a pod. -/
structure PodSpec where
  containers : List Container := []
  restartPolicy : Option String := none
  volumes : Option (List Volume) := none
  deriving DecidableEq

/-- The pods of a set. -/
structure PodTemplate where
  metadata : Option Metadata := none
  spec : Option PodSpec := none
  deriving DecidableEq

/-- A set of pods, each with storage of its own. -/
structure StatefulSetSpec where
  replicas : Option Int := none
  /-- The labels by which the set knows its pods. -/
  matchLabels : Option (Dict String) := none
  serviceName : Option String := none
  template : PodTemplate := {}
  deriving DecidableEq

/-- The storage that a claim asks for and may use. -/
structure StorageRequirements where
  limits : Option (Dict String) := none
  requests : Option (Dict String) := none
  deriving DecidableEq

/-- A claim to storage. -/
structure ClaimSpec where
  accessModes : Option (List String) := none
  resources : Option StorageRequirements := none
  storageClass : Option String := none
  deriving DecidableEq

/-- A port of a service. -/
structure ServicePort where
  name : Option String := none
  port : Int := 0
  protocol : Option String := none
  targetPort : Option PortReference := none
  deriving DecidableEq

/-- One address in front of many pods. -/
structure ServiceSpec where
  clusterIp : Option String := none
  ports : Option (List ServicePort) := none
  selector : Option (Dict String) := none
  type : Option String := none
  deriving DecidableEq

/-- The content of a configuration. -/
structure ConfigMapContent where
  data : Option (Dict String) := none
  deriving DecidableEq

/-- The content of a secret. -/
structure SecretContent where
  data : Option (Dict (List UInt8)) := none
  stringData : Option (Dict String) := none
  type : Option String := none
  deriving DecidableEq

/-! ### Codecs -/

/-- Bytes, in base 64.  For no bytes a null will do. -/
def Base64.codec : Codec (List UInt8) where
  write bytes := .str (String.ofList (Base64.encode bytes))
  read
    | .text (some s) =>
      match Base64.decode? s.toList with
      | some bytes => .ok bytes
      | none => .error (.mismatch (.invalidValue (.text s) "a base64-encoded string"))
    | .null => .ok []
    | d => d.mismatch "a base64-encoded string"

def PortReference.codec : Codec PortReference where
  write
    | .number n => .int n
    | .name s => .str s
  read
    | .text (some s) => .ok (.name s)
    | d => (Codec.int32.read d).map .number

def ContainerPort.codec : Codec ContainerPort :=
  .lenient "ContainerPort"
    (.cons (.withDefault "containerPort" .int32 0) <|
      .cons (.optional "name" .string) <|
      .cons (.optional "protocol" .string) .nil)
    (fun p => (p.containerPort, p.name, p.protocol, ()))
    (fun (containerPort, name, protocol, ()) => ⟨containerPort, name, protocol⟩)

def VolumeMount.codec : Codec VolumeMount :=
  .lenient "VolumeMount"
    (.cons (.withDefault "mountPath" .string "") <|
      .cons (.withDefault "name" .string "") <|
      .cons (.optional "readOnly" .bool) .nil)
    (fun m => (m.mountPath, m.name, m.readOnly, ()))
    (fun (mountPath, name, readOnly, ()) => ⟨mountPath, name, readOnly⟩)

def HttpGet.codec : Codec HttpGet :=
  .lenient "HTTPGetAction"
    (.cons (.optional "path" .string) <|
      .cons (.withDefault "port" PortReference.codec (.number 0)) .nil)
    (fun g => (g.path, g.port, ()))
    (fun (path, port, ()) => ⟨path, port⟩)

def Probe.codec : Codec Probe :=
  .lenient "Probe"
    (.cons (.optional "failureThreshold" .int32) <|
      .cons (.optional "httpGet" HttpGet.codec) <|
      .cons (.optional "initialDelaySeconds" .int32) <|
      .cons (.optional "successThreshold" .int32) <|
      .cons (.optional "timeoutSeconds" .int32) .nil)
    (fun p => (p.failureThreshold, p.httpGet, p.initialDelay, p.successThreshold, p.timeout, ()))
    (fun (failureThreshold, httpGet, initialDelay, successThreshold, timeout, ()) =>
      ⟨failureThreshold, httpGet, initialDelay, successThreshold, timeout⟩)

def Container.codec : Codec Container :=
  .lenient "Container"
    (.cons (.optional "args" (.list .string)) <|
      .cons (.optional "env" (.list EnvVar.codec)) <|
      .cons (.optional "envFrom" (.list EnvFromSource.codec)) <|
      .cons (.optional "image" .string) <|
      .cons (.optional "livenessProbe" Probe.codec) <|
      .cons (.withDefault "name" .string "") <|
      .cons (.optional "ports" (.list ContainerPort.codec)) <|
      .cons (.optional "readinessProbe" Probe.codec) <|
      .cons (.optional "resources" ResourceRequirements.codec) <|
      .cons (.optional "volumeMounts" (.list VolumeMount.codec)) .nil)
    (fun c => (c.args, c.env, c.envFrom, c.image, c.livenessProbe, c.name, c.ports,
      c.readinessProbe, c.resources, c.volumeMounts, ()))
    (fun (args, env, envFrom, image, livenessProbe, name, ports, readinessProbe, resources,
        volumeMounts, ()) =>
      { name, image, args, ports, envFrom, env, resources, volumeMounts, livenessProbe,
        readinessProbe })

def ClaimReference.codec : Codec ClaimReference :=
  .lenient "PersistentVolumeClaimVolumeSource"
    (.cons (.withDefault "claimName" .string "") <|
      .cons (.optional "readOnly" .bool) .nil)
    (fun r => (r.claimName, r.readOnly, ()))
    (fun (claimName, readOnly, ()) => ⟨claimName, readOnly⟩)

def Volume.codec : Codec Volume :=
  .lenient "Volume"
    (.cons (.withDefault "name" .string "") <|
      .cons (.optional "persistentVolumeClaim" ClaimReference.codec) .nil)
    (fun v => (v.name, v.claim, ()))
    (fun (name, claim, ()) => ⟨name, claim⟩)

def PodSpec.codec : Codec PodSpec :=
  .lenient "PodSpec"
    (.cons (.withDefault "containers" (.list Container.codec) []) <|
      .cons (.optional "restartPolicy" .string) <|
      .cons (.optional "volumes" (.list Volume.codec)) .nil)
    (fun s => (s.containers, s.restartPolicy, s.volumes, ()))
    (fun (containers, restartPolicy, volumes, ()) => ⟨containers, restartPolicy, volumes⟩)

def PodTemplate.codec : Codec PodTemplate :=
  .lenient "PodTemplateSpec"
    (.cons (.optional "metadata" Metadata.codec) <|
      .cons (.optional "spec" PodSpec.codec) .nil)
    (fun t => (t.metadata, t.spec, ()))
    (fun (metadata, spec, ()) => ⟨metadata, spec⟩)

/-- The labels of a selector, in an object of their own. -/
def StatefulSetSpec.selectorCodec : Codec (Option (Dict String)) :=
  .lenient "LabelSelector"
    (.cons (.optional "matchLabels" (.dict .string)) .nil)
    (fun labels => (labels, ()))
    (fun (labels, ()) => labels)

def StatefulSetSpec.codec : Codec StatefulSetSpec :=
  .lenient "StatefulSetSpec"
    (.cons (.optional "replicas" .int32) <|
      .cons (.withDefault "selector" StatefulSetSpec.selectorCodec none) <|
      .cons (.optional "serviceName" .string) <|
      .cons (.withDefault "template" PodTemplate.codec {}) .nil)
    (fun s => (s.replicas, s.matchLabels, s.serviceName, s.template, ()))
    (fun (replicas, matchLabels, serviceName, template, ()) =>
      ⟨replicas, matchLabels, serviceName, template⟩)

def StorageRequirements.codec : Codec StorageRequirements :=
  .lenient "VolumeResourceRequirements"
    (.cons (.optional "limits" (.dict Quantity.codec)) <|
      .cons (.optional "requests" (.dict Quantity.codec)) .nil)
    (fun r => (r.limits, r.requests, ()))
    (fun (limits, requests, ()) => ⟨limits, requests⟩)

def ClaimSpec.codec : Codec ClaimSpec :=
  .lenient "PersistentVolumeClaimSpec"
    (.cons (.optional "accessModes" (.list .string)) <|
      .cons (.optional "resources" StorageRequirements.codec) <|
      .cons (.optional "storageClassName" .string) .nil)
    (fun s => (s.accessModes, s.resources, s.storageClass, ()))
    (fun (accessModes, resources, storageClass, ()) => ⟨accessModes, resources, storageClass⟩)

def ServicePort.codec : Codec ServicePort :=
  .lenient "ServicePort"
    (.cons (.optional "name" .string) <|
      .cons (.withDefault "port" .int32 0) <|
      .cons (.optional "protocol" .string) <|
      .cons (.optional "targetPort" PortReference.codec) .nil)
    (fun p => (p.name, p.port, p.protocol, p.targetPort, ()))
    (fun (name, port, protocol, targetPort, ()) => ⟨name, port, protocol, targetPort⟩)

def ServiceSpec.codec : Codec ServiceSpec :=
  .lenient "ServiceSpec"
    (.cons (.optional "clusterIP" .string) <|
      .cons (.optional "ports" (.list ServicePort.codec)) <|
      .cons (.optional "selector" (.dict .string)) <|
      .cons (.optional "type" .string) .nil)
    (fun s => (s.clusterIp, s.ports, s.selector, s.type, ()))
    (fun (clusterIp, ports, selector, type, ()) => ⟨clusterIp, ports, selector, type⟩)

end ModelKeeper
