import ModelKeeper.Resource.Condition
import ModelKeeper.Resource.Environment

/-!
# Models

A model that is served from the image store of its namespace.
-/

namespace ModelKeeper

/-- The volume of a model. -/
structure ModelVolume where
  accessMode : Option String := none
  deriving DecidableEq

/-- A model as it is wanted. -/
structure ModelSpec where
  replicas : Option Int := none
  image : String := ""
  imagePullPolicy : Option String := none
  imagePullSecrets : List NameReference := []
  resources : Option ResourceRequirements := none
  storageClass : Option String := none
  volume : Option ModelVolume := none
  runtimeClass : Option String := none
  extraEnvFrom : List EnvFromSource := []
  extraEnv : List EnvVar := []
  deriving DecidableEq

/-- What is known about a model. -/
structure ModelStatus where
  replicas : Int := 0
  readyReplicas : Int := 0
  availableReplicas : Int := 0
  unavailableReplicas : Int := 0
  conditions : Conditions := []
  deriving DecidableEq

def ModelVolume.codec : Codec ModelVolume :=
  .record "ModelPersistentVolumeSpec"
    (.cons (.optional "accessMode" .string) .nil)
    (fun v => (v.accessMode, ()))
    (fun (accessMode, ()) => ⟨accessMode⟩)

namespace ModelSpec

/-- The access mode of the volume, if one is named. -/
def accessMode? (s : ModelSpec) : Option String :=
  (s.volume.bind (·.accessMode)).filter (· != "")

def codec : Codec ModelSpec :=
  .record "ModelSpec"
    (.cons (.optional "replicas" .int32) <|
      .cons (.withDefault "image" .string "") <|
      .cons (.optional "imagePullPolicy" .string) <|
      .cons (.unlessEmpty "imagePullSecrets" NameReference.codec) <|
      .cons (.optional "resources" ResourceRequirements.codec) <|
      .cons (.optional "storageClassName" .string) <|
      .cons (.optional "persistentVolume" ModelVolume.codec) <|
      .cons (.optional "runtimeClass" .string) <|
      .cons (.unlessEmpty "extraEnvFrom" EnvFromSource.codec) <|
      .cons (.unlessEmpty "extraEnv" EnvVar.codec) .nil)
    (fun s => (s.replicas, s.image, s.imagePullPolicy, s.imagePullSecrets, s.resources,
      s.storageClass, s.volume, s.runtimeClass, s.extraEnvFrom, s.extraEnv, ()))
    (fun (replicas, image, imagePullPolicy, imagePullSecrets, resources, storageClass, volume,
        runtimeClass, extraEnvFrom, extraEnv, ()) =>
      { replicas, image, imagePullPolicy, imagePullSecrets, resources, storageClass, volume,
        runtimeClass, extraEnvFrom, extraEnv })

end ModelSpec

namespace ModelStatus

def codec : Codec ModelStatus :=
  .record "ModelStatus"
    (.cons (.withDefault "replicas" .int32 0) <|
      .cons (.withDefault "readyReplicas" .int32 0) <|
      .cons (.withDefault "availableReplicas" .int32 0) <|
      .cons (.withDefault "unavailableReplicas" .int32 0) <|
      .cons (.withDefault "conditions" (.list Condition.codec) []) .nil)
    (fun s => (s.replicas, s.readyReplicas, s.availableReplicas, s.unavailableReplicas,
      s.conditions, ()))
    (fun (replicas, readyReplicas, availableReplicas, unavailableReplicas, conditions, ()) =>
      ⟨replicas, readyReplicas, availableReplicas, unavailableReplicas, conditions⟩)

end ModelStatus

end ModelKeeper
