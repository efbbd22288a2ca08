import ModelKeeper.ImageStore.Container
import ModelKeeper.Operator.Settings
import ModelKeeper.Resource.Object

/-!
# The parts of the image store

The models of a namespace share one image store: a claim to storage, a set of one pod that mounts
it, and a service in front of the pod.  Here are these objects as they are when the operator makes
them.
-/

namespace ModelKeeper.ImageStore

def claimName : String := "ollama-models-store-pvc"
def statefulSetName : String := "ollama-models-store"
def serviceName : String := "ollama-models-store"

/-- The label that marks the parts of an image store. -/
def partLabel : String := "ollama.fleezesd.io"

/-- How many pods serve images. -/
def replicas : Int := 1

/-- How the storage is accessed if nothing is said. -/
def defaultAccessMode : String := "ReadWriteOnce"

/-- The labels of every part. -/
def labels : Dict String :=
  .ofList [("app", "ollama-image-store"), (partLabel, "image-store")]

/-- The annotations of a part. -/
def annotations (name : String) : Dict String := .ofList [(partLabel, name)]

/-- The metadata of a part. -/
def metadata (ns name : String) : Metadata where
  name := some name
  ns := some ns
  labels := some labels
  annotations := some (annotations name)

/-- What the parts of an image store depend on. -/
structure Plan where
  storageSize : String
  storageClass : Option String
  accessMode : Option String
  image : String
  extraEnvFrom : List EnvFromSource
  extraEnv : List EnvVar
  deriving DecidableEq

/-- The plan for the first model of a namespace: what the model says counts before the settings. -/
def Plan.forModel (spec : ModelSpec) (settings : Settings) : Plan where
  storageSize := settings.storageSize
  storageClass := spec.storageClass.filter (· != "") <|> settings.storageClass
  accessMode := spec.accessMode?
  image := settings.image
  extraEnvFrom := spec.extraEnvFrom
  extraEnv := spec.extraEnv

/-- The claim to storage. -/
def claim (ns : String) (plan : Plan) : Object .claim where
  metadata := metadata ns claimName
  spec := some
    { accessModes := some [plan.accessMode.getD defaultAccessMode]
      resources := some { requests := some (.ofList [("storage", plan.storageSize)]) }
      storageClass := plan.storageClass }

/-- The pod. -/
def pod (plan : Plan) : PodSpec where
  containers := [container plan.image false none plan.extraEnvFrom plan.extraEnv]
  restartPolicy := some "Always"
  volumes := some [⟨volumeName, some ⟨claimName, some false⟩⟩]

/-- The set of one pod. -/
def statefulSet (ns : String) (plan : Plan) : Object .statefulSet where
  metadata := metadata ns statefulSetName
  spec := some
    { replicas := some replicas
      matchLabels := some labels
      template :=
        { metadata := some
            { labels := some labels
              annotations := some (annotations statefulSetName) }
          spec := some (pod plan) } }

/-- The service in front of a set, which owns it. -/
def service (ns : String) (owner : Object .statefulSet) : Object .service where
  metadata :=
    { metadata ns serviceName with
      owners := some
        [{ apiVersion := "apps/v1"
           kind := "StatefulSet"
           name := owner.metadata.name.getD statefulSetName
           uid := owner.metadata.uid.getD ""
           blockOwnerDeletion := some true }] }
  spec := some
    { type := some "ClusterIP"
      ports := some [⟨some portName, port, some "TCP", some (.number port)⟩]
      selector := some labels }

end ModelKeeper.ImageStore
