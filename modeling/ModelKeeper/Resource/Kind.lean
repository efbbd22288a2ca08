import ModelKeeper.Resource.Llm
import ModelKeeper.Resource.Model
import ModelKeeper.Resource.Prompt
import ModelKeeper.Resource.Worker
import ModelKeeper.Resource.Workload
import ModelKeeper.Resource.WorkloadStatus

/-!
# Kinds of objects

The kinds of objects that the operator handles, with their names in the interface of the cluster and
the types of what is wanted (`Kind.Spec`) and of what is the case (`Kind.Status`).
-/

namespace ModelKeeper

/-- A kind of objects. -/
inductive Kind where
  | llm
  | model
  | prompt
  | worker
  | configMap
  | secret
  | claim
  | service
  | statefulSet
  deriving DecidableEq, Repr

namespace Kind

/-- Every kind. -/
def all : List Kind :=
  [.llm, .model, .prompt, .worker, .configMap, .secret, .claim, .service, .statefulSet]

/-- The name of a kind. -/
def name : Kind → String
  | .llm => "LLM"
  | .model => "Model"
  | .prompt => "Prompt"
  | .worker => "Worker"
  | .configMap => "ConfigMap"
  | .secret => "Secret"
  | .claim => "PersistentVolumeClaim"
  | .service => "Service"
  | .statefulSet => "StatefulSet"

/-- The kind with a name. -/
def ofName? (s : String) : Option Kind := all.find? (fun k => k.name = s)

/-- Whether the operator defines the kind itself. -/
def isCustom : Kind → Bool
  | .llm | .model | .prompt | .worker => true
  | _ => false

/-- The group of a kind; the core kinds have none. -/
def group? : Kind → Option String
  | .llm | .prompt | .worker => some "base.fleezesd.io"
  | .model => some "llm.fleezesd.io"
  | .statefulSet => some "apps"
  | _ => none

/-- The version of a kind within its group. -/
def version (k : Kind) : String := if k.isCustom then "v1alpha1" else "v1"

/-- The group and version of a kind. -/
def apiVersion (k : Kind) : String :=
  match k.group? with
  | some g => g ++ "/" ++ k.version
  | none => k.version

/-- The name for several objects of a kind. -/
def plural : Kind → String
  | .llm => "llms"
  | .model => "models"
  | .prompt => "prompts"
  | .worker => "workers"
  | .configMap => "configmaps"
  | .secret => "secrets"
  | .claim => "persistentvolumeclaims"
  | .service => "services"
  | .statefulSet => "statefulsets"

/-- What is wanted of an object; for a configuration or a secret, its content. -/
@[reducible]
def Spec : Kind → Type
  | .llm => LlmSpec
  | .model => ModelSpec
  | .prompt => PromptSpec
  | .worker => WorkerSpec
  | .configMap => ConfigMapContent
  | .secret => SecretContent
  | .claim => Option ClaimSpec
  | .service => Option ServiceSpec
  | .statefulSet => Option StatefulSetSpec

/-- What is the case with an object; nothing is recorded of configurations and secrets. -/
@[reducible]
def Status : Kind → Type
  | .llm => LlmStatus
  | .model => ModelStatus
  | .prompt => PromptStatus
  | .worker => WorkerStatus
  | .claim => ClaimStatus
  | .service => ServiceStatus
  | .statefulSet => StatefulSetStatus
  | .configMap | .secret => Empty

instance : (k : Kind) → DecidableEq k.Spec
  | .llm => inferInstanceAs (DecidableEq LlmSpec)
  | .model => inferInstanceAs (DecidableEq ModelSpec)
  | .prompt => inferInstanceAs (DecidableEq PromptSpec)
  | .worker => inferInstanceAs (DecidableEq WorkerSpec)
  | .configMap => inferInstanceAs (DecidableEq ConfigMapContent)
  | .secret => inferInstanceAs (DecidableEq SecretContent)
  | .claim => inferInstanceAs (DecidableEq (Option ClaimSpec))
  | .service => inferInstanceAs (DecidableEq (Option ServiceSpec))
  | .statefulSet => inferInstanceAs (DecidableEq (Option StatefulSetSpec))

instance : (k : Kind) → DecidableEq k.Status
  | .llm => inferInstanceAs (DecidableEq LlmStatus)
  | .model => inferInstanceAs (DecidableEq ModelStatus)
  | .prompt => inferInstanceAs (DecidableEq PromptStatus)
  | .worker => inferInstanceAs (DecidableEq WorkerStatus)
  | .claim => inferInstanceAs (DecidableEq ClaimStatus)
  | .service => inferInstanceAs (DecidableEq ServiceStatus)
  | .statefulSet => inferInstanceAs (DecidableEq StatefulSetStatus)
  | .configMap | .secret => inferInstanceAs (DecidableEq Empty)

end Kind

end ModelKeeper
