import ModelKeeper.Resource.Kind
import ModelKeeper.Schema.Basic

/-!
# Definitions of the operator's own kinds

A cluster learns about a new kind from a definition: its names, the columns in which its objects are
listed, and the schema of its objects.  `Definition.toJson` gives the definition of each of the four
kinds that the operator brings along.
-/

namespace ModelKeeper

/-- A kind that the operator brings along. -/
inductive CustomKind where
  | llm
  | model
  | prompt
  | worker
  deriving DecidableEq, Repr

namespace CustomKind

/-- Every kind, in the order in which they are to be installed. -/
def all : List CustomKind := [.llm, .model, .prompt, .worker]

/-- The kind among all others. -/
def kind : CustomKind → Kind
  | .llm => .llm
  | .model => .model
  | .prompt => .prompt
  | .worker => .worker

/-- The kind with a name. -/
def ofName? (s : String) : Option CustomKind := all.find? (fun c => c.kind.name = s)

/-- The name of the type of the objects. -/
def typeName : CustomKind → String
  | .llm => "Llm"
  | .model => "Model"
  | .prompt => "Prompt"
  | .worker => "Worker"

/-- The name for one object. -/
def singular : CustomKind → String
  | .llm => "llm"
  | .model => "model"
  | .prompt => "prompt"
  | .worker => "worker"

/-- Short names. -/
def shortNames : CustomKind → List String
  | .llm => ["llm"]
  | _ => []

/-- The group of the kind. -/
def group (c : CustomKind) : String := c.kind.group?.getD ""

/-- The name of the definition. -/
def definitionName (c : CustomKind) : String := c.kind.plural ++ "." ++ c.group

end CustomKind

namespace Schema

/-! ### The cluster's own types -/

def localReference : Schema :=
  object [("apiGroup", string), ("kind", string), ("name", string)] ["kind", "name"]

def typedReference : Schema :=
  object [("apiGroup", string), ("kind", string), ("name", string), ("namespace", string)]
    ["kind", "name"]

def nameReference : Schema := object [("name", string)] ["name"]

def keyReference : Schema :=
  object [("key", string), ("name", string), ("optional", boolean)] ["key", "name"]

def sourceReference : Schema := object [("name", string), ("optional", boolean)] ["name"]

def envFromSource : Schema :=
  object [("configMapRef", sourceReference), ("prefix", string), ("secretRef", sourceReference)] []

def envVarSource : Schema :=
  object
    [("configMapKeyRef", keyReference),
      ("fieldRef", object [("apiVersion", string), ("fieldPath", string)] ["fieldPath"]),
      ("resourceFieldRef",
        object [("containerName", string), ("divisor", string), ("resource", string)]
          ["resource"]),
      ("secretKeyRef", keyReference)] []

def envVar : Schema :=
  object [("name", string), ("value", string), ("valueFrom", envVarSource)] ["name"]

def resourceRequirements : Schema :=
  object
    [("claims", list (object [("name", string)] ["name"])), ("limits", dict string),
      ("requests", dict string)] []

/-! ### Shared parts -/

def condition : Schema :=
  object
    [("lastSuccessfulTime",
        string.orNull.about "Last time the condition reported success (RFC3339)"),
      ("lastTransitionTime", string.orNull.about "Last time the condition transitioned (RFC3339)"),
      ("message", string.orElse (.str "")),
      ("reason", string.orElse (.str "")),
      ("status", choice ["True", "False", "Unknown"]),
      ("type",
        (choice ["Ready", "Done", "Available", "Progressing", "ReplicaFailure", "Unknown"]).about
          "Kind of fact a condition records")]
    ["status", "type"]
  |>.about ("A typed, timestamped status fact\n\n" ++
    "The `Default` value is the sentinel returned when no condition of the\n" ++
    "requested type exists.")

def conditions : Schema := (list condition).orElse (.arr [])

def endpoint : Schema :=
  object
    [("authSecret",
        localReference.orNull.about
          "Secret in the same namespace whose `apiKey` holds the credential"),
      ("insecure", (boolean.orElse (.bool false)).about "Skip TLS verification"),
      ("internalURL",
        string.orNull.about "URL reachable from inside the cluster, when different from `url`"),
      ("url", string.about "Base URL of the provider API (e.g. `https://api.openai.com/v1`)")]
    ["url"]
  |>.about "External HTTP endpoint of a provider"

def message : Schema :=
  object
    [("content", string.orElse (.str "")),
      ("role", (choice ["user", "assistant"]).orElse (.str "user"))] []
  |>.about "One turn of the conversation"

def params : Schema :=
  object
    [("incremental", boolean),
      ("method", string.orNull.about "Invocation method"),
      ("model", string.about "Model used for this call"),
      ("prompt", ((list message).orElse (.arr [])).about "Conversation sent to the model"),
      ("task_id", string.orNull.about "Task id of an asynchronous invocation"),
      ("temperature", float.orNull),
      ("top_p", float.orNull)] []

/-! ### What is wanted of each kind, and what is the case -/

def llmSpec : Schema :=
  object
    [("endpoint", endpoint.orNull),
      ("models",
        (list string).about "Models to validate; defaults to the provider's well-known models"),
      ("type", (string.orElse (.str "")).about "Provider implementation (`openai`, `deepseek`)"),
      ("worker", typedReference.orNull)] []
  |>.about "Wire shape of the provider reference"

def modelSpec : Schema :=
  object
    [("extraEnv", list envVar),
      ("extraEnvFrom", list envFromSource),
      ("image", (string.orElse (.str "")).about "Model image name"),
      ("imagePullPolicy", string.orNull.about "One of Always, Never, IfNotPresent"),
      ("imagePullSecrets", list nameReference),
      ("persistentVolume",
        (object
          [("accessMode",
            string.orNull.about "ReadWriteOnce, ReadOnlyMany, ReadWriteMany or ReadWriteOncePod")]
          []).orNull),
      ("replicas", int32.orNull.about "Desired pods; defaults to 1"),
      ("resources", resourceRequirements.orNull),
      ("runtimeClass", string.orNull),
      ("storageClassName", string.orNull.about "StorageClass for the image store claim")] []

def promptSpec : Schema :=
  object
    [("llm", typedReference.orNull.about "The `LLM` to call"),
      ("openAIParams", params.orNull.about "Parameters for OpenAI-compatible providers")] []

def workerSpec : Schema :=
  object
    [("model", typedReference.orNull.about "Model served by this worker"),
      ("replicas", int32.orNull)] []

def conditionsOnly : Schema := object [("conditions", conditions)] []

def modelStatus : Schema :=
  let count := int32.orElse (.int 0)
  object
    [("availableReplicas", count), ("conditions", conditions), ("readyReplicas", count),
      ("replicas", count), ("unavailableReplicas", count)] []

def promptStatus : Schema :=
  object
    [("conditions", conditions),
      ("data", string.orNull.about "Provider response, base64-encoded"),
      ("observedGeneration",
        int64.orNull.about "Generation the `Done` condition was computed for")] []

end Schema

/-- A column in which objects are listed. -/
structure Column where
  name : String
  path : String

namespace Definition

/-- The schema of what is wanted. -/
def spec : CustomKind → Schema
  | .llm => .llmSpec
  | .model => .modelSpec
  | .prompt => .promptSpec
  | .worker => .workerSpec

/-- The schema of what is the case. -/
def status : CustomKind → Schema
  | .llm => .conditionsOnly
  | .model => .modelStatus
  | .prompt => .promptStatus
  | .worker => .conditionsOnly

/-- The path to the status of a condition. -/
def conditionPath (type : String) : String :=
  ".status.conditions[?(@.type==\"" ++ type ++ "\")].status"

/-- The columns in which objects are listed. -/
def columns : CustomKind → List Column
  | .llm =>
    [⟨"Type", ".spec.type"⟩, ⟨"Provider", ".metadata.labels.base\\.fleezesd\\.io/provider"⟩,
      ⟨"Ready", conditionPath "Ready"⟩]
  | .model => [⟨"Model", ".spec.image"⟩, ⟨"Status", ".status.conditions[0].type"⟩]
  | .prompt => [⟨"LLM", ".spec.llm.name"⟩, ⟨"Done", conditionPath "Done"⟩]
  | .worker => [⟨"Ready", conditionPath "Ready"⟩]

/-- The schema of objects. -/
def schema (c : CustomKind) : Json :=
  let s := Schema.object [("spec", spec c), ("status", (status c).orNull)] ["spec"]
    |>.about s!"Auto-generated derived type for {c.typeName}Spec via `CustomResource`"
  s.toJson.set "title" (.str c.typeName)

/-- The one version of a kind. -/
def version (c : CustomKind) : Json :=
  let column (x : Column) : Json :=
    .obj [("jsonPath", .str x.path), ("name", .str x.name), ("type", .str "string")]
  .obj
    [("additionalPrinterColumns", .arr ((columns c).map column)),
      ("name", .str c.kind.version),
      ("schema", .obj [("openAPIV3Schema", schema c)]),
      ("served", .bool true),
      ("storage", .bool true),
      ("subresources", .obj [("status", .obj [])])]

/-- The names of a kind. -/
def names (c : CustomKind) : Json :=
  .obj
    [("categories", .arr []),
      ("kind", .str c.kind.name),
      ("plural", .str c.kind.plural),
      ("shortNames", .arr (c.shortNames.map .str)),
      ("singular", .str c.singular)]

/-- The definition of a kind. -/
def toJson (c : CustomKind) : Json :=
  .obj
    [("apiVersion", .str "apiextensions.k8s.io/v1"),
      ("kind", .str "CustomResourceDefinition"),
      ("metadata", .obj [("name", .str c.definitionName)]),
      ("spec", .obj
        [("group", .str c.group),
          ("names", names c),
          ("scope", .str "Namespaced"),
          ("versions", .arr [version c])])]

/-- The lines with which the definition begins when it is written as a document of a stream. -/
def heading (c : CustomKind) : List String :=
  ["apiVersion: apiextensions.k8s.io/v1", "kind: CustomResourceDefinition", "metadata:",
    "  name: " ++ c.definitionName, "spec:"]

end Definition

end ModelKeeper
