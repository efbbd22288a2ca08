import ModelKeeper.Chat.Error
import ModelKeeper.Resource.Condition
import ModelKeeper.Resource.Provider

/-!
# Language models

A language model that is served by a provider.
-/

namespace ModelKeeper

/-- A language model as it is wanted. -/
structure LlmSpec where
  /-- The name of the vendor. -/
  type : String := ""
  provider : ProviderSpec := {}
  /-- The models to try. -/
  models : List String := []
  deriving DecidableEq

/-- What is known about a language model. -/
structure LlmStatus where
  conditions : Conditions := []
  deriving DecidableEq

namespace LlmSpec

/-- The vendor, if the type names one. -/
def vendor (s : LlmSpec) : Except ChatError Vendor := Vendor.ofName s.type

/-- The models to try: those listed, or else those that the vendor is known for. -/
def modelsToTry (s : LlmSpec) : List String :=
  if s.models.isEmpty then
    match s.vendor with
    | .ok v => v.defaultModels
    | .error _ => []
  else s.models

/-- The provider's fields stand among the others, two levels deep in an object. -/
def codec : Codec LlmSpec :=
  .nested "LlmSpec" ["type", "models"] (Draft.depthLimit - 2)
    (.cons (.withDefault "type" .string "") <|
      .cons ProviderSpec.endpointField <|
      .cons ProviderSpec.workerField <|
      .cons (.unlessEmpty "models" .string) .nil)
    (fun s => (s.type, s.provider.endpoint, s.provider.worker, s.models, ()))
    (fun (type, endpoint, worker, models, ()) => ⟨type, ⟨endpoint, worker⟩, models⟩)

end LlmSpec

def LlmStatus.codec : Codec LlmStatus :=
  .record "LlmStatus"
    (.cons (.withDefault "conditions" (.list Condition.codec) []) .nil)
    (fun s => (s.conditions, ()))
    (fun (conditions, ()) => ⟨conditions⟩)

end ModelKeeper
