import ModelKeeper.Chat.Params
import ModelKeeper.Resource.Condition
import ModelKeeper.Resource.Metadata
import ModelKeeper.Text.Base64

/-!
# Prompts

A prompt that is sent once to a language model.  The answer is kept in the status, in base 64.
-/

namespace ModelKeeper

/-- A prompt as it is wanted. -/
structure PromptSpec where
  /-- The language model to ask. -/
  llm : Option TypedReference := none
  params : Option Params := none
  deriving DecidableEq

/-- What is known about a prompt. -/
structure PromptStatus where
  conditions : Conditions := []
  /-- The generation to which the `Done` condition belongs. -/
  observedGeneration : Option Int := none
  /-- The answer, in base 64. -/
  data : Option String := none
  deriving DecidableEq

def PromptSpec.codec : Codec PromptSpec :=
  .record "PromptSpec"
    (.cons (.optional "llm" TypedReference.codec) <|
      .cons (.optional "openAIParams" Params.codec) .nil)
    (fun s => (s.llm, s.params, ()))
    (fun (llm, params, ()) => ⟨llm, params⟩)

namespace PromptStatus

def codec : Codec PromptStatus :=
  .record "PromptStatus"
    (.cons (.withDefault "conditions" (.list Condition.codec) []) <|
      .cons (.optional "observedGeneration" .int64) <|
      .cons (.optional "data" .string) .nil)
    (fun s => (s.conditions, s.observedGeneration, s.data, ()))
    (fun (conditions, observedGeneration, data, ()) => ⟨conditions, observedGeneration, data⟩)

/-- The status with an answer. -/
def setData (s : PromptStatus) (bytes : List UInt8) : PromptStatus :=
  { s with data := some (String.ofList (Base64.encode bytes)) }

/-- The answer, if there is one that can be read. -/
def dataBytes? (s : PromptStatus) : Option (List UInt8) :=
  s.data.bind (fun d => Base64.decode? d.toList)

end PromptStatus

end ModelKeeper
