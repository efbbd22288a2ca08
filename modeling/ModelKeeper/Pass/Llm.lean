import ModelKeeper.Pass.Basic

/-!
# The pass over a language model

An active language model carries the sort of its provider as a label.  Then the provider is checked:
an endpoint has to answer a trial request for every model, and a worker has to be ready.  The
outcome is recorded as the `Ready` condition.
-/

namespace ModelKeeper

/-- The label that shows the sort of the provider. -/
def providerLabel : String := "base.fleezesd.io/provider"

namespace Pass.Llm

/-- The language model with its label, and whether the label had to be set. -/
def label (type : ProviderType) (o : Object .llm) : Object .llm × Bool :=
  let labels := o.metadata.labels.getD .empty
  if labels.get? providerLabel = some type.name then (o, false)
  else
    let labels := some (labels.insert providerLabel type.name)
    ({ o with metadata := { o.metadata with labels } }, true)

/-- Sets the label of the stored language model if it differs, and says whether it did. -/
def normalizeLabel (settings : Settings) (o : Object .llm) : Attempt AccessError Bool := do
  let type := o.spec.provider.type
  if (o.metadata.labels.bind (·.get? providerLabel)) = some type.name then pure false
  else
    let key : Key := ⟨o.nsOrEmpty, o.nameOrEmpty⟩
    let _ ← amend .body .llm key settings.writeAttempts (fun _ => label type)
    pure true

/-- Tries the models one after the other, and collects what the vendor says. -/
def tryModels (c : Connection) : List String → Attempt Failure (List String)
  | [] => pure []
  | model :: models => do
    let reply ← (observed .validate (.of (.ask (.validate c [.model model])))).mapError Failure.chat
    let texts ← tryModels c models
    pure (reply.text :: texts)

/-- Checks an endpoint. -/
def checkEndpoint (o : Object .llm) (endpoint : Endpoint) : Attempt Failure String := do
  let apiKey ← (endpoint.apiKey o.nsOrEmpty).mapError Failure.auth
  let vendor ← (Attempt.of (pure o.spec.vendor)).mapError Failure.chat
  let models := o.spec.modelsToTry
  if models.isEmpty then
    throw (.configuration ("no models provided for llm type " ++ vendor.name))
  let c : Connection := ⟨vendor, apiKey, endpoint.baseUrl⟩
  (Attempt.of (.ask (.connect c))).mapError Failure.chat
  let texts ← tryModels c models
  pure ("\n".intercalate texts)

/-- Checks a worker. -/
def checkWorker (o : Object .llm) (reference : TypedReference) : Attempt Failure String := do
  match ← access (Objects.find? .worker ⟨o.nsOrEmpty, reference.name⟩) with
  | none => throw (.notReady s!"worker {reference.name} not found")
  | some worker =>
    let status : WorkerStatus := worker.status.getD {}
    if status.isOffline then throw (.notReady "worker is offline")
    if !status.isReady then throw (.notReady "worker is not ready")
    pure "worker is ready"

/-- Checks the provider. -/
def check (o : Object .llm) : Attempt Failure String :=
  match o.spec.provider.resolve with
  | .error e => throw (.provider e)
  | .ok (.thirdParty endpoint) => checkEndpoint o endpoint
  | .ok (.worker reference) => checkWorker o reference

/-- The language model with its next `Ready` condition, and whether it differs. -/
def recordReady (next : Condition → Condition) (o : Object .llm) : Object .llm × Bool :=
  let status : LlmStatus := o.status.getD {}
  let current := status.conditions.get .ready
  if next current = current then ({ o with status := some status }, false)
  else
    let conditions := status.conditions.set (next current)
    ({ o with status := some { status with conditions } }, true)

/-- Records the next `Ready` condition. -/
def persist (settings : Settings) (key : Key) (next : Condition → Condition) :
    Attempt AccessError Unit := do
  let _ ← amend .status .llm key settings.writeAttempts (fun _ => recordReady next)

/-- The work for an active language model. -/
def work (settings : Settings) (key : Key) (o : Object .llm) :
    Attempt Failure (Option Directive) := do
  if ← access (normalizeLabel settings o) then return some .immediate
  match ← (Attempt.always (check o).outcome : Attempt Failure _) with
  | .ok message =>
    let now ← .always (Program.ask .now)
    access (persist settings key (fun c => c.succeeded message now))
    return none
  | .error e =>
    let now ← .always (Program.ask .now)
    let _ ← .always (persist settings key (fun c => c.failed e.conditionMessage now)).outcome
    throw (e.withRequeue settings.intervals.medium)

/-- The pass over the language model under a key. -/
def run (settings : Settings) (key : Key) : Attempt Failure (Option Directive) :=
  frame settings key (work settings key)

end Pass.Llm

end ModelKeeper
