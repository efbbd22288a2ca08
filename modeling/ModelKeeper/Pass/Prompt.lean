import ModelKeeper.Pass.Basic

/-!
# The pass over a prompt

An active prompt is sent to its language model once for every generation.  A success is recorded as
`Done` together with the answer and the generation; a failure is recorded too, and the prompt is
sent again later.
-/

namespace ModelKeeper

/-- Whether the answer to what is wanted now has been recorded. -/
def Object.isProcessed (o : Object .prompt) : Bool :=
  match o.status with
  | none => false
  | some s =>
    (s.conditions.get .done).isTrue && s.observedGeneration.isSome &&
      s.observedGeneration = o.metadata.generation

namespace Pass.Prompt

/-- Sends a prompt to its language model. -/
def send (o : Object .prompt) : Attempt Failure (List UInt8) := do
  match o.spec.llm.filter (·.name != "") with
  | none => throw (.configuration "no llm configuration provider")
  | some reference =>
    let ns := o.nsOrEmpty
    let llm ← access (Objects.get .llm ⟨ns, reference.name⟩)
    match llm.spec.provider.resolve with
    | .error e => throw (.provider e)
    | .ok (.worker _) =>
      throw (.configuration s!"llm {reference.name} has no endpoint to send prompts to")
    | .ok (.thirdParty endpoint) =>
      let apiKey ← (endpoint.apiKey ns).mapError Failure.auth
      let vendor ← (Attempt.of (pure llm.spec.vendor)).mapError Failure.chat
      let c : Connection := ⟨vendor, apiKey, endpoint.baseUrl⟩
      (Attempt.of (.ask (.connect c))).mapError Failure.chat
      let params := o.spec.params.getD Params.default
      let reply ←
        (observed .call (.of (.ask (.call c params.marshal)))).mapError Failure.chat
      pure reply.bytes

/-- The prompt with the outcome of a generation recorded, and whether that was to be done: a failure
that is recorded already is not recorded again. -/
def record (generation : Option Int) (outcome : Except String (List UInt8)) (now : Instant)
    (o : Object .prompt) : Object .prompt × Bool :=
  let status : PromptStatus := o.status.getD {}
  let finish (status : PromptStatus) (done : Condition) : Object .prompt × Bool :=
    ({ o with
        status := some
          { status with
            conditions := status.conditions.set done
            observedGeneration := generation } }, true)
  match outcome with
  | .ok bytes =>
    finish (status.setData bytes)
      (Condition.now now .done .isTrue Reason.reconcileSuccess "Finished")
  | .error message =>
    let current := status.conditions.get .done
    if current.status = .isFalse ∧ current.reason = Reason.reconcileError ∧
        current.message = message ∧ status.observedGeneration = generation then
      ({ o with status := some status }, false)
    else finish status (Condition.now now .done .isFalse Reason.reconcileError message)

/-- Records the outcome of a generation. -/
def persist (settings : Settings) (key : Key) (generation : Option Int)
    (outcome : Except String (List UInt8)) : Attempt AccessError Unit := do
  let _ ← amend .status .prompt key settings.writeAttempts (record generation outcome)

/-- The work for an active prompt. -/
def work (settings : Settings) (key : Key) (o : Object .prompt) :
    Attempt Failure (Option Directive) := do
  if o.isProcessed then return some .done
  let generation := o.metadata.generation
  match ← (Attempt.always (send o).outcome : Attempt Failure _) with
  | .ok bytes =>
    access (persist settings key generation (.ok bytes))
    return some .done
  | .error e =>
    -- the failure of the work is what counts, whether or not it could be recorded
    let _ ← .always (persist settings key generation (.error e.conditionMessage)).outcome
    throw (e.withRequeue settings.intervals.medium)

/-- The pass over the prompt under a key. -/
def run (settings : Settings) (key : Key) : Attempt Failure (Option Directive) :=
  frame settings key (work settings key)

end Pass.Prompt

end ModelKeeper
