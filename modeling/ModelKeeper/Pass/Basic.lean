import ModelKeeper.Operator.Failure
import ModelKeeper.Operator.Finalizer
import ModelKeeper.Operator.Settings

/-!
# What all passes share

A pass over an object reads it, brings it on its way (`advance`) and, if it is active, does the work
for its kind.  This module holds the frame of a pass, the requests to vendors with their counts, and
the way to the key of an endpoint.
-/

namespace ModelKeeper

/-- The finalizer of a kind of the operator's own. -/
def Kind.finalizer : Kind → String
  | .model => "llm.fleezesd.io/finalizer"
  | _ => "base.fleezesd.io/finalizer"

namespace Pass

/-- An access that fails the pass if it fails. -/
def access {α : Type} (p : Attempt AccessError α) : Attempt Failure α := p.mapError .access

/-- The frame of a pass: the work is done for an active object only. -/
def frame {k : Kind} (settings : Settings) (key : Key)
    (work : Object k → Attempt Failure (Option Directive)) :
    Attempt Failure (Option Directive) := do
  match ← access (Objects.find? k key) with
  | none => pure (some .done)
  | some o =>
    match ← access (advance o k.finalizer settings.writeAttempts) with
    | some d => pure (some d)
    | none => work o

/-- A request to a vendor, counted together with its failure. -/
def observed {α : Type} (operation : Operation) (p : Attempt ChatError α) : Attempt ChatError α :=
  .of do
    Program.ask (.count (.llmRequests operation))
    let result ← p.outcome
    Program.ask (.count (.llmRequestDuration operation))
    match result with
    | .ok a => pure (.ok a)
    | .error e =>
      Program.ask (.count (.llmRequestErrors operation))
      pure (.error e)

end Pass

/-- The entry of a secret that holds the key of an endpoint. -/
def apiKeyEntry : String := "apiKey"

/-- The key in a secret. -/
def Object.apiKey (secret : Object .secret) (name : String) : Except AuthError String :=
  match secret.spec.data.bind (·.get? apiKeyEntry) with
  | none => .error (.emptyKey name)
  | some [] => .error (.emptyKey name)
  | some bytes =>
    match Utf8.decode? bytes with
    | some key => .ok key
    | none => .error (.invalidKey name)

/-- The key of an endpoint, from the secret that it names. -/
def Endpoint.apiKey (e : Endpoint) (ns : String) : Attempt AuthError String :=
  .of do
    match e.secretName? with
    | none => pure (.error .missingSecretRef)
    | some name =>
      match ← Program.ask (.get .secret ⟨ns, name⟩) with
      | .ok secret => pure (secret.apiKey name)
      | .error err =>
        pure (.error (if err.isNotFound then .secretNotFound ⟨ns, name⟩ else .store err))

end ModelKeeper
