import ModelKeeper.Chat.Error
import ModelKeeper.Cluster.Error
import ModelKeeper.Operator.Metric
import ModelKeeper.Operator.Schedule

/-!
# Failures of a pass

A `Failure` says why a pass over an object did not succeed.  It knows the message to be recorded,
when the object is due again, and whether that is of any use before the object is edited.  A failure
may be wrapped with a delay; the delay of the outermost wrapping counts, and everything else is that
of the failure inside.
-/

namespace ModelKeeper

/-- Why the key for an endpoint cannot be had. -/
inductive AuthError where
  | missingSecretRef
  | secretNotFound (key : Key)
  | emptyKey (secret : String)
  | invalidKey (secret : String)
  | store (e : AccessError)
  deriving DecidableEq, Repr

/-- Why a pass did not succeed. -/
inductive Failure where
  /-- What is wanted cannot be until it is edited. -/
  | configuration (text : String)
  | provider (e : ProviderError)
  | auth (e : AuthError)
  | chat (e : ChatError)
  | access (e : AccessError)
  /-- Something else is not there yet. -/
  | notReady (text : String)
  /-- No failure, but a wish to be called again. -/
  | requeueAfter (d : Duration)
  | delayed (d : Duration) (source : Failure)
  deriving DecidableEq, Repr

def AuthError.message : AuthError → String
  | .missingSecretRef => "endpoint has no authSecret configured"
  | .secretNotFound key => s!"auth secret {key.ns}/{key.name} not found"
  | .emptyKey secret => s!"auth secret {secret} has no apiKey or it is empty"
  | .invalidKey secret => s!"auth secret {secret} holds an apiKey that is not valid UTF-8"
  | .store e => s!"failed to read auth secret: {e.message}"

namespace Failure

def message : Failure → String
  | .configuration text => text
  | .provider e => e.message
  | .auth e => e.message
  | .chat e => e.message
  | .access e => e.message
  | .notReady text => text
  | .requeueAfter d => s!"requeue after {d.milliseconds}ms"
  | .delayed d source =>
    s!"encountered an error: {source.message}, requeue after {d.milliseconds}ms"

/-- The message that is recorded in the object. -/
def conditionMessage : Failure → String
  | .delayed _ source => source.conditionMessage
  | e => e.message

/-- The failure with this delay, in place of another one if it has one. -/
def withRequeue (d : Duration) : Failure → Failure
  | .delayed _ source => .delayed d source
  | e => .delayed d e

/-- When the object is due again. -/
def delay (intervals : Intervals) : Failure → Duration
  | .requeueAfter d => d
  | .delayed d _ => d
  | .notReady _ => intervals.short
  | _ => intervals.medium

/-- Whether the failure stays until the object is edited. -/
def isConfiguration : Failure → Bool
  | .configuration _ => true
  | .provider _ => true
  | .auth e => e = .missingSecretRef
  | .chat e => e.isConfiguration
  | .delayed _ source => source.isConfiguration
  | .access _ | .notReady _ | .requeueAfter _ => false

/-- Why the object is due again. -/
def requeueReason (e : Failure) : RequeueReason :=
  if e.isConfiguration then .configurationError else .errorBackoff

end Failure

/-- The outcome of a pass as a directive.  A pass without a directive of its own found all well; the
wish to be called again is no failure. -/
def resolve (intervals : Intervals) :
    Except Failure (Option Directive) → Except Failure Directive
  | .ok (some d) => .ok d
  | .ok none => .ok (.after intervals.long)
  | .error (.requeueAfter d) => .ok (.after d)
  | .error e => .error e

end ModelKeeper
