import ModelKeeper.Resource.Kind

/-!
# Metrics

What the operator counts.  `Metric.text` is the name under which a count is shown; of a duration
only the number of measurements is counted here.
-/

namespace ModelKeeper

/-- Something that is asked of a vendor. -/
inductive Operation where
  | validate
  | call
  deriving DecidableEq, Repr

/-- Why a pass is run again. -/
inductive RequeueReason where
  | immediate
  | scheduled
  | configurationError
  | errorBackoff
  deriving DecidableEq, Repr

/-- Something that is counted. -/
inductive Metric where
  | reconciliations (kind : Kind)
  | reconciliationErrors (kind : Kind)
  | reconciliationDuration (kind : Kind)
  | requeues (reason : RequeueReason)
  | provisioned (kind : Kind)
  | llmRequests (operation : Operation)
  | llmRequestErrors (operation : Operation)
  | llmRequestDuration (operation : Operation)
  deriving DecidableEq, Repr

def Operation.name : Operation → String
  | .validate => "validate"
  | .call => "call"

def RequeueReason.name : RequeueReason → String
  | .immediate => "immediate"
  | .scheduled => "scheduled"
  | .configurationError => "configuration-error"
  | .errorBackoff => "error-backoff"

/-- The name of a count, with the value of its label. -/
def Metric.text (m : Metric) : String :=
  let named (name label value : String) : String :=
    "llm_operator_" ++ name ++ "\x7b" ++ label ++ "=\"" ++ value ++ "\"\x7d"
  match m with
  | .reconciliations k => named "reconciliations_total" "kind" k.name
  | .reconciliationErrors k => named "reconciliation_errors_total" "kind" k.name
  | .reconciliationDuration k => named "reconciliation_duration_seconds_count" "kind" k.name
  | .requeues r => named "requeues_total" "reason" r.name
  | .provisioned k => named "dependent_resources_provisioned_total" "resource" k.name
  | .llmRequests o => named "llm_requests_total" "operation" o.name
  | .llmRequestErrors o => named "llm_request_errors_total" "operation" o.name
  | .llmRequestDuration o => named "llm_request_duration_seconds_count" "operation" o.name

end ModelKeeper
