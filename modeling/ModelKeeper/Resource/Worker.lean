import ModelKeeper.Resource.Condition
import ModelKeeper.Resource.Metadata

/-!
# Workers

A worker in the cluster that serves a language model.  Workers are looked after elsewhere; here only
their `Ready` condition is read.
-/

namespace ModelKeeper

/-- A worker as it is wanted. -/
structure WorkerSpec where
  model : Option TypedReference := none
  replicas : Option Int := none
  deriving DecidableEq

/-- What is known about a worker. -/
structure WorkerStatus where
  conditions : Conditions := []
  deriving DecidableEq

def WorkerSpec.codec : Codec WorkerSpec :=
  .record "WorkerSpec"
    (.cons (.optional "model" TypedReference.codec) <|
      .cons (.optional "replicas" .int32) .nil)
    (fun s => (s.model, s.replicas, ()))
    (fun (model, replicas, ()) => ⟨model, replicas⟩)

namespace WorkerStatus

def codec : Codec WorkerStatus :=
  .record "WorkerStatus"
    (.cons (.withDefault "conditions" (.list Condition.codec) []) .nil)
    (fun s => (s.conditions, ()))
    (fun (conditions, ()) => ⟨conditions⟩)

/-- Whether the worker can serve. -/
def isReady (s : WorkerStatus) : Bool := (s.conditions.get .ready).isTrue

/-- Whether the worker has been switched off. -/
def isOffline (s : WorkerStatus) : Bool :=
  let c := s.conditions.get .ready
  c.type = .ready && c.status = .isFalse && c.reason = Reason.offline

end WorkerStatus

end ModelKeeper
