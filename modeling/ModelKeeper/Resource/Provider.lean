import ModelKeeper.Resource.Metadata

/-!
# Providers

Where a language model is served from: an endpoint somewhere else, or a worker in the cluster.
Exactly one of the two has to be given; `ProviderSpec.resolve` says which, or what is wrong.
-/

namespace ModelKeeper

/-- An endpoint outside of the cluster. -/
structure Endpoint where
  url : String
  /-- The address from inside the cluster, if it is another one. -/
  internalUrl : Option String := none
  /-- The secret that holds the key. -/
  authSecret : Option LocalReference := none
  insecure : Bool := false
  deriving DecidableEq

/-- Where a language model is served from, as written. -/
structure ProviderSpec where
  endpoint : Option Endpoint := none
  worker : Option TypedReference := none
  deriving DecidableEq

/-- Where a language model is served from. -/
inductive Provider where
  | thirdParty (endpoint : Endpoint)
  | worker (reference : TypedReference)
  deriving DecidableEq

/-- The sort of a provider, as shown by a label. -/
inductive ProviderType where
  | thirdParty
  | worker
  | unknown
  deriving DecidableEq, Repr

/-- What is wrong with a provider. -/
inductive ProviderError where
  | missing
  | ambiguous
  deriving DecidableEq, Repr

namespace Endpoint

/-- The address to call: the one from inside the cluster if there is one. -/
def baseUrl (e : Endpoint) : String :=
  match e.internalUrl with
  | some url => if url = "" then e.url else url
  | none => e.url

/-- The name of the secret that holds the key, if one is named. -/
def secretName? (e : Endpoint) : Option String :=
  match e.authSecret with
  | some r => if r.name = "" then none else some r.name
  | none => none

def codec : Codec Endpoint :=
  .record "Endpoint"
    (.cons (.required "url" .string) <|
      .cons (.optional "internalURL" .string) <|
      .cons (.optional "authSecret" LocalReference.codec) <|
      .cons (.withDefault "insecure" .bool false) .nil)
    (fun e => (e.url, e.internalUrl, e.authSecret, e.insecure, ()))
    (fun (url, internalUrl, authSecret, insecure, ()) => ⟨url, internalUrl, authSecret, insecure⟩)

end Endpoint

def ProviderType.name : ProviderType → String
  | .thirdParty => "3rdParty"
  | .worker => "worker"
  | .unknown => "unknown"

def ProviderError.message : ProviderError → String
  | .missing => "no provider configured: set exactly one of endpoint or worker"
  | .ambiguous => "ambiguous provider: endpoint and worker are both set"

def Provider.type : Provider → ProviderType
  | .thirdParty _ => .thirdParty
  | .worker _ => .worker

namespace ProviderSpec

/-- The one provider that is given. -/
def resolve (p : ProviderSpec) : Except ProviderError Provider :=
  match p.endpoint, p.worker with
  | some e, none => .ok (.thirdParty e)
  | none, some w => .ok (.worker w)
  | none, none => .error .missing
  | some _, some _ => .error .ambiguous

/-- The sort of the provider; unknown unless exactly one is given. -/
def type (p : ProviderSpec) : ProviderType :=
  match p.resolve with
  | .ok q => q.type
  | .error _ => .unknown

/-- The fields of a provider, which also stand among those of a language model. -/
def endpointField : Field (Option Endpoint) := .optional "endpoint" Endpoint.codec

def workerField : Field (Option TypedReference) := .optional "worker" TypedReference.codec

def codec : Codec ProviderSpec :=
  .record "ProviderSpec"
    (.cons endpointField <| .cons workerField .nil)
    (fun p => (p.endpoint, p.worker, ()))
    (fun (endpoint, worker, ()) => ⟨endpoint, worker⟩)

end ProviderSpec

end ModelKeeper
