import ModelKeeper.Json.ReadError

/-!
# Vendors of language models, and what can go wrong with them

A `Vendor` is a service that serves language models.  A `ChatError` is the reason for which a
request to one failed; `ChatError.isConfiguration` says whether trying again is of no use.
-/

namespace ModelKeeper

/-- A service that serves language models. -/
inductive Vendor where
  | openAi
  | deepSeek
  deriving DecidableEq, Repr

/-- How the exchange with a server can fail. -/
inductive HttpFailure where
  /-- No request can be made of an address and a key; maybe the address is at fault. -/
  | unbuildable (url : Option String)
  /-- No answer came from this address. -/
  | unanswered (url : String)
  /-- The answer is none that can be understood. -/
  | undecodable
  deriving DecidableEq, Repr

/-- Why a request to a vendor failed. -/
inductive ChatError where
  | emptyKey
  | unsupportedVendor (name : String)
  | invalidPayload (reason : ReadError)
  | invalidResponse (reason : ReadError)
  /-- There is no means to make requests. -/
  | client (reason : String)
  | http (vendor : Vendor) (reason : HttpFailure)
  /-- The vendor answered that the request failed. -/
  | api (vendor : Vendor) (status : Nat) (body : String)
  | noChoices (vendor : Vendor)
  deriving DecidableEq, Repr

namespace Vendor

/-- The name of a vendor. -/
def name : Vendor → String
  | .openAi => "openai"
  | .deepSeek => "deepseek"

/-- The vendor with a name. -/
def ofName (s : String) : Except ChatError Vendor :=
  if s = "openai" then .ok .openAi
  else if s = "deepseek" then .ok .deepSeek
  else .error (.unsupportedVendor s)

/-- The models that are tried if none are listed. -/
def defaultModels : Vendor → List String
  | .openAi => ["gpt-3.5-turbo", "gpt-4", "gpt-4o", "gpt-4o-mini"]
  | .deepSeek => []

end Vendor

def HttpFailure.message : HttpFailure → String
  | .unbuildable none => "builder error"
  | .unbuildable (some url) => s!"builder error for url ({url})"
  | .unanswered url => s!"error sending request for url ({url})"
  | .undecodable => "error decoding response body"

namespace ChatError

def message : ChatError → String
  | .emptyKey => "API key cannot be empty"
  | .unsupportedVendor name => s!"unsupported llm type: {name}"
  | .invalidPayload reason => s!"invalid request payload: {reason.message}"
  | .invalidResponse reason => s!"invalid response: {reason.message}"
  | .client reason => s!"failed to build HTTP client: {reason}"
  | .http vendor reason => s!"request to {vendor.name} failed: {reason.message}"
  | .api vendor status body => s!"{vendor.name} returned HTTP {status}: {body}"
  | .noChoices vendor => s!"{vendor.name} returned no choices"

/-- Whether the error stays until the object is edited. -/
def isConfiguration : ChatError → Bool
  | .emptyKey | .unsupportedVendor _ | .invalidPayload _ => true
  | _ => false

end ChatError

end ModelKeeper
