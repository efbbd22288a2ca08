import ModelKeeper.Resource.Object

/-!
# Events

What the operator reports about an object while it works.
-/

namespace ModelKeeper

/-- The object that an event is about. -/
structure Subject where
  kind : Kind
  name : Option String
  ns : Option String
  uid : Option String
  deriving DecidableEq

/-- Whether an event is of the ordinary sort. -/
inductive EventType where
  | normal
  | warning
  deriving DecidableEq, Repr

/-- A report about an object. -/
structure Event where
  subject : Subject
  type : EventType
  reason : String
  message : String
  deriving DecidableEq

/-- The object as the subject of events. -/
def Object.subject {k : Kind} (o : Object k) : Subject :=
  ⟨k, o.metadata.name, o.metadata.ns, o.metadata.uid⟩

/-! ### Reasons -/

namespace EventReason

def provisionedClaim : String := "ProvisionedImageStoragePVC"
def provisionedStatefulSet : String := "ProvisionedImageStoreStatefulSet"
def provisionedService : String := "ProvisionedImageStoreService"
def waitingForStatefulSet : String := "WaitingForImageStoreStatefulSet"
def waitingForService : String := "WaitingForImageStoreService"
def modelProgressing : String := "ModelProgressing"
def modelAvailable : String := "ModelAvailable"

end EventReason

end ModelKeeper
