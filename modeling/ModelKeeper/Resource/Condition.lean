import ModelKeeper.Json.Codec
import ModelKeeper.Time.Instant

/-!
# Conditions

A status tells what is the case by a list of conditions, of which the type serves as the key.
`Conditions.set` puts a condition in place of the first one of its type, or at the end;
`Conditions.get` reads one, or a blank condition if there is none of that type.

`Condition.failed` and `Condition.succeeded` compute the next `Ready` condition from the present
one.  While the outcome stays the same they return the present condition, so that the time of the
last transition stays.
-/

namespace ModelKeeper

/-- The fact that a condition records. -/
inductive ConditionType where
  | ready
  | done
  | available
  | progressing
  | replicaFailure
  | unknown
  deriving DecidableEq, Repr

instance : Inhabited ConditionType := ⟨.unknown⟩

/-- Whether the fact is the case. -/
inductive ConditionStatus where
  | isTrue
  | isFalse
  | unknown
  deriving DecidableEq, Repr

instance : Inhabited ConditionStatus := ⟨.unknown⟩

/-- A fact with its reason and times. -/
structure Condition where
  type : ConditionType := .unknown
  status : ConditionStatus := .unknown
  reason : String := ""
  message : String := ""
  /-- When the condition last changed. -/
  lastTransition : Option String := none
  /-- When the condition last became a success. -/
  lastSuccess : Option String := none
  deriving DecidableEq, Repr

/-- The conditions of a status. -/
abbrev Conditions : Type := List Condition

/-! ### Reasons -/

namespace Reason

def available : String := "Available"
def reconcileSuccess : String := "ReconcileSuccess"
def reconcileError : String := "ReconcileError"
def offline : String := "Offline"
def newReplicaSetAvailable : String := "NewReplicaSetAvailable"
def imageStoreProvisioning : String := "ImageStoreProvisioning"

end Reason

/-! ### Names -/

/-- Every condition type with its name. -/
def ConditionType.names : List (String × ConditionType) :=
  [("Ready", .ready), ("Done", .done), ("Available", .available), ("Progressing", .progressing),
    ("ReplicaFailure", .replicaFailure), ("Unknown", .unknown)]

/-- The name of a condition type. -/
def ConditionType.name : ConditionType → String
  | .ready => "Ready"
  | .done => "Done"
  | .available => "Available"
  | .progressing => "Progressing"
  | .replicaFailure => "ReplicaFailure"
  | .unknown => "Unknown"

/-- Every condition status with its name. -/
def ConditionStatus.names : List (String × ConditionStatus) :=
  [("True", .isTrue), ("False", .isFalse), ("Unknown", .unknown)]

/-- The status of a fact that is known. -/
def ConditionStatus.ofBool : Bool → ConditionStatus
  | true => .isTrue
  | false => .isFalse

def ConditionType.codec : Codec ConditionType := .variant names

def ConditionStatus.codec : Codec ConditionStatus := .variant names

def Condition.codec : Codec Condition :=
  .record "Condition"
    (.cons (.required "type" ConditionType.codec) <|
      .cons (.required "status" ConditionStatus.codec) <|
      .cons (.withDefault "reason" .string "") <|
      .cons (.withDefault "message" .string "") <|
      .cons (.optional "lastTransitionTime" .string) <|
      .cons (.optional "lastSuccessfulTime" .string) .nil)
    (fun c => (c.type, c.status, c.reason, c.message, c.lastTransition, c.lastSuccess, ()))
    (fun (type, status, reason, message, lastTransition, lastSuccess, ()) =>
      ⟨type, status, reason, message, lastTransition, lastSuccess⟩)

namespace Condition

instance : Inhabited Condition := ⟨{}⟩

/-- A condition that becomes the case now. -/
def now (time : Instant) (type : ConditionType) (status : ConditionStatus)
    (reason message : String) : Condition where
  type := type
  status := status
  reason := reason
  message := message
  lastTransition := some time.timestamp

/-- Whether the fact is the case. -/
def isTrue (c : Condition) : Bool := c.status = .isTrue

/-- The `Ready` condition after a failure: the present one if it records the same failure. -/
def failed (current : Condition) (message : String) (time : Instant) : Condition :=
  if current.type = .ready ∧ current.status = .isFalse ∧ current.message = message then current
  else
    { type := .ready
      status := .isFalse
      reason := Reason.available
      message := message
      lastTransition := some time.timestamp
      lastSuccess := current.lastSuccess }

/-- The `Ready` condition after a success: the present one if it records the same success. -/
def succeeded (current : Condition) (message : String) (time : Instant) : Condition :=
  if current.type = .ready ∧ current.status = .isTrue ∧ current.reason = Reason.available ∧
      current.message = message then current
  else
    { type := .ready
      status := .isTrue
      reason := Reason.available
      message := message
      lastTransition := some time.timestamp
      lastSuccess := some time.timestamp }

end Condition

namespace Conditions

/-- The first condition of a type. -/
def find? (cs : Conditions) (type : ConditionType) : Option Condition :=
  List.find? (fun c => c.type = type) cs

/-- The first condition of a type, or a blank one. -/
def get (cs : Conditions) (type : ConditionType) : Condition :=
  (cs.find? type).getD {}

/-- Whether there is a condition of a type. -/
def has (cs : Conditions) (type : ConditionType) : Bool := (cs.find? type).isSome

/-- The conditions with `new` in place of the first one of its type, or at the end. -/
def set (new : Condition) : Conditions → Conditions
  | [] => [new]
  | c :: cs => if c.type = new.type then new :: cs else c :: set new cs

end Conditions

end ModelKeeper
