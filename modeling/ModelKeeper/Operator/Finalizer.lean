import ModelKeeper.Operator.Amend
import ModelKeeper.Operator.Schedule

/-!
# Finalizers

The operator puts a finalizer on every object that it works for, and takes it off when the deletion
of the object has been requested.  Where an object stands is told by its finalizers and the mark of
deletion alone (`Lifecycle.of`); only an active object is worked for (`advance`).
-/

namespace ModelKeeper

/-- Where an object stands. -/
inductive Lifecycle where
  /-- Without the finalizer. -/
  | new
  | active
  /-- Marked for deletion. -/
  | terminating
  /-- Marked for deletion, and the finalizer is gone. -/
  | gone
  deriving DecidableEq, Repr

namespace Lifecycle

/-- Where an object stands with respect to a finalizer. -/
def of {k : Kind} (o : Object k) (finalizer : String) : Lifecycle :=
  match o.finalizers.contains finalizer, o.isDeleted with
  | false, false => .new
  | true, false => .active
  | true, true => .terminating
  | false, true => .gone

def name : Lifecycle → String
  | .new => "New"
  | .active => "Active"
  | .terminating => "Terminating"
  | .gone => "Gone"

end Lifecycle

/-- The object with the finalizer at the end of its list, unless it is there. -/
def Object.addFinalizer {k : Kind} (finalizer : String) (o : Object k) : Object k × Bool :=
  if o.finalizers.contains finalizer then (o, false)
  else (o.withFinalizers (o.finalizers ++ [finalizer]), true)

/-- The object without the finalizer. -/
def Object.removeFinalizer {k : Kind} (finalizer : String) (o : Object k) : Object k × Bool :=
  if o.finalizers.contains finalizer then
    (o.withFinalizers (o.finalizers.filter (· != finalizer)), true)
  else (o, false)

/-- Puts the finalizer on the stored object. -/
def addFinalizer (k : Kind) (key : Key) (finalizer : String) (attempts : Nat) :
    Attempt AccessError (Object k) :=
  amend .body k key attempts (fun _ => Object.addFinalizer finalizer)

/-- Takes the finalizer off the stored object.  It is fine if the object has gone away. -/
def removeFinalizer (k : Kind) (key : Key) (finalizer : String) (attempts : Nat) :
    Attempt AccessError Unit :=
  .of do
    match ← (amend .body k key attempts (fun _ => Object.removeFinalizer finalizer)).outcome with
    | .ok _ => pure (.ok ())
    | .error e => pure (if e.isNotFound then .ok () else .error e)

/-- Brings an object on its way: a new one gets the finalizer, and a terminating one loses it.
There is no directive for an active one, which is to be worked for. -/
def advance {k : Kind} (o : Object k) (finalizer : String) (attempts : Nat) :
    Attempt AccessError (Option Directive) := do
  let key : Key := ⟨o.nsOrEmpty, o.nameOrEmpty⟩
  match Lifecycle.of o finalizer with
  | .new =>
    let _ ← addFinalizer k key finalizer attempts
    pure (some .immediate)
  | .terminating =>
    removeFinalizer k key finalizer attempts
    pure (some .done)
  | .gone => pure (some .done)
  | .active => pure none

end ModelKeeper
