import ModelKeeper.Operator.Failure
import ModelKeeper.Text.Quoted

/-!
# Chains of steps

The work for an object may be a chain of named steps, done in order until one fails.
-/

namespace ModelKeeper

/-- A step of a chain, and what it does with an input of type `α`. -/
structure Step (m : Type → Type) (α : Type) where
  apiVersion : String
  group : String
  kind : String
  handler : α → ExceptT Failure m Unit

namespace Step

variable {m : Type → Type} {α : Type}

/-- A step that looks after a claim to storage. -/
def claim (handler : α → ExceptT Failure m Unit) : Step m α :=
  ⟨"v1", "core", "PersistentVolumeClaim", handler⟩

/-- A step that looks after a set of pods. -/
def statefulSet (handler : α → ExceptT Failure m Unit) : Step m α :=
  ⟨"v1", "apps", "StatefulSet", handler⟩

/-- A step that looks after a service. -/
def service (handler : α → ExceptT Failure m Unit) : Step m α :=
  ⟨"v1", "core", "Service", handler⟩

/-- A step that looks after no one kind of objects. -/
def named (name : String) (handler : α → ExceptT Failure m Unit) : Step m α :=
  ⟨"", "", name, handler⟩

/-- The step as text. -/
def description (s : Step m α) : String :=
  "SubReconciler \x7b api_version: " ++ Quoted.text s.apiVersion ++ ", group: " ++
    Quoted.text s.group ++ ", kind: " ++ Quoted.text s.kind ++ ", .. \x7d"

end Step

namespace Chain

variable {m : Type → Type} {α : Type}

/-- The names of the steps. -/
def kinds (steps : List (Step m α)) : List String := steps.map (·.kind)

/-- The chain as text. -/
def description (steps : List (Step m α)) : String := Quoted.list (kinds steps)

/-- Does the steps in order, up to the first that fails. -/
def run [Monad m] (a : α) : List (Step m α) → ExceptT Failure m Unit
  | [] => pure ()
  | s :: steps => do
    s.handler a
    run a steps

end Chain

end ModelKeeper
