import ModelKeeper.Pass.Llm
import ModelKeeper.Pass.Model
import ModelKeeper.Pass.Prompt

/-!
# Passes as the scheduler sees them

`Pass.reconcile` runs one pass over an object and gives the directive or the failure.  `Pass.enter`
does the same for the scheduler: it counts the pass and gives an action; `Pass.afterFailure` says
what the scheduler does about a failure.
-/

namespace ModelKeeper.Pass

/-- The kinds that the operator works for. -/
inductive Worked where
  | llm
  | model
  | prompt
  deriving DecidableEq, Repr

/-- The kind of the objects. -/
def Worked.kind : Worked → Kind
  | .llm => .llm
  | .model => .model
  | .prompt => .prompt

/-- The pass over the object under a key. -/
def run (w : Worked) (settings : Settings) (key : Key) : Attempt Failure (Option Directive) :=
  match w with
  | .llm => Llm.run settings key
  | .model => Model.run settings key
  | .prompt => Prompt.run settings key

/-- One pass, and what follows from it. -/
def reconcile (w : Worked) (settings : Settings) (key : Key) :
    Program (Except Failure Directive) := do
  pure (resolve settings.intervals (← (run w settings key).outcome))

/-- Why a pass that did not fail is run again. -/
def requeueReason? : Directive → Option RequeueReason
  | .done => none
  | .immediate => some .immediate
  | .after _ => some .scheduled

/-- One pass for the scheduler. -/
def enter (w : Worked) (settings : Settings) (key : Key) : Program (Except Failure Action) := do
  Program.ask (.count (.reconciliations w.kind))
  let result ← reconcile w settings key
  Program.ask (.count (.reconciliationDuration w.kind))
  match result with
  | .error e => pure (.error e)
  | .ok d =>
    match requeueReason? d with
    | some reason => Program.ask (.count (.requeues reason))
    | none => pure ()
    pure (.ok d.action)

/-- What the scheduler does about a failure. -/
def afterFailure (w : Worked) (settings : Settings) (e : Failure) : Program Action := do
  Program.ask (.count (.reconciliationErrors w.kind))
  Program.ask (.count (.requeues e.requeueReason))
  pure (.requeue (e.delay settings.intervals))

end ModelKeeper.Pass
