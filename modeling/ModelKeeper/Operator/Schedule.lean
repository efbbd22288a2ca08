/-!
# When an object is looked at again

A pass over an object ends with a `Directive`, which says when the next pass is due.  The operator
has three `Intervals` for this: a short one while it waits for something, a medium one after a
failure and a long one while all is well.
-/

namespace ModelKeeper

/-- A span of time. -/
structure Duration where
  seconds : Nat
  nanos : Nat := 0
  deriving DecidableEq, Repr, Inhabited

namespace Duration

/-- A span with its nanoseconds below a second. -/
def of (seconds nanos : Nat) : Duration :=
  ⟨seconds + nanos / 1000000000, nanos % 1000000000⟩

/-- No time at all. -/
def zero : Duration := ⟨0, 0⟩

/-- The whole milliseconds of a span. -/
def milliseconds (d : Duration) : Nat := d.seconds * 1000 + d.nanos / 1000000

end Duration

/-- The spans after which an object is looked at again. -/
structure Intervals where
  short : Duration := ⟨3, 0⟩
  medium : Duration := ⟨60, 0⟩
  long : Duration := ⟨3600, 0⟩
  deriving DecidableEq, Repr

instance : Inhabited Intervals := ⟨{}⟩

/-- When the next pass over an object is due. -/
inductive Directive where
  /-- When the object changes. -/
  | done
  | immediate
  | after (d : Duration)
  deriving DecidableEq, Repr

/-- The name of a directive among the reasons for another pass. -/
def Directive.reason : Directive → String
  | .done => "done"
  | .immediate => "immediate"
  | .after _ => "scheduled"

/-- What is left of a directive for the scheduler. -/
inductive Action where
  | awaitChange
  | requeue (d : Duration)
  deriving DecidableEq, Repr

/-- The action that a directive asks for. -/
def Directive.action : Directive → Action
  | .done => .awaitChange
  | .immediate => .requeue .zero
  | .after d => .requeue d

end ModelKeeper
